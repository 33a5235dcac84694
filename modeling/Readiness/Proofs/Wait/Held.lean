import Readiness.Proofs.Delivery.Once
import Readiness.Proofs.Machine.Fares

/-! Who holds a wait: what could still call a listener that ends it.

A wait that nothing holds any more is never held again, so the way in which it has ended stays the
same.
-/

namespace Readiness

open List

variable {event : Event} {settlement : Settlement}

/-- A listener that a frame keeps and that ends a wait is one that the frame sends for. -/
theorem Frame.Known.sends_of_listeners {engine : Engine} {frame : Frame}
    (known : frame.Known engine) {listener : Listener} (kept : listener ∈ frame.listeners)
    {w : WaitRef} (about : listener.wait? = some w) :
    ∃ event entry, (event, ⟨listener, entry⟩) ∈ frame.sends := by
  -- A frame that arms a gate keeps a listener that it does not send for, but that ends no wait.
  have plain : ∀ onFailure : Option Listener, frame.onFailure? = onFailure →
      listener ∉ onFailure.toList := by
    intro onFailure same member
    have free := known.plain listener (same ▸ Option.mem_toList.mp member)
    rw [about] at free
    cases free
  cases frame with
  | announce e transition entries =>
    obtain ⟨entry, listed, rfl⟩ := mem_map.mp kept
    exact ⟨_, _, mem_map.mpr ⟨entry, listed, rfl⟩⟩
  | deliver batch =>
    obtain ⟨delivery, listed, rfl⟩ := mem_map.mp kept
    exact ⟨_, _, mem_map.mpr ⟨delivery, listed, rfl⟩⟩
  | guard serial event delivery =>
    obtain rfl := mem_singleton.mp kept
    exact ⟨_, _, mem_singleton_self _⟩
  | arm g position todo onFailure => exact absurd kept (plain onFailure rfl)
  | examine g position dependency todo onFailure => exact absurd kept (plain onFailure rfl)
  | _ => cases kept

/-- A frame keeps the listeners that it sends for. -/
theorem Frame.listeners_of_sends {frame : Frame} {delivery : Delivery}
    (sent : (event, delivery) ∈ frame.sends) : delivery.listener ∈ frame.listeners := by
  -- Three kinds of frames send for anybody, and each keeps the listeners that it sends for.
  cases frame with
  | announce e transition entries =>
    obtain ⟨entry, listed, same⟩ := mem_map.mp sent
    cases same
    exact mem_map.mpr ⟨entry, listed, rfl⟩
  | deliver batch =>
    obtain ⟨_, listed, same⟩ := mem_map.mp sent
    cases same
    exact mem_map.mpr ⟨_, listed, rfl⟩
  | guard serial event delivery =>
    cases mem_singleton.mp sent
    exact mem_singleton_self _
  | _ => cases sent

namespace Subscriptions

/-- The entries are those that are listed, without their statuses. -/
theorem mem_entries_iff {subscriptions : Subscriptions} {entry : Entry} :
    entry ∈ subscriptions.entries ↔ ∃ filed ∈ subscriptions.listing, filed.2 = entry := by
  simp only [entries, listing, mem_flatMap, mem_map]
  constructor
  · rintro ⟨bucket, among, member⟩
    exact ⟨(bucket.1, entry), ⟨bucket, among, entry, member, rfl⟩, rfl⟩
  · rintro ⟨_, ⟨bucket, among, entry, member, rfl⟩, rfl⟩
    exact ⟨bucket, among, member⟩

end Subscriptions

namespace Machine

variable {machine next final : Machine} {w : WaitRef}

/-- Something could still call a listener that ends a wait. -/
inductive Holds (machine : Machine) (w : WaitRef) : Prop where
  | sent {event : Event} {delivery : Delivery} (sends : machine.Sends event delivery)
    (about : delivery.listener.wait? = some w)
  | listed {e : ExecutableRef} {filed : Status × Entry} (alive : machine.isAlive e = true)
    (listed : filed ∈ (machine.engine.executable e).subscriptions.listing)
    (about : filed.2.listener.wait? = some w)

/-- A wait is held exactly if a listener is that ends it. -/
theorem Sound.holds_iff (sound : machine.Sound) :
    machine.Holds w ↔ ∃ listener ∈ machine.heldListeners, listener.wait? = some w := by
  constructor
  · -- Whatever could call the listener keeps it.
    intro holds
    cases holds with
    | @sent event delivery sends about =>
      refine ⟨delivery.listener, ?_, about⟩
      simp only [heldListeners, mem_append]
      cases sends with
      | waiting waits _ listed =>
        exact .inl (.inr (mem_flatMap.mpr ⟨_, mem_waitingBatches_of_mem waits,
          mem_map_of_mem listed⟩))
      | underway stands listed =>
        exact .inr (mem_flatMap.mpr ⟨_, stands, Frame.listeners_of_sends listed⟩)
    | @listed e filed alive listed about =>
      refine ⟨filed.2.listener, ?_, about⟩
      simp only [heldListeners, mem_append]
      refine .inl (.inl (mem_flatMap.mpr ⟨e, by simpa [isAlive] using alive, ?_⟩))
      exact mem_map_of_mem (Subscriptions.mem_entries_iff.mpr ⟨filed, listed, rfl⟩)
  · -- Listeners are kept in three places, and in each of them only for a call.
    rintro ⟨listener, held, about⟩
    simp only [heldListeners, mem_append] at held
    rcases held with (entry | batch) | frame
    · obtain ⟨e, living, kept⟩ := mem_flatMap.mp entry
      obtain ⟨entry, member, rfl⟩ := mem_map.mp kept
      obtain ⟨filed, listed, rfl⟩ := Subscriptions.mem_entries_iff.mp member
      exact .listed (by simpa [isAlive] using living) listed about
    · obtain ⟨batch, waiting, kept⟩ := mem_flatMap.mp batch
      obtain ⟨delivery, listed, rfl⟩ := mem_map.mp kept
      obtain ⟨h, waits⟩ := mem_waitingBatches waiting
      exact .sent (.waiting waits rfl listed) about
    · obtain ⟨frame, stands, kept⟩ := mem_flatMap.mp frame
      obtain ⟨event, entry, listed⟩ := (sound.frames frame stands).sends_of_listeners kept about
      exact .sent (.underway stands listed) about

/-- A wait that was not reported on has ended unless something holds it. -/
theorem Reachable.settlement?_of_unreported (reachable : machine.Reachable)
    (unreported : (machine.engine.wait w).report = none) :
    (machine.Holds w ∧ machine.settlement? w = none) ∨
      ¬ machine.Holds w ∧ machine.settlement? w = some .destroyed := by
  -- The machine looks for the two listeners by name.
  have held : (machine.heldListeners.contains (.waitReady w) ||
      machine.heldListeners.contains (.waitFailed w)) = true ↔ machine.Holds w := by
    rw [reachable.sound.holds_iff]
    simp only [Bool.or_eq_true, contains_iff_mem, Listener.wait?_eq_some_iff, and_or_left,
      exists_or, exists_eq_right]
  simp only [settlement?, unreported, ← held]
  split
  · exact .inl ⟨‹_›, rfl⟩
  · exact .inr ⟨‹_›, rfl⟩

/-- A wait has not ended as long as nothing is reported and something holds it. -/
theorem Reachable.settlement?_eq_none_iff (reachable : machine.Reachable) :
    machine.settlement? w = none ↔ (machine.engine.wait w).report = none ∧ machine.Holds w := by
  cases reported : (machine.engine.wait w).report with
  | some settlement => simp [settlement?, reported]
  | none =>
    rcases reachable.settlement?_of_unreported reported with ⟨holds, same⟩ | ⟨free, same⟩
    · simp [same, holds]
    · simp [same, free]

/-- A wait has ended as was reported, or as destroyed if nothing was and nothing holds it. -/
theorem Reachable.settlement?_eq_some_iff (reachable : machine.Reachable) :
    machine.settlement? w = some settlement ↔
      (machine.engine.wait w).report = some settlement ∨
        (machine.engine.wait w).report = none ∧ ¬ machine.Holds w ∧ settlement = .destroyed := by
  cases reported : (machine.engine.wait w).report with
  | some settlement => simp [settlement?, reported]
  | none =>
    rcases reachable.settlement?_of_unreported reported with ⟨holds, same⟩ | ⟨free, same⟩
    · simp [same, holds]
    · simp [same, free, eq_comm]

/-- No listener ends a wait that has not begun. -/
structure Timely (machine : Machine) : Prop where
  listed : ∀ e, ∀ filed ∈ (machine.engine.executable e).subscriptions.listing,
    ∀ w ∈ filed.2.listener.wait?, w < machine.engine.waits.length
  sent : ∀ event delivery, machine.Sends event delivery → ∀ w ∈ delivery.listener.wait?,
    w < machine.engine.waits.length

section

variable (reachable : machine.Reachable)
include reachable

/-- A call that ends a wait has been on its way before, is due for an entry on a transition, or is
sent as the wait begins. -/
theorem Reachable.sends_cases (step : Next machine next) {delivery : Delivery}
    (sent : next.Sends event delivery) (about : delivery.listener.wait? = some w) :
    machine.Sends event delivery ∨
    (∃ filed ∈ (machine.engine.executable event.source).subscriptions.listing,
      machine.control = .perform (.setStatus event.source event.status) ∧
      (machine.engine.executable event.source).moves event.status = true ∧
      (filed.1 = .null ∨ filed.1 = event.status) ∧ delivery = filed.2.delivery) ∨
    (w = machine.engine.waits.length ∧ delivery.listener = .waitReady w ∧
      next.engine.waits = machine.engine.waits ++ [⟨event.source, none⟩] ∧
      (machine.engine.executable event.source).isReady = true ∧
      event.status = (machine.engine.executable event.source).readyStatus) := by
  rcases reachable.sends_of_next step sent with old | issued
  · exact .inl old
  · cases issued with
    | @due e status entry asked moves due =>
      have numbered := reachable.numbered e
      obtain ⟨key, listed⟩ := numbered.keyed.mem_listing_of_mem_due due
      exact .inr (.inl ⟨(key, entry), listed, asked, moves,
        (numbered.mem_due_iff listed).mp due, rfl⟩)
    | request asked immediate =>
      -- Nobody can ask for readiness on behalf of a wait.
      have fits := reachable.sound.control
      rw [asked] at fits
      have free := fits.1.plain _ (mem_cons_self ..) fun _ same => by cases same
      rw [free] at about
      cases about
    | wait turn begun ready =>
      obtain rfl := Option.some.inj about
      exact .inr (.inr ⟨rfl, rfl, begun, ready, rfl⟩)

/-- In every state of every run no listener ends a wait that has not begun. -/
theorem Reachable.timely : machine.Timely := by
  induction reachable with
  | refl =>
    refine ⟨fun e filed listed => (by cases listed), fun event delivery sent => ?_⟩
    cases sent with
    | waiting waits => cases waits
    | underway stands => cases stands
  | @step machine next run step ih =>
    have grown := (Reachable.writes_next run step).waits_le
    refine ⟨fun e filed listed w about => ?_, fun event delivery sent w about => ?_⟩
    · -- An entry is new only along with the wait that it ends.
      rcases (Reachable.fares_next run step e).mem_listing listed about with old | ⟨rfl, begun⟩
      · exact Nat.lt_of_lt_of_le (ih.listed e filed old w about) grown
      · rw [show next.engine.waits = _ from begun]
        simp
    · rcases Reachable.sends_cases run step sent about with
        old | ⟨filed, listed, _, _, _, rfl⟩ | ⟨rfl, _, begun, _⟩
      · exact Nat.lt_of_lt_of_le (ih.sent event delivery old w about) grown
      · exact Nat.lt_of_lt_of_le (ih.listed _ _ listed w about) grown
      · rw [begun]
        simp

/-- A wait that nothing holds is never held again. -/
theorem Reachable.holds_of_next (step : Next machine next) (begun : w < machine.engine.waits.length)
    (holds : next.Holds w) : machine.Holds w := by
  cases holds with
  | sent sends about =>
    rcases reachable.sends_cases step sends about with
      old | ⟨filed, listed, asked, _, _, rfl⟩ | ⟨rfl, _⟩
    · exact .sent old about
    · -- Whoever is due for a call was held by its entry.
      exact .listed (isAlive_of_perform asked (mem_singleton_self _)) listed about
    · exact absurd begun (Nat.lt_irrefl _)
  | @listed e filed alive listed about =>
    rcases (reachable.fares_next step e).mem_listing listed about with old | ⟨rfl, _⟩
    · -- The executable with the entry was alive before, since a new one has no entries.
      rcases reachable.isAlive_of_next step alive with before | beyond
      · exact .listed before old about
      · rw [Engine.executable_of_ge beyond] at old
        cases old
    · exact absurd begun (Nat.lt_irrefl _)

/-- The call of a listener that ends a wait is on its way until it has returned. -/
theorem Reachable.sends_of_invoke {listener : Listener}
    (asked : machine.control = .perform (.invoke listener event))
    (about : listener.wait? = some w) : ∃ entry, machine.Sends event ⟨listener, entry⟩ := by
  have fits := reachable.sound.control
  rw [asked] at fits
  -- The client cannot call such a listener itself, so there is a guard on top.
  have engine : listener.isClient = false := by cases listener <;> first | rfl | cases about
  obtain ⟨serial, entry, rest, stands⟩ := fits.2.2.2.1 listener event rfl engine
  have top : Frame.guard serial event ⟨listener, entry⟩ ∈ machine.stack := by
    rw [stands]; exact mem_cons_self ..
  exact ⟨entry, .underway top (mem_singleton_self _)⟩

/-- A wait that has ended stays as it has ended: a report stays, and none comes once nothing holds
the wait. -/
theorem Reachable.settlement?_next (step : Next machine next)
    (begun : w < machine.engine.waits.length) (ended : machine.settlement? w = some settlement) :
    next.settlement? w = some settlement := by
  have later : next.Reachable := .step reachable step
  rw [reachable.settlement?_eq_some_iff] at ended
  rw [later.settlement?_eq_some_iff]
  rcases (reachable.writes_next step).wait_cases begun with
    same | ⟨listener, event, verdict, asked, about, told⟩
  · rw [show next.engine.wait w = _ from same]
    exact ended.imp_right fun ⟨unreported, free, last⟩ =>
      ⟨unreported, fun holds => free (reachable.holds_of_next step begun holds), last⟩
  · rw [show next.engine.wait w = _ from told]
    rcases ended with reported | ⟨_, free, _⟩
    · exact .inl (by rw [reported]; rfl)
    · -- A report would come from a call, and a call on its way would hold the wait.
      have ends : listener.wait? = some w := Listener.wait?_of_verdict? about
      obtain ⟨entry, sent⟩ := reachable.sends_of_invoke asked ends
      exact absurd (.sent sent ends) free

/-- A wait that has ended stays as it has ended, however the run goes on. -/
theorem Reachable.settlement?_reaches (begun : w < machine.engine.waits.length)
    (run : machine.Reaches final) (ended : machine.settlement? w = some settlement) :
    final.settlement? w = some settlement := by
  -- That the wait has begun is part of what every step keeps.
  suffices kept : w < final.engine.waits.length ∧ final.settlement? w = some settlement from kept.2
  induction run with
  | refl => exact ⟨begun, ended⟩
  | @step state next early step ih =>
    have reached : state.Reachable := Reaches.trans reachable early
    exact ⟨Nat.lt_of_lt_of_le ih.1 (reached.writes_next step).waits_le,
      reached.settlement?_next step ih.1 ih.2⟩

end

end Machine

end Readiness
