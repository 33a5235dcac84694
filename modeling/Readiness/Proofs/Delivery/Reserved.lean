import Readiness.Proofs.Delivery.Sequence
import Readiness.Proofs.Machine.Fares

/-! Listeners that are reserved for some entries of one executable.

Whatever they are called with comes from these entries. If the entries are a group, it comes from
one transition; if there are none, it comes from what was under way before.
-/

namespace Readiness

open List

variable {journal : List Occurrence} {news : List Call}

/-- The calls of some listeners so far. -/
def callsTo (among : List Listener) (journal : List Occurrence) : List Call :=
  (callsIn journal).filter fun call => decide (call.delivery.listener ∈ among)

theorem sublist_of_callsTo {among : List Listener} {before : List Call}
    (made : callsTo among journal = before ++ news) : news.Sublist (callsIn journal) := by
  have part : (before ++ news).Sublist (callsIn journal) := by
    rw [← made]
    exact filter_sublist
  exact (sublist_append_right before news).trans part

section

variable {among : List Listener} {given : Surroundings} {traffic next : Traffic}

/-- A step calls none of some listeners, or one of them for a batch that is being delivered. -/
theorem Surroundings.Step.callsTo_cases (step : given.Step traffic next) (among : List Listener) :
    callsTo among next.journal = callsTo among traffic.journal ∨
      ∃ batch delivery, .deliver batch ∈ traffic.calls ∧ delivery ∈ batch.deliveries ∧
        delivery.listener ∈ among ∧ callsTo among next.journal =
          callsTo among traffic.journal ++ [⟨batch.serial, batch.event, delivery⟩] := by
  -- A step makes one call at most, for the batch on top.
  rcases step.callsIn_cases with same | ⟨batch, delivery, others, calls, top, left, _, called⟩
  · exact .inl (by rw [callsTo, same, callsTo])
  · simp only [callsTo, called, filter_append]
    by_cases own : delivery.listener ∈ among
    · refine .inr ⟨batch, delivery, by rw [top]; exact mem_cons_self .., ?_, own, ?_⟩
      · rw [left]
        exact mem_cons_self ..
      · simp [own]
    · exact .inl (by simp [own])

/-- Whatever is on its way to some listeners is in one batch. -/
def Traffic.OneBatch (traffic : Traffic) (among : List Listener) (serial : Nat) : Prop :=
  traffic.Bound fun batch _ delivery => delivery.listener ∈ among → batch = some serial

end

/-- One of the entries for a status asks for a call. -/
def AsksFor (entries : List (Status × Entry)) (status : Status) (delivery : Delivery) : Prop :=
  ∃ filed ∈ entries, filed.1 = status ∧ delivery = filed.2.delivery

/-- Calls that one entry each is told of are no more than the entries that wait for the event. -/
theorem length_le_of_asksFor {entries : List (Status × Entry)} {event : Event}
    (made : news.Sublist (callsIn journal))
    (fits : ∀ call ∈ news, call.event = event ∧ AsksFor entries event.status call.delivery)
    (once : ∀ filed ∈ entries, (toldTo event.source filed.2.sequence journal).length ≤ 1) :
    news.length ≤ entries.countP fun filed => decide (filed.1 = event.status) := by
  -- The calls have different entries, since an entry with two calls would have been told two
  -- things.
  have apart : (news.map (·.delivery.entry)).Nodup := by
    rw [nodup_iff_count_le_one]
    intro number
    by_cases member : number ∈ news.map (·.delivery.entry)
    · obtain ⟨call, called, rfl⟩ := mem_map.mp member
      obtain ⟨_, filed, listed, _, same⟩ := fits call called
      have alike : ∀ other ∈ news, (other.delivery.entry == call.delivery.entry) =
          other.isFor event.source filed.2.sequence := by
        intro other also
        rw [Call.isFor, (fits other also).1, same]
        simp [Entry.delivery]
      calc (news.map (·.delivery.entry)).count call.delivery.entry
        _ = news.countP (·.isFor event.source filed.2.sequence) := by
          rw [List.count, countP_map]
          exact countP_congr fun other also => by rw [Function.comp, alike other also]
        _ ≤ (callsIn journal).countP (·.isFor event.source filed.2.sequence) := made.countP_le
        _ = (toldTo event.source filed.2.sequence journal).length := by
          rw [toldTo, length_map, countP_eq_length_filter]
        _ ≤ 1 := once filed listed
    · rw [count_eq_zero_of_not_mem member]
      exact Nat.zero_le 1
  -- Each of them is the number of an entry for the status.
  have covered : news.map (·.delivery.entry) ⊆
      (entries.filter fun filed => decide (filed.1 = event.status)).map fun filed =>
        some filed.2.sequence := by
    intro number member
    obtain ⟨call, called, rfl⟩ := mem_map.mp member
    obtain ⟨_, filed, listed, key, same⟩ := fits call called
    rw [same]
    exact mem_map_of_mem (mem_filter.mpr ⟨listed, decide_eq_true key⟩)
  have bound := (subperm_of_subset apart covered).length_le
  rwa [length_map, length_map, ← countP_eq_length_filter] at bound

namespace Machine

variable {machine later : Machine} {among : List Listener} {e : ExecutableRef}
  {entries : List (Status × Entry)} {event : Event} {delivery : Delivery}

theorem callsTo_traffic (machine : Machine) (among : List Listener) :
    callsTo among machine.traffic.journal = callsTo among machine.engine.journal.toList := by
  rw [callsTo, callsIn_traffic, callsTo]

/-- A step of a run calls none of some listeners, or one of them whose call is on its way. -/
theorem Sound.callsTo_next (sound : machine.Sound) (step : Next machine later)
    (among : List Listener) :
    callsTo among later.engine.journal.toList = callsTo among machine.engine.journal.toList ∨
      ∃ call, machine.Sends call.event call.delivery ∧ call.delivery.listener ∈ among ∧
        callsTo among later.engine.journal.toList =
          callsTo among machine.engine.journal.toList ++ [call] := by
  have rule := (sound.rules_next step (.refl _)).callsTo_cases among
  rw [callsTo_traffic, callsTo_traffic] at rule
  rcases rule with same | ⟨batch, delivery, current, listed, own, called⟩
  · exact .inl same
  · exact .inr ⟨_, .underway (mem_of_mem_filter current) (mem_map_of_mem listed), own,
      called⟩

/-- Where no batch waits and no frame makes a call, nothing is on its way. -/
theorem not_sends_of_idle (quiet : machine.waitingBatches = [])
    (idle : machine.stack.flatMap Frame.sends = []) : ¬ machine.Sends event delivery := by
  intro sent
  cases sent with
  | waiting waits =>
    have member := mem_waitingBatches_of_mem waits
    rw [quiet] at member
    cases member
  | underway stands listed =>
    rw [flatMap_eq_nil_iff.mp idle _ stands] at listed
    cases listed

/-- Some listeners have entries of one executable and no others, and none of them asks for
readiness. -/
structure Reserves (machine : Machine) (among : List Listener) (e : ExecutableRef)
    (entries : List (Status × Entry)) : Prop where
  /-- They have no other entries. -/
  only : ∀ x, ∀ filed ∈ (machine.engine.executable x).subscriptions.listing,
    filed.2.listener ∈ among → x = e ∧ filed ∈ entries
  /-- None of them asks to be called if an executable is ready. -/
  foreign : ∀ request ∈ machine.readyRequest?, request.success ∉ among

/-- What a reservation comes down to, for the executables that are built. -/
theorem reserves_iff (machine : Machine) (among : List Listener) (e : ExecutableRef)
    (entries : List (Status × Entry)) :
    machine.Reserves among e entries ↔
      (∀ x < machine.engine.executables.length,
        ∀ filed ∈ (machine.engine.executable x).subscriptions.listing,
          filed.2.listener ∈ among → x = e ∧ filed ∈ entries) ∧
      ∀ request ∈ machine.readyRequest?, request.success ∉ among := by
  constructor
  · rintro ⟨only, foreign⟩
    exact ⟨fun x _ => only x, foreign⟩
  · rintro ⟨only, foreign⟩
    refine ⟨fun x filed member => ?_, foreign⟩
    by_cases built : x < machine.engine.executables.length
    · exact only x built filed member
    · -- What has not been built has no entries.
      rw [Engine.executable_of_ge (Nat.le_of_not_lt built)] at member
      cases member

/-- Whether listeners are reserved can be checked. -/
instance (machine : Machine) (among : List Listener) (e : ExecutableRef)
    (entries : List (Status × Entry)) : Decidable (machine.Reserves among e entries) :=
  letI (x : ExecutableRef) :
      Decidable (∀ filed ∈ (machine.engine.executable x).subscriptions.listing,
        filed.2.listener ∈ among → x = e ∧ filed ∈ entries) := inferInstance
  decidable_of_iff _ (machine.reserves_iff among e entries).symm

theorem Reserves.narrow (reserves : machine.Reserves among e entries)
    {fewer : List (Status × Entry)}
    (enough : ∀ filed ∈ entries, filed.2.listener ∈ among → filed ∈ fewer) :
    machine.Reserves among e fewer where
  only := by
    intro x filed member own
    obtain ⟨here, listed⟩ := reserves.only x filed member own
    exact ⟨here, enough filed listed own⟩
  foreign := reserves.foreign

/-- A step sends nothing to reserved listeners but what is due to their entries. -/
theorem Reserves.sends_of_next (reserves : machine.Reserves among e entries)
    (clients : ∀ listener ∈ among, listener.isClient = true) (reachable : machine.Reachable)
    (step : Next machine later) (sent : later.Sends event delivery)
    (own : delivery.listener ∈ among) :
    machine.Sends event delivery ∨
      ∃ status, machine.control = .perform (.setStatus e status) ∧
        (machine.engine.executable e).moves status = true ∧
        event = ⟨e, status, (machine.engine.executable e).status⟩ ∧
        ∃ filed ∈ entries, filed ∈ (machine.engine.executable e).subscriptions.listing ∧
          (filed.1 = .null ∨ filed.1 = status) ∧ delivery = filed.2.delivery := by
  rcases reachable.sends_of_next step sent with old | issued
  · exact .inl old
  · cases issued with
    | @due x status entry asked moves due =>
      have numbered := reachable.numbered x
      obtain ⟨key, listed⟩ := numbered.keyed.mem_listing_of_mem_due due
      obtain ⟨rfl, reserved⟩ := reserves.only x _ listed own
      exact .inr ⟨status, asked, moves, rfl, _, reserved, listed,
        (numbered.mem_due_iff listed).mp due, rfl⟩
    | @request x request asked immediate =>
      -- A request for readiness on behalf of the listeners is excluded.
      refine absurd own (reserves.foreign request ?_)
      rw [readyRequest?, asked]
      rfl
    | wait =>
      -- The listener of a wait is the engine's own.
      cases clients _ own

/-- How far reserved listeners have come. -/
inductive Settling (among : List Listener) (e : ExecutableRef) (entries : List (Status × Entry))
    (before : List Call) (machine : Machine) : Prop where
  | pending
    (unsent : ∀ event delivery, machine.Sends event delivery → delivery.listener ∉ among)
    (same : callsTo among machine.engine.journal.toList = before)
  | told (event : Event) (source : event.source = e) (news : List Call)
    (unlisted : ∀ x, ∀ filed ∈ (machine.engine.executable x).subscriptions.listing,
      filed.2.listener ∉ among)
    (sent : ∀ other delivery, machine.Sends other delivery → delivery.listener ∈ among →
      other = event ∧ AsksFor entries event.status delivery)
    (made : callsTo among machine.engine.journal.toList = before ++ news)
    (fits : ∀ call ∈ news, call.event = event ∧ AsksFor entries event.status call.delivery)

section Group

variable {g : Nat}

/-- If a transition calls one entry of a group, all the entries of the group are gone after it. -/
theorem Reachable.not_mem_listing_of_due (reachable : machine.Reachable) {status : Status}
    (asked : machine.control = .perform (.setStatus e status))
    (moves : (machine.engine.executable e).moves status = true) (step : Next machine later)
    {filed other : Status × Entry}
    (listed : filed ∈ (machine.engine.executable e).subscriptions.listing)
    (due : filed.1 = .null ∨ filed.1 = status) (grouped : filed.2.group = some g)
    (alike : other.2.group = some g) :
    other ∉ (later.engine.executable e).subscriptions.listing := by
  intro member
  rw [show (later.engine.executable e).subscriptions = _ from
    (reachable.sound.move_next asked moves step).1] at member
  exact (Subscriptions.mem_settle_iff.mp member).2.2 g alike filed.2
    (((reachable.numbered e).mem_due_iff listed).mpr due) grouped

variable {before : List Call}

/-- The listeners stay pending until a transition calls one of their entries, which leaves them
without entries. -/
theorem Reserves.settling_of_unsent (reserves : machine.Reserves among e entries)
    (clients : ∀ listener ∈ among, listener.isClient = true) (reachable : machine.Reachable)
    (step : Next machine later) (reserved : later.Reserves among e entries)
    (grouped : ∀ filed ∈ entries, filed.2.group = some g ∧ filed.1 ≠ .null)
    (unsent : ∀ event delivery, machine.Sends event delivery → delivery.listener ∉ among)
    (same : callsTo among machine.engine.journal.toList = before) :
    Settling among e entries before later := by
  have silent : callsTo among later.engine.journal.toList = before := by
    rcases reachable.sound.callsTo_next step among with still | ⟨call, sent, own, _⟩
    · exact still.trans same
    · exact absurd own (unsent _ _ sent)
  have issued {event : Event} {delivery : Delivery} (sent : later.Sends event delivery)
      (own : delivery.listener ∈ among) :=
    (reserves.sends_of_next clients reachable step sent own).resolve_left
      fun old => unsent _ _ old own
  by_cases telling : ∃ event delivery, later.Sends event delivery ∧ delivery.listener ∈ among
  · obtain ⟨event, delivery, sent, own⟩ := telling
    obtain ⟨status, asked, moves, rfl, filed, reserved_entry, listed, due, rfl⟩ := issued sent own
    refine .told ⟨e, status, (machine.engine.executable e).status⟩ rfl []
      (fun x other member mine => ?_) (fun event₂ call on mine => ?_)
      (by rw [silent, append_nil]) (fun _ member => by cases member)
    · obtain ⟨rfl, also⟩ := reserved.only x other member mine
      exact reachable.not_mem_listing_of_due asked moves step listed due
        (grouped filed reserved_entry).1 (grouped other also).1 member
    · -- Whatever else is sent now is sent by the same transition.
      obtain ⟨status₂, again, _, rfl, other, also, _, due_now, rfl⟩ := issued on mine
      obtain rfl : status = status₂ := by simpa [asked] using again
      exact ⟨rfl, other, also, due_now.resolve_left (grouped other also).2, rfl⟩
  · exact .pending (fun event delivery sent own => telling ⟨event, delivery, sent, own⟩) silent

/-- The listeners of one group are told of one event at most. -/
theorem Settling.next (settling : Settling among e entries before machine)
    (clients : ∀ listener ∈ among, listener.isClient = true) (reachable : machine.Reachable)
    (step : Next machine later) (reserves : machine.Reserves among e entries)
    (reserved : later.Reserves among e entries)
    (used : g < (machine.engine.executable e).subscriptions.nextGroup)
    (grouped : ∀ filed ∈ entries, filed.2.group = some g ∧ filed.1 ≠ .null) :
    Settling among e entries before later := by
  cases settling with
  | pending unsent same =>
    exact reserves.settling_of_unsent clients reachable step reserved grouped unsent same
  | told event source news unlisted sent made fits =>
    -- The number of the group is used up, so no entry of it can come back.
    have kept : ∀ x, ∀ filed ∈ (later.engine.executable x).subscriptions.listing,
        filed.2.listener ∉ among := by
      intro x filed member own
      obtain ⟨rfl, also⟩ := reserved.only x filed member own
      exact unlisted x filed ((reachable.fares_next step x).mem_listing_of_group member
        (grouped filed also).1 used) own
    have bound : ∀ other delivery, later.Sends other delivery → delivery.listener ∈ among →
        other = event ∧ AsksFor entries event.status delivery := by
      intro other delivery on own
      rcases reserves.sends_of_next clients reachable step on own with
        old | ⟨_, _, _, _, filed, _, listed, _, rfl⟩
      · exact sent other delivery old own
      · exact absurd own (unlisted e filed listed)
    rcases reachable.sound.callsTo_next step among with still | ⟨call, on, own, called⟩
    · exact .told event source news kept bound (still.trans made) fits
    · refine .told event source (news ++ [call]) kept bound
        (by rw [called, made, append_assoc]) fun other member => ?_
      rcases mem_append.mp member with old | new
      · exact fits other old
      · obtain rfl := mem_singleton.mp new
        exact sent _ _ on own

/-- Over a whole run the listeners of one group are told of one event at most. -/
theorem ReachesWhile.settling {start : Machine}
    (run : start.ReachesWhile (·.Reserves among e entries) later) (reachable : start.Reachable)
    (clients : ∀ listener ∈ among, listener.isClient = true)
    (used : g < (start.engine.executable e).subscriptions.nextGroup)
    (grouped : ∀ filed ∈ entries, filed.2.group = some g ∧ filed.1 ≠ .null)
    (settling : Settling among e entries before start) :
    g < (later.engine.executable e).subscriptions.nextGroup ∧
      Settling among e entries before later := by
  induction run with
  | refl => exact ⟨used, settling⟩
  | step run step reserved ih =>
    have reached : Reachable _ := Reaches.trans reachable run.reaches
    exact ⟨Nat.lt_of_lt_of_le ih.1 (reached.fares_next step e).nextGroup_le,
      ih.2.next clients reached step run.holds reserved ih.1 grouped⟩

end Group

/-- What has been sent to some listeners since, and what they have been called with, is of one
batch. -/
structure FromBatch (machine : Machine) (among : List Listener) (serial : Nat)
    (before : List Call) : Prop where
  sent : machine.traffic.OneBatch among serial
  made : ∃ news, callsTo among machine.engine.journal.toList = before ++ news ∧
    ∀ call ∈ news, call.batch = serial

variable {serial : Nat} {before : List Call}

/-- What is on its way is what the machine sends. -/
theorem bound_sends (machine : Machine) : machine.traffic.Bound fun _ source delivery =>
    ∃ event : Event, event.source = source ∧ machine.Sends event delivery where
  announced := fun x transition _ stands _ listed =>
    ⟨⟨x, transition.new, transition.old⟩, rfl, .underway (mem_of_mem_filter stands)
      (mem_map_of_mem listed)⟩
  waiting := fun _ batch waits _ listed => ⟨batch.event, rfl, .waiting waits rfl listed⟩
  current := fun batch stands _ listed =>
    ⟨batch.event, rfl, .underway (mem_of_mem_filter stands) (mem_map_of_mem listed)⟩

/-- Listeners to whom nothing has been sent may be sent any batch. -/
theorem fromBatch_of_unsent
    (unsent : ∀ event delivery, machine.Sends event delivery → delivery.listener ∉ among)
    (serial : Nat) :
    machine.FromBatch among serial (callsTo among machine.engine.journal.toList) where
  sent := machine.bound_sends.mono fun _ _ delivery on_its_way own => by
    obtain ⟨event, _, sent⟩ := on_its_way
    exact absurd own (unsent event delivery sent)
  made := ⟨[], (append_nil _).symm, fun _ member => by cases member⟩

/-- While the listeners have no entries, they are sent no other batch. -/
theorem FromBatch.next (one : machine.FromBatch among serial before) (reachable : machine.Reachable)
    (step : Next machine later) (clients : ∀ listener ∈ among, listener.isClient = true)
    (unlisted : ∀ x, ∀ filed ∈ (machine.engine.executable x).subscriptions.listing,
      filed.2.listener ∉ among)
    (asked : ∀ request ∈ machine.readyRequest?, request.success ∈ among →
      machine.engine.nextBatch = serial) : later.FromBatch among serial before := by
  -- The engine's own listeners are not among those of the client.
  have rule := reachable.sound.rules_next step (.refl _)
  refine ⟨Traffic.Bound.step one.sent rule (fun x filed listed own =>
    absurd own (unlisted x filed listed)) reachable.numbered
    (fun _ _ none_here own => by cases none_here own) ?_, ?_⟩
  · rintro x listener (engine | ⟨request, turn, rfl⟩) own
    · rw [clients listener own] at engine
      cases engine
    · exact congrArg some (asked request (by rw [readyRequest?, turn]; rfl) own)
  · obtain ⟨news, made, numbers⟩ := one.made
    have cases := rule.callsTo_cases among
    rw [callsTo_traffic, callsTo_traffic, made] at cases
    rcases cases with same | ⟨batch, delivery, current, listed, own, called⟩
    · exact ⟨news, same, numbers⟩
    · rw [append_assoc] at called
      refine ⟨_, called, fun call member => ?_⟩
      rcases mem_append.mp member with old | new
      · exact numbers call old
      · obtain rfl := mem_singleton.mp new
        exact Option.some.inj (one.sent.current batch current delivery listed own)

end Machine

end Readiness
