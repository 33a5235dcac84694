import Readiness.Proofs.Delivery.Together

/-! Listeners for readiness that stay: called once for every time that the executable becomes ready.

A request for readiness that is not for one call registers its success listener for good, and calls
it once besides if the executable is ready already. That call is in a batch of its own and goes back
to no entry, so it is never mistaken for one of the others.
-/

namespace Readiness

open List

namespace Mail

variable {given : Postage} {e : ExecutableRef} {n : Nat} {mail next : Mail} {key : Status}
  {entry : Entry}

/-- A transition sends one piece of news to an entry for its status, and none to one for another. -/
theorem length_newsTo {transition : Transition} (numbered : mail.entries.Numbered)
    (listed : (key, entry) ∈ mail.entries.listing) (number : entry.sequence = n)
    (real : key ≠ .null) :
    (transition.newsTo e n (mail.entries.due transition.new)).length =
      if transition.new = key then 1 else 0 := by
  rw [Transition.newsTo, length_replicate, ← number]
  split
  · rename_i same
    exact numbered.countP_due_eq_one ((numbered.mem_due_iff listed).mpr (.inr same.symm))
  · rename_i other
    refine numbered.countP_due_eq_zero fun filed member equal due => ?_
    rw [numbered.eq_of_sequence member listed equal, numbered.mem_due_iff listed] at due
    exact due.elim real fun same => other same.symm

/-- As long as nothing gets lost, an entry for one status is sent one piece of news for every
transition to it. -/
theorem Step.length_all (step : Step given e n mail next) (numbered : mail.entries.Numbered)
    (listed : (key, entry) ∈ mail.entries.listing) (number : entry.sequence = n)
    (real : key ≠ .null) (kept : ¬ given.lost) {before since : List Event}
    (moved : mail.moved = before ++ since)
    (sent : mail.all.length = since.countP fun event => decide (event.status = key)) :
    ∃ since, next.moved = before ++ since ∧
      next.all.length = since.countP fun event => decide (event.status = key) := by
  rcases step.all_cases with ⟨still, _, same⟩ | ⟨transition, _, _, moves, news⟩
  · exact ⟨since, still.trans moved, (same kept).length_eq.trans sent⟩
  · refine ⟨since ++ [transition.event e], by rw [moves, moved, append_assoc], ?_⟩
    rw [news.length_eq, length_append, length_newsTo numbered listed number real, sent,
      countP_append, countP_singleton, Nat.add_comm]
    by_cases same : transition.new = key <;> simp [Transition.event, same]

end Mail

/-- Whether a call is what it may be once a listener has been registered for an entry: for the entry
and to the listener, or neither, or in the batch that was granted at once. -/
def Meant (listener : Listener) (e : ExecutableRef) (n : Nat) (granted batch : Option Nat)
    (source : ExecutableRef) (delivery : Delivery) : Prop :=
  (delivery.entry = none → delivery.listener = listener →
    ∃ serial, granted = some serial ∧ batch = some serial) ∧
  (delivery.entry ≠ none → (delivery.listener = listener ↔ source = e ∧ delivery.entry = some n))

/-- The calls of the listener are those for its entry and those that go back to no entry. -/
theorem countP_of_meant {listener : Listener} {e : ExecutableRef} {n : Nat} {granted : Option Nat}
    {calls : List Call} (meant : ∀ call ∈ calls,
      Meant listener e n granted (some call.batch) call.event.source call.delivery) :
    calls.countP (fun call => decide (call.delivery.listener ∈ [listener])) =
      calls.countP (·.isFor e n) +
        calls.countP fun call => decide (call.delivery = ⟨listener, none⟩) := by
  induction calls with
  | nil => rfl
  | cons call rest ih =>
    have here := (meant call (mem_cons_self ..)).2
    rw [countP_cons, countP_cons, countP_cons,
      ih fun other later => meant other (mem_cons_of_mem _ later)]
    obtain ⟨serial, event, who, entry⟩ := call
    cases entry with
    | none =>
      by_cases own : who = listener
      · simp [Call.isFor, own, Nat.add_assoc]
      · simp [Call.isFor, own]
    | some number =>
      have agree : decide (who ∈ [listener]) =
          Call.isFor e n ⟨serial, event, who, some number⟩ := by
        rw [Bool.eq_iff_iff]
        simpa [Call.isFor] using here (by simp)
      simp only [agree, Delivery.mk.injEq, reduceCtorEq, and_false, decide_false,
        Bool.false_eq_true, if_false, Nat.add_zero, Nat.add_right_comm]

namespace Machine

variable {machine later : Machine} {e : ExecutableRef} {request : ReadyRequest}
  {filed : Status × Entry} {store : Engine}

/-- A request for readiness is noted only if it is granted at once. -/
theorem filterMap_journal_onReady {α : Type} {look : Occurrence → Option α}
    (minor : ∀ h serial, look (.deferred h serial) = none)
    (turn : machine.control = .perform (.onReady e request)) :
    machine.step.engine.journal.toList.filterMap look =
      machine.engine.journal.toList.filterMap look := by
  rw [engine_onReady turn]
  unfold Engine.listenReady
  simp only []
  split
  · show (Engine.defer ..).journal.toList.filterMap look = _
    rw [Engine.defer, Engine.journal_wake]
    simp [Engine.note, minor, Engine.modifyHost, Engine.spendBatch]
  · rfl

theorem readyRequest?_onReady (turn : machine.control = .perform (.onReady e request)) :
    machine.step.readyRequest? = none := by
  rw [step, turn]
  simp only [start]
  split <;> rfl

/-- Nobody has heard of a listener to whom nothing is sent. -/
theorem unheard_of_unsent {code : CodeRef} (unsent : ∀ event delivery,
    machine.Sends event delivery → delivery.listener ≠ .client code) : machine.Unheard code where
  stack := by
    intro frame stands call pending
    cases frame with
    | announce x transition entries =>
      obtain ⟨entry, due, rfl⟩ := mem_map.mp pending
      exact unsent ⟨x, transition.new, transition.old⟩ _ (.underway stands (mem_map_of_mem due))
    | deliver batch =>
      obtain ⟨delivery, within, rfl⟩ := mem_map.mp pending
      exact unsent batch.event _ (.underway stands (mem_map_of_mem within))
    | _ => cases pending
  batches := by
    intro h batch waits call pending
    obtain ⟨delivery, within, rfl⟩ := mem_map.mp pending
    exact unsent batch.event _ (.waiting waits rfl within)

/-- The number of the batch that a request for readiness is granted at once. -/
def granted? (machine : Machine) (e : ExecutableRef) (request : ReadyRequest) : Option Nat :=
  if (machine.engine.executable e).isReady && !request.onlyFuture then
    some machine.engine.nextBatch
  else none

/-- The entry of a success listener that is registered for good. -/
def lastingEntry (machine : Machine) (e : ExecutableRef) (request : ReadyRequest) :
    Status × Entry :=
  ((machine.engine.executable e).readyStatus,
    ⟨request.success, false, (machine.engine.executable e).subscriptions.nextSequence, none⟩)

/-- After a request for readiness nothing is on its way to the success listener but what is granted
at once. -/
theorem Reachable.bound_onReady (reachable : machine.Reachable)
    (turn : machine.control = .perform (.onReady e request))
    (unlisted : ∀ x, ∀ filed ∈ (machine.engine.executable x).subscriptions.listing,
      filed.2.listener ≠ request.success)
    (unsent : ∀ event delivery, machine.Sends event delivery →
      delivery.listener ≠ request.success) :
    machine.step.traffic.Bound (Meant request.success e
      (machine.engine.executable e).subscriptions.nextSequence (machine.granted? e request)) := by
  have begun : Next machine machine.step := .engine (by rw [clientTurn, turn])
  have numbered := reachable.numbered
  obtain ⟨code, own⟩ : ∃ code, request.success = .client code := by
    have client := reachable.isClient_of_onReady turn request.success (mem_cons_self ..)
    cases success : request.success with
    | client code => exact ⟨code, rfl⟩
    | _ => rw [success] at client; cases client
  have sole := reachable.sole_of_unheard (e := e) (.refl _)
    (unheard_of_unsent (own ▸ unsent)) (Nat.le_refl _)
  -- The batch of the request has the number that is next.
  have early : machine.step.traffic.Bound (Meant request.success e
      (machine.engine.executable e).subscriptions.nextSequence
        (some machine.engine.nextBatch)) := by
    refine Traffic.Bound.step (sole.mono fun batch source delivery only => ?_)
      (reachable.sound.rules_next begun (.refl _)) (fun x filed listed => ?_) numbered ?_ ?_
    · rw [OnlyFor, ← own] at only
      refine ⟨fun blank same => ?_, fun _ => only⟩
      rw [blank] at only
      cases (only.mp same).2
    · refine ⟨fun blank => (by cases blank), fun _ => iff_of_false (unlisted x filed listed) ?_⟩
      rintro ⟨rfl, same⟩
      exact absurd (Option.some.inj same) (Nat.ne_of_lt ((numbered x).below filed listed))
    · rintro x delivery ⟨_, only⟩
      exact ⟨fun _ _ => ⟨_, rfl, rfl⟩, only⟩
    · intro x listener _
      exact ⟨fun _ _ => ⟨_, rfl, rfl⟩, fun entry => absurd rfl entry⟩
  refine (early.and machine.step.bound_sends).mono ?_
  rintro batch source delivery ⟨⟨none_else, only⟩, event, _, sent⟩
  refine ⟨fun blank same => ?_, only⟩
  obtain ⟨serial, next, inside⟩ := none_else blank same
  refine ⟨serial, ?_, inside⟩
  -- Only a request that is granted at once sends such a call.
  rcases reachable.sends_of_next begun sent with old | issued
  · exact absurd same (unsent event delivery old)
  · cases issued with
    | due => cases blank
    | request asked immediate =>
      rw [turn] at asked
      cases asked
      rw [granted?, if_pos immediate, next]
    | wait client => rw [clientTurn, turn] at client; cases client

/-- How far a run has come since a listener was registered for good. -/
structure Lasts (start : Machine) (store : Engine) (e : ExecutableRef) (filed : Status × Entry)
    (granted : Option Nat) (machine : Machine) : Prop where
  bound : machine.traffic.Bound (Meant filed.2.listener e filed.2.sequence granted)
  made : ∃ news, callsIn machine.traffic.journal = callsIn start.traffic.journal ++ news ∧
    ∀ call ∈ news, Meant filed.2.listener e filed.2.sequence granted (some call.batch)
      call.event.source call.delivery
  sent : ∃ since, (machine.mail store e filed.2.sequence).moved =
      movesOf e start.traffic.journal ++ since ∧
    (machine.mail store e filed.2.sequence).all.length =
      since.countP fun event => decide (event.status = filed.1)

/-- A listener for one status stays registered, nobody else is registered along with it, and the
executable is there. -/
structure Employs (machine : Machine) (e : ExecutableRef) (filed : Status × Entry) : Prop where
  there : (machine.engine.executable e).destroyed = false
  listed : filed ∈ (machine.engine.executable e).subscriptions.listing
  /-- It is registered nowhere else. -/
  reserved : machine.Reserves [filed.2.listener] e [filed]

/-- Whether a listener is employed can be checked. -/
instance (machine : Machine) (e : ExecutableRef) (filed : Status × Entry) :
    Decidable (machine.Employs e filed) :=
  decidable_of_iff ((machine.engine.executable e).destroyed = false ∧
      filed ∈ (machine.engine.executable e).subscriptions.listing ∧
      machine.Reserves [filed.2.listener] e [filed])
    ⟨fun all => ⟨all.1, all.2.1, all.2.2⟩, fun all => ⟨all.there, all.listed, all.reserved⟩⟩

/-- A listener that is employed is called for its entry only. -/
theorem Employs.meant (employs : machine.Employs e filed)
    (numbered : (machine.engine.executable e).subscriptions.Numbered) (granted : Option Nat)
    {x : ExecutableRef} {other : Status × Entry}
    (listed : other ∈ (machine.engine.executable x).subscriptions.listing) :
    Meant filed.2.listener e filed.2.sequence granted none x other.2.delivery := by
  refine ⟨fun blank => (by cases blank), fun _ => ⟨fun same => ?_, ?_⟩⟩
  · obtain ⟨source, only⟩ := employs.reserved.only x other listed (mem_singleton.mpr same)
    rw [mem_singleton.mp only]
    exact ⟨source, rfl⟩
  · rintro ⟨rfl, same⟩
    rw [numbered.eq_of_sequence listed employs.listed (Option.some.inj same)]
    rfl

/-- Every step takes the listener as far as its executable has come. -/
theorem Lasts.next {start next : Machine} {granted : Option Nat}
    (lasts : start.Lasts store e filed granted machine) (reachable : machine.Reachable)
    (employs : machine.Employs e filed) (kept : machine.TellingKept)
    (client : filed.2.listener.isClient = true) (real : filed.1 ≠ .null) (step : Next machine next)
    (grown : next.engine.Extends store) : start.Lasts store e filed granted next := by
  have sound := reachable.sound
  have before := (sound.later_next step).grown.trans grown
  have rule := sound.rules_next step before
  obtain ⟨news, made, meant⟩ := lasts.made
  obtain ⟨since, moved, sent⟩ := lasts.sent
  refine ⟨?_, ?_, ?_⟩
  · refine lasts.bound.step rule
      (fun x other listed => employs.meant (reachable.numbered e) _ listed)
      reachable.numbered ?_ ?_
    · rintro x delivery ⟨none_else, only⟩
      refine ⟨fun blank same => ?_, only⟩
      obtain ⟨_, _, nowhere⟩ := none_else blank same
      cases nowhere
    · -- The listener does not ask for readiness again, and it is none of the engine's own.
      rintro x listener asked
      refine ⟨fun _ same => ?_, fun entry => absurd rfl entry⟩
      obtain rfl : listener = filed.2.listener := same
      rcases asked with engine | ⟨request, turn, same⟩
      · rw [client] at engine
        cases engine
      · refine absurd ?_ (employs.reserved.foreign request (by rw [readyRequest?, turn]; rfl))
        rw [same]
        exact mem_singleton_self _
  · rcases lasts.bound.callsIn_step rule with same | ⟨call, fits, called⟩
    · exact ⟨news, same.trans made, meant⟩
    · refine ⟨news ++ [call], by rw [called, made, append_assoc], fun other member => ?_⟩
      rcases mem_append.mp member with old | new
      · exact meant other old
      · rw [mem_singleton.mp new]
        exact fits
  · exact (reachable.mail_next before rule _).length_all
      (reachable.numbered e) employs.listed rfl real
      (kept.not_lost employs.there _ _) moved sent

/-- A request that is not for one call registers its success listener for good, and nowhere else. -/
theorem Reachable.employs_onReady (reachable : machine.Reachable)
    (turn : machine.control = .perform (.onReady e request)) (lasting : request.once = false)
    (there : (machine.engine.executable e).destroyed = false)
    (apart : request.failure ≠ some request.success)
    (unlisted : ∀ x, ∀ filed ∈ (machine.engine.executable x).subscriptions.listing,
      filed.2.listener ≠ request.success) :
    machine.step.Employs e (machine.lastingEntry e request) := by
  have built := reachable.built_of_onReady turn
  have record := machine.engine.record_listenReady built request
  rw [← engine_onReady turn] at record
  -- The success listener is registered first, the failure listener for each failed status next.
  have listing : (machine.step.engine.executable e).subscriptions.listing.Perm
      (Subscriptions.filings ((machine.engine.executable e).links request) false
        (machine.engine.executable e).subscriptions.nextSequence none ++
          (machine.engine.executable e).subscriptions.listing) := by
    rw [reachable.subscriptions_onReady turn, Executable.requested, lasting]
    exact Subscriptions.listing_foldl_insert_perm ..
  have first : (machine.engine.executable e).links request =
      (request.success, (machine.engine.executable e).readyStatus) ::
        request.failure.toList.flatMap fun listener =>
          (machine.engine.executable e).failedStatuses.map fun status => (listener, status) := rfl
  rw [first, Subscriptions.filings_cons] at listing
  refine ⟨?_, listing.mem_iff.mpr (mem_cons_self ..), fun x filed listed same => ?_, ?_⟩
  · exact (congrFun (congrArg Record.destroyed record) e).trans there
  · have same := mem_singleton.mp same
    by_cases here : x = e
    · subst here
      rcases mem_cons.mp (listing.mem_iff.mp listed) with own | other
      · exact ⟨rfl, mem_singleton.mpr own⟩
      · rcases mem_append.mp other with failure | old
        · -- The failure listener is another one.
          obtain ⟨among, _⟩ := Subscriptions.mem_filings failure
          obtain ⟨listener, fails, status⟩ := mem_flatMap.mp among
          obtain ⟨_, _, equal⟩ := mem_map.mp status
          rw [Option.mem_toList, (Prod.mk.inj equal).1, same] at fails
          exact absurd fails apart
        · exact absurd same (unlisted x filed old)
    · have old : (machine.step.engine.executable x).subscriptions =
          (machine.engine.executable x).subscriptions :=
        (congrFun (congrArg Record.subscriptions record) x).trans (Function.update_of_ne here _ _)
      rw [old] at listed
      exact absurd same (unlisted x filed listed)
  · rw [readyRequest?_onReady turn]
    intro other asked
    cases asked

/-- A run along which no observer panics loses nothing that is being told. -/
theorem ReachesWhile.and_tellingKept {condition : Machine → Prop}
    (run : machine.ReachesWhile condition later) (sound : machine.Sound)
    (steady : ∀ state, condition state → state.ObserverSteady) (kept : machine.TellingKept) :
    machine.ReachesWhile (fun state => condition state ∧ state.TellingKept) later := by
  induction run with
  | refl holds => exact .refl ⟨holds, kept⟩
  | step run next holds ih =>
    exact .step ih next ⟨holds, (run.step next holds).tellingKept sound steady kept⟩

/-- What is granted at once is called once, when the host is drained. -/
theorem Reachable.callsOf_grant (reachable : machine.Reachable)
    (turn : machine.control = .perform (.onReady e request))
    (granted : ((machine.engine.executable e).isReady && !request.onlyFuture) = true)
    (run : machine.step.ReachesWhile (·.TellingKept) later)
    (there : (later.engine.executable e).destroyed = false)
    (drained : later.Drained (later.engine.executable e).host) :
    callsOf machine.engine.nextBatch later.engine.journal.toList =
      (machine.grant e request).calls := by
  have begun : Next machine machine.step := .engine (by rw [clientTurn, turn])
  have reached : machine.step.Reachable := .step reachable begun
  have built := reachable.built_of_onReady turn
  have home : (later.engine.executable e).host = (machine.engine.executable e).host :=
    ((reachable.sound.later_next begun).grown.trans
      (reached.sound.later_reaches run.reaches).grown).home e built
  rw [home] at drained
  have waits := reachable.mem_deferred_onReady turn granted
  cases run.fate reached (mem_append_right _ waits) with
  | waiting waits =>
    have empty : (later.engine.host (machine.engine.executable e).host).queue ++
        (later.engine.host (machine.engine.executable e).host).deferred = [] := by
      rw [drained.queue, drained.deferred, append_nil]
    exact absurd waits (empty ▸ not_mem_nil)
  | underway rest current =>
    exact absurd home (drained.stack _ (mem_of_mem_filter current) e rfl)
  | finished opened gone made why =>
    rcases why with whole | destroyed |
      ⟨state, kept, _, _, payload, rest, frames, unwinding, stands⟩
    · rw [← whole, callsOf, callsOf, callsIn_traffic]
      rfl
    · exact absurd (there.symm.trans destroyed) (by simp)
    · cases kept payload _ frames unwinding stands

/-- When the success listener is registered, nothing has been sent to its entry. -/
theorem Reachable.all_onReady (reachable : machine.Reachable)
    (turn : machine.control = .perform (.onReady e request))
    (grown : machine.step.engine.Extends store) : (machine.step.mail store e
      (machine.engine.executable e).subscriptions.nextSequence).all = [] := by
  have begun : Next machine machine.step := .engine (by rw [clientTurn, turn])
  have before := (reachable.sound.later_next begun).grown.trans grown
  have unused := (reachable.fresh before e
    (machine.engine.executable e).subscriptions.nextSequence).unused (Nat.le_refl _)
  have still : (machine.step.mail store e
      (machine.engine.executable e).subscriptions.nextSequence).moved = (machine.mail store e
        (machine.engine.executable e).subscriptions.nextSequence).moved := by
    rw [movesOf_mail, movesOf_mail]
    exact filterMap_journal_onReady (fun _ _ => rfl) turn
  rcases (reachable.mail_next before (reachable.sound.rules_next begun before) _).all_cases with
    ⟨_, fewer, _⟩ | ⟨transition, _, _, moved, _⟩
  · rw [unused] at fewer
    exact subperm_nil.mp fewer
  · -- The executable does not move.
    rw [still] at moved
    exact absurd (congrArg List.length moved) (by simp)

/-- Of the calls since a request for readiness, one goes back to no entry if the request was granted
at once, and none otherwise. -/
theorem Reachable.countP_granted (reachable : machine.Reachable)
    (turn : machine.control = .perform (.onReady e request))
    (run : machine.step.ReachesWhile (·.TellingKept) later)
    (there : (later.engine.executable e).destroyed = false)
    (drained : later.Drained (later.engine.executable e).host) {n : Nat} {news : List Call}
    (made : callsIn later.engine.journal.toList = callsIn machine.engine.journal.toList ++ news)
    (meant : ∀ call ∈ news, Meant request.success e n (machine.granted? e request)
      (some call.batch) call.event.source call.delivery) :
    news.countP (fun call => decide (call.delivery = ⟨request.success, none⟩)) =
      if (machine.engine.executable e).isReady && !request.onlyFuture then 1 else 0 := by
  split
  · rename_i granted
    have begun : Next machine machine.step := .engine (by rw [clientTurn, turn])
    have reached : machine.step.Reachable := .step reachable begun
    -- No call had been made for the batch while it was waiting.
    have before := Fate.callsOf_of_waiting (reached.inTurn (.refl _)) reached.balanced
      (mem_append_right _ (reachable.mem_deferred_onReady turn granted))
    rw [callsOf, callsIn_traffic, callsIn,
      filterMap_journal_onReady (fun _ _ => rfl) turn] at before
    have whole := reachable.callsOf_grant turn granted run there drained
    rw [callsOf, made, filter_append] at whole
    have fresh : (callsIn machine.engine.journal.toList).filter
        (fun call => decide (call.batch = machine.engine.nextBatch)) = [] := before
    rw [fresh, nil_append] at whole
    calc news.countP (fun call => decide (call.delivery = ⟨request.success, none⟩))
      _ = (news.filter fun call => decide (call.batch = machine.engine.nextBatch)).countP
          fun call => decide (call.delivery = ⟨request.success, none⟩) := by
        rw [countP_filter]
        refine countP_congr fun call member => ?_
        simp only [Bool.and_eq_true, decide_eq_true_eq, iff_self_and]
        intro blank
        obtain ⟨serial, next, inside⟩ := (meant call member).1 (by rw [blank]) (by rw [blank])
        rw [granted?, if_pos granted, ← inside] at next
        exact (Option.some.inj next).symm
      _ = 1 := by
        rw [whole]
        simp [Batch.calls, grant, Engine.batch]
  · rename_i refused
    refine countP_eq_zero.mpr fun call member own => ?_
    have blank : call.delivery = ⟨request.success, none⟩ := of_decide_eq_true own
    obtain ⟨serial, granted, _⟩ := (meant call member).1 (by rw [blank]) (by rw [blank])
    rw [granted?, if_neg refused] at granted
    cases granted

/-- The success listener of a request for readiness that is not for one call, if it is registered
nowhere else, is called once for each time that the executable becomes ready since, and once besides
if it was ready and that counts; provided that the executable is not destroyed, the listener not
removed, no observer panics, and the host is drained in the end. -/
theorem lasting_listener_called_per_readiness (reachable : machine.Reachable)
    (turn : machine.control = .perform (.onReady e request)) (lasting : request.once = false)
    (there : (machine.engine.executable e).destroyed = false)
    (apart : request.failure ≠ some request.success)
    (unlisted : ∀ x, ∀ filed ∈ (machine.engine.executable x).subscriptions.listing,
      filed.2.listener ≠ request.success)
    (unsent : ∀ event delivery, machine.Sends event delivery →
      delivery.listener ≠ request.success) :
    machine.step.Employs e (machine.lastingEntry e request) ∧
    ∀ final, machine.step.ReachesWhile (fun state =>
        state.Employs e (machine.lastingEntry e request) ∧ state.ObserverSteady) final →
      final.Drained (final.engine.executable e).host →
      ∃ news since,
        callsTo [request.success] final.engine.journal.toList =
          callsTo [request.success] machine.engine.journal.toList ++ news ∧
        movesOf e final.engine.journal.toList = movesOf e machine.engine.journal.toList ++ since ∧
        news.length =
          (since.countP fun event =>
            decide (event.status = (machine.engine.executable e).readyStatus)) +
          if (machine.engine.executable e).isReady && !request.onlyFuture then 1 else 0 := by
  refine ⟨reachable.employs_onReady turn lasting there apart unlisted, fun final run drained => ?_⟩
  have begun : Next machine machine.step := .engine (by rw [clientTurn, turn])
  have reached : machine.step.Reachable := .step reachable begun
  have kept : machine.step.TellingKept :=
    reachable.sound.tellingKept_step fun payload _ _ unwinding => by
      rw [turn] at unwinding; cases unwinding
  have safe := run.and_tellingKept reached.sound (fun _ holds => holds.2) kept
  have lasts : machine.step.Lasts final.engine e (machine.lastingEntry e request)
      (machine.granted? e request) final := by
    refine safe.rules_induction reached.sound (.refl _)
      (motive := fun state => machine.step.Lasts final.engine e _ _ state) ⟨?_, ?_, ?_⟩ ?_
    · exact reachable.bound_onReady turn unlisted unsent
    · exact ⟨[], (append_nil _).symm, fun _ member => by cases member⟩
    · refine ⟨[], (append_nil _).symm, ?_⟩
      exact congrArg List.length
        (reachable.all_onReady turn (reached.sound.later_reaches run.reaches).grown)
    · intro before after early sound step _ grown _ lasts
      exact lasts.next (.trans reached early.reaches) early.holds.1.1 early.holds.2
        (reachable.isClient_of_onReady turn _ (mem_cons_self ..))
        (Work.readyStatus_ne_null
          (reachable.sound.store.lawful e (reachable.built_of_onReady turn)))
        step grown
  obtain ⟨news, made, meant⟩ := lasts.made
  obtain ⟨since, moved, sent⟩ := lasts.sent
  have called : callsIn machine.step.engine.journal.toList =
      callsIn machine.engine.journal.toList := filterMap_journal_onReady (fun _ _ => rfl) turn
  rw [callsIn_traffic, callsIn_traffic, called] at made
  rw [movesOf_mail, movesOf_traffic] at moved
  refine ⟨news.filter fun call => decide (call.delivery.listener ∈ [request.success]), since, ?_,
    moved.trans (congrArg (· ++ since) (filterMap_journal_onReady (fun _ _ => rfl) turn)), ?_⟩
  · rw [callsTo, made, filter_append]
    rfl
  -- The entry has been told everything that was sent to it, and nothing before it was registered.
  have told : news.countP (·.isFor e (machine.lastingEntry e request).2.sequence) =
      (toldTo e (machine.lastingEntry e request).2.sequence
        final.engine.journal.toList).length := by
    have silent : toldTo e (machine.lastingEntry e request).2.sequence
        machine.engine.journal.toList = [] := by
      rw [← toldTo_mail machine machine.engine]
      have unused := (reachable.fresh (.refl _) e
        (machine.lastingEntry e request).2.sequence).unused (Nat.le_refl _)
      exact (append_eq_nil_iff.mp unused).1
    rw [toldTo, map_eq_nil_iff] at silent
    rw [toldTo, made, filter_append, silent, nil_append, length_map,
      countP_eq_length_filter]
  rw [← all_of_drained drained, sent] at told
  have granted := reachable.countP_granted turn (safe.mono fun _ holds => holds.2)
    safe.holds.1.1.there drained made meant
  rw [← countP_eq_length_filter]
  exact (countP_of_meant meant).trans (congrArg₂ (· + ·) told granted)

/-- The executable is ready when it is asked for, and moves away and back before the call that was
granted at once is made. -/
theorem lasting_listener_called_per_readiness_again : ∃ machine final : Machine,
    machine.Reachable ∧
    machine.control = .perform (.onReady 0 { success := .client 1, failure := some (.client 2) }) ∧
    machine.step.ReachesWhile (fun state => state.Employs 0
      (.ready, ⟨.client 1, false, 0, none⟩) ∧ state.ObserverSteady) final ∧
    final.Drained 0 ∧
    movesOf 0 machine.engine.journal.toList = [⟨0, .ready, .null⟩] ∧
    movesOf 0 final.engine.journal.toList =
      [⟨0, .ready, .null⟩, ⟨0, .failed, .ready⟩, ⟨0, .ready, .failed⟩] ∧
    (callsTo [.client 1] final.engine.journal.toList).length = 2 := by
  let request : ReadyRequest := { success := .client 1, failure := some (.client 2) }
  let machine := (({} : Machine).after [.openHost {} .silent, .build 0 (.manual true),
    .call (.setStatus 0 .ready)]).call (.onReady 0 request)
  let safe (state : Machine) : Bool := decide (state.Employs 0
    (.ready, ⟨.client 1, false, 0, none⟩) ∧ state.ObserverSteady)
  let waiting := machine.step.halt clientTurn safe
  let final := waiting.after [.call (.setStatus 0 .failed), .accept, .finish .done,
    .call (.setStatus 0 .ready), .accept, .finish .done, .call (.pump 0), .accept,
    .finish .done] safe
  have reachable : machine.Reachable := .step (reaches_after _ _) (.call (by decide) (by decide))
  have first : machine.step.ReachesWhile (fun state => safe state = true) waiting :=
    reachesWhile_halt (by decide +kernel) (by decide +kernel)
  have second : waiting.ReachesWhile (fun state => safe state = true) final :=
    reachesWhile_after (by decide +kernel) (by decide +kernel)
  have run := (first.trans second).mono fun _ holds => of_decide_eq_true holds
  have bare : ∀ x < machine.engine.executables.length,
      (machine.engine.executable x).subscriptions.listing = [] := by decide +kernel
  have unlisted : ∀ x, ∀ filed ∈ (machine.engine.executable x).subscriptions.listing,
      filed.2.listener ≠ .client 1 := by
    intro x filed member
    rcases Nat.lt_or_ge x machine.engine.executables.length with built | beyond
    · rw [bare x built] at member
      cases member
    · rw [Engine.executable_of_ge beyond] at member
      cases member
  have quiet : machine.waitingBatches = [] := by decide +kernel
  have idle : machine.stack.flatMap Frame.sends = [] := by decide +kernel
  have settled : final.stack = [] := by decide +kernel
  have drained : final.Drained 0 := ⟨by decide +kernel, by decide +kernel, by simp [settled]⟩
  have home : (final.engine.executable 0).host = 0 := by decide +kernel
  have early : callsTo [.client 1] machine.engine.journal.toList = [] ∧
      movesOf 0 machine.engine.journal.toList = [⟨0, .ready, .null⟩] := by decide +kernel
  have late : movesOf 0 final.engine.journal.toList =
      [⟨0, .ready, .null⟩, ⟨0, .failed, .ready⟩, ⟨0, .ready, .failed⟩] := by decide +kernel
  obtain ⟨_, counts⟩ := lasting_listener_called_per_readiness reachable rfl rfl (by decide +kernel)
    (by decide) unlisted fun _ _ sent => absurd sent (not_sends_of_idle quiet idle)
  obtain ⟨news, since, made, moved, count⟩ := counts final run (by rw [home]; exact drained)
  rw [late, early.2] at moved
  obtain rfl : [⟨0, .failed, .ready⟩, ⟨0, .ready, .failed⟩] = since := (List.cons.inj moved).2
  rw [early.1, nil_append] at made
  refine ⟨machine, final, reachable, rfl, run, drained, early.2, late, ?_⟩
  rw [made, count]
  decide +kernel

end Machine

end Readiness
