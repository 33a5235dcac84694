import Mathlib.Algebra.BigOperators.Group.Multiset.Basic
import Readiness.Proofs.Delivery.Simulation
import Readiness.Proofs.Machine.Effect

/-! What hosts count of the calls of listeners, against what the journal tells of them.

Main statements: every call of a listener that has begun has ended or is being made, and a host has
counted exactly the calls that have ended and concern its executables, and as failures exactly those
of them that ended badly.
-/

namespace Readiness

open List Engine

namespace Occurrence

/-- The call of a listener that begins. -/
def told? : Occurrence → Option (Event × Delivery)
  | .invoked _ event delivery => some (event, delivery)
  | _ => none

/-- The call of a listener that ends, and whether it ends badly. -/
def ended? : Occurrence → Option ((Event × Delivery) × Bool)
  | .returned _ event delivery fault => some ((event, delivery), fault.isSome)
  | _ => none

/-- Whether the observer of a host is told of a listener that failed. -/
def isReport : Occurrence → Bool
  | .observed _ (.listenerFailed _ _ _) => true
  | _ => false

end Occurrence

/-- The call of a listener that is being made. -/
def Frame.telling? : Frame → Option (Event × Delivery)
  | .guard _ event delivery => some (event, delivery)
  | _ => none

/-- What listeners have been told. -/
def Engine.told (engine : Engine) : Multiset (Event × Delivery) :=
  engine.journal.toList.filterMap Occurrence.told?

/-- Every call of a listener that has begun has ended or is being made. -/
def Traffic.Settles (traffic : Traffic) : Prop :=
  (traffic.journal.filterMap Occurrence.told?).Perm
    ((traffic.journal.filterMap Occurrence.ended?).map Prod.fst ++
      traffic.calls.filterMap Frame.telling?)

namespace Traffic.Settles

variable {before after : Traffic}

/-- It stays so while the same listeners are being told. -/
theorem calls (settles : before.Settles) (journal : after.journal = before.journal)
    (same : after.calls.filterMap Frame.telling? = before.calls.filterMap Frame.telling?) :
    after.Settles := by
  unfold Settles
  rw [journal, same]
  exact settles

/-- It stays so with notes about other things. -/
theorem note (settles : before.Settles) (occurrence : Occurrence)
    (journal : after.journal = before.journal ++ [occurrence]) (begun : occurrence.told? = none)
    (ended : occurrence.ended? = none)
    (same : after.calls.filterMap Frame.telling? = before.calls.filterMap Frame.telling?) :
    after.Settles := by
  unfold Settles at settles ⊢
  rw [journal, same]
  simpa [begun, ended] using settles

end Traffic.Settles

/-- What hosts have counted of the calls of listeners, and what the journal tells of them. -/
@[ext] structure Receipts where
  /-- How many calls a host has counted, and how many failures. -/
  counted : HostRef → Nat × Nat
  /-- The calls that have ended, and whether they ended badly. -/
  ended : List ((Event × Delivery) × Bool)
  /-- What observers have been told of calls that ended badly. -/
  reports : List Occurrence

/-- A call ends that this host is to count. -/
def Receipts.settle (receipts : Receipts) (h : HostRef) (call : Event × Delivery)
    (fault : Option ListenerFault) : Receipts where
  counted := Function.update receipts.counted h
    ((receipts.counted h).1 + 1, (receipts.counted h).2 + fault.isSome.toNat)
  ended := receipts.ended ++ [(call, fault.isSome)]
  reports := receipts.reports ++ call.1.report h fault

namespace Engine

/-- What hosts have counted of the calls of listeners, and what the journal tells of them. -/
def receipts (engine : Engine) : Receipts where
  counted h := ((engine.host h).tally.invocations, (engine.host h).tally.failures)
  ended := engine.journal.toList.filterMap Occurrence.ended?
  reports := engine.journal.toList.filter Occurrence.isReport

/-- Notes about other things are no receipts. -/
theorem receipts_note (engine : Engine) {occurrence : Occurrence}
    (minor : occurrence.ended? = none) (silent : occurrence.isReport = false) :
    (engine.note occurrence).receipts = engine.receipts := by
  refine Receipts.ext rfl ?_ ?_
  · simp [receipts, note, minor]
  · simp [receipts, note, silent]

/-- What only stirs the store does not show. -/
theorem Stirs.receipts_eq {before after : Engine} (stirs : before.Stirs after) :
    after.receipts = before.receipts := by
  obtain ⟨news, minor, grown⟩ := stirs.journal
  have none_ended : news.filterMap Occurrence.ended? = [] := by
    refine filterMap_eq_nil_iff.mpr fun occurrence member => ?_
    have minor := minor occurrence member
    cases occurrence <;> first | rfl | cases minor
  have none_reported : news.filter Occurrence.isReport = [] := by
    refine filter_eq_nil_iff.mpr fun occurrence member => ?_
    have minor := minor occurrence member
    cases occurrence <;> first | exact Bool.false_ne_true | cases minor
  refine Receipts.ext (funext fun h => ?_) ?_ ?_
  · exact congrArg (fun host => (host.tally.invocations, host.tally.failures)) (stirs.books h)
  · simp only [receipts, grown, filterMap_append, none_ended, append_nil]
  · simp only [receipts, grown, filter_append, none_reported, append_nil]

section

variable (engine : Engine)

/-- Hosts that count no calls keep the receipts. -/
theorem receipts_modifyHost (h : HostRef) {change : Host → Host}
    (same : ((change (engine.host h)).tally.invocations, (change (engine.host h)).tally.failures) =
      ((engine.host h).tally.invocations, (engine.host h).tally.failures)) :
    (engine.modifyHost h change).receipts = engine.receipts :=
  Receipts.ext (funext (read_modifyHost_of_same
    (fun host => (host.tally.invocations, host.tally.failures)) same)) rfl rfl

theorem receipts_addHost (settings : Settings) (observer : Observer) :
    (engine.addHost settings observer).receipts = engine.receipts :=
  Receipts.ext (funext (read_addHost_of_same
    (fun host => (host.tally.invocations, host.tally.failures)) rfl)) rfl rfl

/-- A transition ends no call. -/
theorem receipts_transition (e : ExecutableRef) (status : Status) :
    (engine.transition e status).receipts = engine.receipts := by
  simp only [transition, modifyTally]
  refine (receipts_modifyHost _ _ ?_).trans (receipts_note _ rfl rfl)
  simp only [Host.modifyTally]
  split
  · rfl
  · split <;> rfl

/-- Neither does a destruction. -/
theorem receipts_destroy (e : ExecutableRef) : (engine.destroy e).receipts = engine.receipts := by
  simp only [destroy, modifyTally]
  refine (receipts_modifyHost _ _ rfl).trans ?_
  split
  · exact (receipts_note _ rfl rfl).trans (receipts_modifyHost _ _ rfl)
  · rfl

theorem receipts_addTemporary (h : HostRef) (work : Work) (handles : Nat) :
    (engine.addTemporary h work handles).receipts = engine.receipts :=
  engine.receipts_modifyHost h rfl

/-- A call that ends is counted, entered in the journal and reported if it ended badly. -/
theorem receipts_settle {h : HostRef} (opened : h < engine.hosts.length) (serial : Nat)
    (event : Event) (delivery : Delivery) (fault : Option ListenerFault) :
    (engine.settle h serial event delivery fault).receipts =
      engine.receipts.settle h (event, delivery) fault := by
  have counted (other : HostRef) : (engine.settle h serial event delivery fault).host other =
      (engine.modifyTally h (·.countInvocation fault.isNone)).host other := by
    cases fault <;> rfl
  refine Receipts.ext (funext fun other => ?_) ?_ ?_
  · simp only [receipts, Receipts.settle, counted, modifyTally, host_modifyHost]
    by_cases here : h = other
    · subst here
      rw [if_pos ⟨rfl, opened⟩, Function.update_self]
      cases fault <;> rfl
    · rw [if_neg fun both => here both.1, Function.update_of_ne (Ne.symm here)]
  · cases fault <;> simp [receipts, Receipts.settle, settle, Event.report, note, modifyTally,
      modifyHost, Occurrence.ended?]
  · cases fault <;> simp [receipts, Receipts.settle, settle, Event.report, note, modifyTally,
      modifyHost, Occurrence.isReport]

end

end Engine

namespace Machine

variable {machine next : Machine}

/-- A listener that returns is counted. -/
theorem receipts_listenerReturned (machine : Machine) {event : Event}
    (opened : (machine.engine.executable event.source).host < machine.engine.hosts.length)
    (serial : Nat) (delivery : Delivery) (fault : Option ListenerFault) :
    (machine.listenerReturned serial event delivery fault).engine.receipts =
      machine.engine.receipts.settle (machine.engine.executable event.source).host
        (event, delivery) fault := by
  rw [engine_listenerReturned]
  exact machine.engine.receipts_settle opened serial event delivery fault

/-- The call of the listener on top has ended, and the host of its source has counted it. -/
def Counts (machine : Machine) (after : Receipts) : Prop :=
  ∃ serial event delivery rest fault, machine.stack = .guard serial event delivery :: rest ∧
    event.source < machine.engine.executables.length ∧
    after = machine.engine.receipts.settle (machine.engine.executable event.source).host
      (event, delivery) fault

section

variable (sound : machine.Sound)
include sound

/-- A step shows only if it ends the call of a listener. -/
theorem Sound.receipts_or_ended (step : Next machine next) :
    next.engine.receipts = machine.engine.receipts ∨
      machine.control.ending?.isSome = true ∧ machine.Counts next.engine.receipts := by
  have effect := sound.effect_next step
  generalize next.engine = after at effect
  cases effect with
  | stir stirs | enlist stirs => exact .inl stirs.receipts_eq
  | advance | remove | settle | waitOver => exact .inl rfl
  | openHost => exact .inl (receipts_addHost ..)
  | temporary => exact .inl (receipts_addTemporary ..)
  | register | execute =>
    exact .inl ((receipts_note _ rfl rfl).trans (receipts_modifyHost _ _ rfl))
  | move => exact .inl ((receipts_note _ rfl rfl).trans (receipts_transition ..))
  | destroy => exact .inl ((receipts_note _ rfl rfl).trans (receipts_destroy ..))
  | @wait e =>
    obtain ⟨told, change, stirs, same, -⟩ := (machine.engine.addWait ⟨e, none⟩).exists_listenReady e
      (waitRequest machine.engine.waits.length)
    rw [same]
    exact .inl stirs.receipts_eq
  | ended stands built ends =>
    exact .inr ⟨by rw [ends]; rfl, _, _, _, _, _, stands, built,
      receipts_settle _ (sound.store.hosted _ built) ..⟩

/-- A step counts one call at most. -/
theorem Sound.receipts_next (step : Next machine next) :
    next.engine.receipts = machine.engine.receipts ∨ machine.Counts next.engine.receipts :=
  (sound.receipts_or_ended step).imp_right And.right

/-- As long as a call has not ended nothing shows. -/
theorem Sound.receipts_eq (step : Next machine next) (going : machine.control.ending? = none) :
    next.engine.receipts = machine.engine.receipts := by
  rcases sound.receipts_or_ended step with same | ⟨ended, _⟩
  · exact same
  · rw [going] at ended
    cases ended

/-- What the client does does not show. -/
theorem Sound.receipts_of_clientTurn (turn : machine.clientTurn = true) (step : Next machine next) :
    next.engine.receipts = machine.engine.receipts := by
  refine sound.receipts_eq step ?_
  cases control : machine.control with
  | called | returned => rfl
  | perform | resume | unwind =>
    rw [clientTurn, control] at turn
    cases turn

end

section

variable (reachable : machine.Reachable)
include reachable

/-- The sources of the calls that have ended are built. -/
theorem Reachable.source_lt {call : (Event × Delivery) × Bool}
    (ended : call ∈ machine.engine.receipts.ended) :
    call.1.1.source < machine.engine.executables.length := by
  induction reachable with
  | refl => exact absurd ended not_mem_nil
  | @step machine next reached step ih =>
    have sound := Reachable.sound reached
    refine Nat.lt_of_lt_of_le ?_ (sound.later_next step).grown.executables
    rcases sound.receipts_next step with same | ⟨_, event, delivery, _, fault, _, built, more⟩
    · exact ih (same ▸ ended)
    · rw [more] at ended
      rcases mem_append.mp ended with before | now
      · exact ih before
      · rw [mem_singleton.mp now]
        exact built

/-- A host counts the calls that have ended and concern its executables, and the bad ends. -/
theorem Reachable.counted_eq (h : HostRef) :
    machine.engine.receipts.counted h =
      (machine.engine.receipts.ended.countP fun call =>
          (machine.engine.executable call.1.1.source).host = h,
        machine.engine.receipts.ended.countP fun call =>
          (machine.engine.executable call.1.1.source).host = h ∧ call.2) := by
  induction reachable with
  | refl => rfl
  | @step machine next reached step ih =>
    have sound := Reachable.sound reached
    -- The sources of the calls are built, so the step does not change their hosts.
    have home {call : (Event × Delivery) × Bool}
        (built : call.1.1.source < machine.engine.executables.length) :=
      (sound.later_next step).grown.home _ built
    have before : machine.engine.receipts.counted h =
        (machine.engine.receipts.ended.countP fun call =>
            (next.engine.executable call.1.1.source).host = h,
          machine.engine.receipts.ended.countP fun call =>
            (next.engine.executable call.1.1.source).host = h ∧ call.2) := by
      rw [ih]
      refine Prod.ext (countP_congr fun call ended => ?_)
        (countP_congr fun call ended => ?_)
      · rw [home (Reachable.source_lt reached ended)]
      · rw [home (Reachable.source_lt reached ended)]
    rcases sound.receipts_next step with same | ⟨_, event, delivery, _, fault, _, built, more⟩
    · rw [same]
      exact before
    · rw [more]
      simp only [Receipts.settle, countP_append, countP_singleton,
        @home ((event, delivery), fault.isSome) built]
      by_cases here : (machine.engine.executable event.source).host = h
      · subst here
        rw [Function.update_self, before]
        cases fault <;> simp
      · rw [Function.update_of_ne (Ne.symm here), before]
        simp [here]

/-- A call of a listener that has begun has ended or is being made, as far as the traffic shows. -/
theorem Reachable.settles : machine.traffic.Settles := by
  refine reachable.traffic_invariant (.refl _) (.refl _) ?_
  intro given before after _ step settles
  have silent {notice : Notice} {told calls : List Frame} (telling : notice.Told told) :
      (told ++ calls).filterMap Frame.telling? = calls.filterMap Frame.telling? := by
    rcases telling with rfl | ⟨code, rfl⟩ <;> rfl
  cases step with
  | pass | openHost | subscribe | unsubscribe => exact settles
  | move real calm free telling => exact settles.note _ rfl rfl rfl (silent telling)
  | tell calm free telling | destroy calm free telling => exact settles.calls rfl (silent telling)
  | hear top | hush top | close top | finish top => exact settles.calls rfl (by rw [top]; rfl)
  | post top some_due opened prompt =>
    refine settles.note _ rfl rfl rfl ?_
    rw [top]
    simp only [Traffic.dispatch]
    split <;> rfl
  | putOff top => exact settles.note _ rfl rfl rfl (by rw [top]; rfl)
  | listen => exact settles.note _ rfl rfl rfl rfl
  | pump asked opened first calm free =>
    refine settles.note _ rfl rfl rfl ?_
    simp only [Traffic.dispatch]
    split <;> rfl
  | take top => exact settles.note _ rfl rfl rfl rfl
  | @invoke batch delivery others calls top next there =>
    -- The call that begins is the one that is now being made.
    have before := settles.append_right [(batch.event, delivery)]
    simp only [Traffic.Settles, top] at before ⊢
    simp only [filterMap_append, filterMap_cons, filterMap_nil, Occurrence.told?,
      Occurrence.ended?, Frame.telling?, append_nil] at before ⊢
    refine before.trans ?_
    rw [append_assoc]
    exact (perm_append_singleton _ _).append_left _
  | @settle serial event delivery fault told calls top telling =>
    -- The call that was being made is the one that has ended.
    have quiet : (told ++ calls).filterMap Frame.telling? = calls.filterMap Frame.telling? := by
      rcases telling with rfl | ⟨why, telling⟩
      · rfl
      · exact silent telling
    simp only [Traffic.Settles, top, quiet] at settles ⊢
    simpa [filterMap_cons, Occurrence.told?, Occurrence.ended?, Frame.telling?] using settles

/-- A call of a listener that has begun has ended or is being made. -/
theorem Reachable.told_eq :
    machine.engine.told = ((machine.engine.receipts.ended.map Prod.fst ++
      machine.stack.filterMap Frame.telling? : List (Event × Delivery)) : Multiset _) := by
  -- All of it shows in the traffic.
  have told : machine.engine.journal.toList.filterMap Occurrence.told? =
      machine.traffic.journal.filterMap Occurrence.told? := by
    show _ = (machine.engine.journal.toList.filter Occurrence.isTraffic).filterMap _
    rw [filterMap_filter]
    exact filterMap_congr fun occurrence _ => by cases occurrence <;> rfl
  have ended : machine.engine.receipts.ended =
      machine.traffic.journal.filterMap Occurrence.ended? := by
    show _ = (machine.engine.journal.toList.filter Occurrence.isTraffic).filterMap _
    rw [filterMap_filter]
    exact filterMap_congr fun occurrence _ => by cases occurrence <;> rfl
  have telling : machine.stack.filterMap Frame.telling? =
      machine.traffic.calls.filterMap Frame.telling? := by
    show _ = (machine.stack.filter Frame.isTraffic).filterMap _
    rw [filterMap_filter]
    refine filterMap_congr fun frame _ => ?_
    cases frame with
    | client callback => cases callback <;> rfl
    | _ => rfl
  rw [Engine.told, told, ended, telling]
  exact Multiset.coe_eq_coe.mpr reachable.settles

end

end Machine

end Readiness
