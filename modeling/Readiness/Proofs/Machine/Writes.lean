import Readiness.Proofs.Delivery.Mail
import Readiness.Proofs.Machine.Effect
import Readiness.Proofs.Machine.Mortality

/-! What one step of a run can write into the record of the store.

Listeners are registered, removed, spent or cleared, waits begin and end, executables move and are
destroyed. Whatever else a step does, nothing of it shows.
-/

namespace Readiness

open List Engine

/-- A verdict is on the wait of the listener. -/
theorem Listener.wait?_of_verdict? {listener : Listener} {event : Event} {w : WaitRef}
    {settlement : Settlement} (verdict : listener.verdict? event = some (w, settlement)) :
    listener.wait? = some w := by
  cases listener with
  | waitReady | waitFailed =>
    cases verdict
    rfl
  | _ => cases verdict

/-- Listeners may have been registered with one executable, and none that ends a wait. -/
def Record.Enlists (before after : Record) : Prop :=
  ∃ d grown, (before.subscriptions d).Enlisted (fun listener => listener.wait? = none) grown ∧
    after = { before with subscriptions := Function.update before.subscriptions d grown }

namespace Engine

/-- What only stirs the store does not show. -/
theorem Stirs.record_eq {before after : Engine} (stirs : before.Stirs after) :
    after.record = before.record := by
  obtain ⟨news, minor, grown⟩ := stirs.journal
  have none_moved : news.filter Occurrence.isMove = [] := by
    refine filter_eq_nil_iff.mpr fun occurrence member => ?_
    have minor := minor occurrence member
    cases occurrence <;> first | exact Bool.false_ne_true | cases minor
  refine Record.ext (funext fun e => congrArg (·.id) (stirs.matter e))
    (funext fun e => congrArg (·.status) (stirs.matter e))
    (funext fun e => congrArg (·.destroyed) (stirs.matter e))
    (funext fun e => congrArg (·.subscriptions) (stirs.matter e)) stirs.waits
    (funext fun h => congrArg (·.tally.executing) (stirs.books h)) ?_
  simp only [record, grown, filter_append, none_moved, append_nil]

/-- A request for readiness adds listeners. -/
theorem record_listenReady (engine : Engine) {e : ExecutableRef}
    (built : e < engine.executables.length) (request : ReadyRequest) :
    (engine.listenReady e request).record =
      { engine.record with
        subscriptions := Function.update engine.record.subscriptions e
          ((engine.executable e).requested request) } := by
  obtain ⟨told, change, stirs, same, grown⟩ := engine.exists_listenReady e request
  rw [same, record_modifySubscriptions _ (stirs.size ▸ built), stirs.record_eq, ← grown]
  rfl

/-- The end of a call is not recorded. -/
theorem record_settle (engine : Engine) (h : HostRef) (serial : Nat) (event : Event)
    (delivery : Delivery) (fault : Option ListenerFault) :
    (engine.settle h serial event delivery fault).record = engine.record := by
  have counted : ((engine.modifyTally h (·.countInvocation fault.isNone)).note
      (.returned serial event delivery fault)).record = engine.record :=
    (record_note _ rfl).trans (engine.record_modifyHost_of_same h rfl)
  cases fault with
  | none => exact counted
  | some why => exact (record_note _ rfl).trans counted

end Engine

namespace Machine

/-- What the record can be after one step. -/
inductive Writes (machine : Machine) : Record → Prop where
  | pass : Writes machine machine.engine.record
  | build (id : String) :
    Writes machine
      { machine.engine.record with
        id := Function.update machine.engine.record.id machine.engine.executables.length id }
  | enlist {after : Record} (more : machine.engine.record.Enlists after) : Writes machine after
  | remove {d : ExecutableRef} (code : CodeRef) (status : Option Status) :
    Writes machine
      { machine.engine.record with
        subscriptions := Function.update machine.engine.record.subscriptions d
          ((machine.engine.record.subscriptions d).remove (.client code) status) }
  | move {e : ExecutableRef} {status : Status}
    (asked : machine.control = .perform (.setStatus e status))
    (moves : (machine.engine.executable e).moves status = true) :
    Writes machine
      { machine.engine.record with
        status := Function.update machine.engine.record.status e status
        subscriptions := Function.update machine.engine.record.subscriptions e
          ((machine.engine.record.subscriptions e).settle status)
        executing := Function.update machine.engine.record.executing
          (machine.engine.executable e).host ((machine.engine.executable e).mark status
            (machine.engine.record.executing (machine.engine.executable e).host))
        moves := machine.engine.record.moves ++
          [.transitioned e (machine.engine.record.status e) status] }
  | destroy {e : ExecutableRef} (asked : machine.control = .perform (.destroy e))
    (there : (machine.engine.executable e).destroyed = false) :
    Writes machine
      { machine.engine.record with
        destroyed := Function.update machine.engine.record.destroyed e true
        subscriptions := Function.update machine.engine.record.subscriptions e
          (machine.engine.record.subscriptions e).clear
        executing := Function.update machine.engine.record.executing
          (machine.engine.executable e).host
          ((machine.engine.record.executing (machine.engine.executable e).host).filter
            (· != (machine.engine.executable e).id)) }
  | settle {listener : Listener} {event : Event} {w : WaitRef} {settlement : Settlement}
    (asked : machine.control = .perform (.invoke listener event))
    (verdict : listener.verdict? event = some (w, settlement)) :
    Writes machine
      { machine.engine.record with waits := (machine.engine.settleWait w settlement).waits }
  | waitOver {e : ExecutableRef} (turn : machine.clientTurn = true)
    (alive : machine.isAlive e = true) (failed : (machine.engine.executable e).hasFailed = true) :
    Writes machine
      { machine.engine.record with
        waits := machine.engine.record.waits ++
          [⟨e, some (.failed (machine.engine.executable e).status)⟩] }
  | wait {e : ExecutableRef} (turn : machine.clientTurn = true) (alive : machine.isAlive e = true)
    (unfailed : (machine.engine.executable e).hasFailed = false) :
    Writes machine
      { machine.engine.record with
        waits := machine.engine.record.waits ++ [⟨e, none⟩]
        subscriptions := Function.update machine.engine.record.subscriptions e
          ((machine.engine.executable e).requested (waitRequest machine.engine.waits.length)) }

variable {machine next : Machine} {e : ExecutableRef}

namespace Writes

variable {after : Record}

variable (writes : machine.Writes after)
include writes

/-- Ids stay. -/
theorem id_eq (built : e < machine.engine.executables.length) :
    after.id e = machine.engine.record.id e := by
  cases writes with
  | build id => exact Function.update_of_ne (Nat.ne_of_lt built) _ _
  | enlist more =>
    obtain ⟨_, _, _, rfl⟩ := more
    rfl
  | _ => rfl

/-- Destruction is final. -/
theorem destroyed_mono (gone : (machine.engine.executable e).destroyed = true) :
    after.destroyed e = true := by
  cases writes with
  | enlist more =>
    obtain ⟨_, _, _, rfl⟩ := more
    exact gone
  | @destroy other asked there =>
    show Function.update machine.engine.record.destroyed other true e = true
    by_cases same : e = other
    · rw [same, Function.update_self]
    · rw [Function.update_of_ne same]
      exact gone
  | _ => exact gone

/-- No wait is forgotten. -/
theorem waits_le : machine.engine.waits.length ≤ after.waits.length := by
  cases writes with
  | enlist more =>
    obtain ⟨_, _, _, rfl⟩ := more
    exact Nat.le_refl _
  | settle asked verdict =>
    show _ ≤ (machine.engine.waits.modify _ _).length
    rw [length_modify]
  | waitOver | wait => simp [Engine.record]
  | _ => exact Nat.le_refl _

/-- A wait stays as it is unless a listener is called that ends it. -/
theorem wait_cases {w : WaitRef} (begun : w < machine.engine.waits.length) :
    after.waits.getD w default = machine.engine.wait w ∨
      ∃ listener event settlement, machine.control = .perform (.invoke listener event) ∧
        listener.verdict? event = some (w, settlement) ∧
        after.waits.getD w default = { machine.engine.wait w with
          report := (machine.engine.wait w).report.or (some settlement) } := by
  -- New waits are put behind the others, so only a report changes one that has begun.
  simp only [Engine.wait, getD_eq_getElem?_getD]
  cases writes with
  | enlist more =>
    obtain ⟨_, _, _, rfl⟩ := more
    exact .inl rfl
  | @settle listener event other settlement asked verdict =>
    show ((machine.engine.waits.modify other _)[w]?).getD default = _ ∨ _
    by_cases same : other = w
    · subst same
      refine .inr ⟨listener, event, settlement, asked, verdict, ?_⟩
      simp [Engine.settleWait, begun]
    · exact .inl (by rw [getElem?_modify_ne _ _ same])
  | waitOver | wait => exact .inl (congrArg (·.getD default) (getElem?_append_left begun))
  | _ => exact .inl rfl

end Writes

/-- The record has all moves. -/
theorem movesOf_record (machine : Machine) (e : ExecutableRef) :
    movesOf e machine.engine.record.moves = movesOf e machine.engine.journal.toList := by
  -- The record leaves out only what is no transition.
  rw [movesOf, Engine.record, filterMap_filter]
  refine filterMap_congr fun occurrence _ => ?_
  cases occurrence <;> rfl

/-- A wait for what has failed ends at once. -/
theorem record_beginWait_of_failed (machine : Machine)
    (failed : (machine.engine.executable e).hasFailed = true) :
    (machine.beginWait e).1.engine.record =
      { machine.engine.record with
        waits := machine.engine.record.waits ++
          [⟨e, some (.failed (machine.engine.executable e).status)⟩] } := by
  simp only [beginWait, failed, if_true]
  rfl

/-- Otherwise a wait adds listeners. -/
theorem record_beginWait (machine : Machine) (built : e < machine.engine.executables.length)
    (unfailed : (machine.engine.executable e).hasFailed = false) :
    (machine.beginWait e).1.engine.record =
      { machine.engine.record with
        waits := machine.engine.record.waits ++ [⟨e, none⟩]
        subscriptions := Function.update machine.engine.record.subscriptions e
          ((machine.engine.executable e).requested
            (waitRequest machine.engine.waits.length)) } := by
  simp only [beginWait, unfailed, Bool.false_eq_true, if_false]
  exact (machine.engine.addWait ⟨e, none⟩).record_listenReady built
    (waitRequest machine.engine.waits.length)

/-- What a step of a run can write into the record. -/
theorem Sound.writes_next (sound : machine.Sound) (step : Next machine next) :
    machine.Writes next.engine.record := by
  have effect := sound.effect_next step
  generalize next.engine = after at effect
  cases effect with
  | stir stirs =>
    rw [stirs.record_eq]
    exact .pass
  | advance elapsed => exact .pass
  | openHost settings observer =>
    rw [record_addHost]
    exact .pass
  | temporary =>
    rw [record_addTemporary]
    exact .build _
  | @register h id work =>
    rw [Engine.addRegistered, record_note _ rfl, record_modifyHost_of_same _ _ rfl,
      record_addExecutable _ rfl rfl rfl]
    exact .build id
  | @execute e =>
    rw [record_note _ rfl, Engine.modifyTally, record_modifyHost_of_same _ _ rfl,
      record_modifyExecutable_of_same _ e rfl rfl rfl rfl]
    exact .pass
  | @move e status asked built moves =>
    rw [record_note _ rfl, record_transition _ built (sound.store.hosted e built)]
    exact .move asked moves
  | @destroy e asked built there =>
    rw [record_note _ rfl, record_destroy _ built (sound.store.hosted e built)]
    exact .destroy asked there
  | @enlist told d change stirs built more =>
    rw [record_modifySubscriptions _ (stirs.size ▸ built), stirs.record_eq]
    exact .enlist ⟨d, _, more, rfl⟩
  | remove built code status =>
    rw [record_modifySubscriptions _ built]
    exact .remove code status
  | settle asked verdict => exact .settle asked verdict
  | waitOver turn alive failed => exact .waitOver turn alive failed
  | @wait e turn alive unfailed =>
    rw [record_listenReady (machine.engine.addWait _) (sound.lt_of_isAlive alive)]
    exact .wait turn alive unfailed
  | ended =>
    rw [record_settle]
    exact .pass

/-- Every step of a run writes so. -/
theorem Reachable.writes_next (reachable : machine.Reachable) (step : Next machine next) :
    machine.Writes next.engine.record :=
  reachable.sound.writes_next step

/-- An executable keeps its id. -/
theorem Reachable.id_reaches (reachable : machine.Reachable)
    (built : e < machine.engine.executables.length) {final : Machine}
    (run : machine.Reaches final) :
    (final.engine.executable e).id = (machine.engine.executable e).id := by
  induction run with
  | refl => rfl
  | step early step ih =>
    have grown := (reachable.sound.later_reaches early).grown.executables
    have reached : Reachable _ := Reaches.trans reachable early
    exact ((reached.writes_next step).id_eq (Nat.lt_of_lt_of_le built grown)).trans ih

end Machine

end Readiness
