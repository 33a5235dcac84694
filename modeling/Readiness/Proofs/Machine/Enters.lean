import Readiness.Proofs.Engine.Annals
import Readiness.Proofs.Machine.Effect

/-! What one step of a run can enter in the annals.

Time passes, hosts are opened, executables are built, begin their work, move and are destroyed.
Whatever else a step does is at most noted in the journal.
-/

namespace Readiness

open Engine

namespace Engine

/-- What only stirs the store is noted in the journal at most. -/
theorem Stirs.noted {before after : Engine} (stirs : before.Stirs after) :
    before.annals.Noted after.annals := by
  obtain ⟨news, minor, grown⟩ := stirs.journal
  refine ⟨news, fun occurrence member => ?_, Annals.ext stirs.clock stirs.size stirs.hosts
    (funext fun e => congrArg (·.file) (stirs.matter e))
    (funext fun h => congrArg (·.file) (stirs.books h)) grown⟩
  have minor := minor occurrence member
  cases occurrence <;> first | rfl | cases minor

theorem noted_settle (engine : Engine) (h : HostRef) (serial : Nat) (event : Event)
    (delivery : Delivery) (fault : Option ListenerFault) :
    engine.annals.Noted (engine.settle h serial event delivery fault).annals := by
  -- What a host counts of calls is not on file.
  have counted : engine.annals.Noted ((engine.modifyTally h (·.countInvocation fault.isNone)).note
      (.returned serial event delivery fault)).annals :=
    (Annals.Noted.of_same (engine.annals_modifyHost_of_same h rfl)).trans (noted_note _ rfl)
  cases fault with
  | none => exact counted
  | some why => exact counted.trans (noted_note _ rfl)

end Engine

namespace Machine

/-- What the annals can be after one step. -/
inductive Enters (machine : Machine) : Annals → Prop where
  | note {after : Annals} (noted : machine.engine.annals.Noted after) : Enters machine after
  | advance (elapsed : Nat) :
    Enters machine { machine.engine.annals with clock := machine.engine.clock + elapsed }
  | openHost (settings : Settings) :
    Enters machine
      { machine.engine.annals with
        hosts := machine.engine.annals.hosts + 1
        office := Function.update machine.engine.annals.office machine.engine.annals.hosts
          { settings } }
  | temporary {h : HostRef} {work : Work} (opened : h < machine.engine.hosts.length)
    (lawful : work.fault? = none) :
    Enters machine
      { machine.engine.annals with
        size := machine.engine.annals.size + 1
        file := Function.update machine.engine.annals.file machine.engine.annals.size
          { id := (machine.engine.host h).temporaryId (machine.engine.host h).nextTemporary
            registered := false, host := h, work }
        office := Function.update machine.engine.annals.office h
          { machine.engine.annals.office h with
            nextTemporary := (machine.engine.host h).nextTemporary + 1 } }
  | register {h : HostRef} {id : String} {work : Work} (opened : h < machine.engine.hosts.length)
    (lawful : work.fault? = none) (vacant : machine.resolve? h id = none) :
    Enters machine
      { machine.engine.annals with
        size := machine.engine.annals.size + 1
        file := Function.update machine.engine.annals.file machine.engine.annals.size
          { id, registered := true, host := h, work }
        office := Function.update machine.engine.annals.office h
          ((machine.engine.annals.office h).enrol id machine.engine.annals.size)
        journal := machine.engine.annals.journal ++ [.registered machine.engine.annals.size] }
  | execute {e : ExecutableRef} {refresh : Refresh}
    (asked : machine.control = .perform (.execute e refresh))
    (runs : (refresh = .ifNotReady && (machine.engine.executable e).isReady) = false) :
    Enters machine
      { machine.engine.annals with
        file := Function.update machine.engine.annals.file e
          ((machine.engine.annals.file e).begin machine.engine.clock)
        journal := machine.engine.annals.journal ++
          [.observed (machine.engine.executable e).host
            (.executed e (machine.engine.executable e).status)] }
  | move {e : ExecutableRef} {status : Status}
    (asked : machine.control = .perform (.setStatus e status))
    (moves : (machine.engine.executable e).moves status = true) :
    Enters machine
      { machine.engine.annals with
        file := Function.update machine.engine.annals.file e
          ((machine.engine.annals.file e).moveTo status (machine.engine.dating e)).file
        office := Function.update machine.engine.annals.office (machine.engine.executable e).host
          ((machine.engine.annals.office (machine.engine.executable e).host).modifyTally
            (·.countTransition (machine.engine.executable e).status status
              (machine.engine.spent e)))
        journal := machine.engine.annals.journal ++
          [.transitioned e (machine.engine.executable e).status status,
            .observed (machine.engine.executable e).host
              (.transitioned e (machine.engine.executable e).status status)] }
  | destroy {e : ExecutableRef} {after : Annals}
    (asked : machine.control = .perform (.destroy e))
    (there : (machine.engine.executable e).destroyed = false)
    (noted : Annals.Noted
      { machine.engine.annals with
        file := Function.update machine.engine.annals.file e
          { machine.engine.annals.file e with destroyed := true }
        office := Function.update machine.engine.annals.office (machine.engine.executable e).host
          (if (machine.engine.executable e).registered then
            (machine.engine.annals.office (machine.engine.executable e).host).strike
              (machine.engine.executable e).id
          else machine.engine.annals.office (machine.engine.executable e).host) } after) :
    Enters machine after

variable {machine next : Machine}

theorem Enters.of_same {after : Engine} (same : after.annals = machine.engine.annals) :
    machine.Enters after.annals :=
  .note (.of_same same)

/-- What a step of a run can enter in the annals. -/
theorem Sound.enters_next (sound : machine.Sound) (step : Next machine next) :
    machine.Enters next.engine.annals := by
  have effect := sound.effect_next step
  generalize next.engine = after at effect
  cases effect with
  | stir stirs => exact .note stirs.noted
  | advance elapsed => exact .advance elapsed
  | openHost settings observer =>
    rw [annals_addHost]
    exact .openHost settings
  | temporary handles opened lawful =>
    rw [annals_addTemporary _ opened]
    exact .temporary opened lawful
  | register opened lawful vacant =>
    rw [Engine.addRegistered, annals_note, annals_modifyHost _ (by exact opened),
      annals_addExecutable]
    exact .register opened lawful vacant
  | execute asked built runs =>
    -- That the host counts the execution is not on file.
    rw [annals_note, Engine.modifyTally, annals_modifyHost_of_same _ _ rfl,
      annals_modifyExecutable _ built]
    exact .execute asked runs
  | @move e status asked built moves =>
    rw [annals_note, annals_transition _ built (sound.store.hosted e built)]
    simp only [List.append_assoc]
    exact .move asked moves
  | @destroy e asked built there =>
    refine .destroy asked there ?_
    exact (machine.engine.annals_destroy built (sound.store.hosted e built)).trans
      (noted_note _ rfl)
  | enlist stirs built more =>
    -- The listeners that are registered are not on file.
    exact .note (stirs.noted.trans (.of_same (annals_modifyExecutable_of_same _ _ rfl)))
  | remove => exact .of_same (annals_modifyExecutable_of_same _ _ rfl)
  | settle | waitOver => exact .of_same rfl
  | @wait e =>
    obtain ⟨told, change, stirs, same, -⟩ := (machine.engine.addWait ⟨e, none⟩).exists_listenReady e
      (waitRequest machine.engine.waits.length)
    rw [same]
    exact .note (stirs.noted.trans (.of_same (annals_modifyExecutable_of_same _ _ rfl)))
  | ended => exact .note (noted_settle ..)

namespace Enters

variable {after : Annals}

variable (enters : machine.Enters after)
include enters

theorem clock_le : machine.engine.clock ≤ after.clock := by
  cases enters with
  | note noted =>
    obtain ⟨news, _, rfl⟩ := noted
    exact Nat.le_refl _
  | advance elapsed => exact Nat.le_add_right _ _
  | destroy asked there noted =>
    obtain ⟨news, _, rfl⟩ := noted
    exact Nat.le_refl _
  | _ => exact Nat.le_refl _

/-- A step only adds to the journal. -/
theorem journal_grows : ∃ news, after.journal = machine.engine.journal.toList ++ news := by
  cases enters with
  | note noted =>
    obtain ⟨news, _, rfl⟩ := noted
    exact ⟨news, rfl⟩
  | advance | openHost | temporary => exact ⟨[], (List.append_nil _).symm⟩
  | register | execute | move => exact ⟨_, rfl⟩
  | destroy asked there noted =>
    obtain ⟨news, _, rfl⟩ := noted
    exact ⟨news, rfl⟩

/-- No step changes where an executable is registered, and under what id. -/
theorem registration_eq {e : ExecutableRef} (built : e < machine.engine.executables.length) :
    (after.file e).registration = (machine.engine.annals.file e).registration := by
  -- Only the newest executable gets a registration.
  have older : e ≠ machine.engine.annals.size := Nat.ne_of_lt built
  cases enters with
  | note noted =>
    obtain ⟨news, _, rfl⟩ := noted
    rfl
  | advance elapsed => rfl
  | openHost settings => rfl
  | temporary opened lawful =>
    exact congrArg Executable.registration (Function.update_of_ne older _ _)
  | register opened lawful vacant =>
    exact congrArg Executable.registration (Function.update_of_ne older _ _)
  | execute asked runs =>
    refine view_update Executable.registration ?_ e
    rfl
  | move asked moves =>
    refine view_update Executable.registration ?_ e
    rfl
  | destroy asked there noted =>
    obtain ⟨news, _, rfl⟩ := noted
    refine view_update Executable.registration ?_ e
    rfl

/-- No step changes the settings of a host that is open. -/
theorem settings_eq {h : HostRef} (opened : h < machine.engine.hosts.length) :
    (after.office h).settings = (machine.engine.annals.office h).settings := by
  cases enters with
  | note noted =>
    obtain ⟨news, _, rfl⟩ := noted
    rfl
  | advance elapsed => rfl
  | openHost settings =>
    exact congrArg Host.settings (Function.update_of_ne (Nat.ne_of_lt opened) _ _)
  | temporary | register =>
    refine view_update Host.settings ?_ h
    rfl
  | execute asked runs => rfl
  | move asked moves =>
    refine view_update Host.settings ?_ h
    rfl
  | destroy asked there noted =>
    obtain ⟨news, _, rfl⟩ := noted
    refine view_update Host.settings ?_ h
    split <;> rfl

end Enters

end Machine

end Readiness
