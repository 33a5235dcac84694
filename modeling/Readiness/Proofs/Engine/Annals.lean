import Mathlib.Logic.Function.Basic
import Readiness.Proofs.Engine.Sound

/-! The annals of the store: the lives of executables, what their hosts have on file, and the whole
journal.

They leave out listeners, batches, gates, waits and sessions. Most steps only write into the journal
then, and few of them write anything that is about a life.
-/

namespace Readiness

open List

variable {e : ExecutableRef} {h : HostRef}

/-- An update does not show where the view of the new value is that of the old one. -/
theorem view_update {α β γ : Type*} [DecidableEq α] {function : α → β} {place : α} {value : β}
    (view : β → γ) (same : view value = view (function place)) (other : α) :
    view (Function.update function place value other) = view (function other) := by
  rw [Function.update_apply]
  split
  · rename_i here
    rw [here, same]
  · rfl

/-- What is on file about an executable: all but its listeners, its runs and its handles. -/
def Executable.file (executable : Executable) : Executable :=
  { executable with subscriptions := {}, runs := 0, handles := 0 }

/-- Whether an executable is registered, with which host, and under what id. -/
def Executable.registration (executable : Executable) : Bool × HostRef × String :=
  (executable.registered, executable.host, executable.id)

/-- What is on file about a host: its settings, its roster, the next temporary id, and what it has
counted of transitions. -/
def Host.file (host : Host) : Host :=
  { settings := host.settings
    roster := host.roster
    tally := { transitions := host.tally.transitions, stays := host.tally.stays }
    nextTemporary := host.nextTemporary }

/-- A transition, or the observer being told of a transition or of an execution. -/
def Occurrence.isVital : Occurrence → Bool
  | .transitioned _ _ _ | .observed _ (.transitioned _ _ _) | .observed _ (.executed _ _) => true
  | _ => false

/-- The lives of executables, what hosts have on file, and the journal. -/
@[ext] structure Annals where
  /-- The reading of the clock. -/
  clock : Nat
  /-- How many executables have been built. -/
  size : Nat
  /-- How many hosts are open. -/
  hosts : Nat
  /-- What is on file about each executable. -/
  file : ExecutableRef → Executable
  /-- What is on file about each host. -/
  office : HostRef → Host
  /-- What happened so far. -/
  journal : List Occurrence

namespace Annals

/-- The journal may have grown, by nothing that is about a life. -/
def Noted (before after : Annals) : Prop :=
  ∃ news : List Occurrence, (∀ occurrence ∈ news, occurrence.isVital = false) ∧
    after = { before with journal := before.journal ++ news }

namespace Noted

/-- Nothing need be written. -/
theorem of_same {before after : Annals} (same : after = before) : before.Noted after := by
  -- The journal grows by an empty list.
  refine ⟨[], fun _ member => absurd member not_mem_nil, ?_⟩
  rw [same, append_nil]

/-- What is written twice is written in one piece. -/
theorem trans {first second third : Annals} (early : first.Noted second)
    (late : second.Noted third) : first.Noted third := by
  obtain ⟨news, minor, rfl⟩ := early
  obtain ⟨more, lesser, rfl⟩ := late
  -- The later entries stand behind the earlier ones.
  refine ⟨news ++ more, fun occurrence member => ?_, by rw [← append_assoc]⟩
  rcases mem_append.mp member with old | new
  · exact minor occurrence old
  · exact lesser occurrence new

end Noted

end Annals

namespace Engine

/-- When a transition takes place, if the host of the executable records that. -/
def dating (engine : Engine) (e : ExecutableRef) : Option Nat :=
  if (engine.hostOf e).settings.timed then some engine.clock else none

/-- The time spent in the status that is left, as far as it is known. -/
def spent (engine : Engine) (e : ExecutableRef) : Option Nat :=
  (engine.dating e).bind fun time => (engine.executable e).since.map (time - ·)

/-- What the store shows of it. -/
def annals (engine : Engine) : Annals where
  clock := engine.clock
  size := engine.executables.length
  hosts := engine.hosts.length
  file := fun e => (engine.executable e).file
  office := fun h => (engine.host h).file
  journal := engine.journal.toList

/-- Nothing is on file about a host that is not open. -/
theorem office_of_ge {engine : Engine} (beyond : engine.hosts.length ≤ h) :
    engine.annals.office h = (default : Host).file := by
  simp [annals, host, getD_eq_getElem?_getD, beyond]

section

variable (engine : Engine)

/-- What is noted stands at the end of the journal. -/
theorem annals_note (occurrence : Occurrence) :
    (engine.note occurrence).annals =
      { engine.annals with journal := engine.annals.journal ++ [occurrence] } := by
  refine Annals.ext rfl rfl rfl rfl rfl ?_
  simp [annals, note]

/-- Notes that are not about a life are no more than notes. -/
theorem noted_note {occurrence : Occurrence} (minor : occurrence.isVital = false) :
    engine.annals.Noted (engine.note occurrence).annals := by
  refine ⟨[occurrence], fun other member => ?_, engine.annals_note occurrence⟩
  rw [mem_singleton.mp member]
  exact minor

/-- A host may change in what is not on file. -/
theorem annals_modifyHost_of_same (h : HostRef) {change : Host → Host}
    (same : (change (engine.host h)).file = (engine.host h).file) :
    (engine.modifyHost h change).annals = engine.annals :=
  Annals.ext rfl rfl (by simp [annals, modifyHost]) rfl
    (funext (read_modifyHost_of_same Host.file same)) rfl

/-- A change of a host shows in its file. -/
theorem annals_modifyHost (opened : h < engine.hosts.length) (change : Host → Host) :
    (engine.modifyHost h change).annals =
      { engine.annals with
        office := Function.update engine.annals.office h (change (engine.host h)).file } :=
  Annals.ext rfl rfl (by simp [annals, modifyHost]) rfl
    (read_modifyHost Host.file opened change) rfl

/-- An executable may change in what is not on file. -/
theorem annals_modifyExecutable_of_same (e : ExecutableRef) {change : Executable → Executable}
    (same : (change (engine.executable e)).file = (engine.executable e).file) :
    (engine.modifyExecutable e change).annals = engine.annals :=
  Annals.ext rfl (by simp [annals, modifyExecutable]) rfl
    (funext (read_modifyExecutable_of_same Executable.file same)) rfl rfl

/-- A change of an executable shows in its file. -/
theorem annals_modifyExecutable (built : e < engine.executables.length)
    (change : Executable → Executable) :
    (engine.modifyExecutable e change).annals =
      { engine.annals with
        file := Function.update engine.annals.file e (change (engine.executable e)).file } :=
  Annals.ext rfl (by simp [annals, modifyExecutable]) rfl
    (read_modifyExecutable Executable.file built change) rfl rfl

/-- A new executable gets a file. -/
theorem annals_addExecutable (added : Executable) :
    (engine.addExecutable added).annals =
      { engine.annals with
        size := engine.annals.size + 1
        file := Function.update engine.annals.file engine.annals.size added.file } :=
  Annals.ext rfl (by simp [annals, addExecutable]) rfl
    (read_addExecutable Executable.file engine added) rfl rfl

/-- A new executable with a temporary id uses up the number of its host. -/
theorem annals_addTemporary (opened : h < engine.hosts.length) (work : Work) (handles : Nat) :
    (engine.addTemporary h work handles).annals =
      { engine.annals with
        size := engine.annals.size + 1
        file := Function.update engine.annals.file engine.annals.size
          { id := (engine.host h).temporaryId (engine.host h).nextTemporary
            registered := false, host := h, work }
        office := Function.update engine.annals.office h
          { engine.annals.office h with nextTemporary := (engine.host h).nextTemporary + 1 } } := by
  unfold addTemporary
  simp only
  rw [annals_addExecutable, annals_modifyHost _ opened]
  rfl

/-- A new host gets a file. -/
theorem annals_addHost (settings : Settings) (observer : Observer) :
    (engine.addHost settings observer).annals =
      { engine.annals with
        hosts := engine.annals.hosts + 1
        office := Function.update engine.annals.office engine.annals.hosts { settings } } :=
  Annals.ext rfl rfl (by simp [annals, addHost]) rfl
    (read_addHost Host.file engine settings observer) rfl

/-- A transition shows in the life, in the counts of the host and in the journal. -/
theorem annals_transition (built : e < engine.executables.length)
    (opened : (engine.executable e).host < engine.hosts.length) (status : Status) :
    (engine.transition e status).annals =
      { engine.annals with
        file := Function.update engine.annals.file e
          ((engine.annals.file e).moveTo status (engine.dating e)).file
        office := Function.update engine.annals.office (engine.executable e).host
          ((engine.annals.office (engine.executable e).host).modifyTally
            (·.countTransition (engine.executable e).status status (engine.spent e)))
        journal := engine.annals.journal ++
          [.transitioned e (engine.executable e).status status] } := by
  unfold transition modifyTally
  simp only
  rw [annals_modifyHost _ (by exact opened), annals_note, annals_modifyExecutable _ built]
  refine Annals.ext rfl rfl rfl rfl ?_ rfl
  refine congrArg (Function.update engine.annals.office (engine.executable e).host) ?_
  -- Whether the executable counts as executing from now on is not on file.
  by_cases ready : status = (engine.executable e).readyStatus
  · simp only [Host.modifyTally, if_pos ready]
    rfl
  · by_cases initial : status = .initialized
    · simp only [Host.modifyTally, if_neg ready, if_pos initial]
      rfl
    · simp only [Host.modifyTally, if_neg ready, if_neg initial]
      rfl

/-- Destruction shows in the life and in the roster. -/
theorem annals_destroy (built : e < engine.executables.length)
    (opened : (engine.executable e).host < engine.hosts.length) :
    Annals.Noted
      { engine.annals with
        file := Function.update engine.annals.file e
          { engine.annals.file e with destroyed := true }
        office := Function.update engine.annals.office (engine.executable e).host
          (if (engine.executable e).registered then
            (engine.annals.office (engine.executable e).host).strike (engine.executable e).id
          else engine.annals.office (engine.executable e).host) }
      (engine.destroy e).annals := by
  have marked : (engine.modifyExecutable e Executable.destroy).annals =
      { engine.annals with
        file := Function.update engine.annals.file e
          { engine.annals.file e with destroyed := true } } :=
    engine.annals_modifyExecutable built Executable.destroy
  unfold destroy modifyTally
  simp only
  refine Annals.Noted.trans ?_ (.of_same (annals_modifyHost_of_same _ _ rfl))
  by_cases listed : ((engine.executable e).registered &&
      (engine.host (engine.executable e).host).roster.any
        (·.1 == (engine.executable e).id)) = true
  · -- The id is on the roster, and comes off it.
    have known := (Bool.and_eq_true_iff.mp listed).1
    rw [if_pos listed]
    refine Annals.Noted.trans (.of_same ?_) (noted_note _ rfl)
    rw [annals_modifyHost _ (by exact opened), marked, if_pos known]
    rfl
  · rw [if_neg listed, marked]
    refine .of_same (Annals.ext rfl rfl rfl rfl ?_ rfl)
    -- Either the executable was never registered, or there is nothing to take off.
    symm
    rw [Function.update_eq_self_iff]
    split
    · rename_i known
      have absent : ∀ entry ∈ (engine.host (engine.executable e).host).roster,
          entry.1 ≠ (engine.executable e).id := by
        intro entry member same
        refine listed (Bool.and_eq_true_iff.mpr ⟨known, any_eq_true.mpr ⟨entry, member, ?_⟩⟩)
        simpa using same
      have kept : (engine.host (engine.executable e).host).roster.filter
          (·.1 != (engine.executable e).id) = (engine.host (engine.executable e).host).roster :=
        filter_eq_self.mpr fun entry member => by simpa using absent entry member
      simp only [annals, Host.file, Host.strike, kept]
    · rfl

end

end Engine

end Readiness
