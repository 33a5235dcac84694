import Readiness.Proofs.Policy.Performed

/-! Machines in which client code is called only for work, and hosts are pumped but not polled.

Whatever the engine does there leads to another machine of this kind, except for the call of a
listener for a batch, which is over before anything else happens.
-/

namespace Readiness

/-- A call that is left when listeners and futures have returned. -/
def Frame.isUncalled (frame : Frame) : Bool :=
  match frame.kind with
  | .hold | .work | .own | .announce | .pump | .deliver | .drain => true
  | .listener | .future | .pumped | .asked | .guard | .foreign => false

/-- A command by which neither listeners nor futures are called. -/
def Command.isUncalled : Command → Bool
  | .invoke _ _ | .poll _ | .synchronise _ _ _ _ | .destroy _ => false
  | _ => true

/-- Whoever has the turn calls neither listeners nor futures. -/
def Control.isUncalled : Control → Bool
  | .perform command => command.isUncalled
  | _ => true

/-- What follows a command of this kind is of this kind. -/
theorem Command.Sequel.uncalled {engine : Engine} {command : Command} {pushed : List Frame}
    {control : Control} (sequel : command.Sequel engine pushed control) (passive : engine.Passive)
    (uncalled : command.isUncalled = true) :
    pushed.all Frame.isUncalled = true ∧ control.isUncalled = true := by
  cases sequel with
  | ends | build | execute => exact ⟨rfl, rfl⟩
  | put is => rcases is with is | is | is <;> simp [Frame.isUncalled, is, Control.isUncalled]
  | observe noisy => exact absurd passive noisy
  | listener | ask | run => cases uncalled
  | other odd =>
    have here := odd .hold
    cases command with
    | invoke | poll | synchronise | destroy => cases uncalled
    | _ => simp [suits] at here

/-- What follows a call of this kind is of this kind, unless it calls a listener or synchronises. -/
theorem Frame.Sequel.uncalled {engine : Engine} {frame : Frame} {pushed : List Frame}
    {control : Control} (sequel : frame.Sequel engine pushed control) (passive : engine.Passive)
    (uncalled : frame.isUncalled = true)
    (told : ∀ batch, frame = .deliver batch → batch.deliveries = [])
    (apart : ∀ e, frame ≠ .gather e) :
    pushed.all Frame.isUncalled = true ∧ control.isUncalled = true := by
  cases sequel with
  | ends | pump | take => exact ⟨rfl, rfl⟩
  | client => exact ⟨by simpa using uncalled, rfl⟩
  | own is own goes =>
    rcases goes with ⟨_, rfl⟩ | ⟨_, _, rfl⟩ <;>
      simp [isUncalled, own, Control.isUncalled, Command.isUncalled]
  | work is own work => simp [isUncalled, own, work, Control.isUncalled]
  | loop h is =>
    have drain : (Frame.drain h).kind = .drain := rfl
    rcases is with ⟨_, is⟩ | ⟨_, is⟩ <;> simp [isUncalled, is, drain, Control.isUncalled]
  | tell first => exact absurd (told _ rfl) (by simp [first])
  | observe noisy => exact absurd passive noisy
  | ask | future | renew => cases uncalled
  | other odd =>
    rcases odd with odd | ⟨e, rfl⟩
    · rw [isUncalled, odd] at uncalled
      cases uncalled
    · exact absurd rfl (apart e)

namespace Machine

variable {machine next : Machine}

/-- Neither listeners nor futures are being called. -/
structure Uncalled (machine : Machine) : Prop where
  frames : ∀ frame ∈ machine.stack, frame.isUncalled = true
  control : machine.control.isUncalled = true

namespace Uncalled

theorem command (uncalled : machine.Uncalled) {command : Command}
    (turn : machine.control = .perform command) : command.isUncalled = true := by
  have control := uncalled.control
  rwa [turn] at control

theorem perform {frame : Frame} (frames : ∀ frame ∈ machine.stack, frame.isUncalled = true)
    (uncalled : frame.isUncalled = true) {command : Command} (fits : command.isUncalled = true) :
    ((machine.push frame).perform command).Uncalled :=
  ⟨List.forall_mem_cons.mpr ⟨uncalled, frames⟩, fits⟩

theorem append {base pushed : List Frame} (stack : machine.stack = pushed ++ base)
    (frames : ∀ frame ∈ base, frame.isUncalled = true)
    (sequel : pushed.all Frame.isUncalled = true ∧ machine.control.isUncalled = true) :
    machine.Uncalled :=
  ⟨stack ▸ List.forall_mem_append.mpr ⟨List.all_eq_true.mp sequel.1, frames⟩, sequel.2⟩

/-- Whatever the engine does next, unless it calls a listener or synchronises. -/
theorem step (uncalled : machine.Uncalled) (passive : machine.engine.Passive)
    (told : ∀ answer batch rest, machine.control = .resume answer →
      machine.stack = .deliver batch :: rest → batch.deliveries = [])
    (apart : ∀ answer e rest, machine.control = .resume answer →
      machine.stack ≠ .gather e :: rest) : machine.step.Uncalled := by
  cases turn : machine.control with
  | perform command =>
    obtain ⟨pushed, stack, sequel⟩ := machine.sequel_start command
    rw [step_of_perform turn]
    exact .append stack uncalled.frames (sequel.uncalled passive (uncalled.command turn))
  | resume answer =>
    cases stands : machine.stack with
    | nil =>
      rw [Machine.step, turn, stands]
      exact ⟨List.forall_mem_nil _, rfl⟩
    | cons frame rest =>
      have frames := uncalled.frames
      rw [stands] at frames
      obtain ⟨first, others⟩ := List.forall_mem_cons.mp frames
      obtain ⟨pushed, stack, sequel⟩ := sequel_receive { machine with stack := rest } answer frame
      rw [step_of_resume turn stands]
      refine .append stack others (sequel.uncalled passive first ?_ ?_)
      · exact fun batch same => told answer batch rest turn (same ▸ stands)
      · exact fun e same => apart answer e rest turn (same ▸ stands)
  | unwind payload =>
    cases stands : machine.stack with
    | nil =>
      rw [Machine.step, turn, stands]
      exact ⟨List.forall_mem_nil _, rfl⟩
    | cons frame rest =>
      have frames := uncalled.frames
      rw [stands] at frames
      obtain ⟨first, others⟩ := List.forall_mem_cons.mp frames
      have same : machine.step.stack = rest ∧ machine.step.control = .unwind payload := by
        rw [step_of_unwind turn stands]
        cases frame with
        -- A panic stops nowhere, as no listener is being called.
        | guard => cases first
        | _ => exact ⟨rfl, turn⟩
      exact ⟨same.1 ▸ others, by rw [same.2]; rfl⟩
  | called | returned answer =>
    rw [Machine.step, turn]
    exact uncalled

/-- No step ends the call of a listener. -/
theorem receipts_step (uncalled : machine.Uncalled) (sound : machine.Sound)
    (busy : machine.clientTurn = false) :
    machine.step.engine.receipts = machine.engine.receipts := by
  rcases sound.receipts_next (.engine busy) with same | ⟨_, _, _, _, _, stands, _⟩
  · exact same
  · have guarded := uncalled.frames _ (by rw [stands]; exact List.mem_cons_self)
    cases guarded

end Uncalled

end Machine

end Readiness
