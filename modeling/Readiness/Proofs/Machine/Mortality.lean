import Readiness.Proofs.Delivery.Rules
import Readiness.Proofs.Machine.Course

/-! Whoever has died stays dead, and no call of a listener comes out of nowhere. -/

namespace Readiness

open List

namespace Machine

variable {machine next final : Machine} {scope : Scope} {e : ExecutableRef} {event : Event}
  {delivery : Delivery}

/-- Roots are alive. -/
theorem isAlive_of_mem_roots (root : e ∈ machine.roots) : machine.isAlive e = true := by
  simp only [isAlive, living, contains_eq_mem, decide_eq_true_eq]
  exact subset_reach _ _ _ root

/-- What a command is about is alive. -/
theorem isAlive_of_perform {command : Command} (asked : machine.control = .perform command)
    (about : e ∈ command.executables) : machine.isAlive e = true := by
  refine isAlive_of_mem_roots ?_
  simp only [roots, mem_append, controlExecutables, asked]
  exact .inr about

/-- A call of a listener is on its way: in a batch that waits, or in a frame. -/
inductive Sends (machine : Machine) (event : Event) (delivery : Delivery) : Prop where
  /-- It waits with a host. -/
  | waiting {h : HostRef} {batch : Batch}
    (waits : batch ∈ (machine.engine.host h).queue ++ (machine.engine.host h).deferred)
    (about : batch.event = event) (listed : delivery ∈ batch.deliveries)
  /-- A frame makes it or is going to. -/
  | underway {frame : Frame} (stands : frame ∈ machine.stack)
    (listed : (event, delivery) ∈ frame.sends)

/-- What is sent is in scope. -/
theorem Sound.sends (sound : machine.Sound scope) (sent : machine.Sends event delivery) :
    scope.sends event delivery := by
  cases sent with
  | @waiting h batch waits about listed =>
    exact about ▸ (sound.store.batches h batch waits).sends delivery listed
  | underway stands listed => exact (sound.frames _ stands).sends _ listed

/-- What a machine refers to, and what a step to the next one may bring up. -/
def ownScope (machine next : Machine) : Scope where
  bears := fun e => machine.isAlive e = true ∨ machine.engine.executables.length ≤ e
  sends := fun event delivery => machine.Sends event delivery ∨ machine.Issues next event delivery

/-- A sound machine lies within its own scope. -/
theorem Sound.ownScope (sound : machine.Sound) (next : Machine) :
    machine.Sound (machine.ownScope next) := by
  -- Everything that the machine refers to is among the roots, and whoever is a root is alive.
  have root {e : ExecutableRef} (among : e ∈ machine.roots) : (machine.ownScope next).bears e :=
    .inl (isAlive_of_mem_roots among)
  refine ⟨⟨{ sound.store with batches := ?_, held := ?_, closed := ?_ }, ?_, sound.backed,
    sound.layered⟩, ?_⟩
  · intro h batch waits
    have fits := sound.store.batches h batch waits
    refine ⟨⟨fits.built, root ?_⟩, fits.home, fits.known, fun delivery listed =>
      .inl (.waiting waits rfl listed)⟩
    simp only [roots, mem_append]
    exact .inl (.inl (.inr (mem_map_of_mem (mem_waitingBatches_of_mem waits))))
  · intro e held
    rcases Nat.lt_or_ge e machine.engine.executables.length with built | beyond
    · refine root ?_
      simp only [roots, mem_append, mem_filter, mem_range]
      exact .inl (.inl (.inl ⟨built, decide_eq_true held⟩))
    · exact .inr beyond
  · intro e borne d listed
    rcases borne with alive | beyond
    · exact .inl (isAlive_of_mem_dependencies sound.store (sound.lt_of_isAlive alive) alive listed)
    · rw [Engine.executable_of_ge beyond] at listed
      cases listed
  · intro frame stands
    have known := sound.frames frame stands
    refine { known with
      has := fun e among => ⟨known.executables e among, root ?_⟩
      sends := fun call listed => .inl (.underway stands listed) }
    simp only [roots, mem_append]
    exact .inl (.inr (mem_flatMap.mpr ⟨frame, stands, among⟩))
  · have fits := sound.control
    cases turn : machine.control with
    | perform command =>
      rw [turn] at fits
      refine ⟨{ fits.1 with has := fun e among => ⟨fits.1.executables e among, root ?_⟩ }, fits.2⟩
      simp only [roots, mem_append, controlExecutables, turn]
      exact .inr among
    | _ => rw [turn] at fits; exact fits

/-- The next state of a run lies within the scope of the one before. -/
theorem Reachable.within (reachable : machine.Reachable) (step : Next machine next) :
    next.Sound (machine.ownScope next) :=
  ((reachable.sound.ownScope next).later_within
    ⟨.inr (Nat.le_refl _), fun _ _ issued => .inr issued⟩ step).sound

/-- Nothing comes back to life. -/
theorem Reachable.isAlive_of_next (reachable : machine.Reachable) (step : Next machine next)
    (alive : next.isAlive e = true) :
    machine.isAlive e = true ∨ machine.engine.executables.length ≤ e :=
  ((reachable.within step).has_of_isAlive alive).borne

/-- What is sent was sent before, or is issued now. -/
theorem Reachable.sends_of_next (reachable : machine.Reachable) (step : Next machine next)
    (sent : next.Sends event delivery) :
    machine.Sends event delivery ∨ machine.Issues next event delivery :=
  (reachable.within step).sends sent

end Machine

end Readiness
