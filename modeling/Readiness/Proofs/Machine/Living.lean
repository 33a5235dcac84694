import Readiness.Machine.Liveness
import Readiness.Proofs.Engine.Sound

/-! The living executables: all of them are in the store, and their dependencies live with them. -/

namespace Readiness

open List

namespace Machine

variable {e d : ExecutableRef} {machine : Machine} {engine : Engine} {bound : Nat}
  {reached : List ExecutableRef} {batch : Batch}

theorem subset_reach (engine : Engine) (bound : Nat) (reached : List ExecutableRef) :
    reached ⊆ reach engine bound reached := by
  induction bound generalizing reached with
  | zero => exact List.Subset.refl _
  | succ e ih =>
    unfold reach
    split
    · exact fun _ member => ih _ (mem_append_right _ member)
    · exact ih reached

/-- What the walk finds below its bound is a dependency of something that it has found, or was
there from the start. -/
theorem mem_reach_cases (found : e ∈ reach engine bound reached) :
    e ∈ reached ∨ ∃ above < bound, e ∈ (engine.executable above).work.dependencies := by
  induction bound generalizing reached with
  | zero => exact .inl found
  | succ top ih =>
    unfold reach at found
    rcases ih found with here | ⟨above, below, listed⟩
    · split at here
      · rcases mem_append.mp here with listed | old
        · exact .inr ⟨top, Nat.lt_succ_self top, listed⟩
        · exact .inl old
      · exact .inl here
    · exact .inr ⟨above, Nat.lt_succ_of_lt below, listed⟩

/-- The walk finds the dependencies of everything that it finds. -/
theorem reach_closed (older : ∀ e, ∀ d ∈ (engine.executable e).work.dependencies, d < e)
    (below : e < bound) (found : e ∈ reach engine bound reached)
    (listed : d ∈ (engine.executable e).work.dependencies) : d ∈ reach engine bound reached := by
  induction bound generalizing reached with
  | zero => exact absurd below (Nat.not_lt_zero e)
  | succ top ih =>
    unfold reach at found ⊢
    rcases Nat.lt_or_eq_of_le (Nat.le_of_lt_succ below) with lower | rfl
    · exact ih lower found
    · -- The topmost one can only have been there before its turn came.
      have early : e ∈ reached := by
        rcases mem_reach_cases found with here | ⟨above, beneath, among⟩
        · split at here
          · rcases mem_append.mp here with own | old
            · exact absurd (older e e own) (Nat.lt_irrefl e)
            · exact old
          · exact here
        · exact absurd (older above e among) (Nat.not_lt_of_lt beneath)
      apply subset_reach
      rw [if_pos (by simpa using early)]
      exact mem_append_left _ listed

/-- A batch that waits with some host is found in the queues of that host. -/
theorem mem_waitingBatches (waits : batch ∈ machine.waitingBatches) :
    ∃ h, batch ∈ (machine.engine.host h).queue ++ (machine.engine.host h).deferred := by
  obtain ⟨host, opened, member⟩ := mem_flatMap.mp waits
  obtain ⟨h, within, rfl⟩ := mem_iff_getElem.mp opened
  exact ⟨h, by simpa [Engine.host, getD_eq_getElem?_getD, within] using member⟩

/-- Whatever is found in the queues of a host waits there. -/
theorem mem_waitingBatches_of_mem {h : HostRef}
    (waits : batch ∈ (machine.engine.host h).queue ++ (machine.engine.host h).deferred) :
    batch ∈ machine.waitingBatches := by
  have opened := Engine.host_lt_of_waiting waits
  refine mem_flatMap.mpr ⟨machine.engine.host h, ?_, waits⟩
  simp [Engine.host, getD_eq_getElem?_getD, opened]

/-- The dependencies of a living executable live. -/
theorem isAlive_of_mem_dependencies (sound : machine.engine.Sound)
    (built : e < machine.engine.executables.length) (alive : machine.isAlive e = true)
    (listed : d ∈ (machine.engine.executable e).work.dependencies) : machine.isAlive d = true := by
  simp only [isAlive, living, contains_eq_mem, decide_eq_true_eq] at alive ⊢
  exact reach_closed sound.older built alive listed

end Machine

end Readiness
