import Readiness.Proofs.Composite.Moves

/-! How the failure of a dependency travels to a composite: from the watch that the composite has
put on the dependency, through a call on its way, to the request to fail.
-/

namespace Readiness

open Function

variable {given : Circumstances} {view next : View} {c d : ExecutableRef} {failure : Status}

/-- A call that fails the composite along with a dependency is on its way. -/
def View.Alerted (view : View) (c d : ExecutableRef) : Prop :=
  ∃ event : Event, event.source = d ∧ (event, .dependencyFailed c) ∈ view.alerts

/-- Calls reach the composite. -/
structure Circumstances.Heeds (given : Circumstances) (c : ExecutableRef) : Prop where
  alive : given.alive c = true
  calls : ∀ frame, given.loses frame → frame.alerts = 0

namespace Circumstances.Step

/-- A move sets the calls of the watches for it on their way. -/
theorem alerted_of_asked (step : given.Step view next)
    (asked : view.errand = some (.setStatus d failure)) (real : failure ≠ .null)
    (new : failure ≠ view.status d) (watch : (failure, .dependencyFailed c) ∈ view.watches d) :
    next.Alerted c d := by
  rcases step.of_asked asked with ⟨_, same⟩ | rfl
  · exact absurd same (not_or.mpr ⟨real, new⟩)
  · refine ⟨⟨d, failure, view.status d⟩, rfl, Multiset.mem_add.mpr (.inl ?_)⟩
    exact Multiset.mem_map.mpr ⟨_, Multiset.mem_filter.mpr ⟨watch, rfl⟩, rfl⟩

/-- A call that is on its way stays so until it fails the composite. -/
theorem alerted (step : given.Step view next) (heeds : given.Heeds c)
    (there : next.destroyed d = false) (alerted : view.Alerted c d) :
    next.Alerted c d ∨ next.errand = some (.setStatus c .failed) := by
  obtain ⟨event, source, sent⟩ := alerted
  cases step with
  | move => exact .inl ⟨event, source, Multiset.mem_add.mpr (.inr sent)⟩
  | count =>
    refine .inl ⟨event, source, ?_⟩
    rw [View.alerts_countOrRelease]
    exact sent
  | tick _ split =>
    refine .inl ⟨event, source, ?_⟩
    rw [View.alerts_countOrRelease]
    rw [split] at sent
    exact (Multiset.mem_cons.mp sent).resolve_left (by rintro ⟨⟩)
  | skip _ split =>
    refine .inl ⟨event, source, ?_⟩
    rw [split] at sent
    exact (Multiset.mem_cons.mp sent).resolve_left (by rintro ⟨⟩)
  | spare _ split about dead =>
    -- The call that is spared is of somebody else, since the composite is alive.
    refine .inl ⟨event, source, ?_⟩
    rw [split] at sent
    refine (Multiset.mem_cons.mp sent).resolve_left ?_
    rintro ⟨⟩
    cases about
    rw [heeds.alive] at dead
    cases dead
  | alarm _ split =>
    rw [split] at sent
    rcases Multiset.mem_cons.mp sent with this_one | other
    · cases this_one
      exact .inr rfl
    · exact .inl ⟨event, source, other⟩
  | drop idle destroyed split about =>
    -- What is dropped is about an executable that is destroyed.
    refine .inl ⟨event, source, ?_⟩
    rw [split] at sent
    refine (Multiset.mem_add.mp sent).resolve_left fun gone => ?_
    rw [← about _ gone, source, show view.destroyed d = false from there] at destroyed
    cases destroyed
  | lose idle lost split =>
    refine .inl ⟨event, source, ?_⟩
    rw [split, heeds.calls _ lost, zero_add] at sent
    exact sent
  | _ => exact .inl ⟨event, source, sent⟩

/-- A watch stays until the dependency makes the move that it waits for. -/
theorem watched (step : given.Step view next) (there : next.destroyed d = false)
    (watched : (failure, .dependencyFailed c) ∈ view.watches d) :
    (failure, .dependencyFailed c) ∈ next.watches d ∨ next.Alerted c d := by
  cases step with
  | @move e status =>
    by_cases same : d = e
    · subst same
      by_cases reached : failure = status
      · refine .inr ⟨⟨d, status, view.status d⟩, rfl, Multiset.mem_add.mpr (.inl ?_)⟩
        exact Multiset.mem_map.mpr ⟨_, Multiset.mem_filter.mpr ⟨watched, reached⟩, rfl⟩
      · refine .inl ?_
        simp only [View.move, update_self]
        exact Multiset.mem_filter.mpr ⟨watched, reached⟩
    · refine .inl ?_
      simpa only [View.move, update_of_ne same] using watched
  | @watch g position e =>
    refine .inl ?_
    by_cases same : d = e
    · subst same
      simp only [update_self]
      exact Multiset.mem_add.mpr (.inr watched)
    · simpa only [update_of_ne same] using watched
  | @destroy e =>
    refine .inl ?_
    have different : d ≠ e := by
      rintro rfl
      simp only [update_self] at there
      cases there
    simpa only [update_of_ne different] using watched
  | count | tick =>
    rw [View.watches_countOrRelease]
    exact .inl watched
  | _ => exact .inl watched

end Circumstances.Step

end Readiness
