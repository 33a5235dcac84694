import Readiness.Proofs.Delivery.Order

/-! Destruction is final: whatever waits for the listeners of an executable that was destroyed, none
of them is called any more.
-/

namespace Readiness

/-- The calls of listeners that were told of one executable. -/
def callsAbout (e : ExecutableRef) (journal : List Occurrence) : List Call :=
  (callsIn journal).filter (·.event.source == e)

namespace Surroundings.Step

variable {given : Surroundings} {traffic next : Traffic} {e : ExecutableRef}

/-- Nobody is told of an executable that was destroyed. -/
theorem callsAbout_eq (step : given.Step traffic next) (gone : traffic.destroyed e = true) :
    callsAbout e next.journal = callsAbout e traffic.journal := by
  rcases step.callsIn_cases with same | ⟨batch, delivery, _, _, _, _, there, called⟩
  · rw [callsAbout, same]
    rfl
  · have other : batch.event.source ≠ e := by
      rintro rfl
      rw [there] at gone
      cases gone
    rw [callsAbout, called, List.filter_append]
    simp [callsAbout, other]

theorem mem_guard (step : given.Step traffic next) {serial : Nat} {event : Event}
    {delivery : Delivery} (member : .guard serial event delivery ∈ next.calls) :
    .guard serial event delivery ∈ traffic.calls ∨ traffic.destroyed event.source = false := by
  rcases step.mem_calls member with old | new
  · exact .inl old
  · cases new with
    | guard current left there => exact .inr there

end Surroundings.Step

namespace Machine

variable {machine final : Machine}

/-- Once an executable is destroyed it stays so, no call of a listener that is told of it begins any
more, and those that are going on are what is left of the calls that were going on then. -/
theorem destroyed_calls_no_listener (reachable : machine.Reachable) {e : ExecutableRef}
    (gone : (machine.engine.executable e).destroyed = true) (run : machine.Reaches final) :
    (final.engine.executable e).destroyed = true ∧
      callsAbout e final.engine.journal.toList = callsAbout e machine.engine.journal.toList ∧
      ∀ serial event delivery, event.source = e →
        .guard serial event delivery ∈ final.stack →
          .guard serial event delivery ∈ machine.stack := by
  have kept : final.traffic.destroyed e = true ∧
      callsAbout e final.traffic.journal = callsAbout e machine.traffic.journal ∧
      ∀ serial event delivery, event.source = e →
        .guard serial event delivery ∈ final.traffic.calls →
          .guard serial event delivery ∈ machine.traffic.calls := by
    -- No step begins a call about an executable that is destroyed before it.
    refine run.reachesWhile.rules_induction reachable.sound (.refl _) (motive := fun state =>
      state.traffic.destroyed e = true ∧
        callsAbout e state.traffic.journal = callsAbout e machine.traffic.journal ∧
        ∀ serial event delivery, event.source = e →
          .guard serial event delivery ∈ state.traffic.calls →
            .guard serial event delivery ∈ machine.traffic.calls)
      ⟨gone, rfl, fun _ _ _ _ member => member⟩ ?_
    rintro before after _ _ _ _ _ rule ⟨before_gone, calls, running⟩
    refine ⟨rule.destroyed_mono before_gone, (rule.callsAbout_eq before_gone).trans calls, ?_⟩
    rintro serial event delivery rfl member
    refine running serial event delivery rfl ((rule.mem_guard member).resolve_right ?_)
    rw [before_gone]
    exact Bool.noConfusion
  obtain ⟨final_gone, calls, running⟩ := kept
  simp only [callsAbout, callsIn_traffic] at calls
  exact ⟨final_gone, calls, fun serial event delivery about member =>
    List.mem_of_mem_filter (running serial event delivery about
      (List.mem_filter.mpr ⟨member, rfl⟩))⟩

/-- An executable is destroyed by the first of its two listeners while another batch has been put
off; listeners are registered, it is moved and executed afterwards, and the host is run. -/
theorem destroyed_calls_no_listener_pending : ∃ machine final : Machine,
    machine.Reachable ∧ machine.Reaches final ∧
    (machine.engine.executable 0).destroyed = true ∧
    (machine.engine.host 0).deferred ≠ [] ∧ (final.engine.host 0).deferred = [] ∧
    .deliver ⟨1, ⟨0, .processing, .ready⟩, [⟨.client 1, some 0⟩]⟩ ∈ machine.stack ∧
    final.stack = [] ∧
    callsAbout 0 machine.engine.journal.toList =
      [⟨1, ⟨0, .processing, .ready⟩, ⟨.client 2, some 1⟩⟩] ∧
    callsAbout 0 final.engine.journal.toList =
      [⟨1, ⟨0, .processing, .ready⟩, ⟨.client 2, some 1⟩⟩] := by
  let machine := ({} : Machine).after [.openHost {} .silent, .build 0 (.manual true),
    .subscribe 0 1 none false, .subscribe 0 2 none false, .call (.setStatus 0 .ready),
    .call (.setStatus 0 .processing), .accept, .call (.destroy 0)]
  let final := machine.after [.finish .done, .subscribe 0 3 none false,
    .call (.setStatus 0 .ready), .call (.execute 0 .always),
    .call (.onReady 0 { success := .client 4 }), .call (.pump 0)]
  have reachable : machine.Reachable := reaches_after _ _
  have run : machine.Reaches final := reaches_after _ _
  have before : callsAbout 0 machine.engine.journal.toList =
      [⟨1, ⟨0, .processing, .ready⟩, ⟨.client 2, some 1⟩⟩] := by decide
  obtain ⟨_, same, _⟩ := destroyed_calls_no_listener reachable
    (e := 0) (show (machine.engine.executable 0).destroyed = true by decide) run
  exact ⟨machine, final, reachable, run, by decide, by decide, by decide, by decide, by decide,
    before, same.trans before⟩

end Machine

end Readiness
