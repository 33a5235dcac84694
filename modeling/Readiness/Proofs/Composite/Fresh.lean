import Readiness.Proofs.Composite.Failure
import Readiness.Proofs.Composite.Waiting

/-! Composites that were never executed. As long as the client leaves such a composite alone,
nothing has been set up for it: it has no gate, and listens to nobody.
-/

namespace Readiness

/-- Nothing has been set up for a composite, and it has not moved. -/
structure View.Untouched (view : View) (c : ExecutableRef) : Prop where
  status : view.status c = .null
  moves : ∀ status, view.errand ≠ some (.setStatus c status)
  gather : .gather c ∉ view.duties
  inspect : .inspect c ∉ view.duties
  request : ∀ e target dependencies onFailure,
    view.errand = some (.synchronise e target dependencies onFailure) →
      e ≠ c ∧ .dependencyFailed c ∉ onFailure.toList
  listeners : ∀ duty ∈ view.duties, .dependencyFailed c ∉ duty.listeners
  gates : ∀ g < view.gates.length, (view.gate g).dependent ≠ c
  watches : ∀ d status, (status, .dependencyFailed c) ∉ view.watches d
  alerts : ∀ event, (event, .dependencyFailed c) ∉ view.alerts

namespace Circumstances.Step

variable {given : Circumstances} {view next : View} {c : ExecutableRef}
  {dependencies : List ExecutableRef} (step : given.Step view next) (fresh : view.Untouched c)

include step fresh

/-- No gate has come to listen on behalf of the composite. -/
theorem untouched_listeners {duty : Frame} (member : duty ∈ next.duties) :
    .dependencyFailed c ∉ duty.listeners := by
  rcases step.duty_cases member with old | new
  · exact fresh.listeners duty old
  · cases new with
    | begin | gather | inspect | moves => exact List.not_mem_nil
    | enter asked => exact (fresh.request _ _ _ _ asked).2
    | @examine g position d rest onFailure armed =>
      exact fresh.listeners (.arm g position (d :: rest) onFailure) armed
    | @proceed g position d rest onFailure came =>
      rcases came with armed | examined
      · exact fresh.listeners (.arm g position (d :: rest) onFailure) armed
      · exact fresh.listeners (.examine g position d rest onFailure) examined

/-- The composite has not come to listen for failures. -/
theorem untouched_watches {d : ExecutableRef} {status : Status} :
    (status, .dependencyFailed c) ∉ next.watches d := by
  intro member
  rcases step.watch_cases member with ⟨old, _⟩ | ⟨_, _, g, position, rest, onFailure, stands, new⟩
  · exact fresh.watches d status old
  · rcases mem_links new with same | ⟨listens, _⟩
    · cases same
    · exact fresh.listeners _ stands (Option.mem_toList.mpr listens)

/-- The composite is not asked to move before it begins to work. -/
theorem untouched_moves (own : view.Own c) (alone : given.LeavesAlone c)
    (composite : given.work c = .composite dependencies) (runs : next.runs c = view.runs c)
    (status : Status) : next.errand ≠ some (.setStatus c status) := by
  intro asks
  cases step.moveCause own alone composite asks with
  | begins again =>
    rw [runs] at again
    exact absurd again (Nat.ne_of_lt (Nat.lt_succ_self _))
  | finds _ _ inspects => exact fresh.inspect inspects
  | told sent => exact fresh.alerts _ sent
  | passes asked => exact (fresh.request _ _ _ _ asked).1 rfl
  | counts _ _ last dependent | called _ last dependent =>
    exact fresh.gates _ (View.lt_of_remaining last) dependent

/-- Nothing is set up for a composite before it begins to work. -/
theorem untouched (own : view.Own c) (alone : given.LeavesAlone c)
    (composite : given.work c = .composite dependencies) (runs : next.runs c = view.runs c) :
    next.Untouched c := by
  have inspect : .inspect c ∉ next.duties := by
    intro member
    rcases step.duty_cases member with old | new
    · exact fresh.inspect old
    · cases new with
      | inspect gathered => exact fresh.gather gathered
  refine ⟨?_, step.untouched_moves fresh own alone composite runs, ?_, inspect, ?_,
    fun _ => step.untouched_listeners fresh, ?_, fun _ _ => step.untouched_watches fresh, ?_⟩
  · rw [(step.status_eq c).resolve_right fun moved => fresh.moves _ moved.1]
    exact fresh.status
  · intro member
    rcases step.duty_cases member with old | new
    · exact fresh.gather old
    · cases new with
      | gather _ again =>
        rw [runs] at again
        exact absurd again (Nat.ne_of_lt (Nat.lt_succ_self _))
  · intro e target dependencies onFailure asks
    -- The client does not ask for it, and a composite that does looks for failures then.
    rcases step.errand_synchronise asks with ⟨asked, foreign⟩ | ⟨_, _, rfl, _, inspects⟩
    · refine ⟨?_, fun listens => ?_⟩
      · rintro rfl
        have meddles := alone _ asked
        simp [Command.meddles] at meddles
      · cases foreign _ (Option.mem_toList.mp listens)
    · have other : e ≠ c := by
        rintro rfl
        exact inspect inspects
      exact ⟨other, by simpa using other.symm⟩
  · intro g made
    rcases step.gate_cases made with old | ⟨_, _, _, _, asked⟩
    · rw [(step.gate_kept old).2]
      exact fresh.gates g old
    · exact (fresh.request _ _ _ _ asked).1
  · intro event sent
    rcases step.alert_cases sent with old | ⟨watched, _⟩
    · exact fresh.alerts event old
    · exact fresh.watches _ _ watched

end Circumstances.Step

namespace Graph

variable {graph : Graph} {view : View}

/-- The composites of a graph are sure of everything before one of them begins to work. -/
theorem Safe.of_untouched (bounded : view.Bounded)
    (there : ∀ e, graph.nodes e → view.destroyed e = false)
    (fresh : ∀ c, graph.Inner c → view.Own c ∧ view.Untouched c) : graph.Safe view where
  bounded := bounded
  own := fun c inner => (fresh c inner).1
  there := there
  known := fun c inner => .inl (fresh c inner).2.status
  ready := fun c inner ready => by
    rw [inner.ready_iff, (fresh c inner).2.status] at ready
    cases ready
  failed := fun c inner failed => by
    rw [inner.failed_iff, (fresh c inner).2.status] at failed
    cases failed
  heading := fun c status inner asked => absurd asked ((fresh c inner).2.moves status)
  pending := fun c inner _ ready => by
    rw [inner.ready_iff, (fresh c inner).2.status] at ready
    cases ready
  request := fun _ _ _ _ asked c inner about => by
    obtain ⟨other, unheard⟩ := (fresh c inner).2.request _ _ _ _ asked
    exact (about.elim other unheard).elim
  duties := fun duty member g gate c inner about => by
    have made := (bounded.duties duty member).gate g gate
    exact (about.elim ((fresh c inner).2.gates g made) ((fresh c inner).2.listeners _ member)).elim
  watches := fun c d status inner watched => absurd watched ((fresh c inner).2.watches d status)
  alerts := fun c event inner sent => absurd sent ((fresh c inner).2.alerts event)
  gates := fun g made inner => absurd rfl ((fresh _ inner).2.gates g made)
  satisfied := fun g made inner => absurd rfl ((fresh _ inner).2.gates g made)

/-- The composites of a graph can count on everything before one of them begins to work. -/
theorem Live.of_untouched (bounded : view.Bounded) (attentive : view.Attentive)
    (idle : view.duties = []) (fresh : ∀ c, graph.Inner c → view.Untouched c) :
    graph.Live view where
  attentive := attentive
  opened := fun g made inner => absurd rfl ((fresh _ inner).gates g made)
  begun := fun _ _ _ _ _ member => by
    rw [idle] at member
    cases member
  nested := fun duty rest suffix g gate inner => by
    have made := (bounded.duties duty (suffix.subset (List.mem_cons_self ..))).gate g gate
    exact absurd rfl ((fresh _ inner).gates g made)
  requested := fun c _ _ _ inner asked => absurd rfl ((fresh c inner).request _ _ _ _ asked).1
  gated := fun c inner waiting => by
    rw [(fresh c inner).status] at waiting
    cases waiting
  watched := fun c _ inner _ waiting => by
    rw [(fresh c inner).status] at waiting
    cases waiting
  noticed := fun c _ inner _ waiting => by
    rw [(fresh c inner).status] at waiting
    cases waiting

end Graph

namespace Machine

variable {later : Machine} {c : ExecutableRef} {dependencies : List ExecutableRef}

/-- Nothing has been set up for a composite that was never executed and is left alone. -/
theorem untouched_of_runs (run : ({} : Machine).ReachesWhile (·.LeavesAlone c) later)
    (composite : (later.engine.executable c).work = .composite dependencies)
    (runs : later.view.runs c = 0) : later.view.Untouched c := by
  have reads : Reads (fun e => (later.engine.executable e).work) later.engine := fun _ _ => rfl
  have whole := run.view_induction (motive := fun view => view.Own c ∧
    (view.runs c = 0 → view.Untouched c)) sound_empty reads ?_ ?_
  · exact whole.2 runs
  · refine ⟨⟨fun _ member => ?_, fun _ member => ?_, fun _ _ _ same => ?_⟩, fun _ => ?_⟩
    · cases member
    · cases member
    · cases same
    · exact ⟨rfl, fun _ same => (by cases same), List.not_mem_nil, List.not_mem_nil,
        fun _ _ _ _ same => (by cases same), fun _ member => (by cases member),
        fun _ made => absurd made (Nat.not_lt_zero _), fun _ _ member => (by cases member),
        fun _ member => (by cases member)⟩
  · rintro before after early late _ view next taken ⟨own, untouched⟩
    have alone : (circumstances (fun e => (later.engine.executable e).work) before
        after).LeavesAlone c := leavesAlone_circumstances early.holds late
    refine ⟨taken.step.own own alone composite, fun unrun => ?_⟩
    -- Work is never taken back, so it had not begun before.
    have before : view.runs c = 0 := Nat.eq_zero_of_le_zero (unrun ▸ taken.step.runs_le c)
    exact taken.step.untouched (untouched before) own alone composite (unrun.trans before.symm)

/-- In every state of every run, watches that count wait for what has not come. -/
theorem Reachable.attentive (reachable : later.Reachable) : later.view.Attentive := by
  have reads : Reads (fun e => (later.engine.executable e).work) later.engine := fun _ _ => rfl
  have whole := reachable.reachesWhile.view_induction (motive := fun view => view.Bounded ∧
    view.Attentive) sound_empty reads ⟨Reachable.bounded .refl, fun _ _ _ _ member => ?_⟩ ?_
  · exact whole.2
  · cases member
  · rintro before after _ _ _ view next taken ⟨bounded, attentive⟩
    exact ⟨taken.step.bounded bounded, taken.step.attentive bounded attentive⟩

end Machine

end Readiness
