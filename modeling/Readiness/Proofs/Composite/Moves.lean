import Readiness.Proofs.Gate.Progress

/-! What moves a composite, as long as the client leaves that to the composite's own work: the start
of an execution, the end of a wait, and the failure of a dependency.
-/

namespace Readiness

open List

/-- A request to move an executable, now or later. -/
def Command.meddles (c : ExecutableRef) : Command → Bool
  | .setStatus e _ | .report e _ | .fail e _ | .synchronise e _ _ _ => e == c
  | _ => false

/-- The client does not ask for an executable to be moved. -/
def Circumstances.LeavesAlone (given : Circumstances) (c : ExecutableRef) : Prop :=
  ∀ command, given.asks command → command.meddles c = false

/-- Nothing is set up to move a composite but what its own work does. -/
structure View.Own (view : View) (c : ExecutableRef) : Prop where
  duties : ∀ statuses, .moves c statuses ∉ view.duties
  gates : ∀ gate ∈ view.gates, gate.dependent = c → gate.target = .ready
  request : ∀ target dependencies onFailure,
    view.errand = some (.synchronise c target dependencies onFailure) → target = .ready

variable {given : Circumstances} {view next : View} {c : ExecutableRef}
  {dependencies : List ExecutableRef} {g : GateRef} {status : Status}

/-- A gate that was made is there. -/
theorem View.gate_mem (made : g < view.gates.length) : view.gate g ∈ view.gates := by
  rw [View.gate, getD_eq_getElem?_getD, getElem?_eq_getElem made]
  exact getElem_mem made

/-- The last count leaves nothing to wait for. -/
theorem View.gate_count (last : (view.gate g).remaining = 1) :
    (view.count g).gate g = { view.gate g with remaining := 0 } := by
  unfold View.count
  rw [last]
  rw [View.gate, getD_eq_getElem?_getD] at last ⊢
  rw [View.gate, getD_eq_getElem?_getD, getElem?_modify_eq]
  cases found : view.gates[g]? with
  | none =>
    rw [found] at last
    cases last
  | some gate => rfl

/-- What moves a composite stays its own work as long as the client leaves it alone. -/
theorem Circumstances.Step.own (step : given.Step view next) (own : view.Own c)
    (alone : given.LeavesAlone c) (composite : given.work c = .composite dependencies) :
    next.Own c where
  duties statuses member := by
    rcases step.moves_cases member with old | ⟨_, more⟩ | other | ⟨_, asked⟩ | ⟨_, asked⟩
    · exact own.duties _ old
    · exact own.duties _ more
    · exact other _ composite
    · simpa [Command.meddles] using alone _ asked
    · simpa [Command.meddles] using alone _ asked
  gates gate member about := by
    rcases step.mem_gates member with ⟨old, listed, dependent, target⟩ | ⟨_, _, asked⟩
    · rw [← target]
      exact own.gates old listed (dependent.trans about)
    · exact own.request _ _ _ (about ▸ asked)
  request target dependencies onFailure asks := by
    rcases step.errand_synchronise asks with ⟨asked, _⟩ | ⟨ready, _⟩
    · simpa [Command.meddles] using alone _ asked
    · exact ready

/-- Why a composite is asked to move: its work begins, a dependency has failed, or a gate opens,
either from within an execution or through a call that does not find the composite failed. -/
inductive Circumstances.MoveCause (given : Circumstances) (view next : View) (c : ExecutableRef) :
    Status → Prop where
  | begins {status : Status} (again : next.runs c = view.runs c + 1)
    (begun : .begin c status ∈ view.duties) (gathers : .gather c ∈ next.duties) :
    MoveCause given view next c .waiting
  | finds {d : ExecutableRef} (listed : d ∈ (given.work c).dependencies)
    (failed : given.Failed view d) (inspects : .inspect c ∈ view.duties) :
    MoveCause given view next c .failed
  | told {event : Event} (sent : (event, .dependencyFailed c) ∈ view.alerts) :
    MoveCause given view next c .failed
  | passes {dependencies : List ExecutableRef} {onFailure : Option Listener}
    (asked : view.errand = some (.synchronise c .ready dependencies onFailure))
    (ready : ∀ d ∈ dependencies, given.Ready view d) : MoveCause given view next c .ready
  | counts {duty : Frame} {g : GateRef} (standing : duty ∈ view.duties)
    (through : duty.gate? = some g) (last : (view.gate g).remaining = 1)
    (dependent : (view.gate g).dependent = c) (opened : .gateOpened g ∈ next.journal) :
    MoveCause given view next c .ready
  | called {g : GateRef} (fine : ¬ given.Failed view c) (last : (view.gate g).remaining = 1)
    (dependent : (view.gate g).dependent = c) (opened : .gateOpened g ∈ next.journal) :
    MoveCause given view next c .ready

/-- What moves a composite is the last count of its gate. -/
theorem View.Own.of_release (own : view.Own c) {mid : View}
    (opens : (mid.countOrRelease g).errand = some (.setStatus c status))
    (gates : mid.gates = view.gates) (idle : mid.errand = none) :
    status = .ready ∧ (view.gate g).remaining = 1 ∧ (view.gate g).dependent = c ∧
      .gateOpened g ∈ (mid.countOrRelease g).journal := by
  have same : mid.gate g = view.gate g := by rw [View.gate, View.gate, gates]
  unfold View.countOrRelease at opens ⊢
  split at opens
  · rename_i last
    rw [if_pos last]
    -- What is asked for is read off the gate, which counting does not change.
    have wanted : (Command.setStatus ((mid.count g).gate g).dependent
        ((mid.count g).gate g).target) = .setStatus c status := Option.some.inj opens
    rw [View.gate_count last, same] at wanted
    injection wanted with dependent target
    rw [same] at last
    refine ⟨?_, last, dependent, mem_append_right _ (mem_singleton_self _)⟩
    rw [← target]
    exact own.gates (view.gate g) (View.gate_mem (View.lt_of_remaining last)) dependent
  · rw [show (mid.count g).errand = mid.errand from rfl, idle] at opens
    cases opens

/-- Whatever moves a composite that is left alone has a cause of its own. -/
theorem Circumstances.Step.moveCause (step : given.Step view next) (own : view.Own c)
    (alone : given.LeavesAlone c) (composite : given.work c = .composite dependencies)
    (asked : next.errand = some (.setStatus c status)) : given.MoveCause view next c status := by
  cases step with
  | ask idle errand wanted foreign =>
    cases asked
    have meddles := alone _ wanted
    simp [Command.meddles] at meddles
  | compose idle top work =>
    cases asked
    exact .begins (Function.update_self ..) (top ▸ mem_cons_self ..) (mem_cons_self ..)
  | work idle top other moves asks =>
    obtain ⟨_, same⟩ := asks _ asked
    cases same
    exact absurd composite (other dependencies)
  | @prompt e status others duties idle top =>
    cases asked
    exact absurd (top ▸ mem_cons_self ..) (own.duties (status :: others))
  | fault idle top listed failed =>
    cases asked
    exact .finds listed failed (top ▸ mem_cons_self ..)
  | alarm wanted sent alive =>
    cases asked
    exact .told (sent ▸ Multiset.mem_cons_self ..)
  | passThrough wanted ready =>
    cases asked
    cases own.request _ _ _ wanted
    exact .passes wanted ready
  | count idle top ready =>
    obtain ⟨rfl, last, dependent, opened⟩ := own.of_release asked rfl idle
    rcases top with top | top
    · exact .counts (top ▸ mem_cons_self ..) rfl last dependent opened
    · exact .counts (top ▸ mem_cons_self ..) rfl last dependent opened
  | tick wanted sent alive able =>
    obtain ⟨rfl, last, rfl, opened⟩ := own.of_release asked rfl rfl
    exact .called (able last).2 last rfl opened
  | _ => simp_all [View.move, View.count]

end Readiness
