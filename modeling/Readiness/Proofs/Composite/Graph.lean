import Mathlib.Logic.Relation
import Readiness.Proofs.Composite.Moves
import Readiness.Proofs.Gate.Synchronise

/-! Graphs of composites, and what the readiness or failure of one of them says of its leaves.

Main statement: as long as the client leaves the composites to themselves and no leaf changes its
mind, a composite that is ready has only leaves that are ready below it, and one that has failed
has a leaf below it that has failed. So none of the gates in the graph is ever passed over.
-/

namespace Readiness

open List

variable {counted : Finset Nat} {dependencies : List ExecutableRef} {g : GateRef} {reached : Nat}
  {status : Status}

namespace Work

/-- Whether the work is to wait for dependencies. -/
def isComposite : Work → Bool
  | .composite _ => true
  | _ => false

variable {work : Work}

section

variable (composite : work.isComposite = true)
include composite

theorem eq_of_isComposite : work = .composite work.dependencies := by
  cases work with
  | composite => rfl
  | _ => cases composite

theorem readyStatus_of_isComposite : work.readyStatus = .ready := by
  rw [eq_of_isComposite composite]
  rfl

theorem failedStatuses_of_isComposite : work.failedStatuses = [.failed] := by
  rw [eq_of_isComposite composite]
  rfl

end

theorem dependencies_of_not_isComposite (leaf : work.isComposite = false) :
    work.dependencies = [] := by
  cases work with
  | composite => cases leaf
  | _ => rfl

end Work

/-- The dependencies of an executable, their dependencies and so on, the executable included. -/
def Below (work : ExecutableRef → Work) : ExecutableRef → ExecutableRef → Prop :=
  Relation.ReflTransGen fun c d => d ∈ (work c).dependencies

/-- A graph of executables and their dependencies. -/
structure Graph where
  /-- The work of each executable. -/
  work : ExecutableRef → Work
  /-- The executables of the graph. -/
  nodes : ExecutableRef → Prop
  closed : ∀ c, nodes c → ∀ d ∈ (work c).dependencies, nodes d
  older : ∀ c, nodes c → ∀ d ∈ (work c).dependencies, d < c
  lawful : ∀ e, nodes e → (work e).fault? = none

namespace Graph

variable (graph : Graph) (view : View)

/-- A composite of the graph. -/
structure Inner (c : ExecutableRef) : Prop where
  node : graph.nodes c
  composite : (graph.work c).isComposite = true

/-- An executable of the graph that depends on no other. -/
structure Leaf (l : ExecutableRef) : Prop where
  node : graph.nodes l
  simple : (graph.work l).isComposite = false

/-- The executable is ready. -/
def Ready (e : ExecutableRef) : Prop :=
  view.status e = (graph.work e).readyStatus

/-- The executable has failed. -/
def Failed (e : ExecutableRef) : Prop :=
  view.status e ∈ (graph.work e).failedStatuses

/-- All leaves below an executable are ready. -/
def AllReady (c : ExecutableRef) : Prop :=
  ∀ l, Below graph.work c l → graph.Leaf l → graph.Ready view l

/-- Some leaf below an executable has failed. -/
def Doomed (c : ExecutableRef) : Prop :=
  ∃ l, Below graph.work c l ∧ graph.Leaf l ∧ graph.Failed view l

variable {graph view} {c d e l : ExecutableRef}

/-- A node is a composite or a leaf. -/
theorem inner_or_leaf (node : graph.nodes e) : graph.Inner e ∨ graph.Leaf e := by
  cases composite : (graph.work e).isComposite with
  | true => exact .inl ⟨node, composite⟩
  | false => exact .inr ⟨node, composite⟩

/-- Dependencies are nodes. -/
theorem Inner.dependency (inner : graph.Inner c) (listed : d ∈ (graph.work c).dependencies) :
    graph.nodes d :=
  graph.closed c inner.node d listed

theorem Inner.ready_iff (inner : graph.Inner c) : graph.Ready view c ↔ view.status c = .ready := by
  rw [Ready, Work.readyStatus_of_isComposite inner.composite]

theorem Inner.failed_iff (inner : graph.Inner c) :
    graph.Failed view c ↔ view.status c = .failed := by
  rw [Failed, Work.failedStatuses_of_isComposite inner.composite, mem_singleton]

/-- Nothing is below a leaf but itself. -/
theorem Leaf.eq_of_below (leaf : graph.Leaf e) (below : Below graph.work e l) : l = e := by
  rcases Relation.ReflTransGen.cases_head below with same | ⟨d, listed, _⟩
  · exact same.symm
  · rw [Work.dependencies_of_not_isComposite leaf.simple] at listed
    cases listed

/-- No node is both ready and failed. -/
theorem not_failed_of_ready (node : graph.nodes e) (ready : graph.Ready view e) :
    ¬ graph.Failed view e := by
  intro failed
  rw [Failed, ready] at failed
  exact Work.readyStatus_not_mem_failedStatuses (graph.lawful e node) failed

/-- Ready leaves doom nothing. -/
theorem AllReady.not_doomed (ready : graph.AllReady view c) : ¬ graph.Doomed view c := by
  rintro ⟨l, below, leaf, failed⟩
  exact not_failed_of_ready leaf.node (ready l below leaf) failed

/-- A composite has all leaves ready if its dependencies have. -/
theorem Inner.allReady (inner : graph.Inner c)
    (ready : ∀ d ∈ (graph.work c).dependencies, graph.AllReady view d) :
    graph.AllReady view c := by
  intro l below leaf
  -- A leaf is not the composite itself, so it is below one of the dependencies.
  rcases Relation.ReflTransGen.cases_head below with rfl | ⟨d, listed, further⟩
  · have simple := leaf.simple
    rw [inner.composite] at simple
    cases simple
  · exact ready d listed l further leaf

/-- A doomed dependency dooms its composite. -/
theorem Doomed.of_dependency (doomed : graph.Doomed view d)
    (listed : d ∈ (graph.work c).dependencies) : graph.Doomed view c := by
  obtain ⟨l, below, leaf, failed⟩ := doomed
  exact ⟨l, .head listed below, leaf, failed⟩

variable (graph view)

/-- The client leaves the composites of a graph to themselves in a step, and its leaves keep to
what they have come to. -/
structure Tended (given : Circumstances) (next : View) : Prop where
  work : given.work = graph.work
  alive : ∀ c, graph.Inner c → given.alive c = true
  alone : ∀ c, graph.Inner c → given.LeavesAlone c
  waits : ∀ c refresh, graph.Inner c → given.asks (.execute c refresh) →
    next.errand = some (.execute c refresh) → ¬ graph.Ready next c
  kept : ∀ e, graph.nodes e → ¬ given.asks (.destroy e)
  final : ∀ l status, graph.Leaf l → view.errand = some (.setStatus l status) →
    graph.Ready view l ∨ graph.Failed view l → status = .null ∨ status = view.status l
  steady : ∀ frame, ¬ given.loses frame
  begins : ∀ e status, .begin e status ∈ view.duties →
    view.errand = none ∧ ∃ rest, view.duties = .begin e status :: rest
  called : ∀ listener event, listener.isWatcher = true →
    view.errand = some (.invoke listener event) → (event, listener) ∈ view.alerts

/-- Where a composite can be asked to move. -/
inductive Heading (c : ExecutableRef) : Status → Prop where
  | waiting (pending : ¬ graph.Ready view c) (gathers : .gather c ∈ view.duties) :
    Heading c .waiting
  | ready (ready : graph.AllReady view c) : Heading c .ready
  | failed (doomed : graph.Doomed view c) : Heading c .failed

/-- The gate of a composite. -/
def passage (g : GateRef) (c : ExecutableRef) (dependencies : List ExecutableRef) : Passage where
  g := g
  dependent := c
  target := .ready
  dependencies := dependencies
  success := fun d => (graph.work d).readyStatus

/-- A gate counts the dependencies of a composite, or none if all were ready when it was set up, and
has gone through all of them unless it is under way. -/
def Counting (g : GateRef) (c : ExecutableRef) : Prop :=
  ∃ dependencies reached counted,
    (dependencies = [] ∨ dependencies = (graph.work c).dependencies) ∧
    (graph.passage g c dependencies).Countdown view reached counted True ∧
    (view.passing g = [] → reached = dependencies.length)

/-- A duty that goes through a gate of a composite, or listens for failures on its behalf, does
both, and goes through the dependencies of the composite. -/
def Serves (c : ExecutableRef) (g : GateRef) (duty : Frame) : Prop :=
  (view.gate g).dependent = c ∨ .dependencyFailed c ∈ duty.listeners →
    (view.gate g).dependent = c ∧ .dependencyFailed c ∈ duty.listeners ∧
      ∀ d ∈ duty.executables, d ∈ (graph.work c).dependencies

/-- What the composites of a graph are sure of. -/
structure Safe : Prop where
  bounded : view.Bounded
  own : ∀ c, graph.Inner c → view.Own c
  there : ∀ e, graph.nodes e → view.destroyed e = false
  known : ∀ c, graph.Inner c → view.status c = .null ∨ view.status c = .waiting ∨
    graph.Ready view c ∨ graph.Failed view c
  ready : ∀ c, graph.Inner c → graph.Ready view c → graph.AllReady view c
  failed : ∀ c, graph.Inner c → graph.Failed view c → graph.Doomed view c
  heading : ∀ c status, graph.Inner c → view.errand = some (.setStatus c status) →
    graph.Heading view c status
  pending : ∀ c, graph.Inner c → (∃ status, .begin c status ∈ view.duties) ∨
    (∃ refresh, view.errand = some (.execute c refresh)) → ¬ graph.Ready view c
  request : ∀ e target dependencies onFailure,
    view.errand = some (.synchronise e target dependencies onFailure) → ∀ c, graph.Inner c →
      e = c ∨ .dependencyFailed c ∈ onFailure.toList →
        e = c ∧ onFailure = some (.dependencyFailed c) ∧
          dependencies = (graph.work c).dependencies
  duties : ∀ duty ∈ view.duties, ∀ g, duty.gate? = some g → ∀ c, graph.Inner c →
    graph.Serves view c g duty
  watches : ∀ c d status, graph.Inner c → (status, .dependencyFailed c) ∈ view.watches d →
    d ∈ (graph.work c).dependencies ∧ status ∈ (graph.work d).failedStatuses
  alerts : ∀ c event, graph.Inner c → (event, .dependencyFailed c) ∈ view.alerts →
    event.source ∈ (graph.work c).dependencies ∧ graph.Doomed view c
  gates : ∀ g, g < view.gates.length → graph.Inner (view.gate g).dependent →
    graph.Counting view g (view.gate g).dependent
  satisfied : ∀ g, g < view.gates.length → graph.Inner (view.gate g).dependent →
    ∀ position d, d ∈ (graph.work (view.gate g).dependent).dependencies →
      Satisfied view.journal g position d (graph.work d).readyStatus → graph.Ready view d

variable {graph view} {given : Circumstances} {next : View}

section

variable (tended : graph.Tended view given next)
include tended

theorem Tended.ready_iff (other : View) : given.Ready other e ↔ graph.Ready other e := by
  rw [Circumstances.Ready, tended.work, Ready]

theorem Tended.failed_iff (other : View) : given.Failed other e ↔ graph.Failed other e := by
  rw [Circumstances.Failed, tended.work, Failed]

/-- A leaf that is ready or has failed stays so. -/
theorem Tended.status_of_settled (step : given.Step view next) (leaf : graph.Leaf l)
    (settled : graph.Ready view l ∨ graph.Failed view l) : next.status l = view.status l := by
  rcases step.status_eq l with same | ⟨asked, real, new⟩
  · exact same
  · rcases tended.final l _ leaf asked settled with null | same
    · exact absurd null real
    · exact same

end

/-- Leaves stay ready. -/
theorem AllReady.step (ready : graph.AllReady view c) (tended : graph.Tended view given next)
    (step : given.Step view next) : graph.AllReady next c := by
  intro l below leaf
  have now := ready l below leaf
  rw [Ready, tended.status_of_settled step leaf (.inl now)]
  exact now

/-- What is doomed stays so. -/
theorem Doomed.step (doomed : graph.Doomed view c) (tended : graph.Tended view given next)
    (step : given.Step view next) : graph.Doomed next c := by
  obtain ⟨l, below, leaf, failed⟩ := doomed
  refine ⟨l, below, leaf, ?_⟩
  rw [Failed, tended.status_of_settled step leaf (.inr failed)]
  exact failed

/-- A gate is under way until it has gone through all dependencies. -/
theorem Tended.through_next (tended : graph.Tended view given next) (step : given.Step view next)
    (countdown : (graph.passage g c dependencies).Countdown view reached counted True)
    (through : view.passing g = [] → reached = dependencies.length) (empty : next.passing g = []) :
    dependencies.length ≤ reached := by
  have absent (duty : Frame) (member : duty ∈ next.duties) (gate : duty.gate? = some g) :
      False := by
    have listed : duty ∈ next.passing g := mem_filter.mpr ⟨member, by simpa using gate⟩
    rw [empty] at listed
    cases listed
  cases passing : view.passing g with
  | nil => exact Nat.le_of_eq (through passing).symm
  | cons duty others =>
    have listed : duty ∈ view.passing g := passing ▸ mem_cons_self ..
    have at_ := countdown.passing duty listed
    obtain ⟨member, gate⟩ := mem_filter.mp listed
    -- The duty is gone although it went through the gate, so it had come to the end.
    rcases step.duty_kept member with kept | spent
    · exact (absent duty kept (by simpa using gate)).elim
    · rcases at_ with ⟨onFailure, rfl⟩ | ⟨d, onFailure, here, rfl⟩
      · generalize left : (graph.passage g c dependencies).dependencies.drop reached = rest at spent
        cases spent with
        | finish => exact drop_eq_nil_iff.mp left
        | send examines => exact (absent _ examines rfl).elim
        | pass _ proceeds => exact (absent _ proceeds rfl).elim
        | lost lost => exact absurd lost (tended.steady _)
      · cases spent with
        | count _ proceeds => exact (absent _ proceeds rfl).elim
        | watch _ _ proceeds => exact (absent _ proceeds rfl).elim
        | lost lost => exact absurd lost (tended.steady _)

/-- Composites synchronise with their dependencies after the step. -/
theorem Tended.request_next (tended : graph.Tended view given next) (step : given.Step view next)
    {target : Status} {onFailure : Option Listener}
    (asks : next.errand = some (.synchronise e target dependencies onFailure))
    (inner : graph.Inner c) (about : e = c ∨ .dependencyFailed c ∈ onFailure.toList) :
    e = c ∧ onFailure = some (.dependencyFailed c) ∧
      dependencies = (graph.work c).dependencies := by
  rcases step.errand_synchronise asks with ⟨asked, foreign⟩ | ⟨_, rfl, rfl, _⟩
  · -- The client neither synchronises a composite nor has listeners of that kind.
    rcases about with rfl | listens
    · have meddles := tended.alone e inner _ asked
      simp [Command.meddles] at meddles
    · cases foreign _ (Option.mem_toList.mp listens)
  · have same : e = c := by
      rcases about with same | listens
      · exact same
      · simpa [eq_comm] using listens
    subst same
    exact ⟨rfl, rfl, by rw [tended.work]⟩

namespace Safe

variable (safe : graph.Safe view) (tended : graph.Tended view given next)
  (step : given.Step view next)

include safe in
/-- All leaves below a ready node are ready. -/
theorem allReady (node : graph.nodes e) (ready : graph.Ready view e) : graph.AllReady view e := by
  rcases inner_or_leaf node with inner | leaf
  · exact safe.ready e inner ready
  · intro l below _
    rw [leaf.eq_of_below below]
    exact ready

include safe in
/-- A failed node is doomed. -/
theorem doomed (node : graph.nodes e) (failed : graph.Failed view e) : graph.Doomed view e := by
  rcases inner_or_leaf node with inner | leaf
  · exact safe.failed e inner failed
  · exact ⟨e, .refl, leaf, failed⟩

include safe tended step

/-- What is ready stays ready. -/
theorem ready_step (node : graph.nodes e) (ready : graph.Ready view e) : graph.Ready next e := by
  rcases inner_or_leaf node with inner | leaf
  · -- A composite that is ready is neither sent back to wait nor failed.
    rcases step.status_eq e with same | ⟨asked, _, _⟩
    · rw [Ready, same]
      exact ready
    · obtain ⟨reached, at_⟩ : ∃ reached, next.status e = reached := ⟨_, rfl⟩
      rw [at_] at asked
      cases safe.heading e reached inner asked with
      | waiting pending => exact absurd ready pending
      | ready => exact inner.ready_iff.mpr at_
      | failed doomed => exact absurd doomed (safe.ready e inner ready).not_doomed
  · rw [Ready, tended.status_of_settled step leaf (.inl ready)]
    exact ready

/-- A composite is where it was, or where it was asked to be for a reason. -/
theorem status_step (inner : graph.Inner c) : next.status c = view.status c ∨
    next.status c = .waiting ∧ .gather c ∈ next.duties ∨
    graph.Ready next c ∧ graph.AllReady next c ∨ graph.Failed next c ∧ graph.Doomed next c := by
  rcases step.status_eq c with same | ⟨asked, real, new⟩
  · exact .inl same
  · obtain ⟨reached, at_⟩ : ∃ reached, next.status c = reached := ⟨_, rfl⟩
    rw [at_] at asked
    rw [inner.ready_iff, inner.failed_iff, at_]
    -- The request is carried out at once, so the duties are still the same.
    cases safe.heading c reached inner asked with
    | waiting _ gathers => exact .inr (.inl ⟨rfl, step.duties_of_asked asked ▸ gathers⟩)
    | ready ready => exact .inr (.inr (.inl ⟨rfl, ready.step tended step⟩))
    | failed doomed => exact .inr (.inr (.inr ⟨rfl, doomed.step tended step⟩))

/-- A composite that is ready has only leaves that are ready after the step. -/
theorem ready_next (inner : graph.Inner c) (ready : graph.Ready next c) :
    graph.AllReady next c := by
  rcases safe.status_step tended step inner with same | ⟨waiting, _⟩ | ⟨_, all⟩ | ⟨failed, _⟩
  · rw [Ready, same] at ready
    exact (safe.ready c inner ready).step tended step
  · rw [inner.ready_iff, waiting] at ready
    cases ready
  · exact all
  · exact absurd failed (not_failed_of_ready inner.node ready)

/-- A composite that has failed has a leaf that has failed after the step. -/
theorem failed_next (inner : graph.Inner c) (failed : graph.Failed next c) :
    graph.Doomed next c := by
  rcases safe.status_step tended step inner with same | ⟨waiting, _⟩ | ⟨ready, _⟩ | ⟨_, doomed⟩
  · rw [Failed, same] at failed
    exact (safe.failed c inner failed).step tended step
  · rw [inner.failed_iff, waiting] at failed
    cases failed
  · exact absurd failed (not_failed_of_ready inner.node ready)
  · exact doomed

/-- It is doomed after the step, too. -/
theorem doomed_next (node : graph.nodes e) (failed : graph.Failed next e) :
    graph.Doomed next e := by
  rcases inner_or_leaf node with inner | leaf
  · exact safe.failed_next tended step inner failed
  · exact ⟨e, .refl, leaf, failed⟩

/-- Nodes are not destroyed. -/
theorem there_next (node : graph.nodes e) : next.destroyed e = false := by
  by_contra gone
  rcases step.destroyed_cases (by simpa using gone) with before | asked
  · rw [safe.there e node] at before
    cases before
  · exact tended.kept e node asked

/-- A dependency that satisfies a gate is ready after the step. -/
theorem satisfied_next {position : Nat} (made : g < next.gates.length)
    (inner : graph.Inner (next.gate g).dependent)
    (listed : d ∈ (graph.work (next.gate g).dependent).dependencies)
    (now : Satisfied next.journal g position d (graph.work d).readyStatus) :
    graph.Ready next d := by
  by_cases before : Satisfied view.journal g position d (graph.work d).readyStatus
  · rcases step.gate_cases made with old | ⟨rfl, _⟩
    · -- The gate was satisfied before, and the dependency stays ready.
      rw [(step.gate_kept old).2] at inner listed
      exact safe.ready_step tended step (inner.dependency listed)
        (safe.satisfied g old inner position d listed before)
    · -- The journal does not mention a gate before it is set up.
      obtain ⟨found, examined⟩ := before.examined
      exact absurd (safe.bounded.journal _ examined _ rfl) (Nat.lt_irrefl _)
  · rw [← tended.work] at now before
    exact (tended.ready_iff next).mp (step.ready_of_satisfied now before)

/-- No token of a gate in the graph gets lost. -/
theorem harmless (made : g < view.gates.length) (inner : graph.Inner (view.gate g).dependent)
    (which : dependencies = [] ∨ dependencies = (graph.work (view.gate g).dependent).dependencies)
    (countdown : (graph.passage g (view.gate g).dependent dependencies).Countdown view reached
      counted True) :
    (graph.passage g (view.gate g).dependent dependencies).Harmless given view next := by
  have listed (d : ExecutableRef) (member : d ∈ dependencies) :
      d ∈ (graph.work (view.gate g).dependent).dependencies := by
    rcases which with rfl | rfl
    · cases member
    · exact member
  refine ⟨fun frame lost => absurd lost (tended.steady frame), fun d member => ?_, ?_⟩
  · exact safe.there_next tended step (inner.dependency (listed d member))
  · intro position event call
    refine ⟨tended.alive _ inner, fun last => ⟨safe.there _ inner.node, fun failed => ?_⟩⟩
    -- With the last call all dependencies are ready, so the composite cannot have failed.
    have sent := tended.called _ event rfl call
    have met := countdown.met_of_last_call sent last
    have all : dependencies = (graph.work (view.gate g).dependent).dependencies := by
      rcases which with rfl | same
      · cases (countdown.called event position sent).2.1
      · exact same
    have ready : graph.AllReady view (view.gate g).dependent := by
      refine inner.allReady fun d member => safe.allReady (inner.dependency member) ?_
      obtain ⟨position, at_⟩ := mem_iff_getElem?.mp (all ▸ member)
      exact safe.satisfied g made inner position d member (met position d at_)
    exact ready.not_doomed (safe.failed _ inner ((tended.failed_iff view).mp failed))

/-- The countdown of a gate in the graph goes on, and loses nothing. -/
theorem countdown_next (made : g < view.gates.length) (inner : graph.Inner (view.gate g).dependent)
    (which : dependencies = [] ∨ dependencies = (graph.work (view.gate g).dependent).dependencies)
    (countdown : (graph.passage g (view.gate g).dependent dependencies).Countdown view reached
      counted True) :
    ∃ reached' counted', reached ≤ reached' ∧
      (graph.passage g (view.gate g).dependent dependencies).Countdown next reached' counted'
        True := by
  obtain ⟨reached', counted', further, _, countdown'⟩ := countdown.step safe.bounded step
    (fun d _ => by rw [tended.work]; rfl)
    fun _ : True => ⟨trivial, safe.harmless tended step made inner which countdown⟩
  exact ⟨reached', counted', further, countdown'⟩

/-- Gates go on counting without losing anything. -/
theorem gates_next (made : g < next.gates.length) (inner : graph.Inner (next.gate g).dependent) :
    graph.Counting next g (next.gate g).dependent := by
  rcases step.gate_cases made with old | ⟨rfl, target, dependencies, onFailure, asked⟩
  · rw [(step.gate_kept old).2] at inner ⊢
    obtain ⟨dependencies, reached, counted, which, countdown, through⟩ := safe.gates g old inner
    obtain ⟨reached', counted', further, countdown'⟩ :=
      safe.countdown_next tended step old inner which countdown
    refine ⟨dependencies, reached', counted', which, countdown', fun empty => ?_⟩
    have complete := tended.through_next step countdown through empty
    exact Nat.le_antisymm countdown'.progress (Nat.le_trans complete further)
  · -- A gate that is set up counts the dependencies of its composite, if there is one to wait for.
    obtain ⟨_, rfl, rfl⟩ := safe.request _ _ _ _ asked _ inner (.inl rfl)
    cases (safe.own _ inner).request _ _ _ asked
    by_cases ready : ∀ d ∈ (graph.work (next.gate view.gates.length).dependent).dependencies,
        given.Ready view d
    · refine ⟨[], 0, ∅, .inl rfl, ?_, fun _ => rfl⟩
      exact Passage.countdown_of_synchronise safe.bounded (by rfl) step (by exact asked)
        (fun _ => rfl) (fun pending => absurd ready pending) True
    · refine ⟨_, 0, ∅, .inr rfl, ?_, fun empty => ?_⟩
      · exact Passage.countdown_of_synchronise safe.bounded (by rfl) step (by exact asked)
          (fun all => absurd all ready) (fun _ => rfl) True
      · rcases step.of_synchronise asked with ⟨all, _⟩ | ⟨_, same⟩
        · exact absurd all ready
        · have listed : Frame.arm view.gates.length 0
              (graph.work (next.gate view.gates.length).dependent).dependencies
              (some (.dependencyFailed (next.gate view.gates.length).dependent)) ∈
                next.passing view.gates.length := by
            refine mem_filter.mpr ⟨?_, by simp [Frame.gate?]⟩
            rw [congrArg View.duties same]
            exact mem_cons_self ..
          rw [empty] at listed
          cases listed

omit tended in
/-- The duties of a gate serve its composite after the step. -/
theorem duties_next {duty : Frame} (member : duty ∈ next.duties) (gate : duty.gate? = some g)
    (inner : graph.Inner c) : graph.Serves next c g duty := by
  -- A duty that goes on where another left off serves the same composite.
  have onward {old : Frame} (standing : old ∈ view.duties) (same : old.gate? = some g)
      (listeners : duty.listeners = old.listeners)
      (fewer : ∀ d ∈ duty.executables, d ∈ old.executables) : graph.Serves next c g duty := by
    have dependent := (step.gate_kept ((safe.bounded.duties old standing).gate g same)).2
    intro about
    rw [dependent, listeners] at about ⊢
    obtain ⟨theirs, listens, listed⟩ := safe.duties old standing g same c inner about
    exact ⟨theirs, listens, fun d later => listed d (fewer d later)⟩
  rcases step.duty_cases member with old | new
  · exact onward old gate rfl fun _ => id
  · cases new with
    | begin | gather | inspect | moves => cases gate
    | @enter composite _ _ _ asked gates =>
      cases gate
      intro about
      have made : (next.gate view.gates.length).dependent = composite := by
        simp [View.gate, gates]
      rw [made] at about ⊢
      obtain ⟨theirs, rfl, rfl⟩ := safe.request _ _ _ _ asked c inner about
      exact ⟨theirs, mem_singleton_self _, fun _ => id⟩
    | examine armed =>
      cases gate
      exact onward armed rfl rfl fun _ => id
    | proceed came =>
      cases gate
      rcases came with armed | examined
      · exact onward armed rfl rfl fun _ => mem_cons_of_mem _
      · exact onward examined rfl rfl fun _ => mem_cons_of_mem _

section

variable (inner : graph.Inner c)
include inner

/-- Composites listen for failures of their dependencies after the step. -/
theorem watches_next (member : (status, .dependencyFailed c) ∈ next.watches d) :
    d ∈ (graph.work c).dependencies ∧ status ∈ (graph.work d).failedStatuses := by
  rcases step.watch_cases member with ⟨old, _⟩ | ⟨_, _, g, position, rest, onFailure, stands, new⟩
  · exact safe.watches c d status inner old
  · rcases Circumstances.mem_links new with same | ⟨listens, failed⟩
    · cases same
    · have serves := safe.duties _ stands g rfl c inner (.inr (Option.mem_toList.mpr listens))
      rw [tended.work] at failed
      exact ⟨serves.2.2 d (mem_cons_self ..), failed⟩

/-- The call that fails a composite is justified after the step. -/
theorem alerts_next {event : Event} (member : (event, .dependencyFailed c) ∈ next.alerts) :
    event.source ∈ (graph.work c).dependencies ∧ graph.Doomed next c := by
  rcases step.alert_cases member with old | ⟨watched, reached⟩
  · obtain ⟨listed, doomed⟩ := safe.alerts c event inner old
    exact ⟨listed, doomed.step tended step⟩
  · -- The move that sets the call on its way is the failure of a dependency.
    obtain ⟨listed, failed⟩ := safe.watches c _ _ inner watched
    refine ⟨listed, Doomed.of_dependency ?_ listed⟩
    refine safe.doomed_next tended step (inner.dependency listed) ?_
    rw [Failed, reached]
    exact failed

/-- A composite that begins is not ready. -/
theorem pending_begun (begun : .begin c status ∈ view.duties) : ¬ graph.Ready next c := by
  have idle := (tended.begins c status begun).1
  rw [Ready, step.status_of_idle (by simp [idle])]
  exact safe.pending c inner (.inl ⟨status, begun⟩)

/-- A composite is not executed while it is ready after the step. -/
theorem pending_next (executed : (∃ status, .begin c status ∈ next.duties) ∨
      ∃ refresh, next.errand = some (.execute c refresh)) : ¬ graph.Ready next c := by
  rcases executed with ⟨status, member⟩ | ⟨refresh, asks⟩
  · rcases step.duty_cases member with old | new
    · exact safe.pending_begun tended step inner old
    · cases new with
      | begin asked =>
        rw [Ready, step.status_of_idle (by simp [asked])]
        exact safe.pending c inner (.inr ⟨_, asked⟩)
  · obtain ⟨same, asked | before⟩ := step.errand_execute asks
    · exact tended.waits c refresh inner asked asks
    · rw [Ready, same]
      exact (tended.ready_iff view).not.mp before

end

/-- A gate that opens with its last dependency has only leaves that are ready below it. -/
theorem allReady_of_opened (inner : graph.Inner (view.gate g).dependent)
    (last : (view.gate g).remaining = 1) (opened : .gateOpened g ∈ next.journal) :
    graph.AllReady next (view.gate g).dependent := by
  have made := View.lt_of_remaining last
  obtain ⟨made', dependent⟩ := step.gate_kept made
  -- It had someone to wait for, so it counts all dependencies.
  obtain ⟨dependencies, reached, counted, which, countdown, _⟩ := safe.gates g made inner
  have all : dependencies = (graph.work (view.gate g).dependent).dependencies := by
    refine which.resolve_left fun none_left => ?_
    have remaining : (view.gate g).remaining = dependencies.length - counted.card :=
      congrArg Gate.remaining (Passage.Countdown.gate_eq countdown.toBar)
    rw [remaining, none_left] at last
    simp at last
  obtain ⟨_, _, _, countdown'⟩ := safe.countdown_next tended step made inner which countdown
  -- Every position was satisfied when the gate opened.
  obtain ⟨early, late, split⟩ := append_of_mem opened
  obtain ⟨met, _⟩ := countdown'.once early late split
  refine inner.allReady fun d listed => ?_
  obtain ⟨position, at_⟩ := mem_iff_getElem?.mp (all ▸ listed)
  have satisfied : Satisfied next.journal g position d (graph.work d).readyStatus := by
    rw [split]
    exact (met position d at_).append _
  have ready := safe.satisfied_next tended step made' (dependent ▸ inner) (dependent ▸ listed)
    satisfied
  rcases inner_or_leaf (inner.dependency listed) with within | leaf
  · exact safe.ready_next tended step within ready
  · intro l below _
    rw [leaf.eq_of_below below]
    exact ready

/-- A composite is moved for a reason after the step. -/
theorem heading_next (inner : graph.Inner c) (asks : next.errand = some (.setStatus c status)) :
    graph.Heading next c status := by
  have composite : given.work c = .composite (graph.work c).dependencies := by
    rw [tended.work]
    exact Work.eq_of_isComposite inner.composite
  cases step.moveCause (safe.own c inner) (tended.alone c inner) composite asks with
  | begins _ begun gathers =>
    exact .waiting (safe.pending_begun tended step inner begun) gathers
  | finds listed failed =>
    rw [tended.work] at listed
    have doomed := safe.doomed (inner.dependency listed) ((tended.failed_iff view).mp failed)
    exact .failed ((doomed.of_dependency listed).step tended step)
  | told sent => exact .failed ((safe.alerts c _ inner sent).2.step tended step)
  | passes asked ready =>
    obtain ⟨_, _, rfl⟩ := safe.request _ _ _ _ asked c inner (.inl rfl)
    refine .ready (AllReady.step (inner.allReady fun d listed => ?_) tended step)
    exact safe.allReady (inner.dependency listed) ((tended.ready_iff view).mp (ready d listed))
  | counts _ _ last dependent opened | called _ last dependent opened =>
    subst dependent
    exact .ready (safe.allReady_of_opened tended step inner last opened)

end Safe

/-- What the composites of a graph are sure of stays so. -/
theorem Safe.step (safe : graph.Safe view) (tended : graph.Tended view given next)
    (step : given.Step view next) : graph.Safe next where
  bounded := step.bounded safe.bounded
  own := fun c inner => step.own (safe.own c inner) (tended.alone c inner)
    (by rw [tended.work]; exact Work.eq_of_isComposite inner.composite)
  there := fun _ node => safe.there_next tended step node
  known := fun c inner => by
    rcases safe.status_step tended step inner with same | ⟨waiting, _⟩ | ⟨ready, _⟩ | ⟨failed, _⟩
    · rw [Ready, Failed, same]
      exact safe.known c inner
    · exact .inr (.inl waiting)
    · exact .inr (.inr (.inl ready))
    · exact .inr (.inr (.inr failed))
  ready := fun _ inner => safe.ready_next tended step inner
  failed := fun _ inner => safe.failed_next tended step inner
  heading := fun _ _ inner => safe.heading_next tended step inner
  pending := fun _ inner => safe.pending_next tended step inner
  request := fun _ _ _ _ asks _ inner => tended.request_next step asks inner
  duties := fun _ member _ gate _ inner => safe.duties_next step member gate inner
  watches := fun _ _ _ inner => safe.watches_next tended step inner
  alerts := fun _ _ inner => safe.alerts_next tended step inner
  gates := fun _ made inner => safe.gates_next tended step made inner
  satisfied := fun _ made inner _ _ listed => safe.satisfied_next tended step made inner listed

end Graph

end Readiness
