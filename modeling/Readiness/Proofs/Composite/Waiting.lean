import Readiness.Proofs.Composite.Alert
import Readiness.Proofs.Composite.Graph

/-! What a composite of a graph waits for.

As long as a composite waits, its gates are going to count the dependencies that become ready, and
each dependency that is not ready is watched for its failure. So once the leaves have settled and
no call is on its way, no composite waits any more.
-/

namespace Readiness

open List

/-- An executable has begun to work, or is about to. -/
def View.Begun (view : View) (e : ExecutableRef) : Prop :=
  view.status e ≠ .null ∨ (∃ refresh, view.errand = some (.execute e refresh)) ∨
    (∃ status, .begin e status ∈ view.duties) ∨ view.errand = some (.setStatus e .waiting)

/-- Every watch that counts is for a status that the executable has not reached. -/
def View.Attentive (view : View) : Prop :=
  ∀ d status g position, (status, .countdown g position) ∈ view.watches d → view.status d ≠ status

/-- A composite is about to be failed. -/
def View.Failing (view : View) (c : ExecutableRef) : Prop :=
  (∃ d, view.Alerted c d) ∨ view.errand = some (.setStatus c .failed)

/-- An execution of a composite is under way that has yet to come to a dependency. -/
def View.Coming (view : View) (c d : ExecutableRef) : Prop :=
  .gather c ∈ view.duties ∨
    (∃ target dependencies onFailure,
      view.errand = some (.synchronise c target dependencies onFailure)) ∨
    ∃ duty ∈ view.duties, ∃ g, duty.gate? = some g ∧ (view.gate g).dependent = c ∧
      d ∈ duty.executables

variable {graph : Graph} {given : Circumstances} {view next : View} {c d : ExecutableRef}

/-- A watch that counts stays on an executable until it reaches the status. -/
theorem Circumstances.Step.attentive (step : given.Step view next) (bounded : view.Bounded)
    (attentive : view.Attentive) : next.Attentive := by
  intro d status g position member
  rcases step.watch_cases member with ⟨old, same | moved⟩ |
    ⟨same, pending, g', position', rest, onFailure, stands, new⟩
  · rw [same]
    exact attentive d status g position old
  · exact moved
  · -- A gate watches for the ready status, and only while it has not been reached.
    rcases Circumstances.mem_links new with key | ⟨listens, _⟩
    · cases key
      rw [same]
      exact pending
    · have uncounting := (bounded.duties _ stands).listeners _ (Option.mem_toList.mpr listens)
      exact absurd rfl (uncounting g position)

namespace Graph

variable (graph view) in
/-- A dependency is watched for its failures, and has begun if it is a composite itself. -/
structure Watched (c d : ExecutableRef) : Prop where
  listens : ∀ status ∈ (graph.work d).failedStatuses,
    (status, .dependencyFailed c) ∈ view.watches d
  begun : graph.Inner d → view.status d ≠ .null

variable (graph view) {g : GateRef} {duty : Frame} in
/-- What the composites of a graph can count on. -/
structure Live : Prop where
  attentive : view.Attentive
  opened : ∀ g, g < view.gates.length → graph.Inner (view.gate g).dependent →
    .gateOpened g ∈ view.journal → graph.Ready view (view.gate g).dependent ∨
      view.errand = some (.setStatus (view.gate g).dependent .ready)
  begun : ∀ g position d rest onFailure, .examine g position d rest onFailure ∈ view.duties →
    graph.Inner d → view.Begun d
  nested : ∀ duty rest, (duty :: rest) <:+ view.duties → ∀ g, duty.gate? = some g →
    graph.Inner (view.gate g).dependent → .inspect (view.gate g).dependent ∈ rest
  requested : ∀ c target dependencies onFailure, graph.Inner c →
    view.errand = some (.synchronise c target dependencies onFailure) → .inspect c ∈ view.duties
  gated : ∀ c, graph.Inner c → view.status c = .waiting → .gather c ∈ view.duties ∨
    (∃ target dependencies onFailure,
      view.errand = some (.synchronise c target dependencies onFailure)) ∨
    ∃ g < view.gates.length, (view.gate g).dependent = c
  /-- A composite that waits watches a dependency that is not ready, or will do so, unless it is
  about to fail. -/
  watched : ∀ c d, graph.Inner c → d ∈ (graph.work c).dependencies → view.status c = .waiting →
    ¬ graph.Ready view d → graph.Watched view c d ∨ view.Failing c ∨ view.Coming c d
  noticed : ∀ c d, graph.Inner c → d ∈ (graph.work c).dependencies → view.status c = .waiting →
    graph.Failed view d → view.Failing c ∨ .gather c ∈ view.duties ∨ .inspect c ∈ view.duties

/-- An execution that has begun goes on. -/
theorem Tended.begun_next (tended : graph.Tended view given next) (step : given.Step view next)
    (inner : graph.Inner d) (begun : view.Begun d) : next.Begun d := by
  -- A status that is not the sentinel never gives way to it.
  have real (status : view.status d ≠ .null) : next.status d ≠ .null := by
    rcases step.status_eq d with same | ⟨_, real, _⟩
    · rwa [same]
    · exact real
  rcases begun with status | ⟨refresh, asked⟩ | ⟨status, member⟩ | asked
  · exact .inl (real status)
  · rcases step.of_execute asked with ready | begun
    · refine .inl (real ?_)
      rw [(tended.ready_iff view).mp ready]
      exact Work.readyStatus_ne_null (graph.lawful d inner.node)
    · exact .inr (.inr (.inl ⟨_, begun⟩))
  · rcases step.duty_kept member with kept | spent
    · exact .inr (.inr (.inl ⟨status, kept⟩))
    · cases spent with
      | compose _ asks => exact .inr (.inr (.inr asks))
      | work other =>
        refine absurd ?_ (other (graph.work d).dependencies)
        rw [tended.work]
        exact Work.eq_of_isComposite inner.composite
      | lost lost => exact absurd lost (tended.steady _)
  · refine .inl ?_
    rw [(step.status_of_asked asked (by decide)).1]
    decide

/-- A duty among those that go through a gate of a composite stands on its look for failures. -/
theorem Live.inspect_of_gate (live : graph.Live view) (member : duty ∈ view.duties)
    (gate : duty.gate? = some g) (inner : graph.Inner (view.gate g).dependent) :
    .inspect (view.gate g).dependent ∈ view.duties := by
  obtain ⟨above, rest, split⟩ := append_of_mem member
  have suffix : (duty :: rest) <:+ view.duties := ⟨above, split.symm⟩
  exact suffix.subset (mem_cons_of_mem _ (live.nested duty rest suffix g gate inner))

section

variable (safe : graph.Safe view) (tended : graph.Tended view given next)
  (step : given.Step view next)
include safe tended step

/-- A composite that is about to be failed has failed, or still is about to. -/
theorem Safe.failing_next (inner : graph.Inner c) (failing : view.Failing c) :
    graph.Failed next c ∨ next.Failing c := by
  rcases failing with ⟨d, event, source, sent⟩ | asked
  · have listed := (safe.alerts c event inner sent).1
    have heeds : given.Heeds c :=
      ⟨tended.alive c inner, fun frame lost => absurd lost (tended.steady frame)⟩
    have there := safe.there_next tended step (inner.dependency listed)
    rcases step.alerted heeds there ⟨event, rfl, sent⟩ with still | asks
    · exact .inr (.inl ⟨_, still⟩)
    · exact .inr (.inr asks)
  · exact .inl (inner.failed_iff.mpr (step.status_of_asked asked (by decide)).1)

/-- The execution of a composite that has yet to come to a dependency still has to, or has come to
it: the dependency is ready, or it is watched. -/
theorem Safe.coming_next (live : graph.Live view) (inner : graph.Inner c)
    (listed : d ∈ (graph.work c).dependencies)
    (coming : view.Coming c d) : graph.Ready next d ∨ graph.Watched next c d ∨ next.Coming c d := by
  have node := inner.dependency listed
  rcases coming with gathers | ⟨target, dependencies, onFailure, asked⟩ |
    ⟨duty, member, g, gate, dependent, among⟩
  · rcases step.duty_kept gathers with kept | spent
    · exact .inr (.inr (.inl kept))
    · cases spent with
      | gather _ asks => exact .inr (.inr (.inr (.inl ⟨_, _, _, asks⟩)))
      | lost lost => exact absurd lost (tended.steady _)
  · -- The gate that is set up goes through all dependencies, unless all of them are ready.
    obtain ⟨_, _, rfl⟩ := safe.request _ _ _ _ asked c inner (.inl rfl)
    rcases step.of_synchronise asked with ⟨ready, _⟩ | ⟨_, rfl⟩
    · have now := (tended.ready_iff view).mp (ready d listed)
      exact .inl (safe.ready_step tended step node now)
    · refine .inr (.inr (.inr (.inr ⟨_, mem_cons_self .., _, rfl, ?_, listed⟩)))
      simp [View.gate]
  · have made := (safe.bounded.duties duty member).gate g gate
    have theirs : (next.gate g).dependent = c := (step.gate_kept made).2.trans dependent
    rcases step.duty_kept member with kept | spent
    · exact .inr (.inr (.inr (.inr ⟨duty, kept, g, gate, theirs, among⟩)))
    · -- The gate goes on from one dependency to the next.
      have later {new : Frame} (standing : new ∈ next.duties) (through : new.gate? = some g)
          (rest : d ∈ new.executables) : next.Coming c d :=
        .inr (.inr ⟨new, standing, g, through, theirs, rest⟩)
      have counted {first : ExecutableRef} (ready : given.Ready view first) (same : d = first) :
          graph.Ready next d := by
        subst same
        exact safe.ready_step tended step node ((tended.ready_iff view).mp ready)
      cases spent with
      | compose | work | moves | gather | clear | fault => cases gate
      | finish => cases among
      | send examines =>
        cases gate
        exact .inr (.inr (later examines rfl among))
      | pass ready proceeds | count ready proceeds =>
        cases gate
        rcases mem_cons.mp among with same | rest
        · exact .inl (counted ready same)
        · exact .inr (.inr (later proceeds rfl rest))
      | @watch _ position first _ onFailure duties idle top proceeds watches same =>
        cases gate
        rcases mem_cons.mp among with rfl | rest
        · -- The failure listener of the gate is that of the composite.
          have listens := (safe.duties _ member g rfl c inner (.inl dependent)).2.1
          refine .inr (.inl ⟨fun status failed => ?_, fun within => ?_⟩)
          · refine Multiset.mem_of_le watches (Multiset.mem_cons_of_mem ?_)
            refine mem_flatMap.mpr ⟨.dependencyFailed c, ?_, ?_⟩
            · exact mem_filter.mpr ⟨listens, rfl⟩
            · rw [tended.work]
              exact mem_map.mpr ⟨status, failed, rfl⟩
          · -- The dependency was executed before, and that execution has begun.
            rw [same]
            rcases live.begun _ _ _ _ _ member within with begun | ⟨_, asked⟩ | ⟨_, begun⟩ | asked
            · exact begun
            · rw [idle] at asked
              cases asked
            · obtain ⟨_, others, stands⟩ := tended.begins _ _ begun
              rw [top] at stands
              cases stands
            · rw [idle] at asked
              cases asked
        · exact .inr (.inr (later proceeds rfl rest))
      | lost lost => exact absurd lost (tended.steady _)

/-- A composite that waits after a step waited before it, or is going to gather its dependencies. -/
theorem Safe.waiting_step (inner : graph.Inner c) (waiting : next.status c = .waiting) :
    view.status c = .waiting ∨ .gather c ∈ next.duties := by
  rcases safe.status_step tended step inner with same | ⟨_, gathers⟩ | ⟨ready, _⟩ | ⟨failed, _⟩
  · exact .inl (same ▸ waiting)
  · exact .inr gathers
  · rw [inner.ready_iff, waiting] at ready
    cases ready
  · rw [inner.failed_iff, waiting] at failed
    cases failed

/-- What is about to fail a composite goes on doing so while the composite waits. -/
theorem Safe.failing_of_waiting (inner : graph.Inner c) (waiting : next.status c = .waiting)
    (failing : view.Failing c) : next.Failing c := by
  refine (safe.failing_next tended step inner failing).resolve_left fun failed => ?_
  rw [inner.failed_iff, waiting] at failed
  cases failed

/-- A composite watches its dependencies, or will do so, after the step. -/
theorem Safe.watched_next (live : graph.Live view) (inner : graph.Inner c)
    (listed : d ∈ (graph.work c).dependencies)
    (waiting : next.status c = .waiting) (pending : ¬ graph.Ready next d) :
    graph.Watched next c d ∨ next.Failing c ∨ next.Coming c d := by
  have node := inner.dependency listed
  rcases safe.waiting_step tended step inner waiting with waited | gathers
  · have before : ¬ graph.Ready view d := fun ready =>
      pending (safe.ready_step tended step node ready)
    rcases live.watched c d inner listed waited before with watched | failing | coming
    · -- The watches stay, unless one of them is called.
      by_cases alerted : next.Alerted c d
      · exact .inr (.inl (.inl ⟨d, alerted⟩))
      · refine .inl ⟨fun status failed => ?_, fun within => ?_⟩
        · have there := safe.there_next tended step node
          exact (step.watched there (watched.listens status failed)).resolve_right alerted
        · rcases step.status_eq d with still | ⟨_, real, _⟩
          · rw [still]
            exact watched.begun within
          · exact real
    · exact .inr (.inl (safe.failing_of_waiting tended step inner waiting failing))
    · rcases safe.coming_next tended step live inner listed coming with ready | watched | coming
      · exact absurd ready pending
      · exact .inl watched
      · exact .inr (.inr coming)
  · exact .inr (.inr (.inl gathers))

/-- A composite is about to notice that a dependency has failed after the step. -/
theorem Safe.noticed_next (live : graph.Live view) (inner : graph.Inner c)
    (listed : d ∈ (graph.work c).dependencies)
    (waiting : next.status c = .waiting) (failed : graph.Failed next d) :
    next.Failing c ∨ .gather c ∈ next.duties ∨ .inspect c ∈ next.duties := by
  have node := inner.dependency listed
  have onward := safe.failing_of_waiting tended step inner waiting
  rcases safe.waiting_step tended step inner waiting with waited | gathers
  · rcases step.status_eq d with still | ⟨asked, real, new⟩
    · -- The dependency had failed before.
      rw [Failed, still] at failed
      rcases live.noticed c d inner listed waited failed with failing | gathers | inspects
      · exact .inl (onward failing)
      · rcases step.duty_kept gathers with kept | spent
        · exact .inr (.inl kept)
        · cases spent with
          | gather inspects => exact .inr (.inr inspects)
          | lost lost => exact absurd lost (tended.steady _)
      · rcases step.duty_kept inspects with kept | spent
        · exact .inr (.inr kept)
        · cases spent with
          | clear fine =>
            rw [tended.work] at fine
            exact absurd ((tended.failed_iff view).mpr failed) (fine d listed)
          | fault asks => exact .inl (.inr asks)
          | lost lost => exact absurd lost (tended.steady _)
    · -- The dependency fails with this step, while it is watched or yet to be come to.
      have before : ¬ graph.Ready view d := fun ready =>
        not_failed_of_ready node (safe.ready_step tended step node ready) failed
      rcases live.watched c d inner listed waited before with watched | failing | coming
      · exact .inl (.inl ⟨d, step.alerted_of_asked asked real new (watched.listens _ failed)⟩)
      · exact .inl (onward failing)
      · rw [step.duties_of_asked asked]
        rcases coming with gathers | ⟨_, _, _, other⟩ | ⟨duty, member, g, gate, rfl, _⟩
        · exact .inr (.inl gathers)
        · rw [asked] at other
          cases other
        · exact .inr (.inr (live.inspect_of_gate member gate inner))
  · exact .inr (.inl gathers)

/-- A composite is ready once one of its gates has opened, after the step. -/
theorem Safe.opened_next (live : graph.Live view)
    (made : g < next.gates.length) (inner : graph.Inner (next.gate g).dependent)
    (opened : .gateOpened g ∈ next.journal) : graph.Ready next (next.gate g).dependent ∨
      next.errand = some (.setStatus (next.gate g).dependent .ready) := by
  rcases step.opened_cases opened with before | asks
  · have old := safe.bounded.journal _ before g rfl
    rw [(step.gate_kept old).2] at inner ⊢
    refine .inl ?_
    rcases live.opened g old inner before with ready | asked
    · exact safe.ready_step tended step inner.node ready
    · exact inner.ready_iff.mpr (step.status_of_asked asked (by decide)).1
  · -- Its gates lead to the ready status.
    have own := (safe.step tended step).own _ inner
    rw [own.gates _ (View.gate_mem made) rfl] at asks
    exact .inr asks

omit tended in
/-- A gate of a composite stands on the composite's look for failures, after the step. -/
theorem Safe.nested_next (live : graph.Live view) {rest : List Frame}
    (suffix : (duty :: rest) <:+ next.duties)
    (gate : duty.gate? = some g) (inner : graph.Inner (next.gate g).dependent) :
    .inspect (next.gate g).dependent ∈ rest := by
  rcases step.gate_suffix suffix gate with ⟨old, same, standing⟩ |
    ⟨rfl, e, target, dependencies, onFailure, asked, dependent⟩
  · have member : old ∈ view.duties := standing.subset (mem_cons_self ..)
    rw [(step.gate_kept ((safe.bounded.duties old member).gate g same)).2] at inner ⊢
    exact live.nested old rest standing g same inner
  · rw [dependent] at inner ⊢
    exact live.requested e _ _ _ inner asked

/-- A composite that waits has a gate, or will have one, after the step. -/
theorem Safe.gated_next (live : graph.Live view) (inner : graph.Inner c)
    (waiting : next.status c = .waiting) : .gather c ∈ next.duties ∨
      (∃ target dependencies onFailure,
        next.errand = some (.synchronise c target dependencies onFailure)) ∨
      ∃ g < next.gates.length, (next.gate g).dependent = c := by
  rcases safe.waiting_step tended step inner waiting with waited | gathers
  · rcases live.gated c inner waited with gathers | ⟨target, dependencies, onFailure, asked⟩ |
      ⟨g, made, dependent⟩
    · rcases step.duty_kept gathers with kept | spent
      · exact .inl kept
      · cases spent with
        | gather _ asks => exact .inr (.inl ⟨_, _, _, asks⟩)
        | lost lost => exact absurd lost (tended.steady _)
    · refine .inr (.inr ⟨view.gates.length, ?_⟩)
      rcases step.of_synchronise asked with ⟨_, rfl⟩ | ⟨_, rfl⟩
      · simp [View.gate]
      · simp [View.gate]
    · obtain ⟨still, kept⟩ := step.gate_kept made
      exact .inr (.inr ⟨g, still, kept.trans dependent⟩)
  · exact .inl gathers

end

/-- What the composites of a graph can count on stays so. -/
theorem Live.step (live : graph.Live view) (safe : graph.Safe view)
    (tended : graph.Tended view given next) (step : given.Step view next) : graph.Live next where
  attentive := step.attentive safe.bounded live.attentive
  opened := fun _ made inner => safe.opened_next tended step live made inner
  begun := fun g position d rest onFailure member inner => by
    rcases step.duty_cases member with old | new
    · exact tended.begun_next step inner (live.begun g position d rest onFailure old inner)
    · cases new with
      | examine _ sends => exact .inr (.inl ⟨_, sends⟩)
  nested := fun _ _ suffix _ gate inner => safe.nested_next step live suffix gate inner
  requested := fun c target dependencies onFailure inner asks => by
    rcases step.errand_synchronise asks with ⟨asked, _⟩ | ⟨_, _, _, _, inspects⟩
    · have meddles := tended.alone c inner _ asked
      simp [Command.meddles] at meddles
    · exact inspects
  gated := fun _ inner => safe.gated_next tended step live inner
  watched := fun _ _ inner listed => safe.watched_next tended step live inner listed
  noticed := fun _ _ inner listed => safe.noticed_next tended step live inner listed

variable (graph view) in
/-- Nothing is under way that concerns the composites of a graph. -/
structure Still : Prop where
  duties : view.duties = []
  idle : view.errand = none
  failures : ∀ c event, graph.Inner c → (event, .dependencyFailed c) ∉ view.alerts
  counts : ∀ g position event, graph.Inner (view.gate g).dependent →
    (event, .countdown g position) ∉ view.alerts

namespace Still

variable {e : ExecutableRef}

variable (still : graph.Still view)
include still

theorem not_failing (inner : graph.Inner c) : ¬ view.Failing c := by
  rintro (⟨_, event, _, sent⟩ | asked)
  · exact still.failures c event inner sent
  · rw [still.idle] at asked
    cases asked

theorem not_coming : ¬ view.Coming c d := by
  rintro (gathers | ⟨_, _, _, asked⟩ | ⟨duty, member, _⟩)
  · rw [still.duties] at gathers
    cases gathers
  · rw [still.idle] at asked
    cases asked
  · rw [still.duties] at member
    cases member

theorem status_ne_null (begun : view.Begun e) : view.status e ≠ .null := by
  rcases begun with status | ⟨_, asked⟩ | ⟨_, member⟩ | asked
  · exact status
  · rw [still.idle] at asked
    cases asked
  · rw [still.duties] at member
    cases member
  · rw [still.idle] at asked
    cases asked

/-- A composite that has a gate is ready if all its dependencies are. -/
theorem ready_of_dependencies (safe : graph.Safe view) (live : graph.Live view) {g : GateRef}
    (made : g < view.gates.length) (inner : graph.Inner (view.gate g).dependent)
    (ready : ∀ d ∈ (graph.work (view.gate g).dependent).dependencies, graph.Ready view d) :
    graph.Ready view (view.gate g).dependent := by
  obtain ⟨dependencies, reached, counted, which, countdown, through⟩ := safe.gates g made inner
  have come : reached = dependencies.length := through (by rw [View.passing, still.duties]; rfl)
  have opened : .gateOpened g ∈ view.journal := by
    refine countdown.opened_of_unheld trivial fun position d at_ => ⟨?_, ?_⟩
    · rw [come]
      exact (List.getElem?_eq_some_iff.mp at_).1
    · -- A watch would wait for what has come, and no call is on its way.
      rw [View.held, Multiset.countP_eq_zero.mpr, Multiset.countP_eq_zero.mpr]
      · rintro ⟨event, listener⟩ member rfl
        exact still.counts g position event inner member
      · rintro ⟨status, listener⟩ member rfl
        obtain ⟨_, _, rfl, _⟩ := countdown.watched d status position member
        refine live.attentive d _ g position member (ready d ?_)
        rcases which with rfl | rfl
        · cases at_
        · exact mem_of_getElem? at_
  refine (live.opened g made inner opened).resolve_right fun asked => ?_
  rw [still.idle] at asked
  cases asked

/-- Once the leaves have settled, so has every composite that has begun. -/
theorem settled (safe : graph.Safe view) (live : graph.Live view)
    (leaves : ∀ l, graph.Leaf l → graph.Ready view l ∨ graph.Failed view l) (c : ExecutableRef)
    (inner : graph.Inner c) (begun : view.status c ≠ .null) :
    graph.Ready view c ∨ graph.Failed view c := by
  -- Dependencies are older, so they have settled before.
  induction c using Nat.strong_induction_on with
  | _ c ih =>
    rcases safe.known c inner with null | waiting | ready | failed
    · exact absurd null begun
    · have ready (d : ExecutableRef) (listed : d ∈ (graph.work c).dependencies) :
          graph.Ready view d := by
        by_contra pending
        have watched := (live.watched c d inner listed waiting pending).resolve_right
          (not_or.mpr ⟨still.not_failing inner, still.not_coming⟩)
        have failed : graph.Failed view d := by
          rcases inner_or_leaf (inner.dependency listed) with within | leaf
          · exact (ih d (graph.older c inner.node d listed) within
              (watched.begun within)).resolve_left pending
          · exact (leaves d leaf).resolve_left pending
        rcases live.noticed c d inner listed waiting failed with failing | gathers | inspects
        · exact still.not_failing inner failing
        · rw [still.duties] at gathers
          cases gathers
        · rw [still.duties] at inspects
          cases inspects
      rcases live.gated c inner waiting with gathers | ⟨_, _, _, asked⟩ | ⟨g, made, rfl⟩
      · rw [still.duties] at gathers
        cases gathers
      · rw [still.idle] at asked
        cases asked
      · exact .inl (still.ready_of_dependencies safe live made inner ready)
    · exact .inl ready
    · exact .inr failed

/-- Once the leaves have settled, an executable that has begun is ready if all leaves below it are,
and has failed if one of them has. -/
theorem decided (safe : graph.Safe view) (live : graph.Live view)
    (leaves : ∀ l, graph.Leaf l → graph.Ready view l ∨ graph.Failed view l) (node : graph.nodes e)
    (begun : graph.Inner e → view.status e ≠ .null) :
    (graph.AllReady view e → graph.Ready view e) ∧ (graph.Doomed view e → graph.Failed view e) := by
  have settled : graph.Ready view e ∨ graph.Failed view e := by
    rcases inner_or_leaf node with inner | leaf
    · exact still.settled safe live leaves e inner (begun inner)
    · exact leaves e leaf
  refine ⟨fun all => settled.resolve_right fun failed => ?_,
    fun doomed => settled.resolve_left fun ready => ?_⟩
  · exact all.not_doomed (safe.doomed node failed)
  · exact (safe.allReady node ready).not_doomed doomed

end Still

end Graph

end Readiness
