import Readiness.Proofs.Gate.Synchronise

/-! The moments of readiness behind a gate: a position is satisfied only by a state of the run in
which its dependency is ready.

Main statement: when the wait of a composite ends, every dependency has been ready since that wait
was set up. It need not have been ready since a later execution began.
-/

namespace Readiness

variable {g : GateRef} {position : Nat} {d : ExecutableRef}

namespace Machine

variable {machine later : Machine}

/-- Every position that has been satisfied since was satisfied by a state of the run. -/
theorem Sound.ready_of_satisfied (sound : machine.Sound) (run : machine.Reaches later)
    (built : d < machine.engine.executables.length)
    (before : ¬ Satisfied machine.engine.journal.toList g position d
      (machine.engine.executable d).readyStatus)
    (now : Satisfied later.engine.journal.toList g position d
      (machine.engine.executable d).readyStatus) :
    ∃ state, machine.Reaches state ∧ state.Reaches later ∧
      (state.engine.executable d).isReady = true := by
  induction run with
  | refl => exact absurd now before
  | @step earlier later run step ih =>
    by_cases already : Satisfied earlier.engine.journal.toList g position d
        (machine.engine.executable d).readyStatus
    · obtain ⟨state, early, late, ready⟩ := ih already
      exact ⟨state, early, .step late step, ready⟩
    · -- It is this step that finds the dependency ready or makes it so.
      have grown := sound.later_reaches run
      have reads : Reads (fun e => (later.engine.executable e).work) later.engine :=
        fun _ _ => rfl
      have known := (sound.later_reaches (.step run step)).grown
      have status : (later.engine.executable d).readyStatus =
          (machine.engine.executable d).readyStatus := by
        rw [Executable.readyStatus, known.work d built]
        rfl
      refine ⟨later, .step run step, .refl, ?_⟩
      rw [← status, ← Satisfied.filter_iff] at now already
      have ready : (circumstances (fun e => (later.engine.executable e).work) earlier later).Ready
          later.view d := by
        rcases grown.sound.follows step reads with one | ⟨between, _, _, same, _, second⟩
        · exact one.ready_of_satisfied now already
        · exact second.ready_of_satisfied now (same ▸ already)
      exact decide_eq_true ready

/-- Once the gate that a request sets up has opened, every dependency has been ready in some state
of the run since. -/
theorem Sound.ready_of_opened (sound : machine.Sound) (bounded : machine.view.Bounded)
    {x : ExecutableRef} {target : Status} {dependencies : List ExecutableRef}
    {onFailure : Option Listener}
    (asked : machine.control = .perform (.synchronise x target dependencies onFailure))
    (run : machine.Reaches later)
    (opened : .gateOpened machine.engine.gates.length ∈ later.engine.journal.toList)
    (listed : d ∈ dependencies) :
    ∃ state, machine.Reaches state ∧ state.Reaches later ∧
      (state.engine.executable d).isReady = true := by
  obtain ⟨before, after, split⟩ := List.append_of_mem opened
  rcases (sound.opensOnce bounded asked run before after split).1 with ready | satisfied
  · exact ⟨machine, .refl, run, ready d listed⟩
  · obtain ⟨position, bound, rfl⟩ := List.getElem_of_mem listed
    refine sound.ready_of_satisfied run (sound.built_of_synchronise asked listed) ?_
      (split ▸ (satisfied position _ (List.getElem?_eq_getElem bound)).append _)
    -- The gate is new, so it has not examined anyone before.
    intro early
    obtain ⟨found, seen⟩ := (Satisfied.filter_iff.mpr early).examined
    exact Nat.lt_irrefl _ (bounded.journal _ seen _ rfl)

/-- When the wait of a composite ends, the composite is moved to the ready status, and every
dependency in its list has been ready in some state since the execution set up that wait. -/
theorem composite_ready_since_wait (reachable : machine.Reachable) {c : ExecutableRef}
    {answer : Answer} {rest : List Frame} (gathering : machine.control = .resume answer)
    (top : machine.stack = .gather c :: rest) {next : Machine} (run : machine.Reaches later)
    (step : Next later next)
    (shut : .gateOpened machine.engine.gates.length ∉ later.engine.journal.toList)
    (opened : .gateOpened machine.engine.gates.length ∈ next.engine.journal.toList) :
    next.control = .perform (.setStatus c .ready) ∧
      ∀ d ∈ (machine.engine.executable c).work.dependencies, ∃ state, machine.Reaches state ∧
        state.Reaches next ∧ (state.engine.executable d).isReady = true := by
  have busy : machine.clientTurn = false := by rw [clientTurn, gathering]
  have request : machine.step = ({ machine with stack := rest }.push (.inspect c)).perform
      (.synchronise c .ready (machine.engine.executable c).work.dependencies
        (some (.dependencyFailed c))) := by
    simp only [Machine.step, gathering, top]
    rfl
  have asked : machine.step.control = .perform (.synchronise c .ready
      (machine.engine.executable c).work.dependencies (some (.dependencyFailed c))) := by
    rw [request]
    rfl
  have same : machine.step.engine = machine.engine := by rw [request]; rfl
  have reachable' : machine.step.Reachable := .step reachable (.engine busy)
  have sound := reachable'.sound
  have bounded := reachable'.bounded
  rw [← same] at shut opened
  rcases run.of_busy busy with rfl | run
  · -- The gate is not set up before the request is made.
    rw [step.eq_step busy] at opened
    exact absurd (bounded.journal _ (gateOpened_mem_view.mpr opened) _ rfl) (Nat.lt_irrefl _)
  · refine ⟨sound.setStatus_of_opened bounded asked run step shut opened, fun d listed => ?_⟩
    obtain ⟨state, early, late, ready⟩ :=
      sound.ready_of_opened bounded asked (.step run step) opened listed
    exact ⟨state, .trans (.step .refl (.engine busy)) early, late, ready⟩

/-- A composite waits for one dependency that is ready and for one that becomes so. -/
theorem composite_ready_since_wait_mixed :
    ∃ machine later next : Machine, machine.Reachable ∧ machine.Reaches later ∧ Next later next ∧
      machine.stack.head? = some (.gather 2) ∧
      (machine.engine.executable 1).isReady = false ∧
      next.control = .perform (.setStatus 2 .ready) ∧
      ∀ d ∈ [0, 1], ∃ state, machine.Reaches state ∧ state.Reaches next ∧
        (state.engine.executable d).isReady = true := by
  let start := ({} : Machine).after [.openHost {} .silent, .build 0 (.manual false),
    .build 0 (.manual false), .build 0 (.composite [0, 1]), .call (.setStatus 0 .ready)]
  let machine := (start.call (.execute 2 .always)).halt fun state =>
    state.stack.head? == some (.gather 2) && state.control != .perform (.setStatus 2 .waiting)
  let returned := machine.halt clientTurn
  let later := (returned.call (.setStatus 1 .ready)).halt fun state =>
    state.control == .perform (.invoke (.countdown 0 1) ⟨1, .ready, .null⟩)
  have called : Next start (start.call (.execute 2 .always)) := .call (by decide) (by decide)
  have reachable : machine.Reachable := .trans (.step (reaches_after _ _) called) (reaches_halt _ _)
  have moved : Next returned (returned.call (.setStatus 1 .ready)) := .call (by decide) (by decide)
  have run : machine.Reaches later := .trans (.step (reaches_halt _ _) moved) (reaches_halt _ _)
  have step : Next later later.step := .engine (by decide)
  have gathering : machine.control = .resume (.moved ⟨.null, .waiting⟩) := by decide
  have top : machine.stack = [.gather 2, .hold [2]] := by decide
  have shut : .gateOpened machine.engine.gates.length ∉ later.engine.journal.toList := by decide
  have opened : .gateOpened machine.engine.gates.length ∈ later.step.engine.journal.toList := by
    decide
  obtain ⟨control, ready⟩ := composite_ready_since_wait reachable gathering top run step shut opened
  have listed : (machine.engine.executable 2).work.dependencies = [0, 1] := by decide
  exact ⟨machine, later, later.step, reachable, run, step, by rw [top]; rfl, by decide, control,
    listed ▸ ready⟩

/-- An execution of an executable is being asked for. -/
def executes (machine : Machine) (e : ExecutableRef) : Bool :=
  match machine.control with
  | .perform (.execute other _) => other == e
  | _ => false

/-- A composite is moved to the ready status by its dependency wait although one of its dependencies
has not been ready since the latest execution of the composite began. -/
theorem composite_ready_unseen_by_latest_execution :
    ∃ begun last : Machine, begun.Reachable ∧ begun.control = .perform (.execute 2 .always) ∧
      (begun.engine.executable 2).work = .composite [0, 1] ∧
      (begun.engine.executable 0).isReady = false ∧
      begun.step.ReachesWhile (fun state => (state.engine.executable 0).isReady = false ∧
        state.executes 2 = false) last ∧
      (begun.engine.executable 2).status = .waiting ∧
      (last.engine.executable 2).status = .ready ∧
      .gateOpened 0 ∉ begun.engine.journal.toList ∧
      .gateOpened 0 ∈ last.engine.journal.toList := by
  let start := ({} : Machine).after [.openHost {} .silent, .build 0 (.manual false),
    .build 0 (.manual false), .build 0 (.composite [0, 1]), .call (.execute 2 .always),
    .call (.setStatus 0 .ready), .call (.setStatus 0 .processing)]
  let begun := start.call (.execute 2 .always)
  let unseen (state : Machine) : Bool :=
    !(state.engine.executable 0).isReady && !state.executes 2
  have called : Next start begun := .call (by decide) (by decide)
  have reachable : begun.Reachable := .step (reaches_after _ _) called
  let returned := begun.step.halt clientTurn unseen
  let last := returned.after [.call (.setStatus 1 .ready), .call (.pump 0)] unseen
  have early : begun.step.ReachesWhile (fun state => unseen state = true) returned :=
    reachesWhile_halt (by decide) (by decide)
  have late : returned.ReachesWhile (fun state => unseen state = true) last :=
    reachesWhile_after early.holds (by decide)
  refine ⟨begun, last, reachable, rfl, by decide, by decide, ?_, by decide, by decide, by decide,
    by decide⟩
  refine (early.trans late).mono fun state holds => ?_
  simpa [unseen] using holds

end Machine

end Readiness
