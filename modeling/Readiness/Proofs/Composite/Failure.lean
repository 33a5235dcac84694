import Readiness.Proofs.Composite.Alert
import Readiness.Proofs.Gate.Synchronise

/-! How a composite fails along with a dependency.

Main statement: a composite that found a dependency pending fails once that dependency has. It does
not if it found the dependency ready, since then nothing is left to tell it.
-/

namespace Readiness

open List

variable {given : Circumstances} {view next : View} {c d : ExecutableRef} {failure : Status}
  {dependencies : List ExecutableRef}

/-- The composite is not waiting any more, or the failure of a dependency will reach it. -/
structure View.Heard (view : View) (c d : ExecutableRef) (failure : Status) : Prop where
  calm : view.errand ≠ some (.setStatus c .waiting)
  told : view.status c ≠ .waiting ∨ (failure, .dependencyFailed c) ∈ view.watches d ∨
    view.Alerted c d ∨ view.errand = some (.setStatus c .failed)

/-- No execution of the composite is under way that could still open a gate. -/
structure View.Quiet (view : View) (c : ExecutableRef) : Prop where
  gather : .gather c ∉ view.duties
  gates : ∀ duty ∈ view.duties, ∀ g, duty.gate? = some g → (view.gate g).dependent ≠ c
  request : ∀ target dependencies onFailure,
    view.errand ≠ some (.synchronise c target dependencies onFailure)

/-- The failure of a dependency has reached the composite, or is about to. -/
inductive View.Told (view : View) (c d : ExecutableRef) (failure : Status) : Prop where
  | watched (asked : view.errand = some (.setStatus d failure)) (real : failure ≠ .null)
    (new : failure ≠ view.status d) (watch : (failure, .dependencyFailed c) ∈ view.watches d)
  | alerted (alerted : view.Alerted c d)
  | failing (asked : view.errand = some (.setStatus c .failed))
  | failed (status : view.status c = .failed)
    (steady : ∀ status, view.errand = some (.setStatus c status) → status = .failed)

/-- While the composite is not executed again, the failure of a watched dependency will reach it. -/
theorem Circumstances.Step.heard (step : given.Step view next) (heeds : given.Heeds c)
    (there : next.destroyed d = false) (heard : view.Heard c d failure) (own : view.Own c)
    (alone : given.LeavesAlone c) (composite : given.work c = .composite dependencies)
    (runs : next.runs c = view.runs c) : next.Heard c d failure := by
  refine ⟨fun asked => ?_, ?_⟩
  · cases step.moveCause own alone composite asked with
    | begins again =>
      rw [runs] at again
      exact absurd again (Nat.ne_of_lt (Nat.lt_succ_self _))
  · rcases heard.told with busy | watch | alerted | failing
    · rcases step.status_eq c with same | ⟨moved, _, _⟩
      · exact .inl (same ▸ busy)
      · refine .inl fun waiting => heard.calm ?_
        rw [moved, waiting]
    · rcases step.watched there watch with watch | alerted
      · exact .inr (.inl watch)
      · exact .inr (.inr (.inl alerted))
    · exact .inr (.inr (step.alerted heeds there alerted))
    · refine .inl ?_
      rw [(step.status_of_asked failing (by decide)).1]
      decide

/-- While the composite is not executed again, it does not open its gates from within. -/
theorem Circumstances.Step.quiet (step : given.Step view next) (quiet : view.Quiet c)
    (bounded : view.Bounded) (alone : given.LeavesAlone c) (runs : next.runs c = view.runs c) :
    next.Quiet c where
  gather member := by
    rcases step.duty_cases member with old | new
    · exact quiet.gather old
    · cases new with
      | gather begun again =>
        rw [runs] at again
        exact absurd again (Nat.ne_of_lt (Nat.lt_succ_self _))
  gates duty member g through := by
    obtain ⟨above, rest, split⟩ := append_of_mem member
    rcases step.gate_suffix ⟨above, split.symm⟩ through with
      ⟨old, same, suffix⟩ | ⟨_, e, target, dependencies, onFailure, asked, dependent⟩
    · have standing := suffix.mem (mem_cons_self ..)
      rw [(step.gate_kept ((bounded.duties old standing).gate g same)).2]
      exact quiet.gates old standing g same
    · rw [dependent]
      rintro rfl
      exact quiet.request _ _ _ asked
  request target dependencies onFailure asks := by
    rcases step.errand_synchronise asks with ⟨asked, _⟩ | ⟨_, _, _, gathered, _⟩
    · have meddles := alone _ asked
      simp [Command.meddles] at meddles
    · exact quiet.gather gathered

/-- Once the failure of a dependency is about to reach the composite, it does. -/
theorem Circumstances.Step.told (step : given.Step view next) (heeds : given.Heeds c)
    (there : next.destroyed d = false) (told : view.Told c d failure) (quiet : view.Quiet c)
    (own : view.Own c) (alone : given.LeavesAlone c)
    (composite : given.work c = .composite dependencies) (runs : next.runs c = view.runs c) :
    next.Told c d failure := by
  cases told with
  | watched asked real new watch =>
    exact .alerted (step.alerted_of_asked asked real new watch)
  | alerted alerted =>
    rcases step.alerted heeds there alerted with alerted | failing
    · exact .alerted alerted
    · exact .failing failing
  | failing asked =>
    obtain ⟨status, idle⟩ := step.status_of_asked asked (by decide)
    exact .failed status fun _ other => by rw [idle] at other; cases other
  | failed status steady =>
    refine .failed ?_ fun other asked => ?_
    · rcases step.status_eq c with same | ⟨moved, _, _⟩
      · rw [same, status]
      · exact steady _ moved
    · cases step.moveCause own alone composite asked with
      | begins again =>
        rw [runs] at again
        exact absurd again (Nat.ne_of_lt (Nat.lt_succ_self _))
      | finds | told => rfl
      | passes wanted => exact absurd wanted (quiet.request _ _ _)
      | counts standing through last dependent =>
        exact absurd dependent (quiet.gates _ standing _ through)
      | called fine =>
        refine absurd ?_ fine
        rw [Circumstances.Failed, composite, status]
        exact mem_singleton_self _

namespace Machine

variable {start later machine : Machine}

/-- The client has not just asked for an executable to be moved. -/
def LeavesAlone (machine : Machine) (c : ExecutableRef) : Prop :=
  ∀ command, machine.Asks command → command.meddles c = false

/-- The client leaves a composite alone, which is alive, and no observer panics. -/
structure Heedful (machine : Machine) (c : ExecutableRef) : Prop where
  alone : machine.LeavesAlone c
  alive : machine.isAlive c = true
  steady : machine.ObserverSteady

/-- What the client has just asked for, if it has. -/
def asked? (machine : Machine) : Option Command :=
  match machine.control, machine.stack with
  | .perform command, .hold _ :: _ => some command
  | _, _ => none

theorem asks_iff (machine : Machine) (command : Command) :
    machine.Asks command ↔ machine.asked? = some command := by
  unfold Asks asked?
  constructor
  · rintro ⟨turn, held, rest, stands⟩
    simp only [turn, stands]
  · intro asked
    split at asked
    · rename_i turn stands
      cases asked
      exact ⟨turn, _, _, stands⟩
    · cases asked

/-- Whether the client leaves an executable alone can be checked. -/
instance (machine : Machine) (c : ExecutableRef) : Decidable (machine.LeavesAlone c) :=
  decidable_of_iff (∀ command ∈ machine.asked?, command.meddles c = false)
    (forall_congr' fun command => by rw [asks_iff]; rfl)

/-- Whether a composite is heeded can be checked. -/
instance (machine : Machine) (c : ExecutableRef) : Decidable (machine.Heedful c) :=
  decidable_of_iff (machine.LeavesAlone c ∧ machine.isAlive c = true ∧ machine.ObserverSteady)
    ⟨fun ⟨alone, alive, steady⟩ => ⟨alone, alive, steady⟩,
      fun heedful => ⟨heedful.alone, heedful.alive, heedful.steady⟩⟩

/-- No execution of an executable is under way. -/
structure Returned (machine : Machine) (c : ExecutableRef) : Prop where
  /-- None is being announced. -/
  begin : ∀ status, .begin c status ∉ machine.stack
  /-- None is about to synchronise. -/
  gather : .gather c ∉ machine.stack
  /-- None is about to look for failures. -/
  inspect : .inspect c ∉ machine.stack
  /-- None goes through the dependencies. -/
  gates : ∀ frame ∈ machine.stack, ∀ g, frame.gate? = some g →
    (machine.engine.gate g).dependent ≠ c

theorem leavesAlone_circumstances {work : ExecutableRef → Work} {before after : Machine}
    (early : before.LeavesAlone c) (late : after.LeavesAlone c) :
    (circumstances work before after).LeavesAlone c := by
  intro command asked
  simp only [circumstances] at asked
  split at asked
  · exact late command asked
  · exact early command asked

/-- What is set up to move a composite is its own work as long as the client leaves it alone. -/
theorem own_of_leavesAlone (run : ({} : Machine).ReachesWhile (·.LeavesAlone c) later)
    (composite : (later.engine.executable c).work = .composite dependencies) :
    later.view.Own c := by
  have reads : Reads (fun e => (later.engine.executable e).work) later.engine := fun _ _ => rfl
  refine run.view_induction sound_empty reads ?_
    fun early late _ _ _ taken own =>
      taken.step.own own (leavesAlone_circumstances early.holds late) composite
  exact ⟨fun _ member => (by cases member), fun _ member => (by cases member),
    fun _ _ _ same => (by cases same)⟩

/-- What every step keeps while the composite is not executed again, its calls are made and the
dependency is not destroyed, a run keeps. -/
theorem Sound.heedful_induction (sound : start.Sound) (kept : start.TellingKept)
    (run : start.ReachesWhile (·.Heedful c) later)
    (composite : (later.engine.executable c).work = .composite dependencies)
    (runs : later.view.runs c = start.view.runs c) (there : later.view.destroyed d = false)
    (bounded : start.view.Bounded) (own : start.view.Own c) {motive : View → Prop}
    (base : motive start.view)
    (step : ∀ {given : Circumstances} {view next : View}, given.Step view next → given.Heeds c →
      given.LeavesAlone c → given.work c = .composite dependencies → view.Bounded → view.Own c →
      next.runs c = view.runs c → next.destroyed d = false → motive view → motive next) :
    later.view.Bounded ∧ later.view.Own c ∧ motive later.view := by
  have reads : Reads (fun e => (later.engine.executable e).work) later.engine := fun _ _ => rfl
  -- Neither executions nor destruction are taken back, so what holds at the end held before.
  have whole := run.view_induction (motive := fun view => view.Bounded ∧ view.Own c ∧
      start.view.runs c ≤ view.runs c ∧ (view.runs c = start.view.runs c →
        view.destroyed d = false → motive view))
    sound reads ⟨bounded, own, Nat.le_refl _, fun _ _ => base⟩ ?_
  · exact ⟨whole.1, whole.2.1, whole.2.2.2 runs there⟩
  · rintro before after early late known view next taken ⟨bounded, own, fewer, holds⟩
    have alone : (circumstances (fun e => (later.engine.executable e).work) before
        after).LeavesAlone c := leavesAlone_circumstances early.holds.alone late.alone
    have telling := early.tellingKept sound (fun _ holds => holds.steady) kept
    have heeds : (circumstances (fun e => (later.engine.executable e).work) before after).Heeds c :=
      ⟨early.holds.alive, fun frame ⟨payload, rest, unwinding, stands⟩ =>
        alerts_of_not_telling (telling payload frame rest unwinding stands)⟩
    refine ⟨taken.step.bounded bounded, taken.step.own own alone composite,
      Nat.le_trans fewer (taken.step.runs_le c), fun same there => ?_⟩
    have unchanged : view.runs c = start.view.runs c :=
      Nat.le_antisymm (same ▸ taken.step.runs_le c) fewer
    have standing : view.destroyed d = false := by
      by_contra gone
      have still := taken.step.destroyed (e := d) (by simpa using gone)
      rw [there] at still
      cases still
    exact step taken.step heeds alone composite bounded own (same.trans unchanged.symm) there
      (holds unchanged standing)

theorem built_of_composite
    (composite : (machine.engine.executable c).work = .composite dependencies) :
    c < machine.engine.executables.length := by
  by_contra beyond
  rw [Engine.executable_of_ge (Nat.not_lt.mp beyond)] at composite
  cases composite

/-- Work is never taken back. -/
theorem Sound.runs_le (sound : start.Sound) (run : start.Reaches later) (e : ExecutableRef) :
    start.view.runs e ≤ later.view.runs e := by
  have reads : Reads (fun e => (later.engine.executable e).work) later.engine := fun _ _ => rfl
  exact run.reachesWhile.view_induction (motive := fun view => start.view.runs e ≤ view.runs e)
    sound reads (Nat.le_refl _) fun _ _ _ _ _ taken fewer =>
      Nat.le_trans fewer (taken.step.runs_le e)

/-- Destruction is final. -/
theorem Sound.not_destroyed (sound : start.Sound) (run : start.Reaches later) {e : ExecutableRef}
    (there : later.view.destroyed e = false) : start.view.destroyed e = false := by
  have reads : Reads (fun e => (later.engine.executable e).work) later.engine := fun _ _ => rfl
  by_contra gone
  have still := run.reachesWhile.view_induction (motive := fun view => view.destroyed e = true)
    sound reads (by simpa using gone) fun _ _ _ _ _ taken gone => taken.step.destroyed gone
  rw [there] at still
  cases still

theorem Returned.quiet (returned : machine.Returned c) (request : ∀ target dependencies onFailure,
      machine.view.errand ≠ some (.synchronise c target dependencies onFailure)) :
    machine.view.Quiet c :=
  ⟨fun member => returned.gather (mem_stack_of_mem_duties member),
    fun duty member => returned.gates duty (mem_stack_of_mem_duties member), request⟩

/-- A composite that finds a dependency pending puts a watch for each of its failures on it. -/
theorem Sound.heard_of_pending {found : Machine} (sound : found.Sound) {answer : Answer}
    {g : GateRef} {position : Nat} {rest : List ExecutableRef} {frames : List Frame}
    (examining : found.control = .resume answer)
    (top : found.stack = .examine g position d rest (some (.dependencyFailed c)) :: frames)
    (pending : (found.engine.executable d).isReady = false)
    (failed : failure ∈ (found.engine.executable d).failedStatuses) :
    found.step.view.Heard c d failure := by
  have built := (sound.frames _ (top ▸ mem_cons_self ..)).executables d (mem_cons_self ..)
  have next : found.step = ({ found with stack := frames } : Machine).examine g position d rest
      (some (.dependencyFailed c)) := by
    simp only [Machine.step, examining, top]
    rfl
  let given := circumstances (fun e => (found.engine.executable e).work) found found
  have known : given.work d = (found.engine.executable d).work := rfl
  rw [next, view_examine_of_pending { found with stack := frames } g position rest _ built known
    pending]
  refine ⟨by rintro ⟨⟩, .inr (.inl ?_)⟩
  simp only [Function.update_self]
  refine Multiset.mem_add.mpr (.inl (Multiset.mem_cons_of_mem ?_))
  exact mem_flatMap.mpr ⟨.dependencyFailed c, by simp [Listener.isWatcher],
    mem_map.mpr ⟨failure, failed, rfl⟩⟩

/-- A composite fails along with a dependency that its latest execution found pending, if the
dependency fails while the composite is waiting and its execution has returned: once the
dependency's host is drained, the composite has failed. -/
theorem composite_fails_with_pending_dependency {found failing last : Machine} {answer : Answer}
    {g : GateRef} {position : Nat} {rest : List ExecutableRef} {frames : List Frame}
    -- An execution of the composite comes to the dependency and finds it pending.
    (early : ({} : Machine).ReachesWhile (·.LeavesAlone c) found)
    (composite : (found.engine.executable c).work = .composite dependencies)
    (examining : found.control = .resume answer)
    (top : found.stack = .examine g position d rest (some (.dependencyFailed c)) :: frames)
    (pending : (found.engine.executable d).isReady = false)
    -- That execution has returned and the composite is waiting when the dependency fails.
    (waits : found.step.ReachesWhile (·.Heedful c) failing)
    (returned : failing.Returned c)
    (waiting : (failing.engine.executable c).status = .waiting)
    (asked : failing.control = .perform (.setStatus d failure))
    (moves : (failing.engine.executable d).moves failure = true)
    (failed : failure ∈ (failing.engine.executable d).failedStatuses)
    -- The composite is not executed again, and the dependency's host is drained.
    (ends : failing.ReachesWhile (·.Heedful c) last)
    (runs : (last.engine.executable c).runs = (found.engine.executable c).runs)
    (there : (last.engine.executable d).destroyed = false)
    (turn : last.clientTurn = true) (drained : last.Drained (last.engine.executable d).host) :
    (last.engine.executable c).status = .failed := by
  have busy : found.clientTurn = false := by rw [clientTurn, examining]
  have step : Next found found.step := .engine busy
  have sound : found.Sound := Reachable.sound early.reaches
  have begun := sound.later_next step
  have reaches : found.Reaches failing := .trans (.step .refl step) waits.reaches
  have grown := sound.later_reaches reaches
  have kept {later : Machine} (run : found.Reaches later) :
      (later.engine.executable c).work = .composite dependencies := by
    rw [← composite, (sound.later_reaches run).grown.work c (built_of_composite composite)]
  -- The composite is not executed again in any part of the run.
  have first := sound.runs_le (.step .refl step) c
  have second := begun.sound.runs_le waits.reaches c
  have third := grown.sound.runs_le ends.reaches c
  have total : last.view.runs c = found.view.runs c := runs
  have standing : failing.view.destroyed d = false :=
    grown.sound.not_destroyed ends.reaches there
  have telling : found.step.TellingKept := sound.tellingKept_step fun payload _ _ unwinding => by
    rw [examining] at unwinding
    cases unwinding
  -- Up to the failure the composite watches the dependency, or is told already.
  have built : d < found.engine.executables.length :=
    (sound.frames _ (top ▸ mem_cons_self ..)).executables d (mem_cons_self ..)
  have known : failure ∈ (found.engine.executable d).failedStatuses := by
    rwa [Executable.failedStatuses, grown.grown.work d built] at failed
  have own : found.step.view.Own c :=
    own_of_leavesAlone (.step early step waits.start_holds.alone) (kept (.step .refl step))
  obtain ⟨bounded, own, heard⟩ := begun.sound.heedful_induction telling waits (kept reaches)
    (by omega) standing (Reachable.bounded (.step early.reaches step)) own
    (sound.heard_of_pending examining top pending known)
    fun step heeds alone composite _ own runs there heard =>
      step.heard heeds there heard own alone composite runs
  have errand : failing.view.errand = some (.setStatus d failure) := by
    simp only [view, asked]
    rfl
  obtain ⟨real, new⟩ := (Executable.moves_iff ..).mp moves
  have told : failing.view.Told c d failure := by
    rcases heard.told with busy | watch | alerted | failing
    · exact absurd waiting busy
    · exact .watched errand real new watch
    · exact .alerted alerted
    · exact .failing failing
  -- From then on it stays told, and once nothing is on its way it has failed.
  obtain ⟨_, _, _, told⟩ := grown.sound.heedful_induction
    (waits.tellingKept begun.sound (fun _ holds => holds.steady) telling) ends
    (kept (reaches.trans ends.reaches)) (by omega) there bounded own
    (motive := fun view => view.Quiet c ∧ view.Told c d failure)
    ⟨returned.quiet (by rw [errand]; rintro _ _ _ ⟨⟩), told⟩
    fun step heeds alone composite bounded own runs there both =>
      ⟨step.quiet both.1 bounded alone runs,
        step.told heeds there both.2 both.1 own alone composite runs⟩
  have idle : last.view.errand = none := by
    rw [view_of_clientTurn turn]
    rfl
  cases told with
  | watched asked | failing asked =>
    rw [idle] at asked
    cases asked
  | alerted alerted =>
    obtain ⟨event, source, sent⟩ := alerted
    have sound := (grown.sound.later_reaches ends.reaches).sound
    exact absurd (by rw [source]) (sound.host_ne_of_drained drained sent)
  | failed status _ => exact status

/-- A composite waits for one dependency that is ready and one that is pending, which fails. -/
theorem composite_fails_with_pending_dependency_mixed :
    ∃ found failing last : Machine, found.Reachable ∧ found.Reaches failing ∧
      failing.Reaches last ∧
      (found.engine.executable 2).work = .composite [0, 1] ∧
      (found.engine.executable 0).isReady = true ∧
      found.stack.head? = some (.examine 0 1 1 [] (some (.dependencyFailed 2))) ∧
      failing.control = .perform (.setStatus 1 .failed) ∧
      (failing.engine.executable 2).status = .waiting ∧
      (last.engine.executable 2).status = .failed := by
  let alone (state : Machine) : Bool := decide (state.LeavesAlone 2)
  let heedful (state : Machine) : Bool := decide (state.Heedful 2)
  let start := ({} : Machine).after [.openHost {} .silent, .build 0 (.manual false),
    .build 0 (.manual false), .build 0 (.composite [0, 1]), .call (.setStatus 0 .ready)] alone
  let called := start.call (.execute 2 .always)
  let found := called.halt (fun state => state.stack.head? ==
    some (.examine 0 1 1 [] (some (.dependencyFailed 2))) && state.control == .resume .done) alone
  let returned := found.step.halt clientTurn heedful
  let failing := returned.call (.setStatus 1 .failed)
  let last := failing.halt clientTurn heedful
  have first : ({} : Machine).ReachesWhile (fun state => alone state = true) start :=
    reachesWhile_after (by decide) (by decide)
  have second : Next start called := .call (by decide) (by decide)
  have third : called.ReachesWhile (fun state => alone state = true) found :=
    reachesWhile_halt (by decide) (by decide)
  have waits : found.step.ReachesWhile (fun state => heedful state = true) returned :=
    reachesWhile_halt (by decide) (by decide)
  have fails : Next returned failing := .call (by decide) (by decide)
  have ends : failing.ReachesWhile (fun state => heedful state = true) last :=
    reachesWhile_halt (by decide) (by decide)
  have early : ({} : Machine).ReachesWhile (·.LeavesAlone 2) found :=
    ((first.step second (by decide)).trans third).mono fun _ holds => of_decide_eq_true holds
  have waits : found.step.ReachesWhile (·.Heedful 2) failing :=
    (waits.step fails (by decide)).mono fun _ holds => of_decide_eq_true holds
  have ends : failing.ReachesWhile (·.Heedful 2) last :=
    ends.mono fun _ holds => of_decide_eq_true holds
  have top : found.stack =
      [.examine 0 1 1 [] (some (.dependencyFailed 2)), .inspect 2, .hold [2]] := by decide
  have composite : (found.engine.executable 2).work = .composite [0, 1] := by decide
  have examining : found.control = .resume .done := by decide
  have stands : failing.stack = [.hold [1]] := by decide
  have returned : failing.Returned 2 :=
    ⟨by simp [stands], by simp [stands], by simp [stands], by simp [stands, Frame.gate?]⟩
  have settled : last.stack = [] := by decide
  have status := composite_fails_with_pending_dependency early composite examining top (by decide)
    waits returned (by decide) rfl (by decide) (by decide) ends (by decide) (by decide) (by decide)
    ⟨by decide, by decide, by simp [settled]⟩
  exact ⟨found, failing, last, early.reaches,
    .trans (.step .refl (.engine (by decide))) waits.reaches, ends.reaches, composite, by decide,
    by rw [top]; rfl, rfl, by decide, status⟩

/-- A composite goes on waiting after the failure of a dependency that it found ready, although
nothing moved it but its own work, nothing was destroyed and the host is drained. -/
theorem composite_waits_past_failure_of_ready_dependency :
    ∃ failing last : Machine, ({} : Machine).ReachesWhile (·.LeavesAlone 2) failing ∧
      (failing.engine.executable 2).work = .composite [0, 1] ∧ failing.Returned 2 ∧
      (failing.engine.executable 2).status = .waiting ∧
      failing.control = .perform (.setStatus 0 .failed) ∧
      (failing.engine.executable 0).moves .failed = true ∧
      .failed ∈ (failing.engine.executable 0).failedStatuses ∧
      failing.ReachesWhile (·.Heedful 2) last ∧
      (∀ e ∈ [0, 1, 2], (last.engine.executable e).destroyed = false) ∧
      last.clientTurn = true ∧ last.Drained 0 ∧
      (last.engine.executable 2).status = .waiting := by
  let alone (state : Machine) : Bool := decide (state.LeavesAlone 2)
  let heedful (state : Machine) : Bool := decide (state.Heedful 2)
  let start := ({} : Machine).after [.openHost {} .silent, .build 0 (.manual false),
    .build 0 (.manual false), .call (.setStatus 0 .ready), .build 0 (.composite [0, 1]),
    .call (.execute 2 .always)] alone
  let failing := start.call (.setStatus 0 .failed)
  let last := (failing.halt clientTurn heedful).after [.call (.pump 0)] heedful
  have first : ({} : Machine).ReachesWhile (fun state => alone state = true) start :=
    reachesWhile_after (by decide) (by decide)
  have fails : Next start failing := .call (by decide) (by decide)
  have returns : failing.ReachesWhile (fun state => heedful state = true)
      (failing.halt clientTurn heedful) := reachesWhile_halt (by decide) (by decide)
  have ends : (failing.halt clientTurn heedful).ReachesWhile (fun state => heedful state = true)
      last := reachesWhile_after (by decide) (by decide)
  have stands : failing.stack = [.hold [0]] := by decide
  have settled : last.stack = [] := by decide
  exact ⟨failing, last, (first.step fails (by decide)).mono fun _ holds => of_decide_eq_true holds,
    by decide,
    ⟨by simp [stands], by simp [stands], by simp [stands], by simp [stands, Frame.gate?]⟩,
    by decide, rfl, by decide, by decide,
    (returns.trans ends).mono fun _ holds => of_decide_eq_true holds, by decide, by decide,
    ⟨by decide, by decide, by simp [settled]⟩, by decide⟩

end Machine

end Readiness
