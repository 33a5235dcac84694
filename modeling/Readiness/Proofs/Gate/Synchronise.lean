import Readiness.Proofs.Gate.Progress
import Readiness.Proofs.Machine.Carried
import Readiness.Proofs.Machine.Drained

/-! Synchronisation: when the gate that a request sets up opens.

Main statement: it opens at most once, only when every position is satisfied, and then moves the
dependent. If no call gets lost it does open, unless the last call finds that the dependent has
been destroyed or has failed.
-/

namespace Readiness

open List

variable {d : ExecutableRef} {later : Machine}

variable {given : Circumstances} {view next : View}

namespace Passage

variable {passage : Passage}

/-- A gate begins without tokens. -/
theorem tokens_of_fresh (bounded : view.Bounded) (fresh : passage.g = view.gates.length)
    (watches : next.watches = view.watches) (alerts : next.alerts = view.alerts)
    (journal : ∀ position d found, .examined passage.g position d found ∈ next.journal →
      .examined passage.g position d found ∈ view.journal)
    (single : (next.passing passage.g).length ≤ 1)
    (passing : ∀ duty ∈ next.passing passage.g, passage.At 0 duty) (whole : Prop) :
    passage.Tokens next 0 ∅ whole := by
  have unwatched {d : ExecutableRef} {status : Status} {position : Nat} :
      (status, .countdown passage.g position) ∉ next.watches d := fun member =>
    Nat.lt_irrefl _ (fresh ▸ bounded.watches d _ (watches ▸ member) _ _ rfl)
  have uncalled {event : Event} {position : Nat} :
      (event, .countdown passage.g position) ∉ next.alerts := fun member =>
    Nat.lt_irrefl _ (fresh ▸ bounded.alerts _ (alerts ▸ member) _ _ rfl)
  refine ⟨Nat.zero_le _, forall_mem_nil _, single, passing,
    fun _ _ _ member => absurd member unwatched, fun _ _ member => absurd member uncalled, ?_,
    fun _ _ _ below => absurd below (Nat.not_lt_zero _), ?_⟩
  · intro position d _
    have none_held : next.held passage.g position d = 0 := by
      rw [View.held, Multiset.countP_eq_zero.mpr, Multiset.countP_eq_zero.mpr]
      · rintro ⟨event, listener⟩ member rfl
        exact uncalled member
      · rintro ⟨status, listener⟩ member rfl
        exact unwatched member
    simp [none_held]
  · intro position d found member
    exact absurd (bounded.journal _ (journal position d found member) passage.g rfl)
      (fresh ▸ Nat.lt_irrefl _)

/-- The countdown begins with the step that sets up the gate. -/
theorem countdown_of_synchronise (bounded : view.Bounded) (fresh : passage.g = view.gates.length)
    (step : given.Step view next) {dependencies : List ExecutableRef} {onFailure : Option Listener}
    (asked : view.errand =
      some (.synchronise passage.dependent passage.target dependencies onFailure))
    (all_ready : (∀ d ∈ dependencies, given.Ready view d) → passage.dependencies = [])
    (pending : ¬ (∀ d ∈ dependencies, given.Ready view d) → passage.dependencies = dependencies)
    (whole : Prop) : passage.Countdown next 0 ∅ whole := by
  have unopened : .gateOpened passage.g ∉ view.journal := fun member =>
    Nat.lt_irrefl _ (fresh ▸ bounded.journal _ member passage.g rfl)
  have others : (view.duties.filter fun other => other.gate? = some passage.g) = [] := by
    refine filter_eq_nil_iff.mpr fun duty member about => ?_
    have early := (bounded.duties duty member).gate passage.g (by simpa using about)
    exact absurd early (fresh ▸ Nat.lt_irrefl _)
  rcases step.of_synchronise asked with ⟨ready, rfl⟩ | ⟨waiting, rfl⟩
  · have none_left := all_ready ready
    refine ⟨?_, ?_, ?_, ?_, ?_⟩
    · refine tokens_of_fresh bounded fresh (by rfl) (by rfl) ?_ ?_ ?_ whole
      · intro position d found member
        rcases mem_append.mp member with old | new
        · exact old
        · cases mem_singleton.mp new
      · rw [View.passing, others]
        exact Nat.zero_le 1
      · intro duty member
        rw [View.passing, others] at member
        cases member
    · simp [fresh, none_left]
    · rw [← fresh]
      refine OpensOnce.append_opened unopened fun position d at_ => ?_
      rw [none_left] at at_
      cases at_
    · intro more
      rw [none_left] at more
      cases more
    · intro _ _
      rw [← fresh]
      exact mem_append_right _ (mem_singleton_self _)
  · have same := pending fun ready => waiting.elim fun d missing => missing.2 (ready d missing.1)
    have passing : View.passing { view with
        gates := view.gates ++ [⟨passage.dependent, passage.target, dependencies.length⟩]
        duties := .arm view.gates.length 0 dependencies onFailure :: view.duties
        errand := none } passage.g = [.arm passage.g 0 dependencies onFailure] := by
      rw [View.passing, ← fresh, filter_cons_of_pos (by simp [Frame.gate?]), others]
    refine ⟨?_, ?_, OpensOnce.of_not_mem unopened, fun _ => unopened, ?_⟩
    · refine tokens_of_fresh bounded fresh (by rfl) (by rfl) ?_ ?_ ?_ whole
      · exact fun _ _ _ => id
      · rw [passing]
        exact Nat.le_refl 1
      · intro duty member
        rw [passing] at member
        rw [mem_singleton.mp member, ← same]
        exact .inl ⟨onFailure, rfl⟩
    · simp [fresh, same]
    · -- A gate that waits has something to wait for.
      intro _ all
      obtain ⟨d, member, _⟩ := waiting
      rw [same, Finset.card_empty] at all
      rw [length_eq_zero_iff.mp all.symm] at member
      cases member

end Passage

/-- A gate that opens asks its dependent to move. -/
theorem Circumstances.Step.errand_of_opened (step : given.Step view next) {g : GateRef}
    (opened : .gateOpened g ∈ next.journal) (shut : .gateOpened g ∉ view.journal) :
    next.errand = some (.setStatus (next.gate g).dependent (next.gate g).target) := by
  -- Only three steps open a gate, and each of them asks for the move at once.
  have released {mid : View} {other : GateRef} (shut' : .gateOpened g ∉ mid.journal)
      (opened' : .gateOpened g ∈ (mid.countOrRelease other).journal) :
      (mid.countOrRelease other).errand =
        some (.setStatus ((mid.countOrRelease other).gate g).dependent
        ((mid.countOrRelease other).gate g).target) := by
    unfold View.countOrRelease at opened' ⊢
    split at opened'
    · rename_i last
      rw [if_pos last]
      rcases mem_append.mp opened' with old | new
      · exact absurd old shut'
      · cases mem_singleton.mp new
        rfl
    · exact absurd opened' shut'
  cases step with
  | passThrough asked ready =>
    rcases mem_append.mp opened with old | new
    · exact absurd old shut
    · cases mem_singleton.mp new
      simp [View.gate]
  | count idle top ready =>
    refine released (fun member => ?_) opened
    rcases mem_append.mp member with old | new
    · exact shut old
    · cases mem_singleton.mp new
  | tick asked sent alive able => exact released shut opened
  | move | watch =>
    rcases mem_append.mp opened with old | new
    · exact absurd old shut
    · cases mem_singleton.mp new
  | _ => exact absurd opened shut

namespace Machine

variable {machine : Machine} {x : ExecutableRef} {target : Status}
  {dependencies : List ExecutableRef} {onFailure : Option Listener}

/-- The gate that a request to synchronise sets up, which waits for nobody if all are ready. -/
def passage (machine : Machine) (x : ExecutableRef) (target : Status)
    (dependencies : List ExecutableRef) : Passage where
  g := machine.engine.gates.length
  dependent := x
  target := target
  dependencies :=
    if dependencies.all fun d => (machine.engine.executable d).isReady then [] else dependencies
  success := fun d => (machine.engine.executable d).readyStatus

/-- The wait that a request sets up is over: all dependencies were ready when it was made, or each
position has been satisfied since. -/
def WaitMet (machine : Machine) (dependencies : List ExecutableRef) (journal : List Occurrence) :
    Prop :=
  (∀ d ∈ dependencies, (machine.engine.executable d).isReady = true) ∨
    ∀ position d, dependencies[position]? = some d →
      Satisfied journal machine.engine.gates.length position d
        (machine.engine.executable d).readyStatus

/-- The wait is over when every position of the gate is satisfied. -/
theorem waitMet_iff (journal : List Occurrence) : machine.WaitMet dependencies journal ↔
    (machine.passage x target dependencies).Met journal := by
  unfold WaitMet Passage.Met passage
  by_cases ready : (dependencies.all fun d => (machine.engine.executable d).isReady) = true
  · simp only [ready, if_true, getElem?_nil, reduceCtorEq, false_implies, implies_true,
      iff_true]
    exact .inl (all_eq_true.mp ready)
  · simp only [ready, Bool.false_eq_true, if_false]
    exact or_iff_right fun all => ready (all_eq_true.mpr all)

theorem mem_of_mem_passage (member : d ∈ (machine.passage x target dependencies).dependencies) :
    d ∈ dependencies := by
  unfold passage at member
  simp only at member
  split at member
  · cases member
  · exact member

section Request

variable (sound : machine.Sound)
  (asked : machine.control = .perform (.synchronise x target dependencies onFailure))
  {work : ExecutableRef → Work}

include sound asked

theorem Sound.built_of_synchronise (member : d ∈ dependencies) :
    d < machine.engine.executables.length := by
  have fits := sound.control
  rw [asked] at fits
  exact fits.1.executables d (mem_cons_of_mem _ member)

theorem Sound.success_passage (reads : Reads work machine.engine)
    (member : d ∈ (machine.passage x target dependencies).dependencies) :
    (machine.passage x target dependencies).success d = (work d).readyStatus := by
  rw [reads d (sound.built_of_synchronise asked (mem_of_mem_passage member))]
  rfl

/-- A request to synchronise starts the countdown of its gate. -/
theorem Sound.countdown_step (bounded : machine.view.Bounded)
    (reads : Reads work machine.step.engine) :
    machine.step.view.Bounded ∧ ∃ reached counted,
      (machine.passage x target dependencies).Countdown machine.step.view reached counted
        (∀ d ∈ dependencies, machine.step.view.destroyed d = false) := by
  have busy : machine.clientTurn = false := by rw [clientTurn, asked]
  have before := reads.of_extends (sound.later_next (.engine busy)).grown
  have errand : machine.view.errand = some (.synchronise x target dependencies onFailure) := by
    simp only [view, asked]
    rfl
  have ready_iff : (∀ d ∈ dependencies, (circumstances work machine machine.step).Ready
      machine.view d) ↔
      (dependencies.all fun d => (machine.engine.executable d).isReady) = true := by
    rw [all_eq_true]
    exact forall₂_congr fun d member =>
      Reads.ready_iff before (sound.built_of_synchronise asked member) rfl
  have begin_ {after : View}
      (first : (circumstances work machine machine.step).Step machine.view after) (whole : Prop) :
      (machine.passage x target dependencies).Countdown after 0 ∅ whole := by
    refine Passage.countdown_of_synchronise bounded (by rfl) first (by exact errand) ?_ ?_ whole
    · intro ready
      simp only [passage, ready_iff.mp ready, if_true]
    · intro pending
      simp only [passage, if_neg (ready_iff.not.mp pending)]
  rcases sound.follows (.engine busy) reads with one | ⟨between, _, first, _, idle, second⟩
  · exact ⟨one.bounded bounded, 0, ∅, begin_ one _⟩
  · -- The gate has turned to its first dependency already.
    have mid := first.bounded bounded
    refine ⟨second.bounded mid, ?_⟩
    suffices further : (∀ d ∈ dependencies, machine.step.view.destroyed d = false) → True ∧
        (machine.passage x target dependencies).Harmless (circumstances work machine machine.step)
          between machine.step.view by
      obtain ⟨reached, counted, _, _, countdown⟩ := (begin_ first True).step mid second
        (fun d member => sound.success_passage asked before member) further
      exact ⟨reached, counted, countdown⟩
    refine fun unlost => ⟨trivial, ?_, fun d member => unlost d (mem_of_mem_passage member), ?_⟩
    · rintro frame ⟨payload, rest, unwinding, _⟩
      rw [asked] at unwinding
      cases unwinding
    · intro position event call
      rw [idle] at call
      cases call

/-- The countdown goes on with every step of a run, and is whole while no step loses a token. -/
theorem Sound.countdown_run (bounded : machine.view.Bounded) {condition : Machine → Prop}
    (run : machine.step.ReachesWhile condition later) (reads : Reads work later.engine)
    (whole : View → Prop)
    (first : whole machine.step.view → ∀ d ∈ dependencies, machine.step.view.destroyed d = false)
    (kept : ∀ {before after : Machine}, machine.step.ReachesWhile condition before →
      Reads work before.engine → ∀ {view next : View}, Taken work before after view next →
        whole next → whole view ∧ (machine.passage x target dependencies).Harmless
          (circumstances work before after) view next) :
    ∃ reached counted, (machine.passage x target dependencies).Countdown later.view reached counted
      (whole later.view) := by
  have busy : machine.clientTurn = false := by rw [clientTurn, asked]
  have start := sound.later_next (.engine busy)
  have begun := reads.of_extends (start.sound.later_reaches run.reaches).grown
  obtain ⟨bounded', reached, counted, countdown⟩ := sound.countdown_step asked bounded begun
  refine (run.view_induction (motive := fun view => view.Bounded ∧ ∃ reached counted,
    (machine.passage x target dependencies).Countdown view reached counted (whole view))
    start.sound reads ⟨bounded', reached, counted, countdown.weaken first⟩ ?_).2
  rintro before after run _ known view next taken ⟨bounded, reached, counted, countdown⟩
  obtain ⟨reached', counted', _, _, further⟩ := countdown.step bounded taken.step
    (fun d member => sound.success_passage asked (begun.of_extends start.grown) member)
    (kept run known taken)
  exact ⟨taken.step.bounded bounded, reached', counted', further⟩

end Request

/-- The last call for a gate is being made, and finds that the dependent has been destroyed or has
failed. -/
def LastCallVain (machine : Machine) (g : GateRef) (x : ExecutableRef) : Prop :=
  ∃ position event, machine.control = .perform (.invoke (.countdown g position) event) ∧
    (machine.engine.gate g).remaining = 1 ∧
    ((machine.engine.executable x).destroyed = true ∨
      (machine.engine.executable x).hasFailed = true)

theorem alerts_of_not_telling {frame : Frame} (plain : frame.isTelling = false) :
    frame.alerts = 0 := by
  cases frame with
  | announce | deliver => cases plain
  | _ => rfl

theorem gateOpened_mem_view {g : GateRef} :
    .gateOpened g ∈ machine.view.journal ↔ .gateOpened g ∈ machine.engine.journal.toList := by
  refine mem_filter.trans (and_iff_left rfl)

theorem control_of_errand {command : Command} (errand : machine.view.errand = some command) :
    machine.control = .perform command := by
  unfold view at errand
  cases turn : machine.control with
  | perform other =>
    simp only [turn, Control.errand] at errand
    split at errand
    · rw [Option.some.inj errand]
    · cases errand
  | _ =>
    simp only [turn, Control.errand] at errand
    cases errand

/-- No token gets lost while the dependent is alive, no observer panics, no dependency is destroyed
and the last call does not find the dependent destroyed or failed. -/
theorem harmless_of_alive {passage : Passage} {after : Machine} {work : ExecutableRef → Work}
    (reads : Reads work machine.engine) (kept : machine.TellingKept)
    (built : passage.dependent < machine.engine.executables.length)
    (alive : machine.isAlive passage.dependent = true)
    (able : ¬ machine.LastCallVain passage.g passage.dependent)
    (taken : Taken work machine after view next)
    (there : ∀ d ∈ passage.dependencies, next.destroyed d = false) :
    passage.Harmless (circumstances work machine after) view next := by
  refine ⟨?_, there, ?_⟩
  · rintro frame ⟨payload, rest, unwinding, stands⟩
    exact alerts_of_not_telling (kept payload frame rest unwinding stands)
  · intro position event call
    rcases taken.begins with rfl | ⟨idle, _, _⟩
    · have turn := control_of_errand call
      refine ⟨alive, fun last => ⟨?_, fun failed => able ⟨position, event, turn, last, .inr ?_⟩⟩⟩
      · by_contra gone
        exact able ⟨position, event, turn, last, .inl (Bool.not_eq_false _ ▸ gone)⟩
      · have same : (circumstances work machine after).Failed machine.view passage.dependent ↔ _ :=
          Reads.failed_iff reads built rfl
        exact same.mp failed
    · rw [idle] at call
      cases call

section Request

variable (sound : machine.Sound) (bounded : machine.view.Bounded)
  (asked : machine.control = .perform (.synchronise x target dependencies onFailure))

include sound bounded asked

theorem Sound.countdown_reaches (run : machine.step.Reaches later) :
    ∃ reached counted, (machine.passage x target dependencies).Countdown later.view reached counted
      False :=
  have reads : Reads (fun e => (later.engine.executable e).work) later.engine := fun _ _ => rfl
  sound.countdown_run asked bounded run.reachesWhile reads (fun _ => False) False.elim
    fun _ _ _ _ _ => False.elim

/-- The gate that a request sets up opens at most once, and not before the wait is over. -/
theorem Sound.opensOnce (run : machine.Reaches later) :
    OpensOnce machine.engine.gates.length (machine.WaitMet dependencies)
      later.engine.journal.toList := by
  rcases run.of_busy (by rw [clientTurn, asked]) with rfl | run
  · refine OpensOnce.of_not_mem fun member => ?_
    exact Nat.lt_irrefl _ (bounded.journal _ (gateOpened_mem_view.mpr member) _ rfl)
  · obtain ⟨reached, counted, countdown⟩ := sound.countdown_reaches bounded asked run
    refine countdown.once.of_filter fun before met => ?_
    have now : (machine.passage x target dependencies).Met before :=
      fun position d at_ => Satisfied.filter_iff.mp (met position d at_)
    exact (waitMet_iff before).mpr now

/-- When the gate opens, its dependent is asked to move. -/
theorem Sound.setStatus_of_opened {next : Machine} (run : machine.Reaches later)
    (step : Next later next)
    (shut : .gateOpened machine.engine.gates.length ∉ later.engine.journal.toList)
    (opened : .gateOpened machine.engine.gates.length ∈ next.engine.journal.toList) :
    next.control = .perform (.setStatus x target) := by
  have busy : machine.clientTurn = false := by rw [clientTurn, asked]
  -- The request is the errand from the step on that opens the gate.
  have errand := (sound.later_reaches run).sound.view_next step (fun _ _ => rfl)
    (motive := fun view => .gateOpened machine.engine.gates.length ∈ view.journal →
      view.errand = some (.setStatus (view.gate machine.engine.gates.length).dependent
        (view.gate machine.engine.gates.length).target))
    (fun {view after} taken before opened => by
      by_cases old : .gateOpened machine.engine.gates.length ∈ view.journal
      · rcases taken.begins with rfl | ⟨idle, _, _⟩
        · exact absurd (gateOpened_mem_view.mp old) shut
        · rw [before old] at idle
          cases idle
      · exact taken.step.errand_of_opened opened old)
    (fun old => absurd (gateOpened_mem_view.mp old) shut) (gateOpened_mem_view.mpr opened)
  rcases (Reaches.step run step).of_busy busy with rfl | run
  · exact absurd opened fun member =>
      Nat.lt_irrefl _ (bounded.journal _ (gateOpened_mem_view.mpr member) _ rfl)
  · obtain ⟨reached, counted, countdown⟩ := sound.countdown_reaches bounded asked run
    rw [show next.view.gate machine.engine.gates.length = _ from
      Passage.Countdown.gate_eq countdown.toBar] at errand
    exact control_of_errand errand

/-- If no call gets lost, the gate has opened once the wait is over and the hosts are drained. -/
theorem Sound.opened_of_drained
    (run : machine.step.ReachesWhile (fun state => (state.isAlive x = true ∧ state.ObserverSteady) ∧
      ¬ state.LastCallVain machine.engine.gates.length x) later)
    (met : machine.WaitMet dependencies later.engine.journal.toList)
    (there : ∀ d ∈ dependencies, (later.engine.executable d).destroyed = false)
    (drained : ∀ d ∈ dependencies, later.Drained (later.engine.executable d).host) :
    .gateOpened machine.engine.gates.length ∈ later.engine.journal.toList := by
  have busy : machine.clientTurn = false := by rw [clientTurn, asked]
  have start := sound.later_next (.engine busy)
  have built : x < machine.engine.executables.length := by
    have fits := sound.control
    rw [asked] at fits
    exact fits.1.executables x (mem_cons_self ..)
  have sound' := (start.sound.later_reaches run.reaches).sound
  -- No token is lost on the way, so that every position that is met has been counted.
  have whole : ∃ reached counted, (machine.passage x target dependencies).Countdown later.view
      reached counted (∀ d ∈ dependencies, later.view.destroyed d = false) := by
    have reads : Reads (fun e => (later.engine.executable e).work) later.engine := fun _ _ => rfl
    refine sound.countdown_run asked bounded run reads
      (fun view => ∀ d ∈ dependencies, view.destroyed d = false) id ?_
    intro before after run reads view next taken unlost
    have earlier := start.sound.later_reaches run.reaches
    have telling : before.TellingKept := run.tellingKept start.sound (fun _ holds => holds.1.2)
      (sound.tellingKept_step fun payload _ _ unwinding => by
        rw [asked] at unwinding; cases unwinding)
    refine ⟨fun d member => ?_, harmless_of_alive reads telling ?_ run.holds.1.1 run.holds.2 taken
      fun d member => unlost d (mem_of_mem_passage member)⟩
    · by_contra gone
      have still := taken.step.destroyed (e := d) (by simpa using gone)
      rw [unlost d member] at still
      cases still
    · exact Nat.lt_of_lt_of_le built (start.grown.trans earlier.grown).executables
  obtain ⟨reached, counted, countdown⟩ := whole
  refine gateOpened_mem_view.mp (countdown.opened there ?_ ?_)
  · have now : (machine.passage x target dependencies).Met _ := (waitMet_iff _).mp met
    exact fun position d at_ => Satisfied.filter_iff.mpr (now position d at_)
  · intro event position at_ member
    -- A call that is still to count would wait with a host that is drained.
    have listed := mem_of_mem_passage (mem_of_getElem? at_)
    exact sound'.host_ne_of_drained (drained _ listed) member rfl

end Request

/-- A request to synchronise moves its executable at most once, and only after every position of its
dependencies was satisfied. Once all of them are, it has moved the executable as long as this stays
alive, no dependency is destroyed, no observer panics and the hosts of the dependencies are drained,
unless the last call found the executable destroyed or failed. -/
theorem synchronise_moves_once_when_met (reachable : machine.Reachable)
    (asked : machine.control = .perform (.synchronise x target dependencies onFailure)) :
    (∀ later, machine.Reaches later →
      later.engine.journal.toList.count (.gateOpened machine.engine.gates.length) ≤ 1 ∧
      (∀ before after, later.engine.journal.toList =
        before ++ .gateOpened machine.engine.gates.length :: after →
          machine.WaitMet dependencies before) ∧
      ∀ next, Next later next →
        .gateOpened machine.engine.gates.length ∉ later.engine.journal.toList →
        .gateOpened machine.engine.gates.length ∈ next.engine.journal.toList →
          next.control = .perform (.setStatus x target)) ∧
    ∀ later,
      machine.step.ReachesWhile (fun state => state.isAlive x = true ∧ state.ObserverSteady) later →
      machine.WaitMet dependencies later.engine.journal.toList →
      (∀ d ∈ dependencies, (later.engine.executable d).destroyed = false ∧
        later.Drained (later.engine.executable d).host) →
      .gateOpened machine.engine.gates.length ∈ later.engine.journal.toList ∨
        ∃ last,
          machine.step.ReachesWhile
            (fun state => state.isAlive x = true ∧ state.ObserverSteady) last ∧
          last.LastCallVain machine.engine.gates.length x ∧
          last.ReachesWhile (fun state => state.isAlive x = true ∧ state.ObserverSteady) later := by
  have sound := reachable.sound
  have bounded := reachable.bounded
  refine ⟨fun later run => ?_, fun later run met dependencies => ?_⟩
  · have once := sound.opensOnce bounded asked run
    exact ⟨once.count_le_one, fun before after split => (once before after split).1,
      fun next step shut opened => sound.setStatus_of_opened bounded asked run step shut opened⟩
  · -- The countdown is kept whole unless its last call is made in vain.
    rcases run.avoids_or_passes fun state => state.LastCallVain machine.engine.gates.length x with
      avoids | ⟨last, early, vain, late⟩
    · exact .inl (sound.opened_of_drained bounded asked avoids met
        (fun d member => (dependencies d member).1) fun d member => (dependencies d member).2)
    · exact .inr ⟨last, early, vain, late⟩

/-- One executable waits for a ready one, which it lists twice, and for a pending one, and is moved
when this becomes ready. -/
theorem synchronise_moves_once_when_met_mixed :
    ∃ machine later : Machine, machine.Reachable ∧
      machine.control = .perform (.synchronise 2 .ready [0, 1, 0] none) ∧
      (machine.engine.executable 0).isReady = true ∧
      (machine.engine.executable 1).isReady = false ∧
      (∀ later, machine.Reaches later →
        later.engine.journal.toList.count (.gateOpened machine.engine.gates.length) ≤ 1) ∧
      machine.step.ReachesWhile
        (fun state => state.isAlive 2 = true ∧ state.ObserverSteady) later ∧
      machine.WaitMet [0, 1, 0] later.engine.journal.toList ∧ later.Drained 0 ∧
      (.gateOpened machine.engine.gates.length ∈ later.engine.journal.toList ∨
        ∃ last, machine.step.ReachesWhile
            (fun state => state.isAlive 2 = true ∧ state.ObserverSteady) last ∧
          last.LastCallVain machine.engine.gates.length 2 ∧
          last.ReachesWhile (fun state => state.isAlive 2 = true ∧ state.ObserverSteady) later) ∧
      (later.engine.executable 2).status = .ready := by
  let steady (state : Machine) : Bool := decide (state.isAlive 2 = true ∧ state.ObserverSteady)
  let start := ({} : Machine).after [.openHost {} .silent, .build 0 (.manual false),
    .build 0 (.manual false), .build 0 (.manual false), .call (.setStatus 0 .ready)]
  let machine := start.call (.synchronise 2 .ready [0, 1, 0] none)
  let waiting := machine.step.halt clientTurn steady
  let later := waiting.after [.call (.setStatus 1 .ready), .call (.pump 0)] steady
  have reachable : machine.Reachable := .step (reaches_after _ _) (.call (by decide) (by decide))
  have first : machine.step.ReachesWhile (fun state => steady state = true) waiting :=
    reachesWhile_halt (by decide) (by decide)
  have second : waiting.ReachesWhile (fun state => steady state = true) later :=
    reachesWhile_after (by decide) (by decide)
  have run := (first.trans second).mono fun _ holds => of_decide_eq_true holds
  have met : machine.WaitMet [0, 1, 0] later.engine.journal.toList := by
    refine .inr fun position d at_ => ?_
    match position with
    | 0 | 2 => cases at_; exact .inl (by decide)
    | 1 => cases at_; exact .inr ⟨.null, by decide⟩
    | _ + 3 => cases at_
  have settled : later.stack = [] := by decide
  have drained : later.Drained 0 := ⟨by decide, by decide, by simp [settled]⟩
  have home : ∀ d ∈ [0, 1, 0], (later.engine.executable d).destroyed = false ∧
      (later.engine.executable d).host = 0 := by decide
  obtain ⟨once, opens⟩ := synchronise_moves_once_when_met reachable rfl
  exact ⟨machine, later, reachable, rfl, by decide, by decide,
    fun state path => (once state path).1,
    run, met, drained, opens later run met fun d listed =>
      ⟨(home d listed).1, (home d listed).2 ▸ drained⟩, by decide⟩

end Machine

end Readiness
