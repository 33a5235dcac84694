import Readiness.Proofs.Composite.Fresh
import Readiness.Proofs.Delivery.Pump

/-! Graphs of composites settle along with their leaves.

Main statement: once the root of a graph of fresh composites has been executed, it is ready only if
all leaves below it are. When all of them have settled and the deferred batches are delivered, it is
ready if all are ready and has failed if one has failed.
-/

namespace Readiness

open List

theorem Frame.eq_of_isObserver {frame : Frame} (observer : frame.isObserver = true) :
    ∃ code notice, frame = .client (.observer code notice) := by
  unfold Frame.isObserver at observer
  split at observer
  · exact ⟨_, _, rfl⟩
  · cases observer

namespace Machine

/-- What is below an executable, the executable included. -/
def Under (machine : Machine) (root : ExecutableRef) : ExecutableRef → Prop :=
  Below (fun e => (machine.engine.executable e).work) root

/-- A composite below an executable. -/
structure CompositeUnder (machine : Machine) (root c : ExecutableRef) : Prop where
  under : machine.Under root c
  composite : (machine.engine.executable c).work.isComposite = true

/-- A leaf below an executable. -/
structure LeafUnder (machine : Machine) (root l : ExecutableRef) : Prop where
  under : machine.Under root l
  /-- It depends on no other. -/
  simple : (machine.engine.executable l).work.isComposite = false

/-- The composites below a root were never executed, and the client has left them alone. -/
structure FreshGraph (machine : Machine) (root : ExecutableRef) (h : HostRef) : Prop where
  /-- The client has left the composites alone. -/
  early : ({} : Machine).ReachesWhile
    (fun state => ∀ c, machine.CompositeUnder root c → state.LeavesAlone c) machine
  rest : machine.AtRest
  alive : machine.isAlive root = true
  /-- Nothing below it has been destroyed. -/
  there : ∀ e, machine.Under root e → (machine.engine.executable e).destroyed = false
  /-- All is of one host. -/
  home : ∀ e, machine.Under root e → (machine.engine.executable e).host = h
  /-- The composites were never executed. -/
  fresh : ∀ c, machine.CompositeUnder root c → (machine.engine.executable c).runs = 0

/-- The client leaves what is below a root to itself, and the leaves keep to what they have come
to. -/
structure Tends (start : Machine) (root : ExecutableRef) (machine : Machine) : Prop where
  alive : machine.isAlive root = true
  steady : ∀ payload, machine.control ≠ .unwind payload
  /-- Observers call nobody. -/
  passive : ∀ frame ∈ machine.stack.tail, frame.isObserver = false
  /-- The client does not ask for a composite to be moved. -/
  alone : ∀ c, start.CompositeUnder root c → machine.LeavesAlone c
  /-- It executes a composite only while that is not ready. -/
  waits : ∀ c refresh, start.CompositeUnder root c → machine.Asks (.execute c refresh) →
    (machine.engine.executable c).isReady = false
  kept : ∀ e, start.Under root e → ¬ machine.Asks (.destroy e)
  /-- A leaf that is ready or has failed does not move any more. -/
  final : ∀ l status, start.LeafUnder root l → machine.control = .perform (.setStatus l status) →
    (machine.engine.executable l).isReady = true ∨ (machine.engine.executable l).hasFailed = true →
      (machine.engine.executable l).moves status = false

variable {start later machine : Machine} {root c e : ExecutableRef} {h : HostRef}
  {nodes : List ExecutableRef}

/-- While observers call nobody, nothing else happens until they have heard of an execution. -/
theorem Sound.begin_top (sound : machine.Sound)
    (passive : ∀ frame ∈ machine.stack.tail, frame.isObserver = false) {status : Status}
    (begun : .begin e status ∈ machine.view.duties) :
    machine.view.errand = none ∧ ∃ rest, machine.view.duties = .begin e status :: rest := by
  obtain ⟨above, rest, stands⟩ := append_of_mem (mem_stack_of_mem_duties begun)
  have duties : machine.view.duties = (above ++ .begin e status :: rest).flatMap Frame.duty := by
    rw [← stands]
    rfl
  -- Neither such a frame nor the observer asks for anything.
  have idle {top : Frame} {others : List Frame} (under : machine.stack = top :: others)
      (busy : top.isBusy = true ∨ top.isClient = true) : machine.view.errand = none := by
    cases asked : machine.view.errand with
    | none => rfl
    | some command =>
      have fits := sound.control
      rw [control_of_errand asked] at fits
      obtain ⟨_, ⟨other, _, same, quiet, ours⟩, _⟩ := fits
      rw [under] at same
      cases same
      simp [quiet, ours] at busy
  rcases eq_nil_or_concat above with rfl | ⟨upper, top, rfl⟩
  · exact ⟨idle stands (.inl rfl), rest.flatMap Frame.duty, by rw [duties]; rfl⟩
  · -- Only the observer stands on it, and nothing on the observer.
    rw [concat_eq_append, append_assoc, singleton_append] at stands duties
    have chain := sound.layered
    rw [stands] at chain
    have observer : top.isObserver = true := by
      rcases (isChain_cons_cons.mp (isChain_append.mp chain).2.1).1.told rfl with
        observer | ⟨⟨_, other⟩, _⟩
      · exact observer
      · cases other
    cases upper with
    | nil =>
      obtain ⟨code, notice, rfl⟩ := Frame.eq_of_isObserver observer
      exact ⟨idle stands (.inr rfl), rest.flatMap Frame.duty, by rw [duties]; rfl⟩
    | cons first others =>
      rw [passive top (by rw [stands]; simp)] at observer
      cases observer

section Graph

variable (sound : start.Sound) (grown : start.engine.Extends later.engine)
  (built : root < start.engine.executables.length)

include sound built in
/-- All under an executable have been built. -/
theorem Sound.built_of_under (under : start.Under root e) :
    e < start.engine.executables.length := by
  induction under with
  | refl => exact built
  | tail _ listed ih => exact Nat.lt_trans (sound.store.older _ _ listed) ih

/-- The graph of what is below an executable, as a later store shows it. -/
def Sound.graph : Graph where
  work := fun e => (later.engine.executable e).work
  nodes := start.Under root
  closed := fun c under d listed => by
    rw [grown.work c (sound.built_of_under built under)] at listed
    exact .tail under listed
  older := fun c under d listed => by
    rw [grown.work c (sound.built_of_under built under)] at listed
    exact sound.store.older c d listed
  lawful := fun e under => by
    rw [grown.work e (sound.built_of_under built under)]
    exact sound.store.lawful e (sound.built_of_under built under)

variable {state : Machine} (kept : start.engine.Extends state.engine)

include kept in
/-- The graph has the work of the store. -/
theorem Sound.graph_work (under : start.Under root e) :
    (sound.graph grown built).work e = (state.engine.executable e).work :=
  (grown.work e (sound.built_of_under built under)).trans
    (kept.work e (sound.built_of_under built under)).symm

/-- Inner nodes are composites. -/
theorem Sound.graph_inner : (sound.graph grown built).Inner c ↔ start.CompositeUnder root c := by
  constructor
  · rintro ⟨under, composite⟩
    rw [sound.graph_work grown built (.refl _) under] at composite
    exact ⟨under, composite⟩
  · rintro ⟨under, composite⟩
    refine ⟨under, ?_⟩
    rw [sound.graph_work grown built (.refl _) under]
    exact composite

/-- Leaves are not. -/
theorem Sound.graph_leaf : (sound.graph grown built).Leaf c ↔ start.LeafUnder root c := by
  constructor
  · rintro ⟨under, simple⟩
    rw [sound.graph_work grown built (.refl _) under] at simple
    exact ⟨under, simple⟩
  · rintro ⟨under, simple⟩
    refine ⟨under, ?_⟩
    rw [sound.graph_work grown built (.refl _) under]
    exact simple

/-- The graph has the edges of the store. -/
theorem Sound.below_graph (under : start.Under root e) :
    Below (sound.graph grown built).work root e := by
  induction under with
  | refl => exact .refl
  | tail under listed ih =>
    refine .tail ih ?_
    rw [sound.graph_work grown built (.refl _) under]
    exact listed

include kept in
theorem Sound.graph_ready (under : start.Under root e) :
    (sound.graph grown built).Ready state.view e ↔
      (state.engine.executable e).isReady = true := by
  rw [Graph.Ready, sound.graph_work grown built kept under, Executable.isReady, decide_eq_true_eq]
  rfl

include kept in
theorem Sound.graph_failed (under : start.Under root e) :
    (sound.graph grown built).Failed state.view e ↔
      (state.engine.executable e).hasFailed = true := by
  rw [Graph.Failed, sound.graph_work grown built kept under, Executable.hasFailed,
    contains_eq_mem, decide_eq_true_eq]
  rfl

include sound built kept in
/-- A root keeps all below it alive. -/
theorem Sound.isAlive_of_under (later : state.Sound) (alive : state.isAlive root = true)
    (under : start.Under root e) : state.isAlive e = true := by
  induction under with
  | refl => exact alive
  | @tail c d under listed ih =>
    have there := sound.built_of_under built under
    refine isAlive_of_mem_dependencies later.store (Nat.lt_of_lt_of_le there kept.executables) ih ?_
    rw [kept.work c there]
    exact listed

/-- A client that leaves all below a root to itself does so in every step. -/
theorem Sound.tended {before after : Machine} {view next : View} (known : before.Sound)
    (kept : start.engine.Extends before.engine) (still : start.engine.Extends after.engine)
    (holds : start.Tends root before) (late : start.Tends root after)
    (taken : Taken (sound.graph grown built).work before after view next) :
    (sound.graph grown built).Tended view
      (circumstances (sound.graph grown built).work before after) next := by
  -- What is asked for is asked for where the step begins, and where it ends.
  have early {command : Command} (asked : view.errand = some command) : view = before.view := by
    refine taken.begins.resolve_right fun ⟨idle, _⟩ => ?_
    rw [idle] at asked
    cases asked
  refine ⟨rfl, fun c inner => ?_, fun c inner => ?_, fun c refresh inner asked asks => ?_,
    fun e node asked => holds.kept e node asked, fun l status leaf asked settled => ?_,
    fun frame ⟨payload, _, unwinding, _⟩ => holds.steady payload unwinding,
    fun e status begun => ?_, fun listener event watcher call => ?_⟩
  · exact sound.isAlive_of_under built kept known holds.alive inner.node
  · have under := (sound.graph_inner grown built).mp inner
    exact leavesAlone_circumstances (holds.alone c under) (late.alone c under)
  · have same : next = after.view := by
      refine taken.ends.resolve_right fun idle => ?_
      rw [idle] at asks
      cases asks
    have under := (sound.graph_inner grown built).mp inner
    rw [same, sound.graph_ready grown built still under.under, late.waits c refresh under asked]
    decide
  · cases early asked
    have under := (sound.graph_leaf grown built).mp leaf
    rw [sound.graph_ready grown built kept under.under,
      sound.graph_failed grown built kept under.under] at settled
    have stays := holds.final l status under (control_of_errand asked) settled
    rw [← Bool.not_eq_true, Executable.moves_iff, not_and_or, not_not, not_not] at stays
    exact stays
  · rcases taken.begins with rfl | ⟨idle, ⟨_, _, _, _, asked⟩, first⟩
    · exact known.begin_top holds.passive begun
    · -- Where a gate is set up no execution is announced.
      rcases first.duty_cases begun with old | new
      · rw [(known.begin_top holds.passive old).1] at asked
        cases asked
      · cases new with
        | begin other =>
          rw [asked] at other
          cases other
  · cases early call
    refine Multiset.mem_add.mpr (.inl ?_)
    rw [control_of_errand call]
    simp [Control.alerts, Command.alerts, watcherCalls_singleton watcher]

end Graph

namespace FreshGraph

variable {refresh : Refresh} (fresh : start.FreshGraph root h)

include fresh

theorem sound : start.Sound :=
  Reachable.sound fresh.early.reaches

theorem built : root < start.engine.executables.length :=
  fresh.sound.lt_of_isAlive fresh.alive

theorem next : Next start (start.call (.execute root refresh)) := by
  refine .call fresh.rest.1
    ((permitted_iff ..).mpr ⟨fun e member => ?_, fun _ member => ?_, trivial⟩)
  · rw [mem_singleton.mp member]
    exact fresh.alive
  · cases member

theorem reachable : (start.call (.execute root refresh)).Reachable :=
  .step fresh.early.reaches fresh.next

/-- Nobody has meddled with the composites. -/
theorem alone (composite : start.CompositeUnder root c) :
    ({} : Machine).ReachesWhile (·.LeavesAlone c) (start.call (.execute root refresh)) := by
  refine (fresh.early.mono fun _ alone => alone c composite).step fresh.next ?_
  rintro command ⟨asked, _⟩
  cases asked
  rfl

/-- They have done nothing so far. -/
theorem untouched (composite : start.CompositeUnder root c) :
    (start.call (.execute root refresh)).view.Own c ∧
      (start.call (.execute root refresh)).view.Untouched c := by
  have work := Work.eq_of_isComposite composite.composite
  exact ⟨own_of_leavesAlone (fresh.alone composite) work,
    untouched_of_runs (fresh.alone composite) work (fresh.fresh c composite)⟩

theorem later_of_reaches {state : Machine}
    (reaches : (start.call (.execute root refresh)).Reaches state) : state.Later start.engine :=
  fresh.sound.later_reaches (.trans (.step .refl fresh.next) reaches)

variable (run : (start.call (.execute root refresh)).ReachesWhile (start.Tends root) later)

/-- The graph below the root, as the last state of a run shows it. -/
def graph : Graph :=
  fresh.sound.graph (fresh.later_of_reaches run.reaches).grown fresh.built

include run

/-- What every step keeps that leaves the composites to themselves, a run keeps. -/
theorem tended_induction {motive : View → Prop}
    (base : motive (start.call (.execute root refresh)).view)
    (kept : ∀ {given : Circumstances} {view next : View}, given.Step view next →
      (fresh.graph run).Tended view given next → motive view → motive next) :
    motive later.view := by
  have whole := run.and_of_reaches fun state reaches => fresh.later_of_reaches reaches
  have reads : Reads (fresh.graph run).work later.engine := fun _ _ => rfl
  refine whole.view_induction (fresh.later_of_reaches .refl).sound reads base ?_
  intro before after early late _ view next taken holds
  exact kept taken.step (fresh.sound.tended _ fresh.built early.holds.2.sound early.holds.2.grown
    late.2.grown early.holds.1 late.1 taken) holds

omit run in
theorem duties_eq_nil : (start.call (.execute root refresh)).view.duties = [] := by
  show (start.call (.execute root refresh)).stack.flatMap Frame.duty = []
  rw [call, perform, push, fresh.rest.2]
  rfl

/-- The composites below the root are sure of their leaves, and can count on being told of them. -/
theorem safe_and_live : (fresh.graph run).Safe later.view ∧ (fresh.graph run).Live later.view := by
  have bounded : (start.call (.execute root refresh)).view.Bounded :=
    Reachable.bounded fresh.reachable
  have untouched (c : ExecutableRef) (inner : (fresh.graph run).Inner c) :
      (start.call (.execute root refresh)).view.Own c ∧
        (start.call (.execute root refresh)).view.Untouched c :=
    fresh.untouched ((fresh.sound.graph_inner _ _).mp inner)
  refine fresh.tended_induction run (motive := fun view =>
    (fresh.graph run).Safe view ∧ (fresh.graph run).Live view) ?_ ?_
  · exact ⟨.of_untouched bounded fresh.there untouched, .of_untouched bounded
      (Reachable.attentive fresh.reachable) fresh.duties_eq_nil
      fun c inner => (untouched c inner).2⟩
  · rintro given view next step tended ⟨safe, live⟩
    exact ⟨safe.step tended step, live.step safe tended step⟩

/-- The root has been begun. -/
theorem begun (composite : start.CompositeUnder root root) : later.view.Begun root := by
  refine fresh.tended_induction run (motive := fun view => view.Begun root)
    (.inr (.inl ⟨refresh, rfl⟩)) fun step tended begun => ?_
  exact tended.begun_next step ((fresh.sound.graph_inner _ _).mpr composite) begun

/-- The gates that were there when the root was executed belong to no composite below it. -/
theorem not_inner_of_lt {g : GateRef}
    (made : g < (start.call (.execute root refresh)).view.gates.length) :
    ¬ (fresh.graph run).Inner (later.view.gate g).dependent := by
  have same : g < later.view.gates.length ∧ (later.view.gate g).dependent =
      ((start.call (.execute root refresh)).view.gate g).dependent := by
    refine fresh.tended_induction run (motive := fun view => g < view.gates.length ∧
      (view.gate g).dependent = ((start.call (.execute root refresh)).view.gate g).dependent)
      ⟨made, rfl⟩ fun step _ ⟨there, same⟩ => ?_
    obtain ⟨still, kept⟩ := step.gate_kept there
    exact ⟨still, kept.trans same⟩
  intro inner
  rw [same.2] at inner
  exact (fresh.untouched ((fresh.sound.graph_inner _ _).mp inner)).2.gates g made rfl

/-- The client may have the deferred batches of the host delivered. -/
theorem next_pump (rest : later.AtRest) : Next later (later.call (.pump h)) := by
  have opened : h < later.engine.hosts.length := by
    rw [← fresh.home root .refl]
    exact Nat.lt_of_lt_of_le (fresh.sound.store.hosted root fresh.built)
      (fresh.later_of_reaches run.reaches).grown.hosts
  refine .call rest.1 ((permitted_iff ..).mpr ⟨fun _ member => ?_, fun _ member => ?_, opened⟩)
  · cases member
  · cases member

variable {final : Machine} (rest : later.AtRest)
  (returns : (later.call (.pump h)).ReturnsWhile (start.Tends root) final)

include rest returns

theorem pumped : (start.call (.execute root refresh)).ReachesWhile (start.Tends root) final :=
  (run.step (fresh.next_pump run rest) returns.reachesWhile.start_holds).trans returns.reachesWhile

/-- Once the deferred batches are delivered, a call about an executable below the root is on its way
only if it was so when the root was executed. -/
theorem mem_alerts_of_pumped {call : Event × Listener} (sent : call ∈ final.view.alerts)
    (under : start.Under root call.1.source) :
    call ∈ (start.call (.execute root refresh)).view.alerts := by
  have whole := fresh.later_of_reaches (fresh.pumped run rest returns).reaches
  obtain ⟨turn, none_left⟩ := returns.1.1
  have waiting : call ∈ final.engine.alerts := by
    rcases Multiset.mem_add.mp sent with now | later
    · cases said : final.control with
      | called | returned =>
        rw [said] at now
        cases now
      | perform | resume | unwind =>
        rw [clientTurn, said] at turn
        cases turn
    · rcases Multiset.mem_add.mp later with stacked | waiting
      · rw [none_left] at stacked
        cases stacked
      · exact waiting
  obtain ⟨other, batch, listed, within⟩ := Engine.mem_alerts.mp waiting
  -- The batch waits with the host of its source, which is that of the root.
  have home := (whole.sound.store.batches other batch listed).home
  rw [event_of_mem_watcherCalls (show call ∈ watcherCalls _ _ from within)] at under
  rw [whole.grown.home _ (fresh.sound.built_of_under fresh.built under),
    fresh.home _ under] at home
  subst home
  have queued := returns.mem_queue fresh.reachable run rest.2 (fresh.next_pump run rest)
    (fun _ tends => tends.steady) listed
  refine Multiset.mem_add.mpr (.inr (Multiset.mem_add.mpr (.inr ?_)))
  exact Engine.mem_alerts.mpr ⟨_, batch, mem_append_left _ queued, within⟩

/-- Once the deferred batches are delivered, nothing is under way below the root. -/
theorem still : (fresh.graph (fresh.pumped run rest returns)).Still final.view := by
  have bounded : (start.call (.execute root refresh)).view.Bounded :=
    Reachable.bounded fresh.reachable
  have safe := (fresh.safe_and_live (fresh.pumped run rest returns)).1
  obtain ⟨turn, none_left⟩ := returns.1.1
  refine ⟨?_, ?_, fun c event inner sent => ?_, fun g position event inner sent => ?_⟩
  · show final.stack.flatMap Frame.duty = []
    rw [none_left]
    rfl
  · cases asked : final.view.errand with
    | none => rfl
    | some command =>
      rw [clientTurn, control_of_errand asked] at turn
      cases turn
  · have source := inner.dependency (safe.alerts c event inner sent).1
    have early := fresh.mem_alerts_of_pumped run rest returns sent source
    exact (fresh.untouched ((fresh.sound.graph_inner _ _).mp inner)).2.alerts event early
  · have made := safe.bounded.alerts _ sent g position rfl
    obtain ⟨dependencies, reached, counted, which, countdown, _⟩ := safe.gates g made inner
    obtain ⟨_, at_, _⟩ := countdown.called event position sent
    have source : start.Under root event.source := by
      rcases which with rfl | rfl
      · cases at_
      · exact inner.dependency (mem_of_getElem? at_)
    have early := fresh.mem_alerts_of_pumped run rest returns sent source
    exact fresh.not_inner_of_lt _ (bounded.alerts _ early g position rfl) inner

end FreshGraph

/-- The root of a graph of fresh composites that is executed is ready only if all leaves below it
are. Once all of them have settled and the deferred batches are delivered, the root is ready if all
are ready, and has failed if one has failed. -/
theorem composite_graph_settles {refresh : Refresh} {state : Machine}
    (fresh : start.FreshGraph root h)
    (run : (start.call (.execute root refresh)).ReachesWhile (start.Tends root) state) :
    ((state.engine.executable root).isReady = true →
      ∀ l, start.LeafUnder root l → (state.engine.executable l).isReady = true) ∧
    ∀ final, state.AtRest →
      (state.call (.pump h)).ReturnsWhile (start.Tends root) final →
      (∀ l, start.LeafUnder root l → (final.engine.executable l).isReady = true ∨
        (final.engine.executable l).hasFailed = true) →
      ((∀ l, start.LeafUnder root l → (final.engine.executable l).isReady = true) →
        (final.engine.executable root).isReady = true) ∧
      ((∃ l, start.LeafUnder root l ∧ (final.engine.executable l).hasFailed = true) →
        (final.engine.executable root).hasFailed = true) := by
  have here : start.Under root root := .refl
  constructor
  · intro ready l leaf
    have grown := (fresh.later_of_reaches run.reaches).grown
    have safe := (fresh.safe_and_live run).1
    have all := safe.allReady here ((fresh.sound.graph_ready _ _ grown here).mpr ready)
    exact (fresh.sound.graph_ready _ _ grown leaf.under).mp
      (all l (fresh.sound.below_graph _ _ leaf.under) ((fresh.sound.graph_leaf _ _).mpr leaf))
  · intro final rest returns settled
    have whole := fresh.pumped run rest returns
    have grown := (fresh.later_of_reaches whole.reaches).grown
    -- Once all deferred batches are delivered, nothing is on its way to a composite.
    have still := fresh.still run rest returns
    obtain ⟨safe, live⟩ := fresh.safe_and_live whole
    have ready {e : ExecutableRef} (under : start.Under root e) :
        (fresh.graph whole).Ready final.view e ↔ (final.engine.executable e).isReady = true :=
      fresh.sound.graph_ready _ _ grown under
    have failed {e : ExecutableRef} (under : start.Under root e) :
        (fresh.graph whole).Failed final.view e ↔ (final.engine.executable e).hasFailed = true :=
      fresh.sound.graph_failed _ _ grown under
    have leaf {l : ExecutableRef} : (fresh.graph whole).Leaf l ↔ start.LeafUnder root l :=
      fresh.sound.graph_leaf _ _
    have decided := still.decided safe live
      (fun l simple => (settled l (leaf.mp simple)).imp (ready simple.node).mpr
        (failed simple.node).mpr) here
      fun inner => still.status_ne_null (fresh.begun whole ((fresh.sound.graph_inner _ _).mp inner))
    refine ⟨fun all => (ready here).mp (decided.1 fun l _ simple => ?_), ?_⟩
    · exact (ready simple.node).mpr (all l (leaf.mp simple))
    · rintro ⟨l, simple, fails⟩
      refine (failed here).mp (decided.2 ⟨l, ?_, leaf.mpr simple, (failed simple.under).mpr fails⟩)
      exact fresh.sound.below_graph _ _ simple.under

/-- Whether the client is at rest can be checked. -/
instance (machine : Machine) : Decidable machine.AtRest :=
  decidable_of_iff (machine.clientTurn = true ∧ machine.stack.isEmpty = true)
    (and_congr_right fun _ => isEmpty_iff)

/-- A closed list holds all under its first. -/
theorem Under.mem (first : root ∈ nodes)
    (closed : ∀ c ∈ nodes, ∀ d ∈ (start.engine.executable c).work.dependencies, d ∈ nodes)
    (under : start.Under root e) : e ∈ nodes := by
  induction under with
  | refl => exact first
  | tail _ listed ih => exact closed _ ih _ listed

/-- The client asks for nothing about an executable of a graph that it should not, and a leaf does
not change its mind. -/
def spares (start machine : Machine) (e : ExecutableRef) : Bool :=
  let now := machine.engine.executable e
  machine.asked? != some (.destroy e) &&
    if (start.engine.executable e).work.isComposite then
      decide (machine.LeavesAlone e) &&
        match machine.asked? with
        | some (.execute c _) => c != e || !now.isReady
        | _ => true
    else
      match machine.control with
      | .perform (.setStatus l status) => l != e || !(now.isReady || now.hasFailed) ||
        !now.moves status
      | _ => true

/-- Whether the client tends a graph, executable by executable. -/
def tends (start : Machine) (root : ExecutableRef) (nodes : List ExecutableRef)
    (machine : Machine) : Bool :=
  machine.isAlive root &&
    (match machine.control with
    | .unwind _ => false
    | _ => true) &&
    machine.stack.tail.all (!·.isObserver) && nodes.all (start.spares machine)

/-- What can be checked is what is meant. -/
theorem tends_of_nodes (listed : ∀ e, start.Under root e → e ∈ nodes)
    (checked : start.tends root nodes machine = true) : start.Tends root machine := by
  simp only [tends, Bool.and_eq_true, all_eq_true] at checked
  obtain ⟨⟨⟨alive, steady⟩, passive⟩, spared⟩ := checked
  have each (e : ExecutableRef) (under : start.Under root e) := spared e (listed e under)
  simp only [spares, Bool.and_eq_true, bne_iff_ne] at each
  refine ⟨alive, fun payload unwinding => ?_, fun frame member => ?_, fun c inner => ?_,
    fun c refresh inner asks => ?_, fun e under asks => ?_, fun l status leaf asked settled => ?_⟩
  · rw [unwinding] at steady
    cases steady
  · simpa using passive frame member
  · have checked := (each c inner.under).2
    rw [if_pos inner.composite] at checked
    simp only [Bool.and_eq_true, decide_eq_true_eq] at checked
    exact checked.1
  · have checked := (each c inner.under).2
    rw [if_pos inner.composite, (asks_iff ..).mp asks, Bool.and_eq_true] at checked
    simpa using checked.2
  · exact (each e under).1 ((asks_iff ..).mp asks)
  · have checked := (each l leaf.under).2
    rw [if_neg (by simp [leaf.simple]), asked] at checked
    rcases settled with ready | failed
    · simpa [ready] using checked
    · simpa [failed] using checked

/-- A root that depends twice on a composite stays behind when the leaves become ready one after the
other, since the calls are put off, and becomes ready as these are made. -/
theorem composite_graph_settles_shared : ∃ start state final : Machine, start.FreshGraph 3 0 ∧
    (start.call (.execute 3 .always)).ReachesWhile (start.Tends 3) state ∧
    (state.engine.executable 3).status = .waiting ∧ state.AtRest ∧
    (state.call (.pump 0)).ReturnsWhile (start.Tends 3) final ∧
    (∀ l, start.LeafUnder 3 l → (final.engine.executable l).isReady = true) ∧
    (final.engine.executable 3).isReady = true := by
  let nodes : List ExecutableRef := [0, 1, 2, 3]
  let alone (state : Machine) : Bool := decide (state.LeavesAlone 2 ∧ state.LeavesAlone 3)
  let start := ({} : Machine).after [.openHost {} .silent, .build 0 (.manual false),
    .build 0 (.manual false), .build 0 (.composite [0, 1]), .build 0 (.composite [2, 2, 1])] alone
  let executed := (start.call (.execute 3 .always)).halt clientTurn (start.tends 3 nodes)
  let state := executed.after [.call (.setStatus 0 .ready), .call (.setStatus 1 .ready)]
    (start.tends 3 nodes)
  let within (machine : Machine) : Bool := start.tends 3 nodes machine && !decide machine.AtRest
  let last := (state.call (.pump 0)).halt (·.stack.isEmpty) within
  have listed (e : ExecutableRef) (under : start.Under 3 e) : e ∈ nodes :=
    under.mem (by decide) (by decide)
  have tends {machine : Machine} (checked : start.tends 3 nodes machine = true) :
      start.Tends 3 machine := tends_of_nodes listed checked
  have fresh : start.FreshGraph 3 0 := by
    have early : ({} : Machine).ReachesWhile (fun state => alone state = true) start :=
      reachesWhile_after (by decide) (by decide)
    have composites : ∀ e ∈ nodes, (start.engine.executable e).work.isComposite = true →
        e = 2 ∨ e = 3 := by decide
    have there : ∀ e ∈ nodes, (start.engine.executable e).destroyed = false := by decide
    have home : ∀ e ∈ nodes, (start.engine.executable e).host = 0 := by decide
    have runs : ∀ e ∈ nodes, (start.engine.executable e).runs = 0 := by decide
    refine ⟨early.mono fun state holds c inner => ?_, by decide, by decide,
      fun e under => there e (listed e under), fun e under => home e (listed e under),
      fun c inner => runs c (listed c inner.under)⟩
    obtain ⟨second, third⟩ := of_decide_eq_true holds
    rcases composites c (listed c inner.under) inner.composite with rfl | rfl
    · exact second
    · exact third
  have first : (start.call (.execute 3 .always)).ReachesWhile
      (fun machine => start.tends 3 nodes machine = true) executed :=
    reachesWhile_halt (by decide) (by decide)
  have second : executed.ReachesWhile (fun machine => start.tends 3 nodes machine = true) state :=
    reachesWhile_after (by decide) (by decide)
  have run := (first.trans second).mono fun _ => tends
  have pumps : (state.call (.pump 0)).ReachesWhile (fun machine => within machine = true) last :=
    reachesWhile_halt (by decide) (by decide)
  have returns : (state.call (.pump 0)).ReturnsWhile (start.Tends 3) last.step := by
    refine ⟨⟨by decide, tends (by decide)⟩, last, pumps.mono fun machine holds => ?_,
      .engine (by decide)⟩
    simp only [within, Bool.and_eq_true, Bool.not_eq_true', decide_eq_false_iff_not] at holds
    exact ⟨tends holds.1, holds.2⟩
  have rest : state.AtRest := by decide
  have ready : ∀ l, start.LeafUnder 3 l → (last.step.engine.executable l).isReady = true := by
    have all : ∀ e ∈ nodes, (last.step.engine.executable e).isReady = true := by decide
    exact fun l leaf => all l (listed l leaf.under)
  have settles := (composite_graph_settles fresh run).2 _ rest returns fun l leaf =>
    .inl (ready l leaf)
  exact ⟨start, state, last.step, fresh, run, by decide, rest, returns, ready, settles.1 ready⟩

end Machine

end Readiness
