import Readiness.Proofs.Delivery.Pump
import Readiness.Proofs.Delivery.Recovery
import Readiness.Proofs.Policy.Moves
import Readiness.Proofs.Policy.Story

/-! Runs in which the client gives nothing up and synchronises nobody, observers are not client code
and listeners do not call the engine.

Main statements: such runs are told by what the client did to executables and hosts, and listeners
have been told or are going to be told what the transitions owed to those that were registered for
them.
-/

namespace Readiness

namespace Machine

variable {machine next : Machine} {move : Move}

/-- The calls that the next step owes, if an executable moves then. -/
def owes (machine : Machine) : Multiset (Event × Delivery) :=
  match machine.control with
  | .perform (.setStatus e status) => machine.engine.owes e status
  | _ => 0

/-- An executable is about to be synchronised. -/
def synchronises (machine : Machine) : Bool :=
  match machine.control with
  | .perform (.synchronise _ _ _ _) => true
  | _ => false

/-- Runs in which the client gives nothing up and synchronises nobody, observers are not client code
and listeners do not call the engine: what the client did to executables and hosts, the calls that
transitions owed to those that were registered for them, and the state of the machine. -/
inductive Performed : List Move → Multiset (Event × Delivery) → Machine → Prop where
  /-- Nothing has been done. -/
  | start : Performed [] 0 {}
  /-- The engine goes on. -/
  | engine {moves : List Move} {owed : Multiset (Event × Delivery)} {machine : Machine}
    (before : Performed moves owed machine) (busy : machine.clientTurn = false)
    (apart : machine.step.synchronises = false) :
    Performed moves (owed + machine.owes) machine.step
  /-- The client does what does not have to do with executables. -/
  | hidden {moves : List Move} {owed : Multiset (Event × Delivery)} {machine next : Machine}
    {move : Move} (before : Performed moves owed machine)
    (moved : machine.move? move = some next) (allowed : machine.allows move = true)
    (hides : machine.hides move = true) : Performed moves owed next
  /-- The client does something to executables and hosts. -/
  | shown {moves : List Move} {owed : Multiset (Event × Delivery)} {machine next : Machine}
    {move : Move} (before : Performed moves owed machine)
    (moved : machine.move? move = some next) (allowed : machine.allows move = true)
    (shows : machine.hides move = false) : Performed (moves ++ [move]) owed next

/-- Lets the engine go on until the client has the turn, and adds up what transitions owe. -/
def goesOn? : Nat → Multiset (Event × Delivery) × Machine →
    Option (Multiset (Event × Delivery) × Machine)
  | 0, _ => none
  | fuel + 1, (owed, machine) =>
    if machine.clientTurn then some (owed, machine)
    else if machine.step.synchronises then none
    else goesOn? fuel (owed + machine.owes, machine.step)

/-- What the client has done to executables and hosts, what transitions owed, and the machine, after
one more move of the client if it may make it. -/
def carryOn (run : List Move × Multiset (Event × Delivery) × Machine) (move : Move) :
    List Move × Multiset (Event × Delivery) × Machine :=
  let moved := do
    let next ← run.2.2.move? move
    if run.2.2.allows move then goesOn? 100 (run.2.1, next) else none
  match moved with
  | some later => (if run.2.2.hides move then run.1 else run.1 ++ [move], later)
  | none => run

/-- Carries out a run of this kind turn by turn. -/
def carried (moves : List Move) : List Move × Multiset (Event × Delivery) × Machine :=
  moves.foldl carryOn ([], 0, {})

/-- Letting the engine go on keeps to runs of this kind. -/
theorem Performed.goesOn {moves : List Move} {fuel : Nat}
    {run later : Multiset (Event × Delivery) × Machine} (performed : Performed moves run.1 run.2)
    (goes : goesOn? fuel run = some later) : Performed moves later.1 later.2 := by
  induction fuel generalizing run with
  | zero => cases goes
  | succ fuel ih =>
    simp only [goesOn?] at goes
    split at goes
    · cases goes
      exact performed
    · rename_i busy
      split at goes
      · cases goes
      · rename_i apart
        refine ih ?_ goes
        exact performed.engine (by simpa using busy) (by simpa using apart)

/-- One more move of the client keeps to runs of this kind. -/
theorem Performed.carryOn {run : List Move × Multiset (Event × Delivery) × Machine}
    (performed : Performed run.1 run.2.1 run.2.2) (move : Move) :
    Performed (Machine.carryOn run move).1 (Machine.carryOn run move).2.1
      (Machine.carryOn run move).2.2 := by
  simp only [Machine.carryOn]
  split
  · rename_i later goes
    obtain ⟨next, moved, goes⟩ := Option.bind_eq_some_iff.mp goes
    split at goes
    · rename_i allowed
      split
      · rename_i hides
        exact (performed.hidden moved allowed hides).goesOn goes
      · rename_i shows
        exact (performed.shown moved allowed (by simpa using shows)).goesOn goes
    · cases goes
  · exact performed

/-- What is carried out is a run of this kind. -/
theorem performed_carried (moves : List Move) :
    Performed (carried moves).1 (carried moves).2.1 (carried moves).2.2 := by
  have onward (run : List Move × Multiset (Event × Delivery) × Machine)
      (performed : Performed run.1 run.2.1 run.2.2) :
      Performed (moves.foldl carryOn run).1 (moves.foldl carryOn run).2.1
        (moves.foldl carryOn run).2.2 := by
    induction moves generalizing run with
    | nil => exact performed
    | cons move rest ih => exact ih _ (performed.carryOn move)
  exact onward _ .start

theorem apart_of_synchronises (apart : machine.synchronises = false) :
    ∀ e target dependencies onFailure, machine.control ≠
      .perform (.synchronise e target dependencies onFailure) := by
  intro e target dependencies onFailure turn
  simp [synchronises, turn] at apart

theorem owes_gist (machine : Machine) : machine.gist.owes = machine.owes := by
  simp only [Gist.owes, gist, owes]
  cases machine.control with
  | perform command => cases command <;> rfl
  | _ => rfl

theorem owes_of_rests (rests : machine.acts = false) : machine.owes = 0 := by
  unfold owes
  split
  · rename_i turn
    simp [acts, turn, Command.isDeed] at rests
  · rfl

/-- What executables do next shows at the front of the gist. -/
theorem gist_of_acts (acts : machine.acts = true) :
    (∃ command, machine.control = .perform command ∧ command.isDeed = true ∧
      machine.gist.errand = some command) ∨
    ∃ answer frame rest duties, machine.control = .resume answer ∧
      machine.stack = frame :: rest ∧ (frame.isDeed = true ∧ frame.isClient = false) ∧
      machine.gist.errand = none ∧ machine.gist.duties = frame :: duties := by
  cases turn : machine.control with
  | perform command =>
    have deed : command.isDeed = true := by simpa only [Machine.acts, turn] using acts
    exact .inl ⟨command, rfl, deed, by simp [gist, turn, Control.deed?, deed]⟩
  | resume answer =>
    cases stands : machine.stack with
    | nil => simp [Machine.acts, turn, stands] at acts
    | cons frame rest =>
      have both : (frame.isDeed && !frame.isClient) = true := by
        simpa only [Machine.acts, turn, stands] using acts
      obtain ⟨deed, ours⟩ := Bool.and_eq_true_iff.mp both
      refine .inr ⟨answer, frame, rest, rest.filter Frame.isDeed, rfl, rfl,
        ⟨deed, by simpa using ours⟩, ?_, ?_⟩
      · simp [gist, turn, Control.deed?]
      · simp [gist, falls, turn, stands, deed]
  | unwind payload | called | returned answer => simp [Machine.acts, turn] at acts

theorem isIdle_of_acts (acts : machine.acts = true) : machine.gist.isIdle = false := by
  rcases gist_of_acts acts with ⟨command, _, _, errand⟩ |
    ⟨answer, frame, rest, duties, _, _, ⟨_, ours⟩, _, first⟩
  · simp [Gist.isIdle, errand]
  · simp [Gist.isIdle, first, ours]

/-- A command leads to no synchronisation at once. -/
theorem synchronises_start (machine : Machine) {command : Command} (deed : command.isDeed = true)
    {top : Frame.Kind} (suits : command.suits top = true) :
    (machine.start command).synchronises = false := by
  obtain ⟨_, _, sequel⟩ := machine.sequel_start command
  unfold synchronises
  generalize (machine.start command).control = control at sequel
  cases sequel with
  | ask | run => cases deed
  | other odd => cases (odd top).symm.trans suits
  | _ => rfl

/-- A call that goes on leads to synchronisation only if it is a composite's that gathers its
dependencies. -/
theorem synchronises_receive (machine : Machine) (answer : Answer) {frame : Frame}
    (plain : frame.kind ≠ .foreign) :
    (machine.receive answer frame).synchronises = true ↔ ∃ e, frame = .gather e := by
  refine ⟨fun asks => ?_, fun ⟨e, same⟩ => by subst same; rfl⟩
  obtain ⟨_, _, sequel⟩ := machine.sequel_receive answer frame
  unfold synchronises at asks
  generalize (machine.receive answer frame).control = control at sequel asks
  cases sequel with
  | own is own goes => rcases goes with ⟨_, rfl⟩ | ⟨_, _, rfl⟩ <;> cases asks
  | other odd => exact odd.resolve_left plain
  | _ => cases asks

/-- A composite gathers its dependencies only to have them synchronised. -/
theorem Ungated.gathers_eq (ungated : machine.Ungated) (acts : machine.acts = true) :
    machine.gist.gathers = machine.step.synchronises := by
  rcases gist_of_acts acts with ⟨command, turn, deed, errand⟩ |
    ⟨answer, frame, rest, duties, turn, stands, ⟨deed, ours⟩, errand, first⟩
  · obtain ⟨top, _, _, suits⟩ := ungated.posed.command command turn
    rw [step_of_perform turn, synchronises_start machine deed suits]
    simp only [Gist.gathers, errand]
  · have plain := ungated.posed.ordered.plain frame (by rw [stands]; exact List.mem_cons_self)
    rw [Bool.eq_iff_iff, step_of_resume turn stands, synchronises_receive _ _ plain]
    simp only [Gist.gathers, errand, first]
    cases frame <;> simp

theorem gist_empty : ({} : Machine).gist = {} :=
  Gist.ext rfl rfl rfl rfl

/-- The machine is ungated at first. -/
theorem ungated_empty : ({} : Machine).Ungated where
  reachable := .refl
  posed := ⟨.empty, fun _ same => (by cases same), fun _ _ member => (by cases member)⟩
  allKept := by
    rw [gist_empty]
    refine ⟨fun _ => rfl, ?_, ?_, .of_unhanded ?_⟩
    · exact fun _ _ same => (by cases same)
    · exact fun _ absent => absurd absent (Nat.not_lt_zero _)
    · exact fun _ => List.not_mem_nil
  unwatched := ⟨fun _ => rfl, rfl⟩

theorem AtRest.isIdle (rests : machine.AtRest) : machine.gist.isIdle = true := by
  rw [gist_of_clientTurn rests.1]
  show (machine.stack.filter Frame.isDeed).head?.all Frame.isClient = true
  rw [rests.2]
  rfl

theorem AtRest.duties (rests : machine.AtRest) : machine.gist.duties = [] := by
  rw [gist_of_clientTurn rests.1]
  show machine.stack.filter Frame.isDeed = []
  rw [rests.2]
  rfl

/-- An id is vacant if whoever is registered under it is not in the store. -/
theorem Ungated.resolve?_eq_none_iff (ungated : machine.Ungated) (h : HostRef) (id : String) :
    machine.resolve? h id = none ↔
      ∀ e ∈ (machine.gist.store.host h).roster.lookup id,
        ¬ e < machine.gist.store.executables.length := by
  have roster : (machine.gist.store.host h).roster = (machine.engine.host h).roster := by
    rw [show machine.gist.store.host h = _ from machine.engine.host_still h]
    rfl
  rw [resolve?, Option.filter_eq_none_iff, roster]
  exact forall₂_congr fun e _ => not_congr (ungated.isAlive_iff e)

/-- Whatever the client does to executables and hosts, it has what it must have. -/
theorem Ungated.able (ungated : machine.Ungated) (turn : machine.clientTurn = true)
    (able : machine.Able move) (allowed : machine.allows move = true)
    (shown : machine.hides move = false) : machine.gist.Able move := by
  have hosts : machine.gist.store.hosts.length = machine.engine.hosts.length := List.length_map ..
  have built (e : ExecutableRef) (alive : machine.isAlive e = true) :
    e < machine.gist.store.executables.length := (ungated.isAlive_iff e).mp alive
  cases move with
  | openHost settings observer =>
    rintro code rfl
    cases allowed
  | build h work => exact ⟨hosts ▸ able.1, fun d member => built d (able.2.1 d member), able.2.2⟩
  | register h id work =>
    exact ⟨hosts ▸ able.1, fun d member => built d (able.2.1 d member), able.2.2.1,
      (ungated.resolve?_eq_none_iff h id).mp able.2.2.2⟩
  | retain e | subscribe e code status once | unsubscribe e code status | beginWait e =>
    exact built e able
  | call command =>
    have deed : command.isDeed = true := by simpa [hides] using shown
    refine ⟨⟨deed, ?_⟩, fun e member => built e (able.alive e member), able.own, fun h same => ?_⟩
    · cases command <;> first | rfl | cases allowed | cases deed
    · exact hosts ▸ able.opened h (.inr same)
  | finish reply =>
    obtain ⟨callback, rest, stands⟩ := able
    have deed : (Frame.client callback).isDeed = true := by simpa [hides, stands] using shown
    refine ⟨callback, rest.filter Frame.isDeed, ?_⟩
    rw [gist_of_clientTurn turn]
    show machine.stack.filter Frame.isDeed = _
    rw [stands, List.filter_cons_of_pos deed]
  | advance elapsed | panic payload => trivial
  | release e => cases allowed
  | accept | openSession h future | closeSession k => cases shown

/-- An ungated machine loses no batch to a panic. -/
theorem Ungated.not_losesBatchOf (ungated : machine.Ungated) (h : HostRef) :
    ¬ machine.LosesBatchOf h := by
  rintro ⟨batch, ⟨payload, rest, frames, turn, stands⟩, _⟩
  cases falling : machine.falls with
  | true =>
    have plain := ungated.posed.falling falling _ (by rw [stands]; exact List.mem_cons_self)
    cases plain
  | false =>
    have ordered := ungated.posed.ordered
    have guarded : machine.stack.any Frame.isGuard = true := by
      simpa only [falls, turn, Bool.not_eq_false'] using falling
    rw [stands] at ordered guarded
    rcases ordered.guard_or_guarded guarded with guard | guarded
    · cases guard
    · obtain ⟨_, _, _, _, _, same⟩ := guarded
      cases same

namespace Performed

variable {moves : List Move} {owed : Multiset (Event × Delivery)}

variable (performed : Performed moves owed machine)
include performed

theorem ungated : machine.Ungated := by
  induction performed with
  | start => exact ungated_empty
  | engine before busy apart ih => exact ih.step busy (apart_of_synchronises apart)
  | hidden before moved allowed hides ih => exact ih.made moved allowed
  | shown before moved allowed shows ih => exact ih.made moved allowed

/-- They are told by what the client did, whatever the policies are. -/
theorem story : Story (moves.map (Move.under default)) machine.gist := by
  induction performed with
  | start =>
    rw [gist_empty]
    exact .start
  | @engine moves owed machine before busy apart ih =>
    have ungated := before.ungated
    cases acts : machine.acts with
    | true =>
      rw [ungated.gist_step_of_acts acts (apart_of_synchronises apart)]
      exact ih.turn (isIdle_of_acts acts) (by rw [ungated.gathers_eq acts, apart])
    | false =>
      rw [ungated.gist_step_of_rests acts]
      exact ih
  | hidden before moved allowed hides ih =>
    obtain ⟨turn, able, rfl⟩ := move?_eq_some_iff.mp moved
    rw [gist_made_of_hides turn able hides]
    exact ih
  | @shown moves owed machine next move before moved allowed shows ih =>
    have ungated := before.ungated
    obtain ⟨turn, able, rfl⟩ := move?_eq_some_iff.mp moved
    have idle := ungated.isIdle turn (ungated.free_of_shown turn able allowed shows)
    rw [ungated.gist_made turn able allowed shows, ← Gist.act_under _ default, List.map_append]
    exact ih.act idle (Gist.able_under.mpr (ungated.able turn able allowed shows))

/-- Listeners have been told or are going to be told what is owed. -/
theorem dues_eq : machine.gist.dues = owed := by
  induction performed with
  | start => rfl
  | @engine moves owed machine before busy apart ih =>
    have ungated := before.ungated
    cases acts : machine.acts with
    | true =>
      rw [ungated.gist_step_of_acts acts (apart_of_synchronises apart), Gist.dues_turn, ih,
        owes_gist]
    | false => rw [ungated.gist_step_of_rests acts, owes_of_rests acts, add_zero, ih]
  | hidden before moved allowed hides ih =>
    obtain ⟨turn, able, rfl⟩ := move?_eq_some_iff.mp moved
    rw [gist_made_of_hides turn able hides, ih]
  | shown before moved allowed shows ih =>
    obtain ⟨turn, able, rfl⟩ := move?_eq_some_iff.mp moved
    rw [before.ungated.gist_made turn able allowed shows, Gist.dues_act, ih]

/-- No batch is ever lost to a panic. -/
theorem reachesWhile (h : HostRef) :
    ({} : Machine).ReachesWhile (fun state => ¬ state.LosesBatchOf h) machine := by
  induction performed with
  | start => exact .refl (ungated_empty.not_losesBatchOf h)
  | engine before busy apart ih =>
    exact ih.step (.engine busy) ((before.engine busy apart).ungated.not_losesBatchOf h)
  | hidden before moved allowed hides ih =>
    exact ih.step (next_of_move moved)
      ((before.hidden moved allowed hides).ungated.not_losesBatchOf h)
  | shown before moved allowed shows ih =>
    exact ih.step (next_of_move moved)
      ((before.shown moved allowed shows).ungated.not_losesBatchOf h)

/-- At rest no batch waits in the dispatch queue of a host. -/
theorem queue_eq_nil (rests : machine.stack = []) (h : HostRef) :
    (machine.engine.host h).queue = [] := by
  have empty : ¬ ({} : Machine).PassesLoop h := by
    rintro ⟨_, _, turn, _⟩
    cases turn
  refine ((performed.reachesWhile h).draining_or_empty .refl empty (.inr rfl)).resolve_left ?_
  rw [performed.ungated.reachable.draining_iff, rests]
  exact List.not_mem_nil

end Performed

end Machine

end Readiness
