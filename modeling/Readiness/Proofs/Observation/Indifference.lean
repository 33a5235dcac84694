import Mathlib.Data.Option.Basic
import Readiness.Proofs.Machine.Conduct
import Readiness.Proofs.Observation.Alike

/-! Observing does not change what is observed: clients that differ only in what they ask to be
timed and traced, and in how long they let time pass, see the same happen.
-/

namespace Readiness

namespace Machine

/-- Two moves that differ in nothing but what is to be timed and traced, and in how long time
passes. -/
inductive Move.Alike : Move → Move → Prop where
  /-- They do not differ at all. -/
  | same (move : Move) : Alike move move
  /-- Both let time pass. -/
  | advance (elapsed other : Nat) : Alike (.advance elapsed) (.advance other)
  /-- Both open a host, with settings that may differ in whether times are recorded, and observers
  that may differ in whether they trace. -/
  | openHost {settings other : Settings} {observer witness : Observer}
    (asked : settings.blind = other.blind) (observed : observer.blind = witness.blind) :
    Alike (.openHost settings observer) (.openHost other witness)

namespace Alike

variable {left right : Machine}

section

variable (alike : left.Alike right)
include alike

theorem clientTurn : left.clientTurn = right.clientTurn := by
  rw [Machine.clientTurn, alike.control, Machine.clientTurn]

theorem hosts : left.engine.hosts.length = right.engine.hosts.length :=
  alike.engine.hosts.length_eq

theorem sessionIdle (k : SessionRef) : left.sessionIdle k ↔ right.sessionIdle k := by
  simp only [Machine.sessionIdle, alike.session, alike.stack, alike.engine.sessions]

theorem permitted (command : Command) : left.Permitted command ↔ right.Permitted command := by
  simp only [permitted_iff, alike.isAlive, alike.hosts, alike.sessionIdle]

end

/-- What both machines can do leads to machines that are alike, and neither can do more. -/
theorem rel_ite {one two : Machine} {condition other : Prop} [Decidable condition]
    [Decidable other] (same : condition ↔ other) (alike : condition → one.Alike two) :
    Option.Rel Alike (if condition then some one else none) (if other then some two else none) := by
  by_cases holds : condition
  · rw [if_pos holds, if_pos (same.mp holds)]
    exact .some (alike holds)
  · rw [if_neg holds, if_neg (mt same.mpr holds)]
    exact .none

/-- Executables are built alike. -/
theorem built (alike : left.Alike right) (h : HostRef) (id : Option String) (work : Work) :
    Option.Rel Alike (left.built? h id work) (right.built? h id work) := by
  simp only [built?, alike.clientTurn, alike.hosts, alike.isAlive]
  split
  · cases lawful : work.fault? with
    | some fault =>
      rw [build_of_fault lawful, build_of_fault lawful]
      exact .none
    | none =>
      cases id with
      | none =>
        rw [build_temporary lawful, build_temporary lawful]
        exact .some (alike.update _ (alike.engine.addTemporary h work 1))
      | some id =>
        -- The id is taken in both machines or in neither.
        rw [build_registered lawful, build_registered lawful, alike.resolve]
        by_cases taken : (right.resolve? h id).isSome = true
        · rw [if_pos taken, if_pos taken]
          exact .none
        · rw [if_neg taken, if_neg taken]
          refine .some (alike.update _ ?_)
          rw [Engine.addRegistered, Engine.addRegistered, alike.size]
          refine Engine.Alike.note ?_ _
          exact (alike.engine.addExecutable _).changeHost h
            (·.enrol id right.engine.executables.length) (fun _ => rfl) fun _ => rfl
  · exact .none

/-- Alike moves lead to machines that are alike, and are possible together. -/
theorem move (alike : left.Alike right) {one two : Move} (moves : one.Alike two) :
    Option.Rel Alike (left.move? one) (right.move? two) := by
  have turn : left.clientTurn = true ↔ right.clientTurn = true := by rw [alike.clientTurn]
  have reaching (e : ExecutableRef) : left.clientTurn = true ∧ left.isAlive e = true ↔
      right.clientTurn = true ∧ right.isAlive e = true := by rw [alike.clientTurn, alike.isAlive]
  -- The hosts and the time that passes may differ; every other move is the same on both sides.
  cases moves with
  | advance elapsed other => exact rel_ite turn fun _ =>
    { alike with engine := { alike.engine with } }
  | openHost asked observed =>
    exact rel_ite turn fun _ => ⟨alike.engine.addHost asked observed, alike.stack, alike.control⟩
  | same =>
    cases one with
    | openHost settings observer =>
      exact rel_ite turn fun _ => alike.update (·.addHost settings observer)
        (alike.engine.addHost rfl rfl)
    | advance elapsed => exact rel_ite turn fun _ => { alike with engine := { alike.engine with } }
    | build h work => exact alike.built h none work
    | register h id work => exact alike.built h (some id) work
    | retain e => exact rel_ite (reaching e) fun _ => alike.update _ (alike.engine.retain e)
    | release e =>
      have held := alike.view e Executable.handles fun _ => rfl
      refine rel_ite (by rw [alike.clientTurn, held]) fun _ => alike.update _ ?_
      exact alike.engine.changeExecutable e _ fun _ => rfl
    | call command =>
      refine rel_ite (by rw [alike.clientTurn, alike.permitted]) fun _ => ?_
      exact (alike.push _).perform command
    | accept => exact rel_ite (by rw [alike.control]) fun _ => { alike with control := rfl }
    | finish reply =>
      simp only [move?, alike.stack]
      split
      · refine rel_ite turn fun _ => ⟨alike.engine, ?_, rfl⟩
        exact congrArg List.tail alike.stack
      · exact .none
    | subscribe e code status once =>
      exact rel_ite (reaching e) fun _ => alike.update _ (alike.engine.modifySubscriptions e _)
    | unsubscribe e code status =>
      exact rel_ite (reaching e) fun _ => alike.update (·.modifySubscriptions e _)
        (alike.engine.modifySubscriptions e _)
    | beginWait e =>
      refine rel_ite (reaching e) fun _ => ?_
      simp only [Machine.beginWait, alike.hasFailed, alike.status, alike.engine.waits]
      split
      · exact alike.update (·.addWait _) (alike.engine.addWait _)
      · exact alike.update (fun engine => (engine.addWait _).listenReady e _)
          ((alike.engine.addWait _).listenReady e _)
    | openSession h future =>
      refine rel_ite (by rw [alike.clientTurn, alike.hosts]) fun _ => ?_
      exact alike.update (·.addSession h future) (alike.engine.addSession h future)
    | closeSession k =>
      refine rel_ite (by rw [alike.clientTurn, alike.sessionIdle]) fun _ => ?_
      exact alike.update _ (alike.engine.endSession k)
    | panic payload =>
      exact rel_ite (by rw [alike.clientTurn]) fun _ => { alike with control := rfl }

/-- What comes next is alike if the client does alike. -/
theorem goOn {seen watched : List Machine} (alike : seen.Forall₂ Alike watched)
    {client other : Client} (moves : (client seen).Alike (other watched)) :
    (Machine.goOn client seen).Alike (Machine.goOn other watched) := by
  have last : (seen.headD {}).Alike (watched.headD {}) := by
    cases alike with
    | nil => exact ⟨⟨.nil, .nil, rfl, rfl, rfl, rfl, rfl⟩, rfl, rfl⟩
    | cons head _ => exact head
  simp only [Machine.goOn, last.clientTurn]
  refine .ite _ (fun _ => ?_) fun _ => last.step
  -- The move is made on both sides, or the turn goes by on both.
  have made := last.move moves
  generalize (seen.headD {}).move? (client seen) = one at made ⊢
  generalize (watched.headD {}).move? (other watched) = two at made ⊢
  cases made with
  | none => exact last
  | some moved => exact moved

end Alike

/-- Clients that do alike whenever they have seen alike: nothing they do depends on times or on the
trace, and they differ only in what they ask to be timed and traced, and in how long they let time
pass. -/
def Client.Alike (client other : Client) : Prop :=
  ∀ seen watched : List Machine, seen.Forall₂ Machine.Alike watched →
    (client seen).Alike (other watched)

/-- All that two machines have in common if they differ only in times and in the trace. -/
structure Agrees (left right : Machine) : Prop where
  turn : left.control = right.control
  stack : left.stack = right.stack
  built : left.engine.executables.length = right.engine.executables.length
  opened : left.engine.hosts.length = right.engine.hosts.length
  status : ∀ e, (left.engine.executable e).status = (right.engine.executable e).status
  entries : ∀ e,
    (left.engine.executable e).subscriptions = (right.engine.executable e).subscriptions
  /-- The same happened in the same order: above all, the same listeners were called with the same
  events. -/
  journal : left.engine.journal = right.engine.journal
  queue : ∀ h, (left.engine.host h).queue = (right.engine.host h).queue
  /-- The same batches are to be delivered on a later turn. -/
  deferred : ∀ h, (left.engine.host h).deferred = (right.engine.host h).deferred
  roster : ∀ h, (left.engine.host h).roster = (right.engine.host h).roster
  /-- Every id names the same executable. -/
  resolved : ∀ h id, left.resolve? h id = right.resolve? h id
  executions : ∀ h,
    (left.engine.host h).tally.executions = (right.engine.host h).tally.executions
  transitions : ∀ h,
    (left.engine.host h).tally.transitions = (right.engine.host h).tally.transitions
  invocations : ∀ h,
    (left.engine.host h).tally.invocations = (right.engine.host h).tally.invocations
  failures : ∀ h, (left.engine.host h).tally.failures = (right.engine.host h).tally.failures
  /-- The same executables count as executing. -/
  executing : ∀ h, (left.engine.host h).tally.executing = (right.engine.host h).tally.executing
  reached : ∀ h status, ((left.engine.host h).tally.stay status).reached =
    ((right.engine.host h).tally.stay status).reached
  /-- Every wait has ended alike, or has not ended. -/
  settled : ∀ w, left.settlement? w = right.settlement? w
  /-- There is no other difference either. -/
  alike : left.Alike right

/-- Machines that are alike have all that in common. -/
theorem Alike.agrees {left right : Machine} (alike : left.Alike right) : left.Agrees right where
  turn := alike.control
  stack := alike.stack
  built := alike.size
  opened := alike.hosts
  status := alike.status
  entries := alike.subscriptions
  journal := alike.engine.journal
  queue h := (alike.engine.host h).view Host.queue fun _ => rfl
  deferred h := (alike.engine.host h).view Host.deferred fun _ => rfl
  roster h := (alike.engine.host h).view Host.roster fun _ => rfl
  resolved := alike.resolve
  executions h := (alike.engine.host h).view (·.tally.executions) fun _ => rfl
  transitions h := (alike.engine.host h).view (·.tally.transitions) fun _ => rfl
  invocations h := (alike.engine.host h).view (·.tally.invocations) fun _ => rfl
  failures h := (alike.engine.host h).view (·.tally.failures) fun _ => rfl
  executing h := (alike.engine.host h).view (·.tally.executing) fun _ => rfl
  reached h := (alike.engine.host h).reached
  settled := alike.settlement
  alike := alike

/-- Clients that do alike lead to machines that are alike, in every state of their runs. -/
theorem Client.Alike.course {client other : Client} (alike : client.Alike other) (steps : Nat) :
    (course client steps).Forall₂ Machine.Alike (course other steps) := by
  -- Each state comes from all those before it, which the two clients have seen alike.
  induction steps with
  | zero => exact .cons ⟨⟨.nil, .nil, rfl, rfl, rfl, rfl, rfl⟩, rfl, rfl⟩ .nil
  | succ steps ih => exact .cons (Machine.Alike.goOn ih (alike _ _ ih)) ih

/-- Whoever times or traces what happens, or waits longer, sees the same happen: in every state of
the runs of two clients that differ in nothing else, all is the same but the times that were taken,
the rows that count no transition, and the trace. -/
theorem observing_changes_nothing {client other : Client} (alike : client.Alike other)
    (steps : Nat) : (course client steps).Forall₂ Agrees (course other steps) :=
  (alike.course steps).imp fun _ _ same => same.agrees

/-- Clients that make the moves of two lists do alike if the moves are. -/
theorem scripted_alike {moves others : List Move} (alike : moves.Forall₂ Move.Alike others) :
    (scripted moves).Alike (scripted others) := by
  intro seen watched same
  -- Both have had as many turns.
  have turns : (seen.filter clientTurn).length = (watched.filter clientTurn).length := by
    induction same with
    | nil => rfl
    | cons head _ ih =>
      rw [List.filter_cons, List.filter_cons, head.clientTurn]
      split
      · rw [List.length_cons, List.length_cons, ih]
      · exact ih
  rw [scripted, scripted, turns]
  exact related_getD alike (.same _) _

/-- A client that executes an executable, moves it twice and has its listeners told later, of which
one fails and one panics; how the host is opened and how long it all takes is left open. -/
def movesInTime (settings : Settings) (observer : Observer) (time rest : Nat) : List Move :=
  [.openHost settings observer, .build 0 (.manual false), .subscribe 0 0 (some .ready) true,
    .subscribe 0 1 (some .ready) false, .call (.execute 0 .always),
    .call (.setStatus 0 .processing), .advance time, .call (.setStatus 0 .ready), .beginWait 0,
    .advance rest, .call (.pump 0), .accept, .finish (.failed "late"), .accept,
    .panic (.text "lost")]

/-- One host records times and traces, the other does neither, and time passes differently: the two
runs agree in every state, and differ in the times and in a row that counts no transition. -/
theorem observing_changes_nothing_twice :
    (scripted (movesInTime {} .tracing 5 3)).Alike
        (scripted (movesInTime { timed := false } .silent 0 40)) ∧
      (course (scripted (movesInTime {} .tracing 5 3)) 60).Forall₂ Agrees
        (course (scripted (movesInTime { timed := false } .silent 0 40)) 60) ∧
      (((course (scripted (movesInTime {} .tracing 5 3)) 60).headD {}).engine.host 0).tally.stays =
        [(.processing, ⟨1, 5⟩), (.null, ⟨0, 0⟩), (.ready, ⟨1, 0⟩)] ∧
      (((course (scripted (movesInTime { timed := false } .silent 0 40)) 60).headD {}).engine.host
        0).tally.stays = [(.processing, ⟨1, 0⟩), (.ready, ⟨1, 0⟩)] ∧
      (((course (scripted (movesInTime {} .tracing 5 3)) 60).headD {}).engine.host
        0).tally.failures = 2 := by
  have alike : (scripted (movesInTime {} .tracing 5 3)).Alike
      (scripted (movesInTime { timed := false } .silent 0 40)) := by
    refine scripted_alike (.cons (.openHost rfl rfl) ?_)
    repeat first | exact .nil | refine .cons (.same _) ?_ | refine .cons (.advance _ _) ?_
  refine ⟨alike, observing_changes_nothing alike 60, ?_, ?_, ?_⟩ <;> decide +kernel

end Machine

end Readiness
