import Readiness.Proofs.Observation.Blind

/-! Machines that differ in nothing but what the clock, the recording of times and the trace leave
behind. They take the same steps, and are alike again after each of them.
-/

namespace Readiness

namespace Machine

/-- Machines that differ in nothing but what the clock and the trace leave behind. -/
structure Alike (left right : Machine) : Prop where
  /-- The stores differ in nothing else. -/
  engine : left.engine.Alike right.engine
  /-- The same calls have not returned. -/
  stack : left.stack = right.stack
  /-- It is the same party's turn, with the same command or answer. -/
  control : left.control = right.control

namespace Alike

variable {left right : Machine}

section

variable (alike : left.Alike right)
include alike

section

variable (e : ExecutableRef)

/-- What a blind view shows of an executable is the same. -/
theorem view {γ : Type*} (view : Executable → γ)
    (blind : ∀ executable, view executable.blind = view executable) :
    view (left.engine.executable e) = view (right.engine.executable e) :=
  (alike.engine.executable e).view view blind

/-- The same are ready. -/
theorem isReady : (left.engine.executable e).isReady = (right.engine.executable e).isReady :=
  alike.view e Executable.isReady fun _ => rfl

/-- The same have failed. -/
theorem hasFailed : (left.engine.executable e).hasFailed = (right.engine.executable e).hasFailed :=
  alike.view e Executable.hasFailed fun _ => rfl

/-- They have the same statuses. -/
theorem status : (left.engine.executable e).status = (right.engine.executable e).status :=
  alike.view e Executable.status fun _ => rfl

/-- They have the same hosts. -/
theorem host : (left.engine.executable e).host = (right.engine.executable e).host :=
  alike.view e Executable.host fun _ => rfl

/-- They have the same work. -/
theorem work : (left.engine.executable e).work = (right.engine.executable e).work :=
  alike.view e Executable.work fun _ => rfl

/-- The same are destroyed. -/
theorem destroyed : (left.engine.executable e).destroyed = (right.engine.executable e).destroyed :=
  alike.view e Executable.destroyed fun _ => rfl

/-- They have the same listeners. -/
theorem subscriptions :
    (left.engine.executable e).subscriptions = (right.engine.executable e).subscriptions :=
  alike.view e Executable.subscriptions fun _ => rfl

end

/-- The gates are the same. -/
theorem gate (g : GateRef) : left.engine.gate g = right.engine.gate g :=
  congrArg (List.getD · g default) alike.engine.gates

/-- The waits are the same. -/
theorem wait (w : WaitRef) : left.engine.wait w = right.engine.wait w :=
  congrArg (List.getD · w default) alike.engine.waits

/-- The sessions are the same. -/
theorem session (k : SessionRef) : left.engine.session k = right.engine.session k :=
  congrArg (List.getD · k default) alike.engine.sessions

/-- As many executables have been built. -/
theorem size : left.engine.executables.length = right.engine.executables.length :=
  alike.engine.executables.length_eq

/-- The same batches wait. -/
theorem waitingBatches : left.waitingBatches = right.waitingBatches :=
  related_flatMap alike.engine.hosts fun _ _ same =>
    same.view (fun host => host.queue ++ host.deferred) fun _ => rfl

/-- The same executables are alive. -/
theorem living : left.living = right.living := by
  have roots : left.roots = right.roots := by
    have handles : ∀ e, (left.engine.executable e).handles = (right.engine.executable e).handles :=
      fun e => alike.view e Executable.handles fun _ => rfl
    simp only [Machine.roots, Machine.controlExecutables, alike.size, handles, alike.waitingBatches,
      alike.stack, alike.control]
  -- What an executable depends on is read off its work.
  have reach : ∀ (bound : Nat) (reached : List ExecutableRef),
      Machine.reach left.engine bound reached = Machine.reach right.engine bound reached := by
    intro bound
    induction bound with
    | zero => exact fun _ => rfl
    | succ e ih => exact fun reached => by simp only [Machine.reach, ih, alike.work e]
  rw [Machine.living, roots, alike.size, reach, Machine.living]

/-- The same executables are alive. -/
theorem isAlive (e : ExecutableRef) : left.isAlive e = right.isAlive e :=
  congrArg (·.contains e) alike.living

/-- Waits have come to the same. -/
theorem settlement (w : WaitRef) : left.settlement? w = right.settlement? w := by
  have held : left.heldListeners = right.heldListeners := by
    simp only [Machine.heldListeners, alike.living, alike.stack, alike.subscriptions,
      alike.waitingBatches]
  rw [Machine.settlement?, Machine.settlement?, alike.wait, held]

/-- Ids lead to the same executables. -/
theorem resolve (h : HostRef) (id : String) : left.resolve? h id = right.resolve? h id := by
  have roster := (alike.engine.host h).view Host.roster fun _ => rfl
  rw [Machine.resolve?, Machine.resolve?, roster, funext alike.isAlive]

/-- A change of the store that keeps stores alike keeps machines alike. -/
theorem update (change : Engine → Engine)
    (kept : (change left.engine).Alike (change right.engine)) :
    (left.update change).Alike (right.update change) :=
  { alike with engine := kept }

/-- A blind change of a host keeps them alike. -/
theorem changeHost (h : HostRef) (change : Host → Host)
    (blind : ∀ host, (change host).blind = change host.blind)
    (stays : ∀ host, (change host).tally.stays = host.tally.stays) :
    (left.update (·.modifyHost h change)).Alike (right.update (·.modifyHost h change)) :=
  alike.update _ (alike.engine.changeHost h change blind stays)

/-- The same may be noted. -/
theorem note (occurrence : Occurrence) : (left.note occurrence).Alike (right.note occurrence) :=
  alike.update _ (alike.engine.note occurrence)

/-- The same frame may be put on top. -/
theorem push (frame : Frame) : (left.push frame).Alike (right.push frame) :=
  { alike with stack := congrArg (frame :: ·) alike.stack }

/-- The same may be asked for. -/
theorem perform (command : Command) : (left.perform command).Alike (right.perform command) :=
  { alike with control := rfl }

/-- The same may be answered. -/
theorem resume (answer : Answer) : (left.resume answer).Alike (right.resume answer) :=
  { alike with control := rfl }

/-- The same call of the client may be made. -/
theorem callClient (callback : Callback) :
    (left.callClient callback).Alike (right.callClient callback) :=
  { alike.push (.client callback) with control := rfl }

end

/-- A choice that does not depend on the difference keeps them alike. -/
theorem ite {one two three four : Machine} (condition : Prop) [Decidable condition]
    (yes : condition → one.Alike two) (no : ¬ condition → three.Alike four) :
    (if condition then one else three).Alike (if condition then two else four) := by
  by_cases holds : condition
  · simpa only [if_pos holds] using yes holds
  · simpa only [if_neg holds] using no holds

section

variable (alike : left.Alike right)
include alike

/-- The observer is told the same, if it is told. -/
theorem notify (h : HostRef) (notice : Notice) :
    (left.notify h notice).Alike (right.notify h notice) := by
  have observer := (alike.engine.host h).view (·.observer.blind) (by rintro ⟨_, _ | _, _⟩ <;> rfl)
  have told := alike.note (.observed h notice)
  unfold Machine.notify
  -- The trace and nobody are the same to whoever looks away from the trace.
  cases one : (left.engine.host h).observer <;> cases two : (right.engine.host h).observer <;>
    simp only [one, two, Observer.blind, reduceCtorEq, Observer.client.injEq] at observer
  case client.client => exact observer ▸ told.callClient _
  all_goals exact told.resume .done

/-- A batch may be handed to the delivery loop. -/
theorem dispatch (h : HostRef) (batch : Batch) :
    (left.dispatch h batch).Alike (right.dispatch h batch) := by
  have draining := (alike.engine.host h).view Host.draining fun _ => rfl
  have queued := alike.update (·.enqueue h batch) (alike.engine.enqueue h batch)
  simp only [Machine.dispatch, draining]
  refine .ite _ (fun _ => queued.resume .done) fun _ => ?_
  have claimed := queued.changeHost h ({ · with draining := true }) (fun _ => rfl) fun _ => rfl
  exact (claimed.push (.drain h)).resume .done

/-- A transition may be announced to its listeners. -/
theorem fire (e : ExecutableRef) (transition : Transition) (entries : List Entry) :
    (left.fire e transition entries).Alike (right.fire e transition entries) := by
  have host := alike.engine.host (right.engine.executable e).host
  have arrange := host.view Host.arrange fun _ => rfl
  have defers := host.view Host.defers fun _ => rfl
  have ready := alike.view e Executable.readyStatus fun _ => rfl
  have spent := alike.update Engine.spendBatch alike.engine.spendBatch
  simp only [Machine.fire, Engine.batch, alike.host, alike.engine.nextBatch, arrange, defers, ready]
  refine .ite _ (fun _ => ?_) fun _ => spent.dispatch _ _
  exact (spent.update _ (spent.engine.defer _ _)).resume .done

/-- A gate may count. -/
theorem countGate (g : GateRef) : (left.countGate g).1.Alike (right.countGate g).1 := by
  simp only [Machine.countGate, alike.gate]
  exact alike.update _ (alike.engine.modifyGate g _)

/-- A gate may open. -/
theorem openGate (g : GateRef) : (left.openGate g).Alike (right.openGate g) := by
  simp only [Machine.openGate, alike.gate]
  exact (alike.note _).perform _

/-- A gate may look at a dependency. -/
theorem examine (g : GateRef) (position : Nat) (d : ExecutableRef) (rest : List ExecutableRef)
    (onFailure : Option Listener) :
    (left.examine g position d rest onFailure).Alike
      (right.examine g position d rest onFailure) := by
  have ready := alike.view d Executable.readyStatus fun _ => rfl
  have failed := alike.view d Executable.failedStatuses fun _ => rfl
  have seen := alike.note (.examined g position d (right.engine.executable d).isReady)
  have last : ∀ machine : Machine, (machine.countGate g).2 =
      ((machine.engine.gate g).remaining == 1) := fun _ => rfl
  simp only [Machine.examine, alike.isReady, ready, failed, last, seen.gate]
  refine .ite _ (fun _ => .ite _ (fun _ => ?_) fun _ => ?_) fun _ => ?_
  · exact ((seen.countGate g).push _).openGate g
  · exact ((seen.countGate g).push _).resume .done
  · exact ((seen.update _ (seen.engine.modifySubscriptions d _)).push _).resume .done

/-- A gate may go on. -/
theorem arm (g : GateRef) (position : Nat) (rest : List ExecutableRef)
    (onFailure : Option Listener) :
    (left.arm g position rest onFailure).Alike (right.arm g position rest onFailure) := by
  cases rest with
  | nil => exact alike.resume .done
  | cons d others =>
    simp only [Machine.arm, alike.isReady]
    exact .ite _ (fun _ => alike.examine g position d others onFailure)
      fun _ => (alike.push _).perform _

/-- A listener may be called. -/
theorem callListener (listener : Listener) (event : Event) :
    (left.callListener listener event).Alike (right.callListener listener event) := by
  cases listener with
  | client code => exact alike.callClient _
  | countdown g position =>
    have counted := alike.countGate g
    have last : ∀ machine : Machine, (machine.countGate g).2 =
        ((machine.engine.gate g).remaining == 1) := fun _ => rfl
    simp only [Machine.callListener, alike.gate, alike.isAlive, alike.destroyed, alike.hasFailed,
      alike.status, last]
    refine .ite _ (fun _ => .ite _ (fun _ => counted.resume _) fun _ => ?_) fun _ => alike.resume _
    exact .ite _ (fun _ => (counted.note _).resume _) fun _ => (counted.push _).openGate g
  | dependencyFailed composite =>
    simp only [Machine.callListener, alike.isAlive]
    exact .ite _ (fun _ => ((alike.note _).push _).perform _) fun _ => alike.resume _
  | waitReady w => exact (alike.update _ (alike.engine.settleWait w _)).resume _
  | waitFailed w => exact (alike.update _ (alike.engine.settleWait w _)).resume _

/-- The call of a listener may end. -/
theorem listenerReturned (batch : Nat) (event : Event) (delivery : Delivery)
    (fault : Option ListenerFault) :
    (left.listenerReturned batch event delivery fault).Alike
      (right.listenerReturned batch event delivery fault) := by
  have counted := (alike.changeHost (right.engine.executable event.source).host
    (·.modifyTally (·.countInvocation fault.isNone)) (fun _ => rfl) fun _ => rfl).note
      (.returned batch event delivery fault)
  simp only [Machine.listenerReturned, alike.host]
  cases fault with
  | none => exact counted.resume .done
  | some fault => exact counted.notify _ _

/-- The future of a session may be polled. -/
theorem askFuture (k : SessionRef) : (left.askFuture k).Alike (right.askFuture k) := by
  have asking := alike.push (.asked k)
  simp only [Machine.askFuture, alike.session]
  cases (right.engine.session k).future with
  | client code => exact asking.callClient _
  | wait w =>
    simp only [alike.settlement]
    exact asking.resume _

/-- A session may deliver what was put off. -/
theorem runSession (k : SessionRef) : (left.runSession k).Alike (right.runSession k) := by
  simp only [Machine.runSession, alike.session]
  exact (alike.push _).perform _

/-- A poll may end. -/
theorem concludePoll (k : SessionRef) (finished : Bool) :
    (left.concludePoll k finished).Alike (right.concludePoll k finished) := by
  have permit := (alike.engine.host (right.engine.session k).host).view Host.permit fun _ => rfl
  simp only [Machine.concludePoll, alike.session, permit]
  refine .ite _ (fun _ => (alike.update _ (alike.engine.endSession k)).resume _) fun _ => ?_
  -- Where the session stands decides how it goes on.
  cases (right.engine.session k).phase with
  | woken => exact (alike.update _ (alike.engine.modifySession k _)).runSession k
  | parked | finished => exact alike.resume _
  | fresh =>
    refine .ite _ (fun _ => ?_) fun _ => ?_
    · exact (alike.changeHost _ ({ · with permit := false }) (fun _ => rfl)
        fun _ => rfl).runSession k
    · refine resume (alike.update _ ((alike.engine.modifySession k _).changeHost _
        (fun host => { host with waiters := host.waiters ++ [k] }) (fun _ => rfl) fun _ => rfl)) _

/-- Work may be started. -/
theorem startWork (e : ExecutableRef) : (left.startWork e).Alike (right.startWork e) := by
  simp only [Machine.startWork, alike.work]
  cases (right.engine.executable e).work with
  | constant | manual completes => exact (alike.push _).resume .done
  | callback code | composite dependencies => exact (alike.push _).perform _
  | custom name success failures code => exact (alike.push _).callClient _

/-- Beginning a command keeps machines alike. -/
theorem start (command : Command) : (left.start command).Alike (right.start command) := by
  cases command with
  | execute e refresh =>
    simp only [Machine.start, alike.isReady, alike.status, alike.host]
    refine .ite _ (fun _ => alike.resume .done) fun _ => ?_
    -- When the execution began is all that the two records can differ in.
    have begun : (left.engine.modifyExecutable e (·.begin left.engine.clock)).Alike
        (right.engine.modifyExecutable e (·.begin right.engine.clock)) :=
      alike.engine.modifyExecutable e fun _ _ same => same
    exact ((alike.update _ (begun.changeHost _ (·.modifyTally Tally.countExecution) (fun _ => rfl)
      fun _ => rfl)).push _).notify _ _
  | setStatus e status =>
    have moves := alike.view e (·.moves status) fun _ => rfl
    simp only [Machine.start, moves, alike.status, alike.subscriptions, alike.host]
    refine .ite _ (fun _ => ?_) fun _ => alike.resume _
    exact ((alike.update _ (alike.engine.transition e status)).push _).notify _ _
  | report e status =>
    simp only [Machine.start, alike.isAlive]
    exact .ite _ (fun _ => (alike.push _).resume .done) fun _ => alike.resume .done
  | fail e reason =>
    simp only [Machine.start, alike.isAlive]
    exact .ite _ (fun _ => ((alike.note _).push _).resume .done) fun _ => alike.resume .done
  | synchronise e target dependencies onFailure =>
    simp only [Machine.start, alike.isReady, alike.engine.gates]
    have set : ∀ gate, (left.update (·.addGate gate)).Alike (right.update (·.addGate gate)) :=
      fun gate => alike.update _ (alike.engine.addGate gate)
    exact .ite _ (fun _ => ((set _).push _).openGate _) fun _ => (set _).arm _ _ _ _
  | onReady e request =>
    have listening := alike.update (·.listenReady e request) (alike.engine.listenReady e request)
    simp only [Machine.start, alike.isReady]
    exact .ite _ (fun _ => listening.perform _) fun _ => listening.resume .done
  | invoke listener event => exact alike.callListener listener event
  | destroy e =>
    simp only [Machine.start, alike.destroyed, alike.host]
    refine .ite _ (fun _ => alike.resume .done) fun _ => ?_
    exact ((alike.update _ (alike.engine.destroy e)).push _).notify _ _
  | buildConstant h =>
    simp only [Machine.start, alike.size]
    exact (((alike.update _ (alike.engine.addTemporary h .constant 0)).push _).push _).resume .done
  | pump h => exact (alike.push _).resume .done
  | poll k =>
    simp only [Machine.start, alike.session]
    cases (right.engine.session k).phase with
    | fresh => exact alike.runSession k
    | parked | woken => exact alike.askFuture k
    | finished => exact alike.resume _

/-- Passing an answer to a frame keeps machines alike. -/
theorem receive (answer : Answer) (frame : Frame) :
    (left.receive answer frame).Alike (right.receive answer frame) := by
  cases frame with
  | client callback => exact { alike.push (.client callback) with control := rfl }
  | hold held => exact alike.resume answer
  | begin e status =>
    have begun := alike.note (.started e status)
    exact (begun.update _ (begun.engine.changeExecutable e
      (fun working => { working with runs := working.runs + 1 }) fun _ => rfl)).startWork e
  | moves e rest =>
    cases rest with
    | nil => exact alike.resume .done
    | cons status others => exact (alike.push _).perform _
  | callBack e code => exact (alike.push _).callClient _
  | gather e =>
    simp only [Machine.receive, alike.work]
    exact (alike.push _).perform _
  | inspect e =>
    simp only [Machine.receive, alike.work, alike.hasFailed]
    -- The same dependency is found to have failed, if any.
    cases (right.engine.executable e).work.dependencies.find?
        fun dependency => (right.engine.executable dependency).hasFailed with
    | none => exact alike.resume .done
    | some dependency =>
      simp only [alike.status]
      exact ((alike.note _).push _).perform _
  | arm g position rest onFailure => exact alike.arm ..
  | examine g position dependency rest onFailure => exact alike.examine ..
  | announce e transition entries =>
    have concluding := alike.push (.conclude e transition)
    exact .ite _ (fun _ => concluding.resume .done) fun _ => concluding.fire e transition entries
  | conclude e transition => exact alike.resume _
  | drain h =>
    have queue := (alike.engine.host h).view Host.queue fun _ => rfl
    simp only [Machine.receive, queue]
    cases (right.engine.host h).queue with
    | nil =>
      exact (alike.changeHost h ({ · with draining := false }) (fun _ => rfl) fun _ => rfl).resume _
    | cons batch rest =>
      have taken := alike.changeHost h ({ · with queue := rest }) (fun _ => rfl) fun _ => rfl
      exact (((taken.note _).push _).push _).resume .done
  | deliver batch =>
    simp only [Machine.receive]
    cases batch.deliveries with
    | nil => exact alike.resume .done
    | cons delivery rest =>
      simp only [alike.destroyed]
      exact .ite _ (fun _ => alike.resume .done)
        fun _ => (((alike.push _).push _).note _).perform _
  | guard batch event delivery =>
    simp only [Machine.receive]
    split <;> exact alike.listenerReturned batch event delivery _
  | relay e => exact alike.resume _
  | farewell e => exact (alike.note _).resume .done
  | hand e => exact (alike.update (·.retain e) (alike.engine.retain e)).resume _
  | pump h taken =>
    have deferred := (alike.engine.host h).view Host.deferred fun _ => rfl
    simp only [Machine.receive, deferred]
    cases (right.engine.host h).deferred with
    | nil => exact alike.resume _
    | cons batch rest =>
      have taken := alike.changeHost h ({ · with deferred := rest }) (fun _ => rfl) fun _ => rfl
      exact (taken.push _).dispatch h batch
  | pumped k => exact alike.askFuture k
  | asked k => exact alike.concludePoll k _

/-- A panic may go past a frame. -/
theorem unwind (payload : Payload) (frame : Frame) :
    (left.unwind payload frame).Alike (right.unwind payload frame) := by
  cases frame with
  | drain h => exact alike.changeHost h _ (fun _ => rfl) fun _ => rfl
  | pumped k | asked k => exact alike.update (·.endSession k) (alike.engine.endSession k)
  | guard batch event delivery =>
    simp only [Machine.unwind]
    split
    · exact alike.listenerReturned batch event delivery (some (.panicked payload.report))
    · exact ⟨alike.engine, alike.stack, rfl⟩
  | _ => exact alike

/-- A step of the engine keeps machines alike. -/
theorem step : left.step.Alike right.step := by
  simp only [Machine.step, alike.control, alike.stack]
  cases right.control with
  | perform command => exact alike.start command
  | resume answer =>
    cases right.stack with
    | nil => exact ⟨alike.engine, rfl, rfl⟩
    | cons frame rest =>
      have below : Alike ⟨left.engine, rest, .resume answer⟩ ⟨right.engine, rest, .resume answer⟩ :=
        ⟨alike.engine, rfl, rfl⟩
      exact below.receive answer frame
  | unwind payload =>
    cases right.stack with
    | nil => exact ⟨alike.engine, rfl, rfl⟩
    | cons frame rest =>
      have below : Alike ⟨left.engine, rest, .unwind payload⟩
        ⟨right.engine, rest, .unwind payload⟩ :=
        ⟨alike.engine, rfl, rfl⟩
      exact below.unwind payload frame
  | called | returned answer => exact alike

end

end Alike

end Machine

end Readiness
