import Readiness.Machine.Delivery
import Readiness.Machine.Polling

/-! The machine's steps: one command begun, one answer passed on or one frame unwound at a time. -/

namespace Readiness

namespace Machine

/-- Begins the work of an executable. -/
def startWork (machine : Machine) (e : ExecutableRef) : Machine :=
  match (machine.engine.executable e).work with
  | .constant => (machine.push (.moves e [.ready])).resume .done
  | .manual completes =>
    (machine.push (.moves e (if completes then [.processing, .ready] else []))).resume .done
  | .callback code => (machine.push (.callBack e code)).perform (.setStatus e .processing)
  | .composite _ => (machine.push (.gather e)).perform (.setStatus e .waiting)
  | .custom _ _ _ code => (machine.push (.moves e [])).callClient (.work code e)

/-- Begins a command. -/
def start (machine : Machine) : Command → Machine
  | .execute e refresh =>
    let target := machine.engine.executable e
    if refresh = .ifNotReady && target.isReady then machine.resume .done
    else
      ((machine.update fun engine =>
        (engine.modifyExecutable e (·.begin engine.clock)).modifyTally target.host
          Tally.countExecution).push (.begin e target.status)).notify target.host
        (.executed e target.status)
  | .setStatus e status =>
    let mover := machine.engine.executable e
    if mover.moves status then
      let transition := ⟨mover.status, status⟩
      ((machine.update (·.transition e status)).push
        (.announce e transition (mover.subscriptions.due status))).notify mover.host
        (.transitioned e mover.status status)
    else machine.resume (.moved ⟨mover.status, mover.status⟩)
  | .report e status =>
    if machine.isAlive e then (machine.push (.moves e [status])).resume .done
    else machine.resume .done
  | .fail e reason =>
    if machine.isAlive e then
      ((machine.note (.workFailed e reason)).push (.moves e [.failed])).resume .done
    else machine.resume .done
  | .synchronise e target dependencies onFailure =>
    let g := machine.engine.gates.length
    let allReady := dependencies.all fun d => (machine.engine.executable d).isReady
    let remaining := if allReady then 0 else dependencies.length
    let set := machine.update (·.addGate ⟨e, target, remaining⟩)
    if allReady then (set.push (.moves e [])).openGate g
    else set.arm g 0 dependencies onFailure
  | .onReady e request =>
    let listening := machine.update (·.listenReady e request)
    if request.execute && !(machine.engine.executable e).isReady then
      listening.perform (.execute e .ifNotReady)
    else listening.resume .done
  | .invoke listener event => machine.callListener listener event
  | .destroy e =>
    let target := machine.engine.executable e
    if target.destroyed then machine.resume .done
    else ((machine.update (·.destroy e)).push (.farewell e)).notify target.host (.destroyed e)
  | .buildConstant h =>
    let e := machine.engine.executables.length
    (((machine.update (·.addTemporary h .constant 0)).push (.hand e)).push
      (.moves e [.initialized, .ready])).resume .done
  | .pump h => (machine.push (.pump h 0)).resume .done
  | .poll k =>
    match (machine.engine.session k).phase with
    | .fresh => machine.runSession k
    | .parked | .woken => machine.askFuture k
    | .finished => machine.resume (.polled true)

/-- Passes an answer to a frame, which has been taken off the stack. -/
def receive (machine : Machine) (answer : Answer) : Frame → Machine
  -- Client code gets the answer and stays on the stack until it returns itself.
  | .client callback => { machine.push (.client callback) with control := .returned answer }
  | .hold _ => machine.resume answer
  | .begin e status =>
    ((machine.note (.started e status)).update
      (·.modifyExecutable e fun working => { working with runs := working.runs + 1 })).startWork e
  | .moves e rest =>
    match rest with
    | [] => machine.resume .done
    | status :: others => (machine.push (.moves e others)).perform (.setStatus e status)
  | .callBack e code => (machine.push (.moves e [])).callClient (.completion code e)
  | .gather e =>
    (machine.push (.inspect e)).perform
      (.synchronise e .ready (machine.engine.executable e).work.dependencies
        (some (.dependencyFailed e)))
  | .inspect e =>
    match (machine.engine.executable e).work.dependencies.find?
        fun dependency => (machine.engine.executable dependency).hasFailed with
    | none => machine.resume .done
    | some dependency =>
      ((machine.note (.dependencyFailed e dependency
        (machine.engine.executable dependency).status)).push (.moves e [])).perform
        (.setStatus e .failed)
  | .arm g position rest onFailure => machine.arm g position rest onFailure
  | .examine g position dependency rest onFailure =>
    machine.examine g position dependency rest onFailure
  | .announce e transition entries =>
    let concluding := machine.push (.conclude e transition)
    if entries.isEmpty then concluding.resume .done else concluding.fire e transition entries
  | .conclude _ transition => machine.resume (.moved transition)
  | .drain h =>
    match (machine.engine.host h).queue with
    | [] => (machine.update (·.modifyHost h ({ · with draining := false }))).resume .done
    | batch :: rest =>
      ((((machine.update (·.modifyHost h ({ · with queue := rest }))).note
        (.opened h batch.serial)).push (.drain h)).push (.deliver batch)).resume .done
  | .deliver batch =>
    match batch.deliveries with
    | [] => machine.resume .done
    | delivery :: rest =>
      if (machine.engine.executable batch.event.source).destroyed then machine.resume .done
      else
        (((machine.push (.deliver { batch with deliveries := rest })).push
          (.guard batch.serial batch.event delivery)).note
          (.invoked batch.serial batch.event delivery)).perform
          (.invoke delivery.listener batch.event)
  | .guard batch event delivery =>
    match answer with
    | .replied (.failed reason) =>
      machine.listenerReturned batch event delivery (some (.failed reason))
    | _ => machine.listenerReturned batch event delivery none
  | .relay _ => machine.resume (.replied .done)
  | .farewell e => (machine.note (.destroyed e)).resume .done
  | .hand e => (machine.update (·.retain e)).resume (.built e)
  | .pump h taken =>
    match (machine.engine.host h).deferred with
    | [] => machine.resume (.pumped taken)
    | batch :: rest =>
      ((machine.update (·.modifyHost h ({ · with deferred := rest }))).push
        (.pump h (taken + 1))).dispatch h batch
  | .pumped k => machine.askFuture k
  | .asked k => machine.concludePoll k (decide (answer ≠ .replied .pending))

/-- Takes a panic past a frame, which has been taken off the stack. -/
def unwind (machine : Machine) (payload : Payload) : Frame → Machine
  -- A delivery loop gives up its claim on the queue, and a session that is being polled is over.
  | .drain h => machine.update (·.modifyHost h ({ · with draining := false }))
  | .pumped k | .asked k => machine.update (·.endSession k)
  -- Only a listener's guard catches. It drops the payload before it counts the call, so a panic out
  -- of that goes on as if nobody had caught the first.
  | .guard batch event delivery =>
    match payload.onDrop? with
    | none => machine.listenerReturned batch event delivery (some (.panicked payload.report))
    | some next => { machine with control := .unwind next }
  | _ => machine

/-- One step of the engine; nothing happens while the client has the turn. -/
def step (machine : Machine) : Machine :=
  match machine.control with
  | .perform command => machine.start command
  | .resume answer =>
    match machine.stack with
    | [] => { machine with control := .returned answer }
    | frame :: rest => receive { machine with stack := rest } answer frame
  | .unwind payload =>
    match machine.stack with
    | [] => { machine with control := .returned (.panicked payload) }
    | frame :: rest => unwind { machine with stack := rest } payload frame
  | .called | .returned _ => machine

end Machine

end Readiness
