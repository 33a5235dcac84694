import Readiness.Machine.Step

/-! What the client can do when it has the turn: requests that are answered on the spot, calls that
hand the turn to the engine, and returning from a call that the engine made.
-/

namespace Readiness

namespace Machine

/-- Lets time pass. -/
def advance (machine : Machine) (elapsed : Nat) : Machine :=
  machine.update fun engine => { engine with clock := engine.clock + elapsed }

/-- Opens a host. -/
def openHost (machine : Machine) (settings : Settings) (observer : Observer) :
    Machine × HostRef :=
  (machine.update (·.addHost settings observer), machine.engine.hosts.length)

/-- The id to build an executable under: the one asked for, or else the next temporary id of the
host, which is thereby used up. -/
def assignId (machine : Machine) (h : HostRef) : Option String → Machine × String
  | some id => (machine, id)
  | none =>
    let host := machine.engine.host h
    (machine.update (·.modifyHost h ({ · with nextTemporary := host.nextTemporary + 1 })),
      host.temporaryId host.nextTemporary)

/-- Enters a new executable under its id in the roster of its host, unless the id is taken. -/
def register (machine : Machine) (built : Executable) : Machine × Except Fault ExecutableRef :=
  let e := machine.engine.executables.length
  -- The id of an executable that has died without being destroyed is vacant.
  if (machine.resolve? built.host built.id).isSome then (machine, .error (.duplicateId built.id))
  else
    ((machine.update fun engine =>
      (engine.addExecutable built).modifyHost built.host (·.enrol built.id e)).note (.registered e),
      .ok e)

/-- Builds an executable, registered under an id or unregistered under a temporary one, and hands
out the first handle to it. The work is examined before an id is assigned, and the id after that. -/
def build (machine : Machine) (h : HostRef) (given : Option String) (work : Work) :
    Machine × Except Fault ExecutableRef :=
  match work.fault? with
  | some fault => (machine, .error fault)
  | none =>
    let (named, id) := machine.assignId h given
    let built : Executable := { id, registered := given.isSome, host := h, work, handles := 1 }
    if given.isSome then named.register built
    else (named.update (·.addExecutable built), .ok named.engine.executables.length)

/-- Takes another handle to an executable. -/
def retain (machine : Machine) (e : ExecutableRef) : Machine :=
  machine.update (·.retain e)

/-- Gives up a handle to an executable. -/
def release (machine : Machine) (e : ExecutableRef) : Machine :=
  machine.update (·.release e)

/-- Registers a listener for a status, or for every transition. -/
def subscribe (machine : Machine) (e : ExecutableRef) (listener : Listener)
    (status : Option Status) (once : Bool) : Machine :=
  machine.update (·.modifySubscriptions e (·.add listener status once))

/-- Removes a listener from a status, or from all of them, and tells whether it was there. -/
def unsubscribe (machine : Machine) (e : ExecutableRef) (listener : Listener)
    (status : Option Status) : Machine × Bool :=
  let before := (machine.engine.executable e).subscriptions
  (machine.update (·.modifySubscriptions e (·.remove listener status)),
    (before.remove listener status).size != before.size)

/-- Begins to wait for an executable to become ready; one that has failed ends the wait at once. -/
def beginWait (machine : Machine) (e : ExecutableRef) : Machine × WaitRef :=
  let target := machine.engine.executable e
  let w := machine.engine.waits.length
  if target.hasFailed then (machine.update (·.addWait ⟨e, some (.failed target.status)⟩), w)
  else
    (machine.update fun engine => (engine.addWait ⟨e, none⟩).listenReady e
      { success := .waitReady w, failure := some (.waitFailed w), once := true }, w)

/-- Opens a session, which does nothing until it is polled. -/
def openSession (machine : Machine) (h : HostRef) (future : Future) : Machine × SessionRef :=
  (machine.update (·.addSession h future), machine.engine.sessions.length)

/-- Gives up a session. -/
def closeSession (machine : Machine) (k : SessionRef) : Machine :=
  machine.update (·.endSession k)

/-- An event that the client makes up, which cannot carry the sentinel. -/
def event (machine : Machine) (e : ExecutableRef) (status previous : Status) : Except Fault Event :=
  if status.isNull then .error (.nullEvent (machine.engine.executable e).id)
  else .ok ⟨e, status, previous⟩

/-- Calls the engine; the arguments stay alive until it returns. -/
def call (machine : Machine) (command : Command) : Machine :=
  (machine.push (.hold command.executables)).perform command

/-- The client takes the turn that a call of the engine gave it. -/
def accept (machine : Machine) : Machine :=
  { machine with control := .returned .done }

/-- The client returns from the call that the engine made. -/
def finish (machine : Machine) (reply : Reply) : Machine :=
  { machine with stack := machine.stack.tail, control := .resume (.replied reply) }

/-- The client panics. -/
def panic (machine : Machine) (payload : Payload) : Machine :=
  { machine with control := .unwind payload }

end Machine

/-- The inspection form of an event shows its source by id. -/
def Engine.inspectEvent (engine : Engine) (event : Event) : String :=
  recordText "StatusEvent"
    [("source", inspectId (engine.executable event.source).id),
      ("previous_status", event.previous.inspect), ("status", event.status.inspect)]

end Readiness
