import Readiness.Engine.Change
import Readiness.Machine.Frame

/-! The machine: the engine's store, the calls that have not returned, and whose turn it is.

The engine never waits inside a step. When it has to call client code it hands over the turn, and
the frames on the stack say how it goes on afterwards.
-/

namespace Readiness

/-- Whose turn it is, and with what. -/
inductive Control where
  /-- The engine carries out a command. -/
  | perform (command : Command)
  /-- The engine returns an answer to the frame on top. -/
  | resume (answer : Answer)
  /-- The engine looks for someone who catches a panic. -/
  | unwind (payload : Payload)
  /-- The client has been called, by the frame on top. -/
  | called
  /-- The client has the answer to its last call. -/
  | returned (answer : Answer)
  deriving DecidableEq, Inhabited

/-- The engine together with the calls that have not returned. -/
structure Machine where
  /-- The store. -/
  engine : Engine := {}
  /-- Calls that have not returned, innermost first. -/
  stack : List Frame := []
  /-- Whose turn it is. -/
  control : Control := .returned .done
  deriving Inhabited

namespace Machine

/-- Changes the store. -/
def update (machine : Machine) (change : Engine → Engine) : Machine :=
  { machine with engine := change machine.engine }

/-- Enters an occurrence in the journal. -/
def note (machine : Machine) (occurrence : Occurrence) : Machine :=
  machine.update (·.note occurrence)

/-- Puts a frame on top. -/
def push (machine : Machine) (frame : Frame) : Machine :=
  { machine with stack := frame :: machine.stack }

/-- Goes on with a command. -/
def perform (machine : Machine) (command : Command) : Machine :=
  { machine with control := .perform command }

/-- Goes on with an answer for the frame on top. -/
def resume (machine : Machine) (answer : Answer) : Machine :=
  { machine with control := .resume answer }

/-- Hands the turn to client code. -/
def callClient (machine : Machine) (callback : Callback) : Machine :=
  { machine.push (.client callback) with control := .called }

/-- Tells the observer of a host, then goes on with the frame on top. -/
def notify (machine : Machine) (h : HostRef) (notice : Notice) : Machine :=
  let told := machine.note (.observed h notice)
  match (machine.engine.host h).observer with
  | .client code => told.callClient (.observer code notice)
  | .silent | .tracing => told.resume .done

end Machine

end Readiness
