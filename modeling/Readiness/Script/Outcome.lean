import Readiness.Engine.Store
import Readiness.Json.Value

/-! Outcomes: what an operation answers, and what is logged while it runs. -/

namespace Readiness

namespace Script

/-- What an operation could not find, or could not use. -/
inductive Lookup where
  | executable
  | listener
  | completion
  | wait
  /-- A wait that is not being polled. -/
  | idleWait
  | weak
  | host
  | status
  /-- An operation, a kind of work, or a field that the operation needs. -/
  | operation
  deriving DecidableEq

/-- The word for a look-up that failed. -/
def Lookup.label : Lookup → String
  | .executable => "no_such_exe"
  | .listener => "no_such_listener"
  | .completion => "no_such_completion"
  | .wait => "no_such_wait"
  | .idleWait => "wait_busy"
  | .weak => "no_such_weak"
  | .host => "no_such_runtime"
  | .status => "bad_status"
  | .operation => "bad_op"

/-- What an operation answers. -/
inductive Outcome where
  | nothing
  | flag (value : Bool)
  | count (value : Nat)
  | counts (values : List Nat)
  | text (value : String)
  | status (status : Status)
  | statuses (statuses : List Status)
  | moved (transition : Transition)
  | settings (settings : Settings)
  | statistics (tally : Tally)
  | stay (stay : Stay)
  | roster (ids : List String)
  /-- An executable, and how often its work was begun if that is known. -/
  | view (executable : Executable) (runs : Option Nat)
  /-- An event, with its inspection form and the id of its source. -/
  | event (event : Event) (inspected source : String)
  | ok
  /-- A wait that has not ended. -/
  | pending
  /-- How often a future was asked, and whether it is done. -/
  | polls (asked : Nat) (done : Bool)
  | fault (fault : Fault)
  | listenerFault (fault : ListenerFault)
  | panicked (payload : Payload)
  | missing (lookup : Lookup) (name : String)
  | invalidSettings

/-- One entry of the log. -/
inductive LogEntry where
  /-- An operation of a script has ended. -/
  | did (operation : String) (outcome : Outcome)
  | called (listener : String) (event : Event) (source : String)
  | worked (name : String)
  | observed (notice : Notice) (id : String)
  /-- A composite is being built with dependencies of these ids. -/
  | dependencies (ids : List String)
  /-- A scripted future was asked, for the time of that number. -/
  | asked (number : Nat)
  | message (value : Json)
  | traced (record : TraceRecord)

end Script

end Readiness
