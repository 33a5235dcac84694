import Readiness.Host

/-! The journal: what happened in the engine, in order, and the records that a trace shows of it. -/

namespace Readiness

/-- What an observer is told. -/
inductive Notice where
  /-- An execution began while the executable had this status. -/
  | executed (executable : ExecutableRef) (status : Status)
  /-- A transition took place. -/
  | transitioned (executable : ExecutableRef) (old new : Status)
  /-- A listener failed on an event that this executable reached this status. -/
  | listenerFailed (executable : ExecutableRef) (status : Status) (fault : ListenerFault)
  /-- The executable was destroyed. -/
  | destroyed (executable : ExecutableRef)
  deriving DecidableEq

/-- One thing that happened. -/
inductive Occurrence where
  /-- An executable was put on its host's roster. -/
  | registered (executable : ExecutableRef)
  /-- An executable was taken off its host's roster. -/
  | deregistered (executable : ExecutableRef)
  /-- The work of an executable was begun, its status having been this one. -/
  | started (executable : ExecutableRef) (status : Status)
  /-- An executable moved. -/
  | transitioned (executable : ExecutableRef) (old new : Status)
  /-- The observer of a host was told something. -/
  | observed (host : HostRef) (notice : Notice)
  /-- A batch entered the dispatch queue of a host. -/
  | queued (host : HostRef) (batch : Nat)
  /-- A batch entered the deferred queue of a host. -/
  | deferred (host : HostRef) (batch : Nat)
  /-- A batch left the dispatch queue to be delivered. -/
  | opened (host : HostRef) (batch : Nat)
  /-- The call of a listener began. -/
  | invoked (batch : Nat) (event : Event) (delivery : Delivery)
  /-- The call of a listener ended, badly if there is a fault. -/
  | returned (batch : Nat) (event : Event) (delivery : Delivery) (fault : Option ListenerFault)
  /-- An executable was destroyed and its observer told. -/
  | destroyed (executable : ExecutableRef)
  /-- A gate looked at one of its dependencies and found it ready, or began to listen to it. -/
  | examined (gate : GateRef) (position : Nat) (dependency : ExecutableRef) (ready : Bool)
  /-- A gate asked its dependent to move. -/
  | gateOpened (gate : GateRef)
  /-- A gate that could have opened found its dependent failed, with this status. -/
  | gateSkipped (gate : GateRef) (dependency : ExecutableRef) (status : Status)
  /-- A composite learned that a dependency had failed, with this status. -/
  | dependencyFailed (composite dependency : ExecutableRef) (status : Status)
  /-- A callback reported that the work had failed. -/
  | workFailed (executable : ExecutableRef) (reason : String)
  deriving DecidableEq

/-- How much attention a trace record asks for. -/
inductive Severity where
  /-- The finest steps. -/
  | trace
  /-- Steps that help to find a mistake. -/
  | debug
  /-- News. -/
  | info
  /-- Something to look into. -/
  | warn
  /-- Something that went wrong. -/
  | error
  deriving DecidableEq

/-- The name of a severity. -/
def Severity.name : Severity → String
  | .trace => "trace"
  | .debug => "debug"
  | .info => "info"
  | .warn => "warn"
  | .error => "error"

/-- One record of a trace. -/
structure TraceRecord where
  /-- How much attention it asks for. -/
  severity : Severity
  /-- What it is about. -/
  message : String
  /-- Named values in order. -/
  fields : List (String × String)
  deriving DecidableEq

end Readiness
