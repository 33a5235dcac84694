import Readiness.Subscription
import Readiness.Tally
import Readiness.Settings
import Readiness.Fault

/-! Hosts: settings, an observer, the roster of ids, and the queues of batches to deliver. -/

namespace Readiness

/-- News of a transition: who moved, where to and where from. -/
structure Event where
  /-- The executable that moved. -/
  source : ExecutableRef
  /-- The status that was reached. -/
  status : Status
  /-- The status that was left. -/
  previous : Status
  deriving DecidableEq, Inhabited

/-- One call to make: the listener, and the entry it is made for unless it is an immediate call. -/
structure Delivery where
  /-- The listener to call. -/
  listener : Listener
  /-- The sequence number of the entry, which is unique within its executable. -/
  entry : Option Nat
  deriving DecidableEq, Inhabited

/-- The calls that tell one event, in the order in which they are made. -/
structure Batch where
  /-- The place of the batch among all that were made. -/
  serial : Nat
  /-- The event to tell. -/
  event : Event
  /-- The calls still to make. -/
  deliveries : List Delivery
  deriving DecidableEq, Inhabited

/-- Who is told about executions, transitions, failing listeners and destruction. -/
inductive Observer where
  /-- Nobody. -/
  | silent
  /-- The trace. -/
  | tracing
  /-- Client code. -/
  | client (code : CodeRef)
  deriving DecidableEq, Inhabited

/-- What is kept about one host. -/
structure Host where
  /-- The settings it was opened with. -/
  settings : Settings := {}
  /-- Who observes its executables. -/
  observer : Observer := .silent
  /-- Registered executables by id, some of which may no longer be alive. -/
  roster : List (String × ExecutableRef) := []
  /-- What it has counted. -/
  tally : Tally := {}
  /-- Batches to deliver now, in order. -/
  queue : List Batch := []
  /-- Whether a delivery loop is at work on the queue. -/
  draining : Bool := false
  /-- Batches to deliver on a later turn, in order. -/
  deferred : List Batch := []
  /-- Whether a wakeup is stored for the next session that would park. -/
  permit : Bool := false
  /-- Parked sessions in the order in which they are woken. -/
  waiters : List SessionRef := []
  /-- The number in the next temporary id. -/
  nextTemporary : Nat := 1
  deriving DecidableEq, Inhabited

namespace Host

/-- Whether deferred batches are waiting. -/
def hasDeferred (host : Host) : Bool :=
  !host.deferred.isEmpty

/-- The temporary id of that number. -/
def temporaryId (host : Host) (number : Nat) : String :=
  host.settings.temporaryPrefix ++ number.repr

/-- Puts an executable on the roster, in place of any other under its id. -/
def enrol (host : Host) (id : String) (executable : ExecutableRef) : Host :=
  { host with roster := (id, executable) :: host.roster.filter (·.1 != id) }

/-- Takes an id off the roster. -/
def strike (host : Host) (id : String) : Host :=
  { host with roster := host.roster.filter (·.1 != id) }

/-- Puts the calls of a batch in the order that the policy asks for. -/
def arrange (host : Host) (deliveries : List Delivery) : List Delivery :=
  match deliveries with
  | first :: rest => if host.settings.dispatch.firstLast then rest ++ [first] else deliveries
  | [] => []

/-- Whether the policy puts a batch off to a later turn. -/
def defers (host : Host) (deliveries : List Delivery) (reachedReady : Bool) : Bool :=
  host.settings.dispatch.deferReady && decide (1 < deliveries.length) && reachedReady

/-- Changes what the host has counted. -/
def modifyTally (host : Host) (change : Tally → Tally) : Host :=
  { host with tally := change host.tally }

end Host

end Readiness
