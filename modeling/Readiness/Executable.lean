import Readiness.Subscription
import Readiness.Work

/-! Executables: an id, work, a current status and the listeners to tell about the next one. -/

namespace Readiness

/-- When a status was reached. -/
structure Sample where
  /-- The status reached. -/
  status : Status
  /-- The reading of the clock. -/
  time : Nat
  deriving DecidableEq, Inhabited

/-- What is kept about one executable. -/
structure Executable where
  /-- The id it was registered under, or a temporary one. -/
  id : String
  /-- Whether the id was registered with the host. -/
  registered : Bool
  /-- The host it was built with. -/
  host : HostRef
  /-- What it does when it is executed. -/
  work : Work
  /-- The current status. -/
  status : Status := .null
  /-- The listeners to tell about transitions. -/
  subscriptions : Subscriptions := {}
  /-- The transitions since the last execution began, oldest first. -/
  samples : List Sample := []
  /-- When the last execution began. -/
  started : Option Nat := none
  /-- Whether the ready status or a failed one was ever reached. -/
  settledBefore : Bool := false
  /-- Whether it was destroyed. -/
  destroyed : Bool := false
  /-- How often its work was begun. -/
  runs : Nat := 0
  /-- How many handles the client holds. -/
  handles : Nat := 0
  deriving DecidableEq, Inhabited

namespace Executable

/-- The status that means the value is available. -/
def readyStatus (executable : Executable) : Status :=
  executable.work.readyStatus

/-- The statuses that mean the work ended without success. -/
def failedStatuses (executable : Executable) : List Status :=
  executable.work.failedStatuses

/-- Whether the value is available now. -/
def isReady (executable : Executable) : Bool :=
  decide (executable.status = executable.readyStatus)

/-- Whether the current status is one of the failed ones. -/
def hasFailed (executable : Executable) : Bool :=
  executable.failedStatuses.contains executable.status

/-- The inspection form of an executable. -/
def inspect (executable : Executable) : String :=
  recordText "Executable"
    [("id", inspectId executable.id), ("process", quotedText executable.work.name),
      ("status", executable.status.inspect)]

/-- A new execution forgets the samples of the one before. -/
def begin (executable : Executable) (now : Nat) : Executable :=
  { executable with samples := [], started := some now }

/-- Whether a request to move there has any effect. -/
def moves (executable : Executable) (status : Status) : Bool :=
  !status.isNull && decide (status ≠ executable.status)

/-- Since when the current status has been held, as far as the samples tell. -/
def since (executable : Executable) : Option Nat :=
  (executable.samples.getLast?.map Sample.time).or executable.started

/-- The executable after a transition, which spends the one-shot entries that are due. -/
def moveTo (executable : Executable) (status : Status) (now : Option Nat) : Executable :=
  { executable with
    status := status
    samples := executable.samples ++ (now.map (Sample.mk status)).toList
    settledBefore := executable.settledBefore || decide (status = executable.readyStatus) ||
      executable.failedStatuses.contains status
    subscriptions := executable.subscriptions.settle status }

/-- The executable once destroyed: its status stays, its listeners are gone. -/
def destroy (executable : Executable) : Executable :=
  { executable with destroyed := true, subscriptions := executable.subscriptions.clear }

end Executable

end Readiness
