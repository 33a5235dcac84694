import Readiness.Reference
import Readiness.Fault

/-! Work: what an executable does when it is executed, and which statuses tell how it went. -/

namespace Readiness

/-- The work behind an executable. -/
inductive Work where
  /-- Nothing to do: the value is always available. -/
  | constant
  /-- Moved by hand from outside, or straight through to ready. -/
  | manual (completes : Bool)
  /-- Client code that reports the outcome, at once or later. -/
  | callback (code : CodeRef)
  /-- Ready once all dependencies are, failed as soon as one fails. -/
  | composite (dependencies : List ExecutableRef)
  /-- Client code with statuses and a name of its own. -/
  | custom (name : String) (success : Status) (failures : List Status) (code : CodeRef)
  deriving DecidableEq, Inhabited

namespace Work

/-- The name shown in logs and faults. -/
def name : Work → String
  | .constant => "executable_engine::processes::ConstantProcess"
  | .manual _ => "manual"
  | .callback _ => "callback"
  | .composite _ => "composite"
  | .custom name _ _ _ => name

/-- The status that means the value is available. -/
def readyStatus : Work → Status
  | .custom _ success _ _ => success
  | _ => .ready

/-- The statuses that mean the work ended without success. -/
def failedStatuses : Work → List Status
  | .constant => []
  | .custom _ _ failures _ => failures
  | _ => [.failed]

/-- The executables that the work keeps alive. -/
def dependencies : Work → List ExecutableRef
  | .composite dependencies => dependencies
  | _ => []

/-- What is wrong with the statuses that the work declares, the first fault found. -/
def fault? (work : Work) : Option Fault :=
  if work.readyStatus.isNull then some (.nullReady work.name)
  else if work.failedStatuses.any Status.isNull then some (.nullFailed work.name)
  else if work.failedStatuses.contains work.readyStatus then
    some (.readyIsFailed work.name work.readyStatus)
  else none

end Work

end Readiness
