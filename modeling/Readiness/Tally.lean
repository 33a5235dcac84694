import Readiness.Ordered
import Readiness.Status

/-! Tallies: what a host counts about its executables. -/

namespace Readiness

/-- What is counted for one status. -/
structure Stay where
  /-- How many transitions led there. -/
  reached : Nat := 0
  /-- The time spent there before leaving again. -/
  total : Nat := 0
  deriving DecidableEq, Inhabited

/-- What a host has counted. -/
structure Tally where
  /-- Executions that began the work. -/
  executions : Nat := 0
  /-- Transitions that had an effect. -/
  transitions : Nat := 0
  /-- Listener calls that ended. -/
  invocations : Nat := 0
  /-- Listener calls that ended badly. -/
  failures : Nat := 0
  /-- The ids between initialization and ready. -/
  executing : List String := []
  /-- What is counted by status. -/
  stays : List (Status × Stay) := []
  deriving DecidableEq, Inhabited

namespace Tally

/-- Changes what is counted for one status. -/
def updateStay (status : Status) (change : Stay → Stay) :
    List (Status × Stay) → List (Status × Stay)
  -- A status that was not counted before starts from zero.
  | [] => [(status, change {})]
  | (key, stay) :: rest =>
    if key = status then (key, change stay) :: rest
    else (key, stay) :: updateStay status change rest

/-- One more execution. -/
def countExecution (tally : Tally) : Tally :=
  { tally with executions := tally.executions + 1 }

/-- One more listener call, and whether it went well. -/
def countInvocation (tally : Tally) (ok : Bool) : Tally :=
  { tally with
    invocations := tally.invocations + 1
    failures := if ok then tally.failures else tally.failures + 1 }

/-- One more transition, with the time spent in the status left if it is known. -/
def countTransition (tally : Tally) (old new : Status) (elapsed : Option Nat) : Tally :=
  let reached := updateStay new (fun stay => { stay with reached := stay.reached + 1 }) tally.stays
  { tally with
    transitions := tally.transitions + 1
    stays := match elapsed with
      | some time => updateStay old (fun stay => { stay with total := stay.total + time }) reached
      | none => reached }

/-- Counts an id among those executing. -/
def beginExecuting (tally : Tally) (id : String) : Tally :=
  { tally with executing := tally.executing.insert id }

/-- Counts an id no longer among those executing. -/
def endExecuting (tally : Tally) (id : String) : Tally :=
  { tally with executing := tally.executing.filter (· != id) }

/-- What is counted for a status, zero if nothing was. -/
def stay (tally : Tally) (status : Status) : Stay :=
  (tally.stays.lookup status).getD {}

/-- The executing ids in order. -/
def executingIds (tally : Tally) : List String :=
  sortOrdered textLe tally.executing

/-- The counts by status, in the order of code, transitions and time. -/
def rows (tally : Tally) : List (String × Stay) :=
  -- Kinds with equal codes have rows of their own, which only the counts can order.
  sortOrdered
    (fun left right =>
      if left.1 = right.1 then
        if left.2.reached = right.2.reached then decide (left.2.total ≤ right.2.total)
        else decide (left.2.reached ≤ right.2.reached)
      else textLe left.1 right.1)
    (tally.stays.map fun (status, stay) => (status.code, stay))

end Tally

end Readiness
