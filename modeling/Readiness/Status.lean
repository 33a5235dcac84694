import Readiness.Text.Quoted

/-! Statuses: the points of an executable's lifecycle, told apart by their kind. -/

namespace Readiness

/-- A kind of status that is not built in. -/
structure CustomStatus where
  /-- The name tells the kind apart from others with the same code. -/
  name : String
  /-- The code is what logs and statistics show. -/
  code : String
  /-- The description explains the status to a reader. -/
  description : String
  deriving DecidableEq, Inhabited

/-- A point in the lifecycle of an executable. -/
inductive Status where
  /-- The sentinel before the first transition, which is never a destination. -/
  | null
  /-- Constructed, with the work not yet started. -/
  | initialized
  /-- Waiting for other executables to become ready. -/
  | waiting
  /-- The executable's own work is running. -/
  | processing
  /-- The value is available. -/
  | ready
  /-- The work ended without success. -/
  | failed
  /-- A kind of its own, different from every other kind whatever its code. -/
  | custom (kind : CustomStatus)
  deriving DecidableEq, Inhabited

namespace Status

/-- The name of the kind. -/
def name : Status → String
  | .null => "null"
  | .initialized => "initialized"
  | .waiting => "waiting"
  | .processing => "processing"
  | .ready => "ready"
  | .failed => "failed"
  | .custom kind => kind.name

/-- The short code shown in logs and statistics. -/
def code : Status → String
  -- A built-in kind is named by its code.
  | .custom kind => kind.code
  | builtin => builtin.name

/-- The description of the kind. -/
def description : Status → String
  | .null => "Not initialized"
  | .initialized => "Initialized"
  | .waiting => "Waiting for dependencies"
  | .processing => "Processing"
  | .ready => "Ready"
  | .failed => "Failed"
  | .custom kind => kind.description

/-- The inspection form of a status shows its code only. -/
def inspect (status : Status) : String :=
  wrappedText "Status" status.code

/-- Picks out the sentinel; a custom kind is never it, even one with the same code. -/
def isNull : Status → Bool
  | .null => true
  | _ => false

/-- Nothing but the sentinel is picked out. -/
theorem isNull_eq (status : Status) : status.isNull = decide (status = .null) := by
  cases status <;> simp [isNull]

end Status

/-- What a request to move did: the statuses before and after it, equal when it had no effect. -/
structure Transition where
  /-- The status before the request. -/
  old : Status
  /-- The status after the request. -/
  new : Status
  deriving DecidableEq, Inhabited

namespace Transition

/-- Whether the status is a different one afterwards. -/
def changed (transition : Transition) : Bool :=
  transition.old != transition.new

/-- The inspection form of a transition. -/
def inspect (transition : Transition) : String :=
  recordText "Transition"
    [("old_status", transition.old.inspect), ("new_status", transition.new.inspect)]

end Transition

/-- The inspection form of an executable's id, which is shown as it is. -/
def inspectId (id : String) : String :=
  wrappedText "ExecutableId" id

end Readiness
