import Readiness.Script.World

/-! Inquiries: questions about statuses, ids and faults that need no scenario. -/

namespace Readiness

namespace Script

/-- For each value whether it is new when the values are put into a set one by one. -/
def freshness {α : Type} [DecidableEq α] : List α → List α → List Bool
  -- What was put in before decides.
  | _, [] => []
  | before, value :: rest => (!before.contains value) :: freshness (value :: before) rest

/-- How many different values there are. -/
def distinct {α : Type} [DecidableEq α] (values : List α) : Nat :=
  (freshness [] values).count true

/-- The fault of a cause that is named, with what it is about. -/
def fault (cause id work : String) (argument : Argument) : Except Outcome Fault := do
  -- Only two causes mention a status, so only they look it up.
  match cause with
  | "DuplicateId" => return .duplicateId id
  | "NotFound" => return .notFound id
  | "NullReadyStatus" => return .nullReady work
  | "NullFailedStatus" => return .nullFailed work
  | "ReadyStatusIsFailure" => return .readyIsFailed work (← World.status "status" argument)
  | "NullEventStatus" => return .nullEvent id
  | "Failed" => return .failed id (← World.status "status" argument)
  | "Destroyed" => return .destroyed id
  | other => .error (.missing .operation other)

/-- The fault of a listener of a cause that is named, with its text. -/
def listenerFault (cause : String) (text : Argument) : Except Outcome ListenerFault := do
  match cause with
  | "Failed" => return .failed (← World.need "text" text)
  | "Panicked" => return .panicked (← World.need "text" text)
  | other => .error (.missing .operation other)

/-- The policy of a name, which is the default one for any name but one. -/
def policy (name : Argument) : Except Outcome DeliveryPolicy := do
  return if (← World.need "name" name) = "in_order" then .inOrder else {}

end Script

end Readiness
