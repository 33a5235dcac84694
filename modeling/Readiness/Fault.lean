import Readiness.Status

/-! Faults: why the engine refuses or reports something, and how a listener can fail. -/

namespace Readiness

/-- What the engine refuses, or reports as the end of a wait. -/
inductive Fault where
  /-- A living executable is already registered under the id. -/
  | duplicateId (id : String)
  /-- No living executable is registered under the id. -/
  | notFound (id : String)
  /-- The work declares the sentinel as its ready status. -/
  | nullReady (work : String)
  /-- The work declares the sentinel as a failed status. -/
  | nullFailed (work : String)
  /-- The work declares one status as both ready and failed. -/
  | readyIsFailed (work : String) (status : Status)
  /-- An event cannot carry the sentinel. -/
  | nullEvent (source : String)
  /-- The executable reached one of its failed statuses. -/
  | failed (id : String) (status : Status)
  /-- The executable was destroyed while it was waited for. -/
  | destroyed (id : String)
  deriving DecidableEq

namespace Fault

/-- A short stable label of the cause. -/
def label : Fault → String
  | .duplicateId _ => "engine_duplicate_id"
  | .notFound _ => "engine_not_found"
  | .nullReady _ => "engine_null_ready_status"
  | .nullFailed _ => "engine_null_failed_status"
  | .readyIsFailed _ _ => "engine_ready_status_is_failure"
  | .nullEvent _ => "engine_null_event_status"
  | .failed _ _ => "engine_failed"
  | .destroyed _ => "engine_destroyed"

/-- The sentence shown to a reader. -/
def message : Fault → String
  | .duplicateId id => "executable id `" ++ id ++ "` is already registered"
  | .notFound id => "no executable registered under id `" ++ id ++ "`"
  | .nullReady work => "process `" ++ work ++ "` declares the null status as its ready status"
  | .nullFailed work => "process `" ++ work ++ "` declares the null status as a failed status"
  | .readyIsFailed work status =>
    "process `" ++ work ++ "` declares `" ++ status.code ++ "` as both ready and failed"
  | .nullEvent source => "status event from `" ++ source ++ "` cannot carry the null status"
  | .failed id status => "executable `" ++ id ++ "` failed with status `" ++ status.code ++ "`"
  | .destroyed id => "executable `" ++ id ++ "` was destroyed"

/-- The inspection form of a fault. -/
def inspect : Fault → String
  | .duplicateId id => wrappedText "DuplicateId" (inspectId id)
  | .notFound id => wrappedText "NotFound" (inspectId id)
  | .nullReady work => recordText "NullReadyStatus" [("process", quotedText work)]
  | .nullFailed work => recordText "NullFailedStatus" [("process", quotedText work)]
  | .readyIsFailed work status =>
    recordText "ReadyStatusIsFailure" [("process", quotedText work), ("status", status.inspect)]
  | .nullEvent source => recordText "NullEventStatus" [("source_id", inspectId source)]
  | .failed id status => recordText "Failed" [("id", inspectId id), ("status", status.inspect)]
  | .destroyed id => wrappedText "Destroyed" (inspectId id)

/-- Whether the fault is a mistake of the caller rather than an outcome of the work. -/
def isMisuse : Fault → Bool
  -- Looking up, failing and being destroyed all happen to correct programs.
  | .failed _ _ | .destroyed _ | .notFound _ => false
  | _ => true

end Fault

/-- What a panic carries to whoever catches it. -/
inductive Payload where
  /-- A text, which a report can show. -/
  | text (message : String)
  /-- Anything else that can be dropped quietly. -/
  | other
  /-- A value that panics when it is dropped, with this payload. -/
  | volatile (next : Payload)
  deriving DecidableEq

namespace Payload

/-- The text of the payload, if it is one. -/
def text? : Payload → Option String
  | .text message => some message
  | .other | .volatile _ => none

/-- The payload of the panic that comes of dropping this one, if that panics. -/
def onDrop? : Payload → Option Payload
  | .volatile next => some next
  | .text _ | .other => none

/-- The text that stands for the payload in a report. -/
def report (payload : Payload) : String :=
  payload.text?.getD "non-string panic payload"

end Payload

/-- How the call of a listener went wrong. -/
inductive ListenerFault where
  /-- The listener reported a failure. -/
  | failed (reason : String)
  /-- The listener panicked with a payload of this text. -/
  | panicked (message : String)
  deriving DecidableEq

namespace ListenerFault

/-- A short stable label of the cause. -/
def label : ListenerFault → String
  | .failed _ => "listener_failed"
  | .panicked _ => "listener_panicked"

/-- The sentence shown to a reader. -/
def message : ListenerFault → String
  | .failed reason => "listener failed: " ++ reason
  | .panicked message => "listener panicked: " ++ message

/-- The inspection form of a listener's fault. -/
def inspect : ListenerFault → String
  | .failed reason => recordText "Failed" [("reason", quotedText reason)]
  | .panicked message => recordText "Panicked" [("message", quotedText message)]

/-- Whether the listener panicked. -/
def isPanic : ListenerFault → Bool
  | .panicked _ => true
  | .failed _ => false

end ListenerFault

end Readiness
