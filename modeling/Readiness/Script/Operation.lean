import Readiness.Json.Value
import Readiness.Settings
import Readiness.Fault

/-! Operations: what a scenario and the scripts in it can ask for.

Things are referred to by names, which are looked up only when the operation is carried out. An
argument that is not given is found missing then, too.
-/

namespace Readiness

namespace Script

/-- A name given for an argument, if one is given. -/
abbrev Argument := Option String

mutual

/-- What one operation asks for. -/
inductive Operation where
  /-- Open a host under a name; no settings means that they were invalid. -/
  | openHost (name : Argument) (settings : Option Settings) (observer : ObserverPlan)
  | settings (host : Argument)
  | pump (host : Argument)
  /-- Ask whether a host has deferred batches. -/
  | pending (host : Argument)
  | statistics (host : Argument)
  | counters (host : Argument)
  | stay (host status : Argument)
  | isExecuting (host id : Argument)
  | roster (host : Argument)
  | contains (host id : Argument)
  /-- Look an id up, and keep a handle in a slot if one is named. -/
  | resolve (host id slot : Argument)
  | advance (elapsed : Nat)
  | build (slot host id : Argument) (work : WorkPlan)
  | buildConstant (slot host : Argument)
  | clone (executable slot : Argument)
  | drop (slot : Argument)
  | same (left right : Argument)
  | view (executable : Argument)
  | status (executable : Argument)
  | execute (executable : Argument)
  | executeWith (executable refresh : Argument)
  | setStatus (executable status : Argument)
  | synchronise (executable status : Argument) (dependencies : List Argument) (failure : Argument)
  | destroy (executable : Argument)
  | weak (executable name : Argument)
  /-- Ask whether a remembered executable is alive, and keep a handle in a slot if one is named. -/
  | upgrade (weak slot : Argument)
  | listener (name : Argument) (actions : List Operation) (limit : Option Nat)
  | recorder (name : Argument)
  | seen (recorder : Argument)
  | sameListener (left right : Argument)
  | subscribe (executable listener status : Argument) (once : Bool)
  /-- Remove a listener from a status, or from all of them. -/
  | unsubscribe (executable listener status : Argument)
  | onStatus (executable status name : Argument) (actions : List Operation) (limit : Option Nat)
  | onReady (executable success failure : Argument) (once onlyFuture execute : Bool)
  /-- Listen for readiness once, whether it is there already or comes later. -/
  | onceReady (executable success failure : Argument) (execute : Bool)
  | event (executable status previous : Argument)
  | invoke (executable listener status previous : Argument)
  | wait (executable name : Argument)
  | poll (wait : Argument)
  | runUntil (wait host : Argument)
  | dropWait (wait : Argument)
  /-- Run a host for a future that runs a script each time it is asked, for one poll. -/
  | runUntilScript (polls : List (List Operation)) (host : Argument)
  | keep (name : Argument)
  | complete (completion : Argument)
  | fail (completion reason : Argument)
  | report (completion status : Argument)
  | completionId (completion : Argument)
  | log (message : Json)
  | panic (payload : Payload)
  /-- End the script with a failure. -/
  | returnError (reason : String)
  | unknown (name : String)

/-- The work to build an executable with. -/
inductive WorkPlan where
  | constant
  | manual (completes : Bool)
  /-- A script that can report the outcome. -/
  | callback (actions : List Operation) (limit : Option Nat)
  | composite (dependencies : List Argument)
  /-- A script with a name and statuses of its own. -/
  | script (name : String) (success : Argument) (failures : List Argument)
    (actions : List Operation) (limit : Option Nat)
  | unknown (name : String)

/-- Who observes a host. -/
inductive ObserverPlan where
  | silent
  | tracing
  /-- The log, with a script for each kind of notice. -/
  | scripted (executed transitioned listenerFailed destroyed : List Operation)
    (limit : Option Nat)

end

instance : Inhabited Operation := ⟨.unknown ""⟩

instance : Inhabited WorkPlan := ⟨.constant⟩

instance : Inhabited ObserverPlan := ⟨.silent⟩

/-- How often a script runs its actions unless it says otherwise. -/
def defaultLimit : Nat := 2

/-- The word for an operation. -/
def Operation.label : Operation → String
  | .openHost _ _ _ => "runtime"
  | .settings _ => "config"
  | .pump _ => "run_idle"
  | .pending _ => "pending"
  | .statistics _ => "stats"
  | .counters _ => "counters"
  | .stay _ _ => "status_timing"
  | .isExecuting _ _ => "is_executing"
  | .roster _ => "registry"
  | .contains _ _ => "contains"
  | .resolve _ _ _ => "resolve"
  | .advance _ => "advance"
  | .build _ _ _ _ => "build"
  | .buildConstant _ _ => "build_constant"
  | .clone _ _ => "clone"
  | .drop _ => "drop"
  | .same _ _ => "same"
  | .view _ => "view"
  | .status _ => "status"
  | .execute _ => "execute"
  | .executeWith _ _ => "execute_with"
  | .setStatus _ _ => "set_status"
  | .synchronise _ _ _ _ => "sync"
  | .destroy _ => "destroy"
  | .weak _ _ => "weak"
  | .upgrade _ _ => "upgrade"
  | .listener _ _ _ => "listener"
  | .recorder _ => "recorder"
  | .seen _ => "seen"
  | .sameListener _ _ => "same_listener"
  | .subscribe _ _ _ _ => "add_listener"
  | .unsubscribe _ _ _ => "remove_listener"
  | .onStatus _ _ _ _ _ => "on_status"
  | .onReady _ _ _ _ _ _ => "on_ready"
  | .onceReady _ _ _ _ => "once_ready"
  | .event _ _ _ => "event"
  | .invoke _ _ _ _ => "invoke"
  | .wait _ _ => "wait"
  | .poll _ => "poll"
  | .runUntil _ _ => "run_until"
  | .dropWait _ => "drop_wait"
  | .runUntilScript _ _ => "run_until_script"
  | .keep _ => "keep"
  | .complete _ => "complete"
  | .fail _ _ => "fail"
  | .report _ _ => "report"
  | .completionId _ => "completion_exe"
  | .log _ => "log"
  | .panic _ => "panic"
  | .returnError _ => "return_err"
  | .unknown name => name

end Script

end Readiness
