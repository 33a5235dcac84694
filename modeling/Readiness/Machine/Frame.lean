import Readiness.Engine.Store

/-! Frames: what the machine still has to do, one entry for each call that has not returned. -/

namespace Readiness

/-- Whether executing an executable that is ready runs its work again. -/
inductive Refresh where
  /-- Run the work in any case. -/
  | always
  /-- Leave an executable alone that is ready. -/
  | ifNotReady
  deriving DecidableEq, Inhabited

/-- A request that can lead to calls of listeners, observers and other client code. -/
inductive Command where
  /-- Begin the work of an executable. -/
  | execute (e : ExecutableRef) (refresh : Refresh)
  /-- Move an executable to a status and tell its listeners. -/
  | setStatus (e : ExecutableRef) (status : Status)
  /-- Move an executable that may be gone by now; nothing happens if it is. -/
  | report (e : ExecutableRef) (status : Status)
  /-- Move an executable to the failed status for a reason, unless it is gone by now. -/
  | fail (e : ExecutableRef) (reason : String)
  /-- Move an executable to a status once all dependencies are ready. -/
  | synchronise (e : ExecutableRef) (target : Status) (dependencies : List ExecutableRef)
    (onFailure : Option Listener)
  | onReady (e : ExecutableRef) (request : ReadyRequest)
  | invoke (listener : Listener) (event : Event)
  | destroy (e : ExecutableRef)
  /-- Build an executable that is ready when the call returns. -/
  | buildConstant (h : HostRef)
  /-- Deliver deferred batches until none is left. -/
  | pump (h : HostRef)
  | poll (k : SessionRef)
  deriving DecidableEq, Inhabited

/-- A call of client code. -/
inductive Callback where
  /-- A listener is told of an event. -/
  | listener (code : CodeRef) (event : Event)
  /-- The work of an executable is begun. -/
  | work (code : CodeRef) (e : ExecutableRef)
  /-- The work of an executable is begun, with the means to report its outcome. -/
  | completion (code : CodeRef) (e : ExecutableRef)
  /-- An observer is told. -/
  | observer (code : CodeRef) (notice : Notice)
  /-- A future is asked whether it is done. -/
  | future (code : CodeRef)
  deriving DecidableEq

/-- How a call of client code ended. -/
inductive Reply where
  | done
  /-- It is done, and reports a failure if it is a listener. -/
  | failed (reason : String)
  | pending
  deriving DecidableEq, Inhabited

/-- What a call returns. -/
inductive Answer where
  | done
  /-- What a request to move did. -/
  | moved (transition : Transition)
  | built (e : ExecutableRef)
  /-- How many batches were taken from the deferred queue. -/
  | pumped (batches : Nat)
  /-- What client code replied. -/
  | replied (reply : Reply)
  /-- Whether the future of a session is done. -/
  | polled (finished : Bool)
  /-- The call never returned: a panic escaped from it. -/
  | panicked (payload : Payload)
  deriving DecidableEq, Inhabited

/-- A call that has not returned, and how it goes on when what it waits for has. -/
inductive Frame where
  /-- Client code that was called by the engine. -/
  | client (callback : Callback)
  /-- The client's own call, which keeps its arguments alive. -/
  | hold (executables : List ExecutableRef)
  /-- The observer has heard of an execution: begin the work. -/
  | begin (e : ExecutableRef) (status : Status)
  /-- Move on through these statuses, then return. -/
  | moves (e : ExecutableRef) (rest : List Status)
  /-- Processing has been announced: call the client code. -/
  | callBack (e : ExecutableRef) (code : CodeRef)
  /-- Waiting has been announced: synchronise with the dependencies. -/
  | gather (e : ExecutableRef)
  /-- Synchronisation is set up: look for a dependency that has failed by now. -/
  | inspect (e : ExecutableRef)
  /-- Go on with the dependencies of a gate from this position. -/
  | arm (gate : GateRef) (position : Nat) (rest : List ExecutableRef)
    (onFailure : Option Listener)
  /-- The dependency at this position has been executed: count it or listen to it. -/
  | examine (gate : GateRef) (position : Nat) (dependency : ExecutableRef)
    (rest : List ExecutableRef) (onFailure : Option Listener)
  /-- The observer has heard of a transition: tell the listeners. -/
  | announce (e : ExecutableRef) (transition : Transition) (entries : List Entry)
  /-- The listeners have been told or will be: return what the transition was. -/
  | conclude (e : ExecutableRef) (transition : Transition)
  /-- A delivery loop of a host: take the next batch from its queue. -/
  | drain (h : HostRef)
  /-- A batch that is being delivered. -/
  | deliver (batch : Batch)
  /-- A listener that is being called for a batch, whose failure goes no further. -/
  | guard (batch : Nat) (event : Event) (delivery : Delivery)
  /-- A listener of the engine has moved an executable: return from the listener. -/
  | relay (e : ExecutableRef)
  /-- The observer has heard of a destruction: return. -/
  | farewell (e : ExecutableRef)
  /-- An executable that was just built and is being made ready: hand it out. -/
  | hand (e : ExecutableRef)
  /-- A batch was taken from the deferred queue: take the next one. -/
  | pump (h : HostRef) (taken : Nat)
  /-- The deferred batches are delivered: ask the future of the session. -/
  | pumped (k : SessionRef)
  /-- The future of the session has been asked. -/
  | asked (k : SessionRef)
  deriving DecidableEq

namespace Command

/-- The executables that a command keeps alive while it is carried out. -/
def executables : Command → List ExecutableRef
  -- Reports refer to their executable without keeping it.
  | .execute e _ | .setStatus e _ | .onReady e _ | .destroy e => [e]
  | .synchronise e _ dependencies _ => e :: dependencies
  | .invoke _ event => [event.source]
  | .report _ _ | .fail _ _ | .buildConstant _ | .pump _ | .poll _ => []

/-- The listeners that a command mentions. -/
def listeners : Command → List Listener
  | .synchronise _ _ _ onFailure => onFailure.toList
  | .onReady _ request => request.success :: request.failure.toList
  | .invoke listener _ => [listener]
  | _ => []

end Command

namespace Callback

/-- The executables that a call of client code keeps alive. -/
def executables : Callback → List ExecutableRef
  -- Observers learn ids only, so they keep nothing alive.
  | .listener _ event => [event.source]
  | .work _ e | .completion _ e => [e]
  | .observer _ _ | .future _ => []

end Callback

namespace Frame

/-- The executables that a frame keeps alive. -/
def executables : Frame → List ExecutableRef
  | .client callback => callback.executables
  | .hold executables => executables
  | .begin e _ | .moves e _ | .callBack e _ | .gather e | .inspect e | .announce e _ _
  | .conclude e _ | .relay e | .farewell e | .hand e => [e]
  | .arm _ _ rest _ => rest
  | .examine _ _ dependency rest _ => dependency :: rest
  | .deliver batch => [batch.event.source]
  | .guard _ event _ => [event.source]
  | .drain _ | .pump _ _ | .pumped _ | .asked _ => []

/-- The listeners that a frame keeps. -/
def listeners : Frame → List Listener
  | .announce _ _ entries => entries.map Entry.listener
  | .deliver batch => batch.deliveries.map Delivery.listener
  | .guard _ _ delivery => [delivery.listener]
  | .arm _ _ _ onFailure | .examine _ _ _ _ onFailure => onFailure.toList
  | _ => []

/-- The session that a frame is about. -/
def session? : Frame → Option SessionRef
  | .pumped k | .asked k => some k
  | _ => none

end Frame

end Readiness
