import Readiness.Machine.Client

/-! Runs: what can become of a machine, whatever the client does with its turns.

The client can use an executable only while it is alive, and only listeners of its own. It cannot
poll or close a session that is being polled. It can panic with any payload that is dropped quietly:
no guard holds a panic whose payload panics again when it is dropped.
-/

namespace Readiness

/-- A listener of the client, as opposed to those that the engine makes for itself. -/
def Listener.isClient : Listener → Bool
  | .client _ => true
  | _ => false

namespace Machine

/-- Whether it is the client's turn. -/
def clientTurn (machine : Machine) : Bool :=
  match machine.control with
  | .called | .returned _ => true
  | .perform _ | .resume _ | .unwind _ => false

/-- Whether a session is open and not being polled. -/
def sessionIdle (machine : Machine) (k : SessionRef) : Prop :=
  k < machine.engine.sessions.length ∧ (machine.engine.session k).phase ≠ .finished ∧
    ∀ frame ∈ machine.stack, frame.session? ≠ some k

/-- What the client must have in order to make a call. -/
structure Permitted (machine : Machine) (command : Command) : Prop where
  /-- The executables it mentions are alive. -/
  alive : ∀ e ∈ command.executables, machine.isAlive e
  /-- The listeners it mentions are the client's own. -/
  own : ∀ listener ∈ command.listeners, listener.isClient
  /-- The host it mentions is open. -/
  opened : ∀ h, command = .pump h ∨ command = .buildConstant h → h < machine.engine.hosts.length
  /-- The event it makes up does not carry the sentinel. -/
  real : ∀ listener event, command = .invoke listener event → event.status ≠ .null
  /-- The session it mentions can be polled. -/
  idle : ∀ k, command = .poll k → machine.sessionIdle k

/-- One step of a run: the engine's own, or anything that the client can do in its turn. -/
inductive Next : Machine → Machine → Prop where
  /-- The engine goes on. -/
  | engine {machine : Machine} (busy : machine.clientTurn = false) : Next machine machine.step
  /-- The client starts on the call that the engine made. -/
  | accept {machine : Machine} (called : machine.control = .called) : Next machine machine.accept
  | advance {machine : Machine} (turn : machine.clientTurn) (elapsed : Nat) :
    Next machine (machine.advance elapsed)
  | openHost {machine : Machine} (turn : machine.clientTurn) (settings : Settings)
    (observer : Observer) : Next machine (machine.openHost settings observer).1
  | build {machine built : Machine} (turn : machine.clientTurn) {h : HostRef} {id : Option String}
    {work : Work} {e : ExecutableRef} (opened : h < machine.engine.hosts.length)
    (alive : ∀ d ∈ work.dependencies, machine.isAlive d)
    (success : machine.build h id work = (built, .ok e)) : Next machine built
  | retain {machine : Machine} (turn : machine.clientTurn) {e : ExecutableRef}
    (alive : machine.isAlive e) : Next machine (machine.retain e)
  | release {machine : Machine} (turn : machine.clientTurn) {e : ExecutableRef}
    (held : 0 < (machine.engine.executable e).handles) : Next machine (machine.release e)
  | subscribe {machine : Machine} (turn : machine.clientTurn) {e : ExecutableRef}
    (alive : machine.isAlive e) (code : CodeRef) (status : Option Status) (once : Bool) :
    Next machine (machine.subscribe e (.client code) status once)
  | unsubscribe {machine : Machine} (turn : machine.clientTurn) {e : ExecutableRef}
    (alive : machine.isAlive e) (code : CodeRef) (status : Option Status) :
    Next machine (machine.unsubscribe e (.client code) status).1
  | beginWait {machine : Machine} (turn : machine.clientTurn) {e : ExecutableRef}
    (alive : machine.isAlive e) : Next machine (machine.beginWait e).1
  | openSession {machine : Machine} (turn : machine.clientTurn) {h : HostRef} (future : Future)
    (opened : h < machine.engine.hosts.length) : Next machine (machine.openSession h future).1
  | closeSession {machine : Machine} (turn : machine.clientTurn) {k : SessionRef}
    (idle : machine.sessionIdle k) : Next machine (machine.closeSession k)
  | call {machine : Machine} (turn : machine.clientTurn) {command : Command}
    (permitted : machine.Permitted command) : Next machine (machine.call command)
  /-- The client returns from a call of the engine. -/
  | finish {machine : Machine} (turn : machine.clientTurn) {callback : Callback}
    {rest : List Frame} (top : machine.stack = .client callback :: rest) (reply : Reply) :
    Next machine (machine.finish reply)
  | panic {machine : Machine} (turn : machine.clientTurn) {payload : Payload}
    (quiet : payload.onDrop? = none) : Next machine (machine.panic payload)

/-- A later state of a run. -/
inductive Reaches (start : Machine) : Machine → Prop where
  /-- A run can end where it starts. -/
  | refl : Reaches start start
  /-- A run can go on for one more step. -/
  | step {machine next : Machine} (reached : Reaches start machine) (step : Next machine next) :
    Reaches start next

/-- A state that a run can come to from the empty machine. -/
def Reachable (machine : Machine) : Prop :=
  Reaches {} machine

end Machine

end Readiness
