import Readiness.Machine.Basic

/-! What is alive in the machine.

An executable lives while something refers to it: a handle of the client, a batch, a call that has
not returned, or a composite that is itself alive. Nothing is ever removed from the store; whatever
has died is only out of reach.
-/

namespace Readiness

namespace Machine

/-- The batches of every host that are yet to be delivered. -/
def waitingBatches (machine : Machine) : List Batch :=
  machine.engine.hosts.flatMap fun host => host.queue ++ host.deferred

/-- The executables that the current turn keeps alive. -/
def controlExecutables (machine : Machine) : List ExecutableRef :=
  match machine.control with
  | .perform command => command.executables
  | _ => []

/-- The executables that are referred to from outside the store. -/
def roots (machine : Machine) : List ExecutableRef :=
  (List.range machine.engine.executables.length).filter
      (fun e => decide (0 < (machine.engine.executable e).handles)) ++
    machine.waitingBatches.map (·.event.source) ++
    machine.stack.flatMap Frame.executables ++ machine.controlExecutables

/-- Adds the dependencies of every executable below a bound that is reached already. -/
def reach (engine : Engine) : Nat → List ExecutableRef → List ExecutableRef
  -- A dependency is older than its composite, so one pass from the youngest down is enough.
  | 0, reached => reached
  | e + 1, reached =>
    reach engine e
      (if reached.contains e then (engine.executable e).work.dependencies ++ reached else reached)

/-- The executables that are alive. -/
def living (machine : Machine) : List ExecutableRef :=
  reach machine.engine machine.engine.executables.length machine.roots

/-- Whether an executable is alive. -/
def isAlive (machine : Machine) (e : ExecutableRef) : Bool :=
  machine.living.contains e

/-- The listeners that something could still call. -/
def heldListeners (machine : Machine) : List Listener :=
  -- The entries of an executable die with it, while a batch keeps its own until it is delivered.
  (machine.living.flatMap fun e =>
      (machine.engine.executable e).subscriptions.entries.map Entry.listener) ++
    (machine.waitingBatches.flatMap fun batch => batch.deliveries.map Delivery.listener) ++
    machine.stack.flatMap Frame.listeners

/-- How a wait has ended, if it has: as reported, or as destroyed once nobody can report it. -/
def settlement? (machine : Machine) (w : WaitRef) : Option Settlement :=
  match (machine.engine.wait w).report with
  | some settlement => some settlement
  | none =>
    let held := machine.heldListeners
    if held.contains (.waitReady w) || held.contains (.waitFailed w) then none
    else some .destroyed

/-- The fault that the end of a wait stands for, if it stands for one. -/
def waitFault? (machine : Machine) (w : WaitRef) : Settlement → Option Fault
  | .ready => none
  | .failed status =>
    some (.failed (machine.engine.executable (machine.engine.wait w).executable).id status)
  | .destroyed =>
    some (.destroyed (machine.engine.executable (machine.engine.wait w).executable).id)

/-- The living executable that is registered under an id. -/
def resolve? (machine : Machine) (h : HostRef) (id : String) : Option ExecutableRef :=
  ((machine.engine.host h).roster.lookup id).filter machine.isAlive

/-- The ids under which living executables are registered, in order. -/
def rosterIds (machine : Machine) (h : HostRef) : List String :=
  sortOrdered textLe
    (((machine.engine.host h).roster.filter fun (_, e) => machine.isAlive e).map (·.1))

end Machine

end Readiness
