import Readiness.Executable
import Readiness.Journal

/-! The engine's store: executables, hosts, gates, waits, sessions, the clock and the journal.

A reference that names nothing reads as a blank value, and writing through it changes nothing.
-/

namespace Readiness

/-- Moves an executable to a status once a count of dependencies has come down to zero. -/
structure Gate where
  /-- The executable to move. -/
  dependent : ExecutableRef
  /-- The status to move it to. -/
  target : Status
  /-- How many dependencies are still to be counted. -/
  remaining : Nat
  deriving DecidableEq, Inhabited

/-- How a wait ended. -/
inductive Settlement where
  /-- The executable became ready. -/
  | ready
  /-- The executable reached this failed status. -/
  | failed (status : Status)
  /-- The executable was destroyed or let go before it settled. -/
  | destroyed
  deriving DecidableEq, Inhabited

/-- Waits for an executable to become ready or to fail. -/
structure Wait where
  executable : ExecutableRef
  /-- How it settled, as reported by the first listener called. -/
  report : Option Settlement := none
  deriving DecidableEq, Inhabited

/-- What a session runs its host for. -/
inductive Future where
  /-- The end of a wait. -/
  | wait (wait : WaitRef)
  /-- Client code that says whether it is done. -/
  | client (code : CodeRef)
  deriving DecidableEq, Inhabited

/-- Where a session stands between two polls. -/
inductive Phase where
  /-- Not parked: the next poll delivers deferred batches first. -/
  | fresh
  | parked
  /-- Woken, with the wakeup not yet used. -/
  | woken
  /-- Over: the future was done, or the session was closed. -/
  | finished
  deriving DecidableEq, Inhabited

/-- Delivers the deferred batches of a host until a future is done. -/
structure Session where
  host : HostRef
  /-- The future to run it for. -/
  future : Future
  /-- Where it stands. -/
  phase : Phase := .fresh
  deriving DecidableEq, Inhabited

/-- How to listen for readiness. -/
structure ReadyRequest where
  /-- The listener to call when the executable becomes ready. -/
  success : Listener
  /-- The listener to call when it fails. -/
  failure : Option Listener := none
  /-- Whether both are gone once one of them is called. -/
  once : Bool := false
  /-- Whether being ready already does not count. -/
  onlyFuture : Bool := false
  /-- Whether to execute the executable unless it is ready. -/
  execute : Bool := false
  deriving DecidableEq, Inhabited

/-- All that the engine keeps. -/
structure Engine where
  /-- The reading of the clock. -/
  clock : Nat := 0
  /-- Hosts in the order of opening. -/
  hosts : List Host := []
  /-- Executables in the order of building. -/
  executables : List Executable := []
  /-- Gates in the order in which they were set up. -/
  gates : List Gate := []
  /-- Waits in the order in which they began. -/
  waits : List Wait := []
  /-- Sessions in the order of opening. -/
  sessions : List Session := []
  /-- The serial number of the next batch. -/
  nextBatch : Nat := 0
  /-- What happened so far. -/
  journal : Array Occurrence := #[]
  deriving Inhabited

namespace Engine

/-- The executable that a reference names. -/
def executable (engine : Engine) (e : ExecutableRef) : Executable :=
  engine.executables.getD e default

/-- The host that a reference names. -/
def host (engine : Engine) (h : HostRef) : Host :=
  engine.hosts.getD h default

/-- The gate that a reference names. -/
def gate (engine : Engine) (g : GateRef) : Gate :=
  engine.gates.getD g default

/-- The wait that a reference names. -/
def wait (engine : Engine) (w : WaitRef) : Wait :=
  engine.waits.getD w default

/-- The session that a reference names. -/
def session (engine : Engine) (k : SessionRef) : Session :=
  engine.sessions.getD k default

/-- The host of an executable. -/
def hostOf (engine : Engine) (e : ExecutableRef) : Host :=
  engine.host (engine.executable e).host

/-- Changes one executable. -/
def modifyExecutable (engine : Engine) (e : ExecutableRef) (change : Executable → Executable) :
    Engine :=
  { engine with executables := engine.executables.modify e change }

/-- A change shows in the executable that it was made to. -/
theorem executable_modifyExecutable_self (engine : Engine) {e : ExecutableRef}
    (change : Executable → Executable) (built : e < engine.executables.length) :
    (engine.modifyExecutable e change).executable e = change (engine.executable e) := by
  -- The reference names something, so neither look-up falls back on a blank value.
  simp [modifyExecutable, executable, List.getD_eq_getElem?_getD, built]

/-- A change to one executable leaves the others alone. -/
theorem executable_modifyExecutable_of_ne (engine : Engine) {e other : ExecutableRef}
    (change : Executable → Executable) (distinct : e ≠ other) :
    (engine.modifyExecutable e change).executable other = engine.executable other := by
  simp [modifyExecutable, executable, List.getD_eq_getElem?_getD, distinct]

/-- Changes one host. -/
def modifyHost (engine : Engine) (h : HostRef) (change : Host → Host) : Engine :=
  { engine with hosts := engine.hosts.modify h change }

/-- Changes one gate. -/
def modifyGate (engine : Engine) (g : GateRef) (change : Gate → Gate) : Engine :=
  { engine with gates := engine.gates.modify g change }

/-- Changes one session. -/
def modifySession (engine : Engine) (k : SessionRef) (change : Session → Session) : Engine :=
  { engine with sessions := engine.sessions.modify k change }

/-- Changes what a host has counted. -/
def modifyTally (engine : Engine) (h : HostRef) (change : Tally → Tally) : Engine :=
  engine.modifyHost h (·.modifyTally change)

/-- Enters an occurrence in the journal. -/
def note (engine : Engine) (occurrence : Occurrence) : Engine :=
  { engine with journal := engine.journal.push occurrence }

end Engine

end Readiness
