import Readiness.Engine.Trace
import Readiness.Machine.Client
import Readiness.Script.Operation
import Readiness.Script.Outcome
import Readiness.Script.Vocabulary

/-! The world of a scenario: the machine, the names in use, the scripts that exist and those that
are running, and the log.
-/

namespace Readiness

namespace Script

/-- Values by name, where a name in use can be given a new value. -/
abbrev Table (α : Type) := List (String × α)

namespace Table

/-- The value of a name. -/
def get? {α : Type} (table : Table α) (name : String) : Option α :=
  table.lookup name

/-- Gives a name a value. -/
def put {α : Type} (table : Table α) (name : String) (value : α) : Table α :=
  (name, value) :: table.filter (·.1 != name)

/-- A name has the value that it was given last. -/
theorem get?_put_self {α : Type} (table : Table α) (name : String) (value : α) :
    (table.put name value).get? name = some value := by
  simp [get?, put]

/-- The other names keep their values. -/
theorem get?_put_of_ne {α : Type} (table : Table α) {name other : String} (value : α)
    (distinct : other ≠ name) : (table.put name value).get? other = table.get? other := by
  -- The new pair is passed by, and so is every pair that was taken out.
  have passed : (other == name) = false := by simpa using distinct
  simp only [get?, put, List.lookup_cons, passed]
  induction table with
  | nil => rfl
  | cons pair rest ih =>
    rcases pair with ⟨key, kept⟩
    by_cases same : key = name
    · subst same
      simpa [List.lookup_cons, passed] using ih
    · have stays : (key != name) = true := by simpa using same
      simp only [List.filter_cons, stays, if_true, List.lookup_cons, ih]

/-- Forgets a name. -/
def erase {α : Type} (table : Table α) (name : String) : Table α :=
  table.filter (·.1 != name)

end Table

/-- A slot for a handle; only the one that manual work was built into shows how often it ran. -/
structure Slot where
  executable : ExecutableRef
  /-- Whether the slot shows how often the work was begun. -/
  counted : Bool
  deriving DecidableEq, Inhabited

/-- What the scenario knows about a wait. -/
inductive WaitState where
  | idle
  /-- That it is being polled, which it stays for good if that panics. -/
  | busy
  /-- That it has ended like this. -/
  | ended (settlement : Settlement)
  deriving DecidableEq, Inhabited

/-- A wait of the scenario. -/
structure WaitCell where
  wait : WaitRef
  /-- What is known about it. -/
  state : WaitState := .idle
  deriving DecidableEq, Inhabited

/-- What a running script can refer to besides the names in use. -/
inductive Context where
  | plain
  /-- The source of the event that a listener was told. -/
  | listening (source : ExecutableRef)
  /-- The executable whose work it is. -/
  | working (self : ExecutableRef)
  /-- The executable whose work it is, and the means to report for it. -/
  | completing (self : ExecutableRef)
  deriving DecidableEq, Inhabited

/-- Code that the engine can call, with what is left of its limit. -/
inductive Code where
  /-- A listener that runs a script. -/
  | listener (name : String) (actions : List Operation) (left : Nat)
  /-- A listener that records the statuses it is told. -/
  | recorder (seen : List Status)
  /-- Work that runs a script. -/
  | work (name : String) (actions : List Operation) (left : Nat)
  /-- Work that runs a script with the means to report. -/
  | callback (actions : List Operation) (left : Nat)
  /-- An observer that runs a script for each kind of notice. -/
  | observer (executed transitioned listenerFailed destroyed : List Operation) (left : Nat)
  /-- A future that runs a script each time it is asked, which can refer to what the script that
  made it can refer to. -/
  | future (context : Context) (polls : List (List Operation)) (asked : Nat)
  deriving Inhabited

/-- What an operation still does once the engine has answered its call. -/
inductive Awaiting where
  | plain
  | moved
  | pumped
  | replied
  /-- It keeps the executable that was built in a slot. -/
  | built (slot : String)
  /-- It closes a session, gives the wait its name back and answers how the wait stands. -/
  | waited (name : String) (cell : Nat) (session : SessionRef)
  /-- It closes a session and answers how often the future was asked. -/
  | asked (code : CodeRef) (session : SessionRef)
  deriving DecidableEq, Inhabited

/-- A script that is running. -/
structure Activation where
  /-- What it can refer to. -/
  context : Context := .plain
  /-- The operations still to be carried out. -/
  todo : List Operation := []
  /-- What it replies at its end. -/
  reply : Reply := .done
  /-- Whether it fails if it ends itself early, as only a listener does. -/
  fallible : Bool := false
  /-- The operation that waits for the engine. -/
  awaiting : Option (String × Awaiting) := none
  deriving Inhabited

/-- The state of a scenario. -/
structure World where
  machine : Machine := {}
  hosts : Table HostRef := []
  slots : Table Slot := []
  /-- Executables that are remembered without being kept. -/
  weaks : Table ExecutableRef := []
  listeners : Table CodeRef := []
  recorders : Table CodeRef := []
  /-- The executables to report for, by name. -/
  completions : Table ExecutableRef := []
  /-- Waits by name, each by its place among the cells. -/
  waits : Table Nat := []
  /-- All waits that were begun. -/
  cells : List WaitCell := []
  codes : List Code := []
  /-- Scripts that are running, innermost first. -/
  activations : List Activation := []
  /-- What the operation of the scenario answered. -/
  outcome : Outcome := .nothing
  /-- Whether the log shows the trace. -/
  tracing : Bool := false
  /-- How much of the journal the log has shown. -/
  shown : Nat := 0
  log : Array LogEntry := #[]
  deriving Inhabited

namespace World

/-- Changes the machine. -/
def drive (world : World) (change : Machine → Machine) : World :=
  { world with machine := change world.machine }

/-- The store of the machine. -/
def engine (world : World) : Engine :=
  world.machine.engine

/-- Adds an entry to the log. -/
def write (world : World) (entry : LogEntry) : World :=
  { world with log := world.log.push entry }

/-- Brings the log up to date with the journal. -/
def showTrace (world : World) : World :=
  let journal := world.engine.journal
  if world.shown = journal.size then world
  else
    let fresh := (journal.extract world.shown journal.size).toList.filterMap world.engine.record?
    { world with
      shown := journal.size
      log := if world.tracing then world.log ++ (fresh.map LogEntry.traced).toArray else world.log }

/-- Makes new code. -/
def addCode (world : World) (code : Code) : World × CodeRef :=
  ({ world with codes := world.codes ++ [code] }, world.codes.length)

/-- The code that a reference names. -/
def code (world : World) (code : CodeRef) : Code :=
  world.codes.getD code default

/-- Changes code. -/
def setCode (world : World) (code : CodeRef) (change : Code) : World :=
  { world with codes := world.codes.set code change }

/-- Sets what is known about a wait. -/
def setWait (world : World) (cell : Nat) (state : WaitState) : World :=
  { world with cells := world.cells.modify cell ({ · with state := state }) }

/-- Keeps a handle in a slot; the handle that was there is given up afterwards. -/
def keep (world : World) (name : String) (slot : Slot) : World :=
  let kept := { world with slots := world.slots.put name slot }
  match world.slots.get? name with
  | some old => kept.drive (·.release old.executable)
  | none => kept

/-- An argument that an operation needs. -/
def need (field : String) (argument : Argument) : Except Outcome String :=
  match argument with
  | some name => .ok name
  | none => .error (.missing .operation field)

/-- Looks a name up in a table. -/
def find {α : Type} (lookup : Lookup) (table : Table α) (name : String) : Except Outcome α :=
  match table.get? name with
  | some value => .ok value
  | none => .error (.missing lookup name)

/-- The executable of a name, with its slot if it has one. The two names of a context never stand
for a slot, even if a slot has been given such a name. -/
def slot (world : World) (context : Context) (field : String) (argument : Argument) :
    Except Outcome Slot := do
  let name ← need field argument
  match name, context with
  | "@self", .working e | "@self", .completing e => return ⟨e, false⟩
  | "@source", .listening e => return ⟨e, false⟩
  | "@self", _ | "@source", _ => .error (.missing .executable name)
  | _, _ => find .executable world.slots name

/-- The executable of a name. -/
def executable (world : World) (context : Context) (field : String) (argument : Argument) :
    Except Outcome ExecutableRef := do
  return (← world.slot context field argument).executable

/-- The executables of a list of names. -/
def executables (world : World) (context : Context) (field : String) (arguments : List Argument) :
    Except Outcome (List ExecutableRef) :=
  arguments.mapM (world.executable context field)

/-- The host of a name, which is the main one unless it is given. -/
def host (world : World) (argument : Argument) : Except Outcome HostRef :=
  find .host world.hosts (argument.getD "main")

/-- The status of a name. -/
def status (field : String) (argument : Argument) : Except Outcome Status := do
  let name ← need field argument
  match status? name with
  | some status => return status
  | none => .error (.missing .status name)

/-- The status of a name, or any status if none is given. -/
def anyStatus (argument : Argument) : Except Outcome (Option Status) :=
  match argument with
  | none => .ok none
  | some _ => some <$> status "status" argument

/-- The listener of a name. -/
def listener (world : World) (field : String) (argument : Argument) : Except Outcome Listener := do
  return .client (← find .listener world.listeners (← need field argument))

/-- The listener of a name, if one is given. -/
def anyListener (world : World) (field : String) (argument : Argument) :
    Except Outcome (Option Listener) :=
  match argument with
  | none => .ok none
  | some _ => some <$> world.listener field argument

/-- The executable to report for: of a name, or the one whose work the script is. -/
def completion (world : World) (context : Context) (argument : Argument) :
    Except Outcome ExecutableRef :=
  match argument, context with
  | some name, _ => find .completion world.completions name
  | none, .completing e => .ok e
  | none, _ => .error (.missing .completion "")

/-- The place of a wait, with what is known about it. -/
def waitCell (world : World) (name : String) : Except Outcome (Nat × WaitCell) := do
  let cell ← find .wait world.waits name
  return (cell, world.cells.getD cell default)

/-- What an ended wait answers. -/
def settled (world : World) (w : WaitRef) (settlement : Settlement) : Outcome :=
  match world.machine.waitFault? w settlement with
  | none => .ok
  | some fault => .fault fault

/-- The outcome of showing an executable. -/
def view (world : World) (slot : Slot) : Outcome :=
  let shown := world.engine.executable slot.executable
  .view shown (if slot.counted then some shown.runs else none)

end World

end Script

end Readiness
