import Readiness.Script.Interpreter

/-! Scenarios: a main host, operations carried out one after the other, and a report on each. -/

namespace Readiness

namespace Script

/-- What to run. -/
structure Scenario where
  /-- The settings of the main host; none means that they were invalid. -/
  settings : Option Settings
  observer : ObserverPlan
  /-- Whether the log shows the trace. -/
  tracing : Bool
  operations : List Operation

/-- What is reported after an operation. -/
structure StepReport where
  outcome : Outcome
  /-- What was logged while it ran. -/
  log : List LogEntry
  /-- The status of the executable in each slot. -/
  statuses : List (String × Status)
  /-- The hosts with deferred batches, in order. -/
  pending : List String

/-- What is reported about a host at the end. -/
structure HostReport where
  tally : Tally
  /-- The ids on its roster. -/
  ids : List String

/-- What is reported about a scenario. -/
structure Report where
  steps : List StepReport
  /-- The executable in each slot at the end, as a view of it. -/
  executables : List (String × Outcome)
  hosts : List (String × HostReport)

namespace World

/-- The report on the operation that was carried out last. -/
def stepReport (world : World) : StepReport where
  outcome := world.outcome
  log := world.log.toList
  statuses := world.slots.map fun (name, slot) =>
    (name, (world.engine.executable slot.executable).status)
  pending := sortOrdered textLe
    ((world.hosts.filter fun (_, h) => (world.engine.host h).hasDeferred).map (·.1))

/-- The report on a host. -/
def hostReport (world : World) (h : HostRef) : HostReport :=
  ⟨(world.engine.host h).tally, world.machine.rosterIds h⟩

/-- Carries out operations in order, with a report on each. -/
def runAll (fuel : Nat) : World → List Operation → World × List StepReport
  | world, [] => (world, [])
  | world, operation :: rest =>
    let after := world.run fuel operation
    let (last, reports) := runAll fuel after rest
    (last, after.stepReport :: reports)

end World

/-- The world in which the main host has just been opened. -/
def Scenario.world (scenario : Scenario) (settings : Settings) : World :=
  ({ tracing := scenario.tracing } : World).openHost "main" settings scenario.observer

/-- Runs a scenario, unless its settings are invalid; the fuel bounds the steps of one operation. -/
def Scenario.run (scenario : Scenario) (fuel : Nat) : Option Report :=
  scenario.settings.map fun settings =>
    let (world, steps) := World.runAll fuel (scenario.world settings) scenario.operations
    { steps
      executables := world.slots.map fun (name, slot) => (name, world.view slot)
      hosts := world.hosts.map fun (name, h) => (name, world.hostReport h) }

end Script

end Readiness
