import Readiness.Script.Performance

/-! Running scripts: those of the scenario itself, and those that the engine calls. -/

namespace Readiness

namespace Script

namespace World

/-- What an operation answers once the engine has answered its call. -/
def conclude (world : World) (awaiting : Awaiting) (answer : Answer) : World × Outcome :=
  match answer with
  | .panicked payload => (world, .panicked payload)
  | _ =>
    match awaiting, answer with
    | .moved, .moved transition => (world, .moved transition)
    | .pumped, .pumped batches => (world, .count batches)
    | .replied, .replied (.failed reason) => (world, .listenerFault (.failed reason))
    | .replied, _ => (world, .ok)
    | .built slot, .built e =>
      (world.keep slot ⟨e, false⟩, .text (world.engine.executable e).id)
    | .waited name cell k, _ =>
      -- Whatever happened to the name meanwhile, it is this wait's again.
      let world := { world with waits := world.waits.put name cell }.drive (·.closeSession k)
      let w := (world.cells.getD cell default).wait
      match answer, world.machine.settlement? w with
      | .polled true, some settlement =>
        (world.setWait cell (.ended settlement), world.settled w settlement)
      | _, _ => (world.setWait cell .idle, .pending)
    | .asked code k, _ =>
      let world := world.drive (·.closeSession k)
      match world.code code with
      | .future _ _ asked => (world, .polls asked (decide (answer = .polled true)))
      | _ => (world, .nothing)
    | _, _ => (world, .nothing)

/-- Ends an operation: the scenario gets its outcome, while that of a script's goes to the log. -/
def endOperation (world : World) (label : String) (outcome : Outcome) : World :=
  match world.activations with
  | [] | [_] => { world with outcome, activations := [] }
  | current :: rest =>
    ({ world with activations := { current with awaiting := none } :: rest }).write
      (.did label outcome)

/-- Ends the innermost script with a reply. -/
def endScript (world : World) (reply : Reply) : World :=
  { world with activations := world.activations.tail }.drive (·.finish reply)

/-- Carries out the next operation of the innermost script. -/
def nextOperation (world : World) (current : Activation) (rest : List Activation)
    (operation : Operation) (todo : List Operation) : World :=
  let begun := { world with activations := { current with todo } :: rest }
  match begun.operate current.context operation with
  | .error outcome => begun.endOperation operation.label outcome
  | .ok (world, .ended outcome) => world.showTrace.endOperation operation.label outcome
  | .ok (world, .waiting awaiting) =>
    { world with
      activations :=
        { current with todo, awaiting := some (operation.label, awaiting) } :: rest }
  | .ok (world, .ending reason) =>
    match rest with
    -- Only a script can be ended, so to the scenario itself this is no operation at all.
    | [] => world.endOperation operation.label (.missing .operation operation.label)
    | _ => world.endScript (if current.fallible then .failed reason else current.reply)

/-- The actions that a call runs, and what it leaves of the limit. -/
def spend (actions : List Operation) (left : Nat) : List Operation × Nat :=
  -- A call without actions costs nothing, and one past the limit runs nothing.
  if actions.isEmpty || left = 0 then ([], left) else (actions, left - 1)

/-- Starts a script. -/
def activate (world : World) (script : Activation) : World :=
  { world with activations := script :: world.activations }

/-- The executable that a notice is about. -/
def subject : Notice → ExecutableRef
  | .executed e _ | .transitioned e _ _ | .listenerFailed e _ _ | .destroyed e => e

/-- Starts the script that the engine calls. -/
def enter (world : World) (callback : Callback) : World :=
  let id (e : ExecutableRef) := (world.engine.executable e).id
  match callback with
  | .listener code event =>
    match world.code code with
    | .listener name actions left =>
      let (todo, left) := spend actions left
      ((world.write (.called name event (id event.source))).setCode code
        (.listener name actions left)).activate
          { context := .listening event.source, todo, fallible := true }
    | .recorder seen => (world.setCode code (.recorder (seen ++ [event.status]))).activate {}
    | _ => world.activate {}
  | .work code e =>
    match world.code code with
    | .work name actions left =>
      let (todo, left) := spend actions left
      ((world.write (.worked name)).setCode code (.work name actions left)).activate
        { context := .working e, todo }
    | _ => world.activate {}
  | .completion code e =>
    match world.code code with
    | .callback actions left =>
      let (todo, left) := spend actions left
      (world.setCode code (.callback actions left)).activate { context := .completing e, todo }
    | _ => world.activate {}
  | .observer code notice =>
    match world.code code with
    | .observer executed transitioned listenerFailed destroyed left =>
      let (todo, left) := match notice with
        | .executed _ _ => spend executed left
        | .transitioned _ _ _ => spend transitioned left
        | .listenerFailed _ _ _ => spend listenerFailed left
        | .destroyed _ => spend destroyed left
      ((world.write (.observed notice (id (subject notice)))).setCode code
        (.observer executed transitioned listenerFailed destroyed left)).activate { todo }
    | _ => world.activate {}
  | .future code =>
    match world.code code with
    | .future context polls asked =>
      ((world.write (.asked asked)).setCode code (.future context polls (asked + 1))).activate
        { context
          todo := polls.getD asked []
          reply := if asked + 1 < polls.length then .pending else .done }
    | _ => world.activate {}

/-- One step of the world: the engine's if it has the turn, else the innermost script's. -/
def tick (world : World) : World :=
  match world.machine.control, world.machine.stack, world.activations with
  | .called, .client callback :: _, _ => (world.drive Machine.accept).enter callback
  | .returned answer, _, current :: rest =>
    match current.awaiting, current.todo with
    | some (label, awaiting), _ =>
      let (world, outcome) := world.conclude awaiting answer
      world.endOperation label outcome
    | none, operation :: todo => world.nextOperation current rest operation todo
    | none, [] => world.endScript current.reply
  -- A panic takes the script along with the call that runs it.
  | .unwind _, .client _ :: _, _ =>
    { world with activations := world.activations.tail }.drive Machine.step |>.showTrace
  | _, _, _ => (world.drive Machine.step).showTrace

/-- Lets the world go on until the operation of the scenario has an outcome. -/
def settle : Nat → World → World
  | 0, world => world
  | fuel + 1, world => if world.activations.isEmpty then world else settle fuel world.tick

/-- Carries out an operation of the scenario, with an empty log to begin with. -/
def run (world : World) (fuel : Nat) (operation : Operation) : World :=
  settle fuel
    { world with
      log := #[]
      outcome := .nothing
      activations := [{ todo := [operation] }] }

end World

end Script

end Readiness
