import Readiness.Script.World

/-! Carrying out operations: the look-ups first, then a request or a call to the engine. -/

namespace Readiness

namespace Script

/-- How far the carrying out of an operation has come. -/
inductive Progress where
  | ended (outcome : Outcome)
  | waiting (awaiting : Awaiting)
  /-- It ends the script, with a failure if the script is a listener. -/
  | ending (reason : String)

namespace World

/-- The limit of a script that says nothing or something about it. -/
def limitOf (limit : Option Nat) : Nat :=
  limit.getD defaultLimit

/-- Calls the engine on behalf of an operation. -/
def ask (world : World) (command : Command) (awaiting : Awaiting) : World × Progress :=
  (world.drive (·.call command), .waiting awaiting)

/-- Makes the work of a plan, whose code is made along with it. -/
def planWork (world : World) (context : Context) : WorkPlan → Except Outcome (World × Work)
  | .constant => .ok (world, .constant)
  | .manual completes => .ok (world, .manual completes)
  | .callback actions limit =>
    let (world, code) := world.addCode (.callback actions (limitOf limit))
    .ok (world, .callback code)
  | .composite names => do
    let dependencies ← world.executables context "deps" names
    let ids := dependencies.map fun e => (world.engine.executable e).id
    return (world.write (.dependencies ids), .composite dependencies)
  | .script name success failures actions limit => do
    let success ← status "ready" success
    let failures ← failures.mapM (status "failed")
    let (world, code) := world.addCode (.work name actions (limitOf limit))
    return (world, .custom name success failures code)
  | .unknown name => .error (.missing .operation name)

/-- Makes the observer of a plan. -/
def planObserver (world : World) : ObserverPlan → World × Observer
  | .silent => (world, .silent)
  | .tracing => (world, .tracing)
  | .scripted executed transitioned listenerFailed destroyed limit =>
    let (world, code) := world.addCode
      (.observer executed transitioned listenerFailed destroyed (limitOf limit))
    (world, .client code)

/-- Opens a host under a name. -/
def openHost (world : World) (name : String) (settings : Settings) (plan : ObserverPlan) : World :=
  let (world, observer) := world.planObserver plan
  let (machine, h) := world.machine.openHost settings observer
  { world with machine, hosts := world.hosts.put name h }

/-- Makes a listener under a name. -/
def nameListener (world : World) (name : String) (code : Code) : World × CodeRef :=
  let (world, code) := world.addCode code
  ({ world with listeners := world.listeners.put name code }, code)

/-- Runs a host for a future, for one poll of a new session. -/
def runSession (world : World) (h : HostRef) (future : Future)
    (awaiting : SessionRef → Awaiting) : World × Progress :=
  let (machine, k) := world.machine.openSession h future
  ({ world with machine }).ask (.poll k) (awaiting k)

/-- Carries out an operation about a host or the clock. -/
def operateHost (world : World) (operation : Operation) : Except Outcome (World × Progress) := do
  let answer (outcome : Outcome) : World × Progress := (world, .ended outcome)
  let tally (host : Argument) : Except Outcome Tally :=
    return (world.engine.host (← world.host host)).tally
  match operation with
  | .openHost name settings observer =>
    let name ← need "as" name
    match settings with
    | none => return answer .invalidSettings
    | some settings => return (world.openHost name settings observer, .ended .nothing)
  | .settings host => return answer (.settings (world.engine.host (← world.host host)).settings)
  | .pump host => return world.ask (.pump (← world.host host)) .pumped
  | .pending host => return answer (.flag (world.engine.host (← world.host host)).hasDeferred)
  | .statistics host => return answer (.statistics (← tally host))
  | .counters host =>
    let tally ← tally host
    return answer (.counts [tally.executions, tally.transitions, tally.invocations, tally.failures])
  | .stay host name => return answer (.stay ((← tally host).stay (← status "status" name)))
  | .isExecuting host id =>
    return answer (.flag ((← tally host).executing.contains (← need "id" id)))
  | .roster host => return answer (.roster (world.machine.rosterIds (← world.host host)))
  | .contains host id =>
    return answer (.flag (world.machine.resolve? (← world.host host) (← need "id" id)).isSome)
  | .resolve host id slot =>
    let h ← world.host host
    let id ← need "id" id
    match world.machine.resolve? h id with
    | none => return answer (.fault (.notFound id))
    | some e =>
      let found : Outcome := .text (world.engine.executable e).inspect
      match slot with
      | none => return answer found
      | some name => return ((world.drive (·.retain e)).keep name ⟨e, false⟩, .ended found)
  | .advance elapsed => return (world.drive (·.advance elapsed), .ended .nothing)
  | other => return answer (.missing .operation other.label)

/-- Carries out an operation about an executable. -/
def operateExecutable (world : World) (context : Context) (operation : Operation) :
    Except Outcome (World × Progress) := do
  let answer (outcome : Outcome) : World × Progress := (world, .ended outcome)
  let target := world.executable context
  match operation with
  | .build slot host id plan =>
    let name ← need "as" slot
    let h ← world.host host
    let (planned, work) ← world.planWork context plan
    match planned.machine.build h id work with
    | (machine, .error fault) => return ({ planned with machine }, .ended (.fault fault))
    | (machine, .ok e) =>
      let counted := match plan with
        | .manual _ => true
        | _ => false
      let built := ({ planned with machine }).keep name ⟨e, counted⟩
      return (built, .ended (.text (machine.engine.executable e).id))
  | .buildConstant slot host =>
    let name ← need "as" slot
    return world.ask (.buildConstant (← world.host host)) (.built name)
  | .clone name slot =>
    let e ← target "exe" name
    let slot ← need "as" slot
    return ((world.drive (·.retain e)).keep slot ⟨e, false⟩, .ended .nothing)
  | .drop slot =>
    let name ← need "exe" slot
    match world.slots.get? name with
    | none => return answer (.flag false)
    | some old =>
      let dropped := { world with slots := world.slots.erase name }
      return (dropped.drive (·.release old.executable), .ended (.flag true))
  | .same left right =>
    let a ← target "a" left
    return answer (.flag (a == (← target "b" right)))
  | .view name => return answer (world.view (← world.slot context "exe" name))
  | .status name => return answer (.status (world.engine.executable (← target "exe" name)).status)
  | .execute name => return world.ask (.execute (← target "exe" name) .always) .plain
  | .executeWith name refresh =>
    let refresh ← match refresh with
      | some "always" => pure Refresh.always
      | some "if_not_ready" => pure Refresh.ifNotReady
      | other => .error (.missing .operation (other.getD ""))
    return world.ask (.execute (← target "exe" name) refresh) .plain
  | .setStatus name new =>
    let e ← target "exe" name
    return world.ask (.setStatus e (← status "status" new)) .moved
  | .synchronise name new dependencies failure =>
    let e ← target "exe" name
    let new ← status "status" new
    let dependencies ← world.executables context "deps" dependencies
    let failure ← world.anyListener "failure" failure
    return world.ask (.synchronise e new dependencies failure) .plain
  | .destroy name => return world.ask (.destroy (← target "exe" name)) .plain
  | .weak name weak =>
    let e ← target "exe" name
    let weak ← need "as" weak
    return ({ world with weaks := world.weaks.put weak e }, .ended .nothing)
  | .upgrade weak slot =>
    let e ← find .weak world.weaks (← need "weak" weak)
    if world.machine.isAlive e then
      match slot with
      | none => return answer (.flag true)
      | some name => return ((world.drive (·.retain e)).keep name ⟨e, false⟩, .ended (.flag true))
    else return answer (.flag false)
  | other => world.operateHost other

/-- Carries out an operation about listeners. -/
def operateListener (world : World) (context : Context) (operation : Operation) :
    Except Outcome (World × Progress) := do
  let answer (outcome : Outcome) : World × Progress := (world, .ended outcome)
  let target := world.executable context
  match operation with
  | .listener name actions limit =>
    let name ← need "as" name
    let (world, _) := world.nameListener name (.listener name actions (limitOf limit))
    return (world, .ended .nothing)
  | .recorder name =>
    let name ← need "as" name
    let (world, code) := world.nameListener name (.recorder [])
    return ({ world with recorders := world.recorders.put name code }, .ended .nothing)
  | .seen name =>
    match world.code (← find .listener world.recorders (← need "listener" name)) with
    | .recorder seen => return answer (.statuses seen)
    | _ => return answer .nothing
  | .sameListener left right =>
    let a ← world.listener "a" left
    return answer (.flag (a == (← world.listener "b" right)))
  | .subscribe name listener status once =>
    let e ← target "exe" name
    let listener ← world.listener "listener" listener
    let status ← anyStatus status
    return (world.drive (·.subscribe e listener status once), .ended .nothing)
  | .unsubscribe name listener status =>
    let e ← target "exe" name
    let listener ← world.listener "listener" listener
    let status ← anyStatus status
    let (machine, removed) := world.machine.unsubscribe e listener status
    return ({ world with machine }, .ended (.flag removed))
  | .onStatus name status listener actions limit =>
    let e ← target "exe" name
    let status ← anyStatus status
    let listener ← need "as" listener
    let (world, code) := world.nameListener listener (.listener listener actions (limitOf limit))
    return (world.drive (·.subscribe e (.client code) status false), .ended .nothing)
  | .onReady name success failure once onlyFuture execute =>
    let e ← target "exe" name
    let success ← world.listener "success" success
    let failure ← world.anyListener "failure" failure
    return world.ask (.onReady e { success, failure, once, onlyFuture, execute }) .plain
  | .onceReady name success failure execute =>
    let e ← target "exe" name
    let success ← world.listener "success" success
    let failure ← world.anyListener "failure" failure
    return world.ask (.onReady e { success, failure, once := true, execute }) .plain
  | .event name new previous =>
    let e ← target "exe" name
    let new ← status "status" new
    let previous ← status "prev" previous
    match world.machine.event e new previous with
    | .error fault => return answer (.fault fault)
    | .ok event =>
      return answer (.event event (world.engine.inspectEvent event) (world.engine.executable e).id)
  | .invoke name listener new previous =>
    let e ← target "exe" name
    let listener ← world.listener "listener" listener
    let new ← status "status" new
    let previous ← status "prev" previous
    match world.machine.event e new previous with
    | .error fault => return answer (.fault fault)
    | .ok event => return world.ask (.invoke listener event) .replied
  | other => world.operateExecutable context other

/-- Carries out an operation about waits, reports or the script itself. -/
def operate (world : World) (context : Context) (operation : Operation) :
    Except Outcome (World × Progress) := do
  let answer (outcome : Outcome) : World × Progress := (world, .ended outcome)
  match operation with
  | .wait name wait =>
    let e ← world.executable context "exe" name
    let wait ← need "as" wait
    let (machine, w) := world.machine.beginWait e
    return ({ world with
      machine
      waits := world.waits.put wait world.cells.length
      cells := world.cells ++ [⟨w, .idle⟩] }, .ended .nothing)
  | .poll wait =>
    let name ← need "wait" wait
    let (cell, known) ← world.waitCell name
    match known.state with
    | .busy => return answer (.missing .idleWait name)
    | .ended settlement => return answer (world.settled known.wait settlement)
    | .idle =>
      match world.machine.settlement? known.wait with
      | none => return answer .pending
      | some settlement =>
        return (world.setWait cell (.ended settlement),
          .ended (world.settled known.wait settlement))
  | .runUntil wait host =>
    let name ← need "wait" wait
    let h ← world.host host
    let (cell, known) ← world.waitCell name
    match known.state with
    | .busy => return answer (.missing .idleWait name)
    | .ended settlement => return answer (world.settled known.wait settlement)
    | .idle =>
      return (world.setWait cell .busy).runSession h (.wait known.wait) (.waited name cell)
  | .dropWait name =>
    let name ← need "wait" name
    return ({ world with waits := world.waits.erase name },
      .ended (.flag (world.waits.get? name).isSome))
  | .runUntilScript polls host =>
    let h ← world.host host
    let (world, code) := world.addCode (.future context polls 0)
    return world.runSession h (.client code) (.asked code)
  | .keep name =>
    let e ← world.completion context none
    let name ← need "as" name
    return ({ world with completions := world.completions.put name e }, .ended .nothing)
  | .complete completion =>
    return world.ask (.report (← world.completion context completion) .ready) .plain
  | .fail completion reason =>
    let e ← world.completion context completion
    return world.ask (.fail e (← need "reason" reason)) .plain
  | .report completion new =>
    let e ← world.completion context completion
    return world.ask (.report e (← status "status" new)) .plain
  | .completionId completion =>
    let e ← world.completion context completion
    if world.machine.isAlive e then return answer (.text (world.engine.executable e).id)
    else return answer .nothing
  | .log message => return (world.write (.message message), .ended .nothing)
  | .panic payload => return (world.drive (·.panic payload), .waiting .plain)
  | .returnError reason => return (world, .ending reason)
  | other => world.operateListener context other

end World

end Script

end Readiness
