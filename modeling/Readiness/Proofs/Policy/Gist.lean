import Readiness.Proofs.Machine.Carried
import Readiness.Proofs.Tally.Calls

/-! The gist of a machine: what becomes of executables and hosts, apart from when and in which order
listeners are called.

It leaves out the policies of the hosts, the batches that wait with them, the calls that have to do
with delivery and polling, and what is counted and noted of them. How the gist goes on can be told
from the gist alone, whatever the policies are.
-/

namespace Readiness

/-- A host without its policy and without all that has to do with delivery and polling. -/
def Host.still (host : Host) : Host :=
  { host with
    settings := { host.settings with dispatch := default }
    tally := { host.tally with invocations := 0, failures := 0 }
    queue := []
    draining := false
    deferred := []
    permit := false
    waiters := [] }

/-- An occurrence that does not have to do with the calls of listeners. -/
def Occurrence.isDeed : Occurrence → Bool
  | .observed _ (.listenerFailed _ _ _) | .queued _ _ | .deferred _ _ | .opened _ _
  | .invoked _ _ _ | .returned _ _ _ _ => false
  | _ => true

/-- The store without policies, batches and sessions, and without how waits ended. -/
def Engine.still (engine : Engine) : Engine :=
  { engine with
    hosts := engine.hosts.map Host.still
    waits := engine.waits.map ({ · with report := none })
    sessions := []
    journal := engine.journal.filter Occurrence.isDeed }

/-- A call that is part of what executables do: all calls but those of listeners and futures, and
those that deliver or poll. -/
def Frame.isDeed : Frame → Bool
  | .client (.work _ _) | .client (.completion _ _) | .begin _ _ | .moves _ _ | .callBack _ _
  | .gather _ | .inspect _ | .arm _ _ _ _ | .examine _ _ _ _ _ | .announce _ _ _ | .conclude _ _
  | .relay _ | .farewell _ | .hand _ => true
  | .client (.listener _ _) | .client (.observer _ _) | .client (.future _) | .hold _ | .drain _
  | .deliver _ | .guard _ _ _ | .pump _ _ | .pumped _ | .asked _ => false

/-- A command that is part of what executables do. -/
def Command.isDeed : Command → Bool
  | .invoke _ _ | .pump _ | .poll _ => false
  | _ => true

/-- The call of a listener. -/
def Frame.isGuard : Frame → Bool
  | .guard _ _ _ => true
  | _ => false

/-- What the calls of a batch tell. -/
def Batch.news (batch : Batch) : Multiset (Event × Delivery) :=
  batch.deliveries.map (Prod.mk batch.event)

/-- What the entries that are due on a transition are to be told. -/
def Transition.news (transition : Transition) (e : ExecutableRef) (entries : List Entry) :
    Multiset (Event × Delivery) :=
  entries.map fun entry => (transition.event e, entry.delivery)

/-- What a call is going to tell listeners. -/
def Frame.news : Frame → Multiset (Event × Delivery)
  | .announce e transition entries => transition.news e entries
  | .deliver batch => batch.news
  | _ => 0

/-- What the batches that wait with a host are to tell. -/
def Host.news (host : Host) : Multiset (Event × Delivery) :=
  ((host.queue ++ host.deferred).map Batch.news).sum

/-- What listeners have been told, and what the batches that wait are to tell. -/
def Engine.news (engine : Engine) : Multiset (Event × Delivery) :=
  engine.told + (engine.hosts.map Host.news).sum

/-- What becomes of executables and hosts, apart from when listeners are called. -/
@[ext] structure Gist where
  /-- The store without all that has to do with delivery. -/
  store : Engine := {}
  /-- What listeners have been told or are going to be told. -/
  news : Multiset (Event × Delivery) := 0
  /-- The calls that are part of what executables do, innermost first. -/
  duties : List Frame := []
  /-- What an executable is about to do. -/
  errand : Option Command := none

/-- The part of the gist that the store shows. -/
def Engine.gist (engine : Engine) : Gist where
  store := engine.still
  news := engine.news

/-- The command that is being begun, if it is part of what executables do. -/
def Control.deed? : Control → Option Command
  | .perform command => if command.isDeed then some command else none
  | _ => none

namespace Machine

/-- A panic that no listener's guard is going to catch. -/
def falls (machine : Machine) : Bool :=
  match machine.control with
  | .unwind _ => !machine.stack.any Frame.isGuard
  | _ => false

/-- What becomes of executables and hosts, apart from when listeners are called. -/
def gist (machine : Machine) : Gist :=
  { machine.engine.gist with
    news := machine.engine.gist.news + (machine.stack.map Frame.news).sum
    -- A panic that nobody catches ends all calls.
    duties := if machine.falls then [] else machine.stack.filter Frame.isDeed
    errand := machine.control.deed? }

end Machine

namespace Gist

/-- The next step is the client's. -/
def isIdle (gist : Gist) : Bool :=
  gist.errand.isNone && gist.duties.head?.all Frame.isClient

/-- What an executable has to be told at once if it is ready already. -/
def grants (executable : Executable) (e : ExecutableRef) (request : ReadyRequest) :
    Multiset (Event × Delivery) :=
  if executable.isReady && !request.onlyFuture then
    {(⟨e, executable.readyStatus, executable.readyStatus⟩, ⟨request.success, none⟩)}
  else 0

/-- Begins the work of an executable. -/
def startWork (gist : Gist) (e : ExecutableRef) : Gist :=
  match (gist.store.executable e).work with
  | .constant => { gist with duties := .moves e [.ready] :: gist.duties }
  | .manual completes =>
    { gist with
      duties := .moves e (if completes then [.processing, .ready] else []) :: gist.duties }
  | .callback code =>
    { gist with
      duties := .callBack e code :: gist.duties
      errand := some (.setStatus e .processing) }
  | .composite _ =>
    { gist with
      duties := .gather e :: gist.duties
      errand := some (.setStatus e .waiting) }
  | .custom _ _ _ code =>
    { gist with duties := .client (.work code e) :: .moves e [] :: gist.duties }

/-- Begins a command, whoever observes. -/
def start (gist : Gist) : Command → Gist
  | .execute e refresh =>
    let target := gist.store.executable e
    if refresh = .ifNotReady && target.isReady then { gist with errand := none }
    else
      { gist with
        store := ((gist.store.modifyExecutable e (·.begin gist.store.clock)).modifyTally target.host
          Tally.countExecution).note (.observed target.host (.executed e target.status))
        duties := .begin e target.status :: gist.duties
        errand := none }
  | .setStatus e status =>
    let mover := gist.store.executable e
    let transition : Transition := ⟨mover.status, status⟩
    if mover.moves status then
      { store := (gist.store.transition e status).note
          (.observed mover.host (.transitioned e mover.status status))
        news := gist.news + transition.news e (mover.subscriptions.due status)
        duties := .announce e transition (mover.subscriptions.due status) :: gist.duties
        errand := none }
    else { gist with errand := none }
  | .report e status =>
    if e < gist.store.executables.length then
      { gist with duties := .moves e [status] :: gist.duties, errand := none }
    else { gist with errand := none }
  | .fail e reason =>
    if e < gist.store.executables.length then
      { gist with
        store := gist.store.note (.workFailed e reason)
        duties := .moves e [.failed] :: gist.duties
        errand := none }
    else { gist with errand := none }
  | .onReady e request =>
    let target := gist.store.executable e
    { gist with
      store := (gist.store.listenReady e request).still
      news := gist.news + grants target e request
      errand := if request.execute && !target.isReady then some (.execute e .ifNotReady) else none }
  | .buildConstant h =>
    let e := gist.store.executables.length
    { gist with
      store := gist.store.addTemporary h .constant 0
      duties := .moves e [.initialized, .ready] :: .hand e :: gist.duties
      errand := none }
  -- Nobody synchronises or is destroyed, and the other commands are not deeds.
  | .synchronise _ _ _ _ | .destroy _ | .invoke _ _ | .pump _ | .poll _ => gist

/-- Goes on with a call, which has been taken off the duties. -/
def receive (gist : Gist) : Frame → Gist
  | .begin e status =>
    startWork { gist with
      store := (gist.store.note (.started e status)).modifyExecutable e
        fun working => { working with runs := working.runs + 1 } } e
  | .moves e (status :: others) =>
    { gist with duties := .moves e others :: gist.duties, errand := some (.setStatus e status) }
  | .callBack e code =>
    { gist with duties := .client (.completion code e) :: .moves e [] :: gist.duties }
  | .announce e transition entries =>
    { gist with
      store := if entries.isEmpty then gist.store else gist.store.spendBatch
      duties := .conclude e transition :: gist.duties }
  | .hand e => { gist with store := gist.store.retain e }
  | _ => gist

/-- One step of what executables do. -/
def turn (gist : Gist) : Gist :=
  match gist.errand, gist.duties with
  | some command, _ => gist.start command
  | none, frame :: rest => receive { gist with duties := rest } frame
  | none, [] => gist

/-- What the client does to executables and hosts. -/
def act (gist : Gist) : Machine.Move → Gist
  | .openHost settings observer =>
    { gist with store := gist.store.addHost { settings with dispatch := default } observer }
  | .advance elapsed =>
    { gist with store := { gist.store with clock := gist.store.clock + elapsed } }
  | .build h work => { gist with store := gist.store.addTemporary h work 1 }
  | .register h id work => { gist with store := gist.store.addRegistered h id work }
  | .retain e => { gist with store := gist.store.retain e }
  | .subscribe e code status once =>
    { gist with store := gist.store.modifySubscriptions e (·.add (.client code) status once) }
  | .unsubscribe e code status =>
    { gist with store := gist.store.modifySubscriptions e (·.remove (.client code) status) }
  | .beginWait e =>
    let target := gist.store.executable e
    let w := gist.store.waits.length
    let request : ReadyRequest :=
      { success := .waitReady w, failure := some (.waitFailed w), once := true }
    if target.hasFailed then { gist with store := gist.store.addWait ⟨e, none⟩ }
    else
      { gist with
        store := ((gist.store.addWait ⟨e, none⟩).listenReady e request).still
        news := gist.news + grants target e request }
  | .call command => { gist with errand := some command }
  | .finish _ => { gist with duties := gist.duties.tail }
  | .panic _ => { gist with duties := [] }
  -- Handles are not given up, and the other moves do not have to do with executables.
  | .release _ | .accept | .openSession _ _ | .closeSession _ => gist

end Gist

end Readiness
