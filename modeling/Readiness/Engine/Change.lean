import Readiness.Engine.Store

/-! The changes that the engine makes to its store, each of them without calling anyone. -/

namespace Readiness

namespace Engine

/-- Adds a host. -/
def addHost (engine : Engine) (settings : Settings) (observer : Observer) : Engine :=
  { engine with hosts := engine.hosts ++ [{ settings, observer }] }

/-- Adds an executable. -/
def addExecutable (engine : Engine) (executable : Executable) : Engine :=
  { engine with executables := engine.executables ++ [executable] }

/-- Adds an unregistered executable under a temporary id, which is thereby used up. -/
def addTemporary (engine : Engine) (h : HostRef) (work : Work) (handles : Nat) : Engine :=
  let host := engine.host h
  (engine.modifyHost h ({ · with nextTemporary := host.nextTemporary + 1 })).addExecutable
    { id := host.temporaryId host.nextTemporary, registered := false, host := h, work, handles }

/-- Adds a gate. -/
def addGate (engine : Engine) (gate : Gate) : Engine :=
  { engine with gates := engine.gates ++ [gate] }

/-- Adds a wait. -/
def addWait (engine : Engine) (wait : Wait) : Engine :=
  { engine with waits := engine.waits ++ [wait] }

/-- Adds a session, which is yet to be polled. -/
def addSession (engine : Engine) (h : HostRef) (future : Future) : Engine :=
  { engine with sessions := engine.sessions ++ [{ host := h, future }] }

/-- Hands out one more handle to an executable. -/
def retain (engine : Engine) (e : ExecutableRef) : Engine :=
  engine.modifyExecutable e fun held => { held with handles := held.handles + 1 }

/-- Takes one handle to an executable back. -/
def release (engine : Engine) (e : ExecutableRef) : Engine :=
  engine.modifyExecutable e fun held => { held with handles := held.handles - 1 }

/-- Changes the entries of an executable. -/
def modifySubscriptions (engine : Engine) (e : ExecutableRef)
    (change : Subscriptions → Subscriptions) : Engine :=
  engine.modifyExecutable e fun listening =>
    { listening with subscriptions := change listening.subscriptions }

/-- Wakes the session that has been parked longest, or stores the wakeup if there is none. -/
def wake (engine : Engine) (h : HostRef) : Engine :=
  match (engine.host h).waiters with
  | k :: rest =>
    (engine.modifyHost h ({ · with waiters := rest })).modifySession k ({ · with phase := .woken })
  | [] => engine.modifyHost h ({ · with permit := true })

/-- A new batch, whose serial number no other batch has. -/
def batch (engine : Engine) (event : Event) (deliveries : List Delivery) : Batch :=
  ⟨engine.nextBatch, event, deliveries⟩

/-- Counts the serial number of the next batch as used. -/
def spendBatch (engine : Engine) : Engine :=
  { engine with nextBatch := engine.nextBatch + 1 }

/-- Puts a batch at the end of the dispatch queue. -/
def enqueue (engine : Engine) (h : HostRef) (batch : Batch) : Engine :=
  (engine.modifyHost h fun host => { host with queue := host.queue ++ [batch] }).note
    (.queued h batch.serial)

/-- Puts a batch off to a later turn, and wakes a session to take that turn. -/
def defer (engine : Engine) (h : HostRef) (batch : Batch) : Engine :=
  ((engine.modifyHost h fun host => { host with deferred := host.deferred ++ [batch] }).note
    (.deferred h batch.serial)).wake h

/-- Moves an executable to another status: the record, the journal and the tally, in that order. -/
def transition (engine : Engine) (e : ExecutableRef) (status : Status) : Engine :=
  let mover := engine.executable e
  let now := if (engine.host mover.host).settings.timed then some engine.clock else none
  let elapsed := now.bind fun time => mover.since.map (time - ·)
  ((engine.modifyExecutable e (·.moveTo status now)).note
      (.transitioned e mover.status status)).modifyTally mover.host fun tally =>
    let counted := tally.countTransition mover.status status elapsed
    -- An executable counts as executing from its first status after initialization until ready.
    if status = mover.readyStatus then counted.endExecuting mover.id
    else if status = .initialized then counted
    else counted.beginExecuting mover.id

/-- Registers the listeners of a request for readiness; if the executable is ready already, the
success listener is called on a later turn as well. -/
def listenReady (engine : Engine) (e : ExecutableRef) (request : ReadyRequest) : Engine :=
  let target := engine.executable e
  let immediate := target.isReady && !request.onlyFuture
  let failures := request.failure.toList.flatMap fun listener =>
    target.failedStatuses.map fun status => (listener, status)
  let links := (request.success, target.readyStatus) :: failures
  let told :=
    if immediate then
      engine.spendBatch.defer target.host
        (engine.batch ⟨e, target.readyStatus, target.readyStatus⟩ [⟨request.success, none⟩])
    else engine
  told.modifySubscriptions e fun subscriptions =>
    if !request.once then
      links.foldl (fun grown link => grown.add link.1 (some link.2) false) subscriptions
    -- The immediate call settles a request for one call, so nothing is left to register.
    else if immediate then subscriptions
    else subscriptions.addGroup links

/-- Reports how a wait ended, unless that was reported before. -/
def settleWait (engine : Engine) (w : WaitRef) (settlement : Settlement) : Engine :=
  { engine with
    waits := engine.waits.modify w fun wait =>
      { wait with report := wait.report.or (some settlement) } }

/-- Marks an executable destroyed, and removes it from the roster and from those executing. -/
def destroy (engine : Engine) (e : ExecutableRef) : Engine :=
  let target := engine.executable e
  let marked := engine.modifyExecutable e Executable.destroy
  let struck :=
    if target.registered && (engine.host target.host).roster.any (·.1 == target.id) then
      (marked.modifyHost target.host (·.strike target.id)).note (.deregistered e)
    else marked
  struck.modifyTally target.host (·.endExecuting target.id)

/-- Takes a session off its host's list of parked ones and ends it; a wakeup it has not used goes
to the next session. -/
def endSession (engine : Engine) (k : SessionRef) : Engine :=
  let session := engine.session k
  let closed := engine.modifySession k ({ · with phase := .finished })
  match session.phase with
  | .parked => closed.modifyHost session.host fun host =>
    { host with waiters := host.waiters.filter (· != k) }
  | .woken => closed.wake session.host
  | _ => closed

end Engine

end Readiness
