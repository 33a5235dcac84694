import Mathlib.Logic.Function.Basic
import Readiness.Proofs.Engine.Sound

/-! The record of the store: what listeners wait for, how waits have ended and who counts as
executing.

It leaves out batches, calls and sessions, so that few steps show in it.
-/

namespace Readiness

open Function

variable {e : ExecutableRef}

/-- A transition, as opposed to everything else that happens. -/
def Occurrence.isMove : Occurrence → Bool
  | .transitioned _ _ _ => true
  | _ => false

/-- What listeners wait for, how waits have ended and who counts as executing. -/
@[ext] structure Record where
  /-- The id of each executable. -/
  id : ExecutableRef → String
  /-- The current statuses. -/
  status : ExecutableRef → Status
  /-- Who has been destroyed. -/
  destroyed : ExecutableRef → Bool
  /-- The entries of each executable. -/
  subscriptions : ExecutableRef → Subscriptions
  /-- The waits so far. -/
  waits : List Wait
  /-- The ids that count as executing with each host. -/
  executing : HostRef → List String
  /-- The transitions so far. -/
  moves : List Occurrence

/-- The executing ids of the host after a transition to a status. -/
def Executable.mark (executable : Executable) (status : Status) (executing : List String) :
    List String :=
  if status = executable.readyStatus then executing.filter (· != executable.id)
  else if status = .initialized then executing
  else executing.insert executable.id

/-- The listeners of a request for readiness, each with the status that it is registered for. -/
def Executable.links (target : Executable) (request : ReadyRequest) : List (Listener × Status) :=
  (request.success, target.readyStatus) ::
    request.failure.toList.flatMap fun listener =>
      target.failedStatuses.map fun status => (listener, status)

/-- The entries after a request for readiness. -/
def Executable.requested (target : Executable) (request : ReadyRequest) : Subscriptions :=
  if !request.once then
    (target.links request).foldl (fun grown link => grown.add link.1 (some link.2) false)
      target.subscriptions
  else if target.isReady && !request.onlyFuture then target.subscriptions
  else target.subscriptions.addGroup (target.links request)

namespace Engine

variable {occurrence : Occurrence} {change : Executable → Executable}

/-- What the store shows of it. -/
def record (engine : Engine) : Record where
  id := fun e => (engine.executable e).id
  status := fun e => (engine.executable e).status
  destroyed := fun e => (engine.executable e).destroyed
  subscriptions := fun e => (engine.executable e).subscriptions
  waits := engine.waits
  executing := fun h => (engine.host h).tally.executing
  moves := engine.journal.toList.filter Occurrence.isMove

section

variable (engine : Engine)

/-- What is no transition is not recorded. -/
theorem record_note (minor : occurrence.isMove = false) :
    (engine.note occurrence).record = engine.record := by
  refine Record.ext rfl rfl rfl rfl rfl rfl ?_
  simp [record, note, minor]

/-- A transition is recorded. -/
theorem record_note_move (move : occurrence.isMove = true) :
    (engine.note occurrence).record =
      { engine.record with moves := engine.record.moves ++ [occurrence] } := by
  refine Record.ext rfl rfl rfl rfl rfl rfl ?_
  simp [record, note, move]

/-- A host may change in all but who is executing. -/
theorem record_modifyHost_of_same (h : HostRef) {change : Host → Host}
    (same : (change (engine.host h)).tally.executing = (engine.host h).tally.executing) :
    (engine.modifyHost h change).record = engine.record :=
  Record.ext rfl rfl rfl rfl rfl (funext (read_modifyHost_of_same (·.tally.executing) same)) rfl

/-- A change of the counts shows in who is executing. -/
theorem record_modifyTally {h : HostRef} (opened : h < engine.hosts.length)
    (change : Tally → Tally) : (engine.modifyTally h change).record =
      { engine.record with
        executing := Function.update engine.record.executing h
          (change (engine.host h).tally).executing } :=
  Record.ext rfl rfl rfl rfl rfl (read_modifyHost (·.tally.executing) opened _) rfl

/-- Any change of an executable but of its id shows in its row. -/
theorem record_modifyExecutable (built : e < engine.executables.length)
    (named : (change (engine.executable e)).id = (engine.executable e).id) :
    (engine.modifyExecutable e change).record =
      { engine.record with
        status := Function.update engine.record.status e (change (engine.executable e)).status
        destroyed := Function.update engine.record.destroyed e
          (change (engine.executable e)).destroyed
        subscriptions := Function.update engine.record.subscriptions e
          (change (engine.executable e)).subscriptions } := by
  refine Record.ext ((read_modifyExecutable (·.id) built change).trans ?_)
    (read_modifyExecutable (·.status) built change)
    (read_modifyExecutable (·.destroyed) built change)
    (read_modifyExecutable (·.subscriptions) built change) rfl rfl rfl
  rw [named]
  exact update_eq_self e engine.record.id

/-- An executable may change in what is not recorded. -/
theorem record_modifyExecutable_of_same (e : ExecutableRef)
    (named : (change (engine.executable e)).id = (engine.executable e).id)
    (status : (change (engine.executable e)).status = (engine.executable e).status)
    (destroyed : (change (engine.executable e)).destroyed = (engine.executable e).destroyed)
    (entries : (change (engine.executable e)).subscriptions =
      (engine.executable e).subscriptions) :
    (engine.modifyExecutable e change).record = engine.record :=
  Record.ext (funext (read_modifyExecutable_of_same _ named))
    (funext (read_modifyExecutable_of_same _ status))
    (funext (read_modifyExecutable_of_same _ destroyed))
    (funext (read_modifyExecutable_of_same _ entries)) rfl rfl rfl

/-- A change of the listeners shows. -/
theorem record_modifySubscriptions (built : e < engine.executables.length)
    (change : Subscriptions → Subscriptions) :
    (engine.modifySubscriptions e change).record =
      { engine.record with
        subscriptions := Function.update engine.record.subscriptions e
          (change (engine.record.subscriptions e)) } := by
  refine (engine.record_modifyExecutable built (by rfl)).trans ?_
  exact Record.ext rfl (update_eq_self e engine.record.status)
    (update_eq_self e engine.record.destroyed) rfl rfl rfl rfl

/-- Of a new executable only the id shows. -/
theorem record_addExecutable {added : Executable} (status : added.status = .null)
    (destroyed : added.destroyed = false) (entries : added.subscriptions = {}) :
    (engine.addExecutable added).record =
      { engine.record with
        id := Function.update engine.record.id engine.executables.length added.id } :=
  Record.ext (read_addExecutable (·.id) engine added)
    (funext (read_addExecutable_of_same _ status))
    (funext (read_addExecutable_of_same _ destroyed))
    (funext (read_addExecutable_of_same _ entries)) rfl rfl rfl

/-- A new executable gets the next temporary id of its host. -/
theorem record_addTemporary (h : HostRef) (work : Work) (handles : Nat) :
    (engine.addTemporary h work handles).record =
      { engine.record with
        id := Function.update engine.record.id engine.executables.length
          ((engine.host h).temporaryId (engine.host h).nextTemporary) } := by
  have numbered : (engine.modifyHost h
      ({ · with nextTemporary := (engine.host h).nextTemporary + 1 })).record = engine.record :=
    engine.record_modifyHost_of_same h rfl
  unfold addTemporary
  simp only
  rw [record_addExecutable _ rfl rfl rfl, numbered]
  rfl

/-- A new host does not show. -/
theorem record_addHost (settings : Settings) (observer : Observer) :
    (engine.addHost settings observer).record = engine.record :=
  Record.ext rfl rfl rfl rfl rfl (funext (read_addHost_of_same (·.tally.executing) rfl)) rfl

/-- A transition shows in the status, the listeners, the host and the moves. -/
theorem record_transition (built : e < engine.executables.length)
    (opened : (engine.executable e).host < engine.hosts.length) (status : Status) :
    (engine.transition e status).record =
      { engine.record with
        status := Function.update engine.record.status e status
        subscriptions := Function.update engine.record.subscriptions e
          ((engine.record.subscriptions e).settle status)
        executing := Function.update engine.record.executing (engine.executable e).host
          ((engine.executable e).mark status
            (engine.record.executing (engine.executable e).host))
        moves := engine.record.moves ++ [.transitioned e (engine.record.status e) status] } := by
  unfold transition
  simp only
  rw [record_modifyTally _ (by exact opened), record_note_move _ rfl,
    record_modifyExecutable _ built (by rfl)]
  refine Record.ext rfl rfl (update_eq_self e engine.record.destroyed) rfl rfl ?_ rfl
  refine congrArg (Function.update engine.record.executing (engine.executable e).host) ?_
  unfold Executable.mark
  split
  · rfl
  · split <;> rfl

/-- Destruction shows, and takes the listeners. -/
theorem record_destroy (built : e < engine.executables.length)
    (opened : (engine.executable e).host < engine.hosts.length) :
    (engine.destroy e).record =
      { engine.record with
        destroyed := Function.update engine.record.destroyed e true
        subscriptions := Function.update engine.record.subscriptions e
          (engine.record.subscriptions e).clear
        executing := Function.update engine.record.executing (engine.executable e).host
          ((engine.record.executing (engine.executable e).host).filter
            (· != (engine.executable e).id)) } := by
  have marked : (engine.modifyExecutable e Executable.destroy).record =
      { engine.record with
        destroyed := Function.update engine.record.destroyed e true
        subscriptions := Function.update engine.record.subscriptions e
          (engine.record.subscriptions e).clear } := by
    rw [record_modifyExecutable _ built (by rfl)]
    exact Record.ext rfl (update_eq_self e engine.record.status) rfl rfl rfl rfl rfl
  unfold destroy
  simp only
  generalize struck : (if ((engine.executable e).registered &&
    (engine.host (engine.executable e).host).roster.any
      (·.1 == (engine.executable e).id)) = true then _ else _) = after
  -- The roster may lose the id as well, which does not show.
  have kept : after.record = (engine.modifyExecutable e Executable.destroy).record ∧
      after.hosts.length = engine.hosts.length := by
    subst struck
    split
    · exact ⟨(record_note _ rfl).trans (record_modifyHost_of_same _ _ rfl),
        by simp [note, modifyHost, modifyExecutable]⟩
    · exact ⟨rfl, rfl⟩
  have counted : (after.host (engine.executable e).host).tally.executing =
      engine.record.executing (engine.executable e).host :=
    congrFun (congrArg Record.executing (kept.1.trans marked)) _
  rw [record_modifyTally _ (kept.2 ▸ opened), kept.1, marked]
  simp only [Tally.endExecuting, counted]

end

end Engine

end Readiness
