import Mathlib.Logic.Function.Basic
import Readiness.Proofs.Engine.Sound

/-! The lobby: the sessions, who of them is being polled, and what the hosts keep to wake them up.

It leaves out executables and their delivery, but for the batches that are put off to a later turn.
Most changes to the store do not show then, and the others are those that parking and waking is
about.
-/

namespace Readiness

/-- What a host keeps for its sessions: deferred batches, a stored wakeup and the parked ones. -/
def Host.desk (host : Host) : Host :=
  { deferred := host.deferred, permit := host.permit, waiters := host.waiters }

/-- How far a poll has come. -/
inductive PollStage where
  | begun
  | delivering
  | asking
  deriving DecidableEq

/-- A poll that has not returned. -/
structure Poll where
  /-- The session that is polled. -/
  session : SessionRef
  /-- How far it has come. -/
  stage : PollStage
  deriving DecidableEq

/-- The sessions, and what the hosts keep for them. -/
@[ext] structure Lobby where
  /-- How many hosts are open. -/
  hosts : Nat
  /-- What each host keeps for its sessions. -/
  desk : HostRef → Host
  /-- The sessions in the order of opening. -/
  sessions : List Session
  /-- The polls that have not returned, innermost first. -/
  polls : List Poll

namespace Lobby

/-- The session that a reference names. -/
def session (lobby : Lobby) (k : SessionRef) : Session :=
  lobby.sessions.getD k default

/-- Changes one session. -/
def modify (lobby : Lobby) (k : SessionRef) (change : Session → Session) : Lobby :=
  { lobby with sessions := lobby.sessions.modify k change }

/-- Changes what one host keeps. -/
def place (lobby : Lobby) (h : HostRef) (kept : Host) : Lobby :=
  { lobby with desk := Function.update lobby.desk h kept }

/-- Wakes the session that has been parked longest, or stores the wakeup if there is none. -/
def wake (lobby : Lobby) (h : HostRef) : Lobby :=
  match (lobby.desk h).waiters with
  | k :: rest =>
    (lobby.place h { lobby.desk h with waiters := rest }).modify k ({ · with phase := .woken })
  | [] => lobby.place h { lobby.desk h with permit := true }

/-- Puts a batch off to a later turn, and wakes a session to take that turn. -/
def defer (lobby : Lobby) (h : HostRef) (batch : Batch) : Lobby :=
  (lobby.place h { lobby.desk h with deferred := (lobby.desk h).deferred ++ [batch] }).wake h

/-- Ends a session; a wakeup it has not used goes to the next one. -/
def close (lobby : Lobby) (k : SessionRef) : Lobby :=
  let h := (lobby.session k).host
  let closed := lobby.modify k ({ · with phase := .finished })
  match (lobby.session k).phase with
  | .parked =>
    closed.place h { lobby.desk h with waiters := (lobby.desk h).waiters.filter (· != k) }
  | .woken => closed.wake h
  | _ => closed

/-- Nothing shows, or a batch is put off at an open host. -/
def Receives (before after : Lobby) : Prop :=
  after = before ∨ ∃ h batch, h < before.hosts ∧ after = before.defer h batch

/-- A change to a session shows where it was made, if there is anything to change. -/
theorem session_modify (lobby : Lobby) (k other : SessionRef) (change : Session → Session) :
    (lobby.modify k change).session other =
      if k = other ∧ k < lobby.sessions.length then change (lobby.session k)
      else lobby.session other := by
  -- The list changes at one place only, and not at all beyond its end.
  by_cases same : k = other
  · subst same
    by_cases opened : k < lobby.sessions.length
    · simp [modify, session, List.getD_eq_getElem?_getD, opened]
    · simp [modify, session, List.getD_eq_getElem?_getD, opened]
  · simp [modify, session, List.getD_eq_getElem?_getD, same]

end Lobby

namespace Engine

/-- What the store shows of the lobby while these polls are going on. -/
def lobby (engine : Engine) (polls : List Poll) : Lobby where
  hosts := engine.hosts.length
  desk := fun h => (engine.host h).desk
  sessions := engine.sessions
  polls := polls

variable (engine : Engine) (polls : List Poll)

/-- Sessions show as they are. -/
@[simp] theorem session_lobby (k : SessionRef) :
    (engine.lobby polls).session k = engine.session k :=
  rfl

/-- A host may change outside its desk. -/
theorem lobby_modifyHost_of_same (h : HostRef) {change : Host → Host}
    (same : (change (engine.host h)).desk = (engine.host h).desk) :
    (engine.modifyHost h change).lobby polls = engine.lobby polls :=
  Lobby.ext (by simp [lobby, modifyHost]) (funext (read_modifyHost_of_same Host.desk same)) rfl rfl

/-- A change of a host shows at its desk. -/
theorem lobby_modifyHost {h : HostRef} (opened : h < engine.hosts.length)
    (change : Host → Host) : (engine.modifyHost h change).lobby polls =
      (engine.lobby polls).place h (change (engine.host h)).desk :=
  Lobby.ext (by simp [lobby, modifyHost, Lobby.place]) (read_modifyHost Host.desk opened change)
    rfl rfl

/-- A new host shows. -/
theorem lobby_addHost (settings : Settings) (observer : Observer) :
    (engine.addHost settings observer).lobby polls =
      { engine.lobby polls with hosts := engine.hosts.length + 1 } :=
  Lobby.ext (by simp [lobby, addHost]) (funext (read_addHost_of_same Host.desk rfl)) rfl rfl

/-- Waking shows. -/
theorem lobby_wake {h : HostRef} (opened : h < engine.hosts.length) :
    (engine.wake h).lobby polls = (engine.lobby polls).wake h := by
  -- Both look at the same list of parked sessions.
  have list : ((engine.lobby polls).desk h).waiters = (engine.host h).waiters := rfl
  unfold wake Lobby.wake
  rw [list]
  cases (engine.host h).waiters with
  | nil => exact lobby_modifyHost _ _ opened _
  | cons k rest =>
    exact congrArg (fun placed : Lobby => placed.modify k ({ · with phase := .woken }))
      (lobby_modifyHost _ _ opened _)

/-- A batch that is put off shows. -/
theorem lobby_defer {h : HostRef} (opened : h < engine.hosts.length) (batch : Batch) :
    (engine.defer h batch).lobby polls = (engine.lobby polls).defer h batch := by
  unfold defer Lobby.defer
  rw [lobby_wake _ _ (by simpa [note, modifyHost] using opened)]
  exact congrArg (Lobby.wake · h) (lobby_modifyHost _ _ opened _)

/-- The end of a session shows. -/
theorem lobby_endSession {k : SessionRef} (opened : (engine.session k).host < engine.hosts.length) :
    (engine.endSession k).lobby polls = (engine.lobby polls).close k := by
  simp only [endSession, Lobby.close, session_lobby]
  -- A wakeup that was not used is passed on, and a parked session is struck off the list.
  cases (engine.session k).phase with
  | parked => exact lobby_modifyHost (engine.modifySession k _) _ opened _
  | woken => exact lobby_wake (engine.modifySession k _) _ opened
  | fresh | finished => rfl

/-- A batch that is queued does not show. -/
theorem lobby_enqueue (h : HostRef) (batch : Batch) :
    (engine.enqueue h batch).lobby polls = engine.lobby polls :=
  lobby_modifyHost_of_same engine polls h rfl

/-- Counts do not show. -/
theorem lobby_modifyTally (h : HostRef) (change : Tally → Tally) :
    (engine.modifyTally h change).lobby polls = engine.lobby polls :=
  lobby_modifyHost_of_same engine polls h rfl

/-- A transition does not show. -/
theorem lobby_transition (e : ExecutableRef) (status : Status) :
    (engine.transition e status).lobby polls = engine.lobby polls :=
  lobby_modifyTally (note (engine.modifyExecutable e _) _) polls _ _

/-- Destruction does not show. -/
theorem lobby_destroy (e : ExecutableRef) :
    (engine.destroy e).lobby polls = engine.lobby polls := by
  simp only [destroy]
  rw [lobby_modifyTally]
  split
  · exact lobby_modifyHost_of_same _ polls _ rfl
  · rfl

/-- A new executable does not show. -/
theorem lobby_addTemporary (h : HostRef) (work : Work) (handles : Nat) :
    (engine.addTemporary h work handles).lobby polls = engine.lobby polls :=
  lobby_modifyHost_of_same engine polls h rfl

/-- A request for readiness may put a batch off. -/
theorem receives_listenReady {e : ExecutableRef}
    (opened : (engine.executable e).host < engine.hosts.length) (request : ReadyRequest) :
    (engine.lobby polls).Receives ((engine.listenReady e request).lobby polls) := by
  simp only [listenReady]
  split
  · exact .inr ⟨_, _, opened, lobby_defer engine.spendBatch polls opened _⟩
  · exact .inl rfl

end Engine

end Readiness
