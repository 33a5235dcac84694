import Mathlib.Data.List.Forall2
import Readiness.Proofs.History.Counts

/-! Stores that differ in nothing but what the clock, the recording of times and the trace leave
behind.

Every change that the engine makes to its store turns two such stores into two such stores.
-/

namespace Readiness

variable {left right : Host} {γ : Type*}

section Lists

variable {α β : Type*} {relation : α → β → Prop} {left : List α} {right : List β}

/-- What stands at one place is related. -/
theorem related_getD (related : left.Forall₂ relation right) {blank : α} {empty : β}
    (base : relation blank empty) (place : Nat) :
    relation (left.getD place blank) (right.getD place empty) := by
  induction related generalizing place with
  | nil => simpa using base
  | cons head _ ih =>
    cases place with
    | zero => simpa using head
    | succ place => simpa using ih place

/-- Lists stay related if related members are changed in the same place. -/
theorem related_modify (related : left.Forall₂ relation right) {change : α → α} {other : β → β}
    (kept : ∀ one two, relation one two → relation (change one) (other two)) (place : Nat) :
    (left.modify place change).Forall₂ relation (right.modify place other) := by
  induction related generalizing place with
  | nil => simp
  | cons head tail ih =>
    cases place with
    | zero => simpa using ⟨kept _ _ head, tail⟩
    | succ place => simpa using ⟨head, ih place⟩

/-- Related values may be added at the end. -/
theorem related_concat (related : left.Forall₂ relation right) {one : α} {two : β}
    (last : relation one two) : (left ++ [one]).Forall₂ relation (right ++ [two]) :=
  List.rel_append related (.cons last .nil)

/-- What is the same of related values is the same of the lists. -/
theorem related_flatMap {γ : Type*} (related : left.Forall₂ relation right) {view : α → List γ}
    {other : β → List γ} (same : ∀ one two, relation one two → view one = other two) :
    left.flatMap view = right.flatMap other := by
  induction related with
  | nil => rfl
  | cons head _ ih => rw [List.flatMap_cons, List.flatMap_cons, same _ _ head, ih]

end Lists

/-- An executable without the times that were taken. -/
def Executable.blind (executable : Executable) : Executable :=
  { executable with samples := [], started := none }

/-- Executables that differ in nothing but the times that were taken. -/
def Executable.Alike (left right : Executable) : Prop :=
  left.blind = right.blind

/-- An observer to whom the trace is nobody. -/
def Observer.blind : Observer → Observer
  | .tracing => .silent
  | .silent => .silent
  | .client code => .client code

/-- Settings that ask for no times. -/
def Settings.blind (settings : Settings) : Settings :=
  { settings with timed := false }

/-- A host without what it has counted by status, and whether it records times or traces. -/
def Host.blind (host : Host) : Host :=
  { host with
    settings := host.settings.blind
    observer := host.observer.blind
    tally := { host.tally with stays := [] } }

/-- Hosts that differ in nothing but whether they record times or trace, and the times recorded. -/
structure Host.Alike (left right : Host) : Prop where
  /-- All else is the same. -/
  rest : left.blind = right.blind
  /-- Every status was reached equally often. -/
  reached : ∀ status, (left.tally.stay status).reached = (right.tally.stay status).reached

/-- Stores that differ in nothing but what the clock and the trace leave behind. -/
structure Engine.Alike (left right : Engine) : Prop where
  /-- Hosts differ in nothing else. -/
  hosts : left.hosts.Forall₂ Host.Alike right.hosts
  /-- Executables differ in nothing else. -/
  executables : left.executables.Forall₂ Executable.Alike right.executables
  gates : left.gates = right.gates
  waits : left.waits = right.waits
  sessions : left.sessions = right.sessions
  nextBatch : left.nextBatch = right.nextBatch
  /-- The same happened in the same order. -/
  journal : left.journal = right.journal

/-- What a blind view shows is the same of both. -/
theorem Host.Alike.view (alike : left.Alike right) (view : Host → γ)
    (blind : ∀ host, view host.blind = view host) : view left = view right := by
  rw [← blind left, alike.rest, blind]

/-- What a blind view shows is the same of both. -/
theorem Executable.Alike.view {left right : Executable} (alike : left.Alike right)
    (view : Executable → γ) (blind : ∀ executable, view executable.blind = view executable) :
    view left = view right := by
  rw [← blind left, show left.blind = right.blind from alike, blind]

/-- A blind change keeps hosts alike. -/
theorem Host.Alike.change (alike : left.Alike right) (change : Host → Host)
    (blind : ∀ host, (change host).blind = change host.blind)
    (stays : ∀ host, (change host).tally.stays = host.tally.stays) :
    (change left).Alike (change right) := by
  refine ⟨?_, fun status => ?_⟩
  · rw [blind, blind, alike.rest]
  · simpa only [Tally.stay, stays] using alike.reached status

/-- A transition counts alike, whatever time was spent before it. -/
theorem Host.Alike.countTransition (alike : left.Alike right) (old new : Status)
    (spent other : Option Nat) (change : Tally → Tally) (blind : ∀ tally : Tally,
      { change tally with stays := [] } = change { tally with stays := [] })
    (stays : ∀ tally, (change tally).stays = tally.stays) :
    (left.modifyTally fun tally => change (tally.countTransition old new spent)).Alike
      (right.modifyTally fun tally => change (tally.countTransition old new other)) := by
  refine ⟨?_, fun status => ?_⟩
  · -- Without the counts by status it does not matter what time was spent.
    have count : ∀ (host : Host) (time : Option Nat),
        (host.modifyTally fun tally => change (tally.countTransition old new time)).blind =
          host.blind.modifyTally fun tally =>
            change { tally with transitions := tally.transitions + 1 } := by
      intro host time
      simp only [Host.blind, Host.modifyTally, blind]
      rfl
    rw [count, count, alike.rest]
  · have reach : ∀ (tally : Tally) (time : Option Nat),
        ((change (tally.countTransition old new time)).stay status).reached =
          (tally.stay status).reached + if status = new then 1 else 0 := by
      intro tally time
      have counted := congrArg Stay.reached (tally.stay_countTransition old new status time)
      simpa only [Tally.stay, stays] using counted
    exact (reach _ _).trans ((congrArg (· + _) (alike.reached status)).trans (reach _ _).symm)

/-- A blind change keeps executables alike. -/
theorem Executable.Alike.change {left right : Executable} (alike : left.Alike right)
    (change : Executable → Executable)
    (blind : ∀ executable, (change executable).blind = change executable.blind) :
    (change left).Alike (change right) :=
  (blind left).trans ((congrArg change alike).trans (blind right).symm)

namespace Engine.Alike

variable {left right : Engine}

variable (alike : left.Alike right)
include alike

/-- Each executable is alike. -/
theorem executable (e : ExecutableRef) : (left.executable e).Alike (right.executable e) :=
  related_getD alike.executables rfl e

/-- Each host is alike. -/
theorem host (h : HostRef) : (left.host h).Alike (right.host h) :=
  related_getD alike.hosts ⟨rfl, fun _ => rfl⟩ h

/-- Changes that keep an executable alike keep the stores alike. -/
theorem modifyExecutable (e : ExecutableRef) {change other : Executable → Executable}
    (kept : ∀ one two : Executable, one.Alike two → (change one).Alike (other two)) :
    (left.modifyExecutable e change).Alike (right.modifyExecutable e other) :=
  { alike with executables := related_modify alike.executables kept e }

/-- Changes that keep a host alike keep the stores alike. -/
theorem modifyHost (h : HostRef) {change other : Host → Host}
    (kept : ∀ one two : Host, one.Alike two → (change one).Alike (other two)) :
    (left.modifyHost h change).Alike (right.modifyHost h other) :=
  { alike with hosts := related_modify alike.hosts kept h }

/-- A blind change of a host keeps them alike. -/
theorem changeHost (h : HostRef) (change : Host → Host)
    (blind : ∀ host, (change host).blind = change host.blind)
    (stays : ∀ host, (change host).tally.stays = host.tally.stays) :
    (left.modifyHost h change).Alike (right.modifyHost h change) :=
  alike.modifyHost h fun _ _ same => same.change change blind stays

/-- A blind change of an executable keeps them alike. -/
theorem changeExecutable (e : ExecutableRef) (change : Executable → Executable)
    (blind : ∀ executable, (change executable).blind = change executable.blind) :
    (left.modifyExecutable e change).Alike (right.modifyExecutable e change) :=
  alike.modifyExecutable e fun _ _ same => same.change change blind

/-- The same may be noted. -/
theorem note (occurrence : Occurrence) : (left.note occurrence).Alike (right.note occurrence) :=
  { alike with journal := congrArg (·.push occurrence) alike.journal }

/-- A session may change. -/
theorem modifySession (k : SessionRef) (change : Session → Session) :
    (left.modifySession k change).Alike (right.modifySession k change) :=
  { alike with sessions := congrArg (List.modify · k change) alike.sessions }

/-- A gate may change. -/
theorem modifyGate (g : GateRef) (change : Gate → Gate) :
    (left.modifyGate g change).Alike (right.modifyGate g change) :=
  { alike with gates := congrArg (List.modify · g change) alike.gates }

/-- A wait may be settled. -/
theorem settleWait (w : WaitRef) (settlement : Settlement) :
    (left.settleWait w settlement).Alike (right.settleWait w settlement) :=
  { alike with waits := congrArg (List.modify · w _) alike.waits }

/-- An executable may be added. -/
theorem addExecutable (added : Executable) :
    (left.addExecutable added).Alike (right.addExecutable added) :=
  { alike with executables := related_concat alike.executables rfl }

/-- A gate may be added. -/
theorem addGate (gate : Gate) : (left.addGate gate).Alike (right.addGate gate) :=
  { alike with gates := congrArg (· ++ [gate]) alike.gates }

/-- A wait may be added. -/
theorem addWait (wait : Wait) : (left.addWait wait).Alike (right.addWait wait) :=
  { alike with waits := congrArg (· ++ [wait]) alike.waits }

/-- A session may be added. -/
theorem addSession (h : HostRef) (future : Future) :
    (left.addSession h future).Alike (right.addSession h future) :=
  { alike with sessions := congrArg (· ++ [({ host := h, future } : Session)]) alike.sessions }

/-- Hosts may be added that differ in what is blinded out. -/
theorem addHost {settings other : Settings} {observer witness : Observer}
    (asked : settings.blind = other.blind) (observed : observer.blind = witness.blind) :
    (left.addHost settings observer).Alike (right.addHost other witness) := by
  refine { alike with hosts := related_concat alike.hosts ⟨?_, fun _ => rfl⟩ }
  simp only [Host.blind, asked, observed]

/-- The number of a batch may be used up. -/
theorem spendBatch : left.spendBatch.Alike right.spendBatch :=
  { alike with nextBatch := congrArg (· + 1) alike.nextBatch }

/-- The listeners of an executable may change. -/
theorem modifySubscriptions (e : ExecutableRef) (change : Subscriptions → Subscriptions) :
    (left.modifySubscriptions e change).Alike (right.modifySubscriptions e change) :=
  alike.changeExecutable e _ fun _ => rfl

/-- A handle may be taken. -/
theorem retain (e : ExecutableRef) : (left.retain e).Alike (right.retain e) :=
  alike.changeExecutable e (fun held => { held with handles := held.handles + 1 }) fun _ => rfl

/-- A host may wake its sessions. -/
theorem wake (h : HostRef) : (left.wake h).Alike (right.wake h) := by
  have waiters := (alike.host h).view Host.waiters fun _ => rfl
  unfold Engine.wake
  rw [waiters]
  -- The same session is woken, or the wakeup is stored on both sides.
  cases (right.host h).waiters with
  | nil => exact alike.changeHost h _ (fun _ => rfl) fun _ => rfl
  | cons k rest =>
    have taken := alike.changeHost h ({ · with waiters := rest }) (fun _ => rfl) fun _ => rfl
    exact taken.modifySession k _

/-- A batch may be queued. -/
theorem enqueue (h : HostRef) (batch : Batch) :
    (left.enqueue h batch).Alike (right.enqueue h batch) :=
  note (alike.changeHost h (fun host => { host with queue := host.queue ++ [batch] })
    (fun _ => rfl) fun _ => rfl) _

/-- A batch may be put off. -/
theorem defer (h : HostRef) (batch : Batch) : (left.defer h batch).Alike (right.defer h batch) :=
  wake (note (alike.changeHost h (fun host => { host with deferred := host.deferred ++ [batch] })
    (fun _ => rfl) fun _ => rfl) _) h

/-- An executable with a temporary id may be added. -/
theorem addTemporary (h : HostRef) (work : Work) (handles : Nat) :
    (left.addTemporary h work handles).Alike (right.addTemporary h work handles) := by
  have number := (alike.host h).view Host.nextTemporary fun _ => rfl
  have id := (alike.host h).view (fun host => host.temporaryId host.nextTemporary) fun _ => rfl
  have counted := alike.changeHost h
    ({ · with nextTemporary := (right.host h).nextTemporary + 1 }) (fun _ => rfl) fun _ => rfl
  simp only [Engine.addTemporary, id]
  rw [number]
  exact counted.addExecutable _

/-- A transition keeps them alike: only times differ. -/
theorem transition (e : ExecutableRef) (status : Status) :
    (left.transition e status).Alike (right.transition e status) := by
  have mover := alike.executable e
  have host := mover.view Executable.host fun _ => rfl
  have old := mover.view Executable.status fun _ => rfl
  have id := mover.view Executable.id fun _ => rfl
  have ready := mover.view Executable.readyStatus fun _ => rfl
  simp only [Engine.transition, host, old, id, ready]
  refine Engine.Alike.modifyHost (note (alike.modifyExecutable e ?_) _) _ ?_
  · -- The times taken are all that the two records can differ in.
    exact fun one two same => same.change (·.moveTo status none) fun _ => rfl
  · intro one two same
    -- Who counts as executing from now on does not depend on the time.
    refine same.countTransition _ status _ _ (fun counted =>
      if status = (right.executable e).readyStatus then counted.endExecuting (right.executable e).id
      else if status = .initialized then counted
      else counted.beginExecuting (right.executable e).id) (fun tally => ?_) fun tally => ?_
    · split
      · rfl
      · split <;> rfl
    · split
      · rfl
      · split <;> rfl

/-- A request for readiness may be filed. -/
theorem listenReady (e : ExecutableRef) (request : ReadyRequest) :
    (left.listenReady e request).Alike (right.listenReady e request) := by
  have target := alike.executable e
  have host := target.view Executable.host fun _ => rfl
  have ready := target.view Executable.readyStatus fun _ => rfl
  have failed := target.view Executable.failedStatuses fun _ => rfl
  have now := target.view Executable.isReady fun _ => rfl
  simp only [Engine.listenReady, Engine.batch, host, ready, failed, now, alike.nextBatch]
  refine modifySubscriptions ?_ e _
  split
  · exact alike.spendBatch.defer _ _
  · exact alike

/-- An executable may be destroyed. -/
theorem destroy (e : ExecutableRef) : (left.destroy e).Alike (right.destroy e) := by
  have target := alike.executable e
  have host := target.view Executable.host fun _ => rfl
  have id := target.view Executable.id fun _ => rfl
  have registered := target.view Executable.registered fun _ => rfl
  have roster := (alike.host (right.executable e).host).view Host.roster fun _ => rfl
  simp only [Engine.destroy, host, id, registered, roster]
  have marked := alike.changeExecutable e Executable.destroy fun _ => rfl
  refine changeHost ?_ _ _ (fun _ => rfl) fun _ => rfl
  split
  · exact note (marked.changeHost _ (·.strike (right.executable e).id) (fun _ => rfl)
      fun _ => rfl) _
  · exact marked

/-- A session may end. -/
theorem endSession (k : SessionRef) : (left.endSession k).Alike (right.endSession k) := by
  have same : left.session k = right.session k :=
    congrArg (List.getD · k default) alike.sessions
  have closed := alike.modifySession k ({ · with phase := .finished })
  simp only [Engine.endSession, same]
  -- Where the session stood decides who has to know.
  cases (right.session k).phase with
  | parked => exact closed.changeHost _ _ (fun _ => rfl) fun _ => rfl
  | woken => exact closed.wake _
  | fresh | finished => exact closed

end Engine.Alike

end Readiness
