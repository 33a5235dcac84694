import Mathlib.Algebra.BigOperators.Group.Multiset.Basic
import Mathlib.Tactic.Abel
import Readiness.Proofs.Machine.Preservation

/-! The view that gates and composites have of the machine.

They depend on the statuses of executables, on their own watches, on the calls of these that are on
their way, on the executions that are under way and on what is asked for next. Everything else, as
the order of batches, is left out of the view.
-/

namespace Readiness

open List

variable {e : ExecutableRef} {event : Event} {frame : Frame} {h : HostRef} {occurrence : Occurrence}

/-- A change in one place changes a sum by what is put there and what was there. -/
theorem sum_map_modify {α β : Type*} [AddCommMonoid β] (share : α → β) (change : α → α)
    {list : List α} {place : Nat} (within : place < list.length) (blank : α) :
    ((list.modify place change).map share).sum + share (list.getD place blank) =
      (list.map share).sum + share (change (list.getD place blank)) := by
  induction list generalizing place with
  | nil => cases within
  | cons head tail ih =>
    cases place with
    | zero =>
      simp only [modify_zero_cons, map_cons, sum_cons, getD_cons_zero]
      abel
    | succ place =>
      have later := ih (Nat.lt_of_succ_lt_succ within)
      simp only [modify_succ_cons, map_cons, sum_cons, getD_cons_succ]
      rw [add_assoc, later, add_assoc]

/-- What matters for gates: dependencies examined, gates opened and transitions. -/
def Occurrence.isPivotal : Occurrence → Bool
  | .examined _ _ _ _ | .gateOpened _ | .transitioned _ _ _ => true
  | _ => false

/-- The calls of watchers among those of a list of listeners. -/
def watcherCalls (event : Event) (listeners : List Listener) : Multiset (Event × Listener) :=
  ((listeners.filter Listener.isWatcher).map (Prod.mk event) : List (Event × Listener))

/-- The calls of watchers that a batch is going to make. -/
def Batch.alerts (batch : Batch) : Multiset (Event × Listener) :=
  watcherCalls batch.event (batch.deliveries.map Delivery.listener)

/-- The calls of watchers that wait with a host. -/
def Host.alerts (host : Host) : Multiset (Event × Listener) :=
  ((host.queue ++ host.deferred).map Batch.alerts).sum

/-- The calls of watchers that wait with any host. -/
def Engine.alerts (engine : Engine) : Multiset (Event × Listener) :=
  (engine.hosts.map Host.alerts).sum

namespace Frame

/-- The calls of watchers that a frame is going to make. -/
def alerts : Frame → Multiset (Event × Listener)
  | .announce e transition entries =>
    watcherCalls ⟨e, transition.new, transition.old⟩ (entries.map Entry.listener)
  | .deliver batch => batch.alerts
  | _ => 0

/-- A frame that is going to move an executable or to go on with its dependencies. -/
def isDuty : Frame → Bool
  | .begin _ _ | .gather _ | .inspect _ | .arm _ _ _ _ | .examine _ _ _ _ _ | .moves _ (_ :: _) =>
    true
  | _ => false

/-- The frame itself if it is a duty. -/
def duty (frame : Frame) : List Frame :=
  if frame.isDuty then [frame] else []

/-- A frame is a duty as itself or not at all. -/
theorem eq_of_mem_duty {duty : Frame} (member : duty ∈ frame.duty) : duty = frame := by
  unfold Frame.duty at member
  split at member
  · exact mem_singleton.mp member
  · cases member

end Frame

namespace Command

/-- A request to execute, to move or to synchronise, or to call a watcher. -/
def isErrand : Command → Bool
  | .execute _ _ | .setStatus _ _ | .synchronise _ _ _ _ => true
  | .invoke listener _ => listener.isWatcher
  | _ => false

/-- The call of a watcher that is being made. -/
def alerts : Command → Multiset (Event × Listener)
  | .invoke listener event => watcherCalls event [listener]
  | _ => 0

end Command

namespace Control

/-- What is asked for, if it matters. -/
def errand : Control → Option Command
  | .perform command => if command.isErrand then some command else none
  | _ => none

/-- The call of a watcher that is being made. -/
def alerts : Control → Multiset (Event × Listener)
  | .perform command => command.alerts
  | _ => 0

end Control

/-- What gates and composites depend on. -/
@[ext] structure View where
  /-- The current statuses. -/
  status : ExecutableRef → Status
  /-- Who has been destroyed. -/
  destroyed : ExecutableRef → Bool
  /-- How often the work of each executable was begun. -/
  runs : ExecutableRef → Nat
  /-- The watches on each executable. -/
  watches : ExecutableRef → Multiset (Status × Listener)
  /-- The gates. -/
  gates : List Gate
  /-- The pivotal occurrences so far. -/
  journal : List Occurrence
  /-- The calls of watchers that are on their way. -/
  alerts : Multiset (Event × Listener)
  /-- The duties on the stack, innermost first. -/
  duties : List Frame
  /-- What is asked for next. -/
  errand : Option Command

/-- The part of the view that the store shows. -/
def Engine.view (engine : Engine) : View where
  status := fun e => (engine.executable e).status
  destroyed := fun e => (engine.executable e).destroyed
  runs := fun e => (engine.executable e).runs
  watches := fun e => (engine.executable e).subscriptions.watches
  gates := engine.gates
  journal := engine.journal.toList.filter Occurrence.isPivotal
  alerts := engine.alerts
  duties := []
  errand := none

namespace Machine

/-- The part of the view that store and stack show, whoever has the turn. -/
def scene (machine : Machine) : View :=
  { machine.engine.view with
    alerts := (machine.stack.map Frame.alerts).sum + machine.engine.alerts
    duties := machine.stack.flatMap Frame.duty }

/-- The view of the whole machine. -/
def view (machine : Machine) : View :=
  { machine.scene with
    alerts := machine.control.alerts + machine.scene.alerts
    errand := machine.control.errand }

end Machine

/-- Without watchers there are no calls of them. -/
theorem watcherCalls_of_foreign {listeners : List Listener}
    (foreign : ∀ listener ∈ listeners, listener.isWatcher = false) :
    watcherCalls event listeners = 0 := by
  have none_left : listeners.filter Listener.isWatcher = [] :=
    filter_eq_nil_iff.mpr fun listener member => by simp [foreign listener member]
  simp [watcherCalls, none_left]

/-- The calls are those of the first listener and of the others. -/
theorem watcherCalls_cons (event : Event) (listener : Listener) (rest : List Listener) :
    watcherCalls event (listener :: rest) =
      watcherCalls event [listener] + watcherCalls event rest := by
  cases watcher : listener.isWatcher <;> simp [watcherCalls, watcher, ← Multiset.cons_coe]

/-- A watcher is called. -/
theorem watcherCalls_singleton {listener : Listener} (watcher : listener.isWatcher = true) :
    watcherCalls event [listener] = {(event, listener)} := by
  simp [watcherCalls, watcher]

/-- The order of listeners does not show. -/
theorem watcherCalls_perm {left right : List Listener} (perm : left.Perm right) :
    watcherCalls event left = watcherCalls event right :=
  Multiset.coe_eq_coe.mpr ((perm.filter _).map _)

namespace Engine

variable {change : Host → Host} {before after : Engine} {batch : Batch}

/-- Two stores look alike if they agree on what the view shows. -/
theorem view_congr (status : ∀ e, (after.executable e).status = (before.executable e).status)
    (destroyed : ∀ e, (after.executable e).destroyed = (before.executable e).destroyed)
    (runs : ∀ e, (after.executable e).runs = (before.executable e).runs)
    (watches : ∀ e, (after.executable e).subscriptions.watches =
      (before.executable e).subscriptions.watches) (gates : after.gates = before.gates)
    (journal : after.journal.toList.filter Occurrence.isPivotal =
      before.journal.toList.filter Occurrence.isPivotal) (alerts : after.alerts = before.alerts) :
    after.view = before.view :=
  View.ext (funext status) (funext destroyed) (funext runs) (funext watches) gates journal alerts
    rfl rfl

/-- The view shows executables, gates, hosts and the journal only. -/
theorem view_of_same (executables : after.executables = before.executables)
    (gates : after.gates = before.gates) (hosts : after.hosts = before.hosts)
    (journal : after.journal = before.journal) : after.view = before.view := by
  have look (e : ExecutableRef) : after.executable e = before.executable e := by
    simp only [executable, executables]
  exact view_congr (fun e => by rw [look]) (fun e => by rw [look]) (fun e => by rw [look])
    (fun e => by rw [look]) gates (by rw [journal]) (by simp only [Engine.alerts, hosts])

section

variable (engine : Engine)

/-- What does not matter to gates does not show. -/
theorem view_note (minor : occurrence.isPivotal = false) :
    (engine.note occurrence).view = engine.view := by
  refine view_congr (fun _ => rfl) (fun _ => rfl) (fun _ => rfl) (fun _ => rfl) rfl ?_ rfl
  simp [note, minor]

/-- What matters to gates is noted. -/
theorem view_note_pivotal (pivotal : occurrence.isPivotal = true) :
    (engine.note occurrence).view =
      { engine.view with journal := engine.view.journal ++ [occurrence] } := by
  refine View.ext rfl rfl rfl rfl rfl ?_ rfl rfl rfl
  simp [view, note, pivotal]

/-- The calls that wait with a host count once among all. -/
theorem alerts_modifyHost (opened : h < engine.hosts.length) (change : Host → Host) :
    (engine.modifyHost h change).alerts + (engine.host h).alerts =
      engine.alerts + (change (engine.host h)).alerts :=
  sum_map_modify Host.alerts change opened default

/-- A host may change in all but the calls that wait with it. -/
theorem view_modifyHost (h : HostRef)
    (same : (change (engine.host h)).alerts = (engine.host h).alerts) :
    (engine.modifyHost h change).view = engine.view := by
  refine view_congr (fun _ => rfl) (fun _ => rfl) (fun _ => rfl) (fun _ => rfl) rfl rfl ?_
  rcases Nat.lt_or_ge h engine.hosts.length with opened | beyond
  · have whole := engine.alerts_modifyHost opened change
    rw [same] at whole
    exact add_right_cancel whole
  · simp [Engine.alerts, modifyHost, modify_eq_self beyond]

/-- A batch that joins the queues of a host brings its calls along. -/
theorem view_modifyHost_of_add (opened : h < engine.hosts.length)
    (joins : (change (engine.host h)).alerts = batch.alerts + (engine.host h).alerts) :
    (engine.modifyHost h change).view =
      { engine.view with alerts := batch.alerts + engine.view.alerts } := by
  refine View.ext rfl rfl rfl rfl rfl rfl ?_ rfl rfl
  have whole := engine.alerts_modifyHost opened change
  rw [joins, add_left_comm, ← add_assoc] at whole
  exact add_right_cancel whole

/-- A batch that is taken from the queues of a host takes its calls along. -/
theorem view_modifyHost_of_take (opened : h < engine.hosts.length)
    (takes : (engine.host h).alerts = batch.alerts + (change (engine.host h)).alerts) :
    { (engine.modifyHost h change).view with
      alerts := batch.alerts + (engine.modifyHost h change).view.alerts } = engine.view := by
  refine View.ext rfl rfl rfl rfl rfl rfl ?_ rfl rfl
  have whole := engine.alerts_modifyHost opened change
  rw [takes, add_left_comm, ← add_assoc] at whole
  exact add_right_cancel whole

/-- Waking sessions does not show. -/
theorem view_wake (h : HostRef) : (engine.wake h).view = engine.view := by
  unfold wake
  split
  · exact (view_of_same rfl rfl rfl rfl).trans (engine.view_modifyHost h rfl)
  · exact engine.view_modifyHost h rfl

/-- The end of a session does not show. -/
theorem view_endSession (k : SessionRef) : (engine.endSession k).view = engine.view := by
  have closed : (engine.modifySession k ({ · with phase := .finished })).view = engine.view :=
    view_of_same rfl rfl rfl rfl
  simp only [endSession]
  split
  · exact (view_modifyHost _ _ rfl).trans closed
  · exact (view_wake _ _).trans closed
  · exact closed

/-- The calls of a batch that is queued are on their way. -/
theorem view_enqueue (opened : h < engine.hosts.length) (batch : Batch) :
    (engine.enqueue h batch).view =
      { engine.view with alerts := batch.alerts + engine.view.alerts } := by
  refine (view_note _ rfl).trans (engine.view_modifyHost_of_add opened ?_)
  simp only [Host.alerts, map_append, sum_append, map_cons, map_nil,
    sum_cons, sum_nil]
  abel

/-- The calls of a batch that is put off are on their way. -/
theorem view_defer (opened : h < engine.hosts.length) (batch : Batch) :
    (engine.defer h batch).view =
      { engine.view with alerts := batch.alerts + engine.view.alerts } := by
  refine (view_wake _ _).trans ((view_note _ rfl).trans (engine.view_modifyHost_of_add opened ?_))
  simp only [Host.alerts, map_append, sum_append, map_cons, map_nil,
    sum_cons, sum_nil]
  abel

/-- A change of an executable shows in its row. -/
theorem view_modifyExecutable (built : e < engine.executables.length)
    (change : Executable → Executable) :
    (engine.modifyExecutable e change).view =
      { engine.view with
        status := Function.update engine.view.status e (change (engine.executable e)).status
        destroyed := Function.update engine.view.destroyed e
          (change (engine.executable e)).destroyed
        runs := Function.update engine.view.runs e (change (engine.executable e)).runs
        watches := Function.update engine.view.watches e
          (change (engine.executable e)).subscriptions.watches } := by
  exact View.ext (read_modifyExecutable (·.status) built change)
    (read_modifyExecutable (·.destroyed) built change)
    (read_modifyExecutable (·.runs) built change)
    (read_modifyExecutable (·.subscriptions.watches) built change) rfl rfl rfl rfl rfl

/-- An executable may change in what is not in view. -/
theorem view_modifyExecutable_of_same (e : ExecutableRef) {change : Executable → Executable}
    (status : (change (engine.executable e)).status = (engine.executable e).status)
    (destroyed : (change (engine.executable e)).destroyed = (engine.executable e).destroyed)
    (runs : (change (engine.executable e)).runs = (engine.executable e).runs)
    (watches : (change (engine.executable e)).subscriptions.watches =
      (engine.executable e).subscriptions.watches) :
    (engine.modifyExecutable e change).view = engine.view := by
  exact view_congr (read_modifyExecutable_of_same _ status)
    (read_modifyExecutable_of_same _ destroyed) (read_modifyExecutable_of_same _ runs)
    (read_modifyExecutable_of_same (·.subscriptions.watches) watches) rfl rfl rfl

/-- A new executable does not show. -/
theorem view_addExecutable {added : Executable} (status : added.status = .null)
    (destroyed : added.destroyed = false) (runs : added.runs = 0)
    (entries : added.subscriptions = {}) : (engine.addExecutable added).view = engine.view := by
  exact view_congr (read_addExecutable_of_same _ status) (read_addExecutable_of_same _ destroyed)
    (read_addExecutable_of_same _ runs)
    (read_addExecutable_of_same (·.subscriptions.watches) (by rw [entries]; rfl)) rfl rfl rfl

/-- A new executable does not show. -/
theorem view_addTemporary (h : HostRef) (work : Work) (handles : Nat) :
    (engine.addTemporary h work handles).view = engine.view :=
  (view_addExecutable _ rfl rfl rfl rfl).trans (engine.view_modifyHost h rfl)

/-- A new host does not show. -/
theorem view_addHost (settings : Settings) (observer : Observer) :
    (engine.addHost settings observer).view = engine.view :=
  view_congr (fun _ => rfl) (fun _ => rfl) (fun _ => rfl) (fun _ => rfl) rfl rfl
    (by simp [Engine.alerts, addHost, Host.alerts])

/-- A transition shows, and takes the watches for it. -/
theorem view_transition (built : e < engine.executables.length)
    (watchful : (engine.executable e).subscriptions.Watchful) (status : Status) :
    (engine.transition e status).view =
      { engine.view with
        status := Function.update engine.view.status e status
        watches := Function.update engine.view.watches e
          ((engine.view.watches e).filter fun watch => watch.1 ≠ status)
        journal := engine.view.journal ++
          [.transitioned e (engine.view.status e) status] } := by
  unfold transition modifyTally
  simp only
  rw [view_modifyHost _ _ rfl, view_note_pivotal _ rfl, view_modifyExecutable _ built]
  refine View.ext rfl ?_ ?_ ?_ rfl rfl rfl rfl rfl
  · exact Function.update_eq_self e engine.view.destroyed
  · exact Function.update_eq_self e engine.view.runs
  · simp only [Executable.moveTo, watchful.watches_settle]
    rfl

/-- Destruction shows, and takes the watches. -/
theorem view_destroy (built : e < engine.executables.length) :
    (engine.destroy e).view =
      { engine.view with
        destroyed := Function.update engine.view.destroyed e true
        watches := Function.update engine.view.watches e 0 } := by
  have marked : (engine.modifyExecutable e Executable.destroy).view =
      { engine.view with
        destroyed := Function.update engine.view.destroyed e true
        watches := Function.update engine.view.watches e 0 } := by
    rw [view_modifyExecutable _ built]
    exact View.ext (Function.update_eq_self e engine.view.status) rfl
      (Function.update_eq_self e engine.view.runs) rfl rfl rfl rfl rfl rfl
  unfold destroy modifyTally
  simp only
  rw [view_modifyHost _ _ rfl]
  split
  · rw [view_note _ rfl, view_modifyHost _ _ rfl, marked]
  · exact marked

/-- A request of the client for readiness does not show. -/
theorem view_listenReady (opened : (engine.executable e).host < engine.hosts.length)
    {request : ReadyRequest}
    (foreign : ∀ listener ∈ request.success :: request.failure.toList, listener.isWatcher = false) :
    (engine.listenReady e request).view = engine.view := by
  have links := request.foreign_links foreign (engine.executable e)
  unfold listenReady
  simp only
  generalize told : (if (engine.executable e).isReady && !request.onlyFuture then _ else engine) =
    after
  have kept : after.view = engine.view := by
    subst told
    split
    · -- The one call that is put off is not a watcher's.
      rw [view_defer engine.spendBatch opened]
      have silent : (engine.batch ⟨e, (engine.executable e).readyStatus,
          (engine.executable e).readyStatus⟩ [⟨request.success, none⟩]).alerts = 0 :=
        watcherCalls_of_foreign fun listener member => by
          rw [mem_singleton.mp member]
          exact foreign _ (by simp)
      rw [silent, zero_add]
      exact view_of_same rfl rfl rfl rfl
    · rfl
  rw [← kept]
  refine view_modifyExecutable_of_same _ e rfl rfl rfl ?_
  simp only
  split
  · rw [Subscriptions.watches_foldl_add, filter_eq_nil_iff.mpr fun link member => by
      simp [links link member]]
    exact zero_add _
  · split
    · rfl
    · exact Subscriptions.watches_addGroup links _

end

end Engine

namespace Machine

variable {machine : Machine} {command : Command}

/-- A frame shows with its calls and its duty. -/
theorem scene_push (machine : Machine) (frame : Frame) :
    (machine.push frame).scene =
      { machine.scene with
        alerts := frame.alerts + machine.scene.alerts
        duties := frame.duty ++ machine.scene.duties } :=
  View.ext rfl rfl rfl rfl rfl rfl (add_assoc ..) rfl rfl

/-- A frame without calls and duty does not show. -/
theorem scene_push_plain (machine : Machine) (silent : frame.alerts = 0) (plain : frame.duty = []) :
    (machine.push frame).scene = machine.scene := by
  rw [scene_push, silent, plain, zero_add, nil_append]

/-- A duty shows on top. -/
theorem scene_push_duty (machine : Machine) (silent : frame.alerts = 0)
    (duty : frame.duty = [frame]) : (machine.push frame).scene =
      { machine.scene with duties := frame :: machine.scene.duties } := by
  rw [scene_push, silent, duty, zero_add]
  rfl

/-- A machine shows what is on top of its stack along with the rest. -/
theorem scene_of_stack {rest : List Frame} (stands : machine.stack = frame :: rest) :
    machine.scene =
      { ({ machine with stack := rest } : Machine).scene with
        alerts := frame.alerts + ({ machine with stack := rest } : Machine).scene.alerts
        duties := frame.duty ++ ({ machine with stack := rest } : Machine).scene.duties } := by
  rw [← scene_push]
  simp only [scene, push, stands]

/-- A change of the store shows under the frames. -/
theorem scene_update (machine : Machine) (change : Engine → Engine) :
    (machine.update change).scene =
      { (change machine.engine).view with
        alerts := (machine.stack.map Frame.alerts).sum + (change machine.engine).view.alerts
        duties := machine.stack.flatMap Frame.duty } :=
  rfl

/-- A change of the store that does not show in it does not show. -/
theorem scene_update_of_same (machine : Machine) {change : Engine → Engine}
    (same : (change machine.engine).view = machine.engine.view) :
    (machine.update change).scene = machine.scene := by
  rw [scene_update, same]
  rfl

/-- What does not matter to gates does not show. -/
theorem scene_note (machine : Machine) (minor : occurrence.isPivotal = false) :
    (machine.note occurrence).scene = machine.scene :=
  machine.scene_update_of_same (machine.engine.view_note minor)

/-- What matters to gates is noted. -/
theorem scene_note_pivotal (machine : Machine) (pivotal : occurrence.isPivotal = true) :
    (machine.note occurrence).scene =
      { machine.scene with journal := machine.scene.journal ++ [occurrence] } := by
  unfold note
  rw [scene_update, Engine.view_note_pivotal _ pivotal]
  rfl

/-- Without an errand all is as store and stack show it. -/
theorem view_of_idle (idle : machine.control.errand = none) (silent : machine.control.alerts = 0) :
    machine.view = machine.scene := by
  refine View.ext rfl rfl rfl rfl rfl rfl ?_ rfl idle
  simp only [view, silent, zero_add]

/-- An errand shows besides. -/
theorem view_of_errand (turn : machine.control = .perform command)
    (errand : command.isErrand = true) (silent : command.alerts = 0) :
    machine.view = { machine.scene with errand := some command } := by
  refine View.ext rfl rfl rfl rfl rfl rfl ?_ rfl ?_
  · simp only [view, turn, Control.alerts, silent, zero_add]
  · simp only [view, turn, Control.errand, errand, if_true]

/-- The view shows the call of a watcher both as an errand and as a call on its way. -/
theorem view_of_invoke {listener : Listener}
    (turn : machine.control = .perform (.invoke listener event))
    (watcher : listener.isWatcher = true) :
    machine.view =
      { machine.scene with
        errand := some (.invoke listener event)
        alerts := (event, listener) ::ₘ machine.scene.alerts } := by
  refine View.ext rfl rfl rfl rfl rfl rfl ?_ rfl ?_
  · simp only [view, turn, Control.alerts, Command.alerts, watcherCalls_singleton watcher,
      Multiset.singleton_add]
  · simp only [view, turn, Control.errand, Command.isErrand, watcher, if_true]

/-- An answer does not show. -/
@[simp] theorem view_resume (machine : Machine) (answer : Answer) :
    (machine.resume answer).view = machine.scene :=
  view_of_idle rfl rfl

/-- An errand that is asked for shows. -/
theorem view_perform (machine : Machine) (errand : command.isErrand = true)
    (silent : command.alerts = 0) :
    (machine.perform command).view = { machine.scene with errand := some command } :=
  view_of_errand rfl errand silent

/-- A call of the client does not show. -/
@[simp] theorem view_callClient (machine : Machine) (callback : Callback) :
    (machine.callClient callback).view = machine.scene :=
  (view_of_idle rfl rfl).trans (machine.scene_push_plain rfl rfl)

/-- Telling the observer does not show. -/
@[simp] theorem view_notify (machine : Machine) (h : HostRef) (notice : Notice) :
    (machine.notify h notice).view = machine.scene := by
  unfold notify
  cases (machine.engine.host h).observer with
  | silent | tracing => exact (view_resume _ _).trans (machine.scene_note rfl)
  | client code => exact (view_callClient _ _).trans (machine.scene_note rfl)

end Machine

end Readiness
