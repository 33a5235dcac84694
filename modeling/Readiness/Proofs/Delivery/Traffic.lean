import Mathlib.Logic.Function.Basic
import Readiness.Proofs.Machine.Preservation

/-! The traffic of the machine: what is on its way from transitions to listeners.

It shows the entries of the executables, the batches that wait with the hosts, the calls that have
to do with delivery and what the journal tells of them. Everything else, as gates, sessions and the
tally, is left out.
-/

namespace Readiness

variable {e : ExecutableRef} {frame : Frame} {h : HostRef} {occurrence : Occurrence}

/-- What a host keeps for the delivery of batches. -/
def Host.depot (host : Host) : Host :=
  { settings := host.settings
    queue := host.queue
    draining := host.draining
    deferred := host.deferred }

/-- A transition, or a step of a batch on its way to the listeners. -/
def Occurrence.isTraffic : Occurrence → Bool
  | .transitioned _ _ _ | .queued _ _ | .deferred _ _ | .opened _ _ | .invoked _ _ _
  | .returned _ _ _ _ => true
  | _ => false

/-- A call that has to do with delivery: a transition to tell of, a delivery loop, a batch, a
listener or an observer. -/
def Frame.isTraffic : Frame → Bool
  | .announce _ _ _ | .drain _ | .deliver _ | .guard _ _ _ | .client (.observer _ _) => true
  | _ => false

/-- The calls by which the observer is told: one if it is the client's, and none otherwise. -/
def Notice.Told (notice : Notice) (calls : List Frame) : Prop :=
  calls = [] ∨ ∃ code, calls = [.client (.observer code notice)]

/-- What is on its way from transitions to listeners. -/
@[ext] structure Traffic where
  /-- The entries of each executable. -/
  subscriptions : ExecutableRef → Subscriptions
  /-- Who has been destroyed. -/
  destroyed : ExecutableRef → Bool
  /-- How many hosts are open. -/
  hosts : Nat
  /-- What each host keeps for delivery. -/
  depot : HostRef → Host
  /-- The serial number of the next batch. -/
  nextBatch : Nat
  /-- What the journal tells of transitions and batches. -/
  journal : List Occurrence
  /-- The calls that have to do with delivery, innermost first. -/
  calls : List Frame

/-- The part of the traffic that the store shows. -/
def Engine.traffic (engine : Engine) : Traffic where
  subscriptions := fun e => (engine.executable e).subscriptions
  destroyed := fun e => (engine.executable e).destroyed
  hosts := engine.hosts.length
  depot := fun h => (engine.host h).depot
  nextBatch := engine.nextBatch
  journal := engine.journal.toList.filter Occurrence.isTraffic
  calls := []

/-- The traffic of the whole machine, whoever has the turn. -/
def Machine.traffic (machine : Machine) : Traffic :=
  { machine.engine.traffic with calls := machine.stack.filter Frame.isTraffic }

namespace Traffic

/-- A batch enters the dispatch queue of a host, and a delivery loop begins unless one is there. -/
def dispatch (traffic : Traffic) (h : HostRef) (batch : Batch) : Traffic :=
  { traffic with
    depot := Function.update traffic.depot h
      { traffic.depot h with queue := (traffic.depot h).queue ++ [batch], draining := true }
    journal := traffic.journal ++ [.queued h batch.serial]
    calls := if (traffic.depot h).draining then traffic.calls else .drain h :: traffic.calls }

/-- A batch enters the deferred queue of a host. -/
def defer (traffic : Traffic) (h : HostRef) (batch : Batch) : Traffic :=
  { traffic with
    depot := Function.update traffic.depot h
      { traffic.depot h with deferred := (traffic.depot h).deferred ++ [batch] }
    journal := traffic.journal ++ [.deferred h batch.serial] }

end Traffic

namespace Engine

/-- Two stores have the same traffic if they agree on what it shows. -/
theorem traffic_congr {before after : Engine}
    (subscriptions : ∀ e, (after.executable e).subscriptions = (before.executable e).subscriptions)
    (destroyed : ∀ e, (after.executable e).destroyed = (before.executable e).destroyed)
    (hosts : after.hosts.length = before.hosts.length)
    (depot : ∀ h, (after.host h).depot = (before.host h).depot)
    (nextBatch : after.nextBatch = before.nextBatch)
    (journal : after.journal.toList.filter Occurrence.isTraffic =
      before.journal.toList.filter Occurrence.isTraffic) : after.traffic = before.traffic :=
  Traffic.ext (funext subscriptions) (funext destroyed) hosts (funext depot) nextBatch journal rfl

section

variable (engine : Engine)

/-- What is not about delivery does not show. -/
theorem traffic_note (minor : occurrence.isTraffic = false) :
    (engine.note occurrence).traffic = engine.traffic := by
  refine traffic_congr (fun _ => rfl) (fun _ => rfl) rfl (fun _ => rfl) rfl ?_
  simp [note, minor]

/-- What is about delivery is noted. -/
theorem traffic_note_major (major : occurrence.isTraffic = true) :
    (engine.note occurrence).traffic =
      { engine.traffic with journal := engine.traffic.journal ++ [occurrence] } := by
  refine Traffic.ext rfl rfl rfl rfl rfl ?_ rfl
  simp [traffic, note, major]

/-- A change of a host shows in its depot. -/
theorem traffic_modifyHost (opened : h < engine.hosts.length) (change : Host → Host) :
    (engine.modifyHost h change).traffic =
      { engine.traffic with
        depot := Function.update engine.traffic.depot h (change (engine.host h)).depot } :=
  Traffic.ext rfl rfl (by simp [traffic, modifyHost]) (read_modifyHost (·.depot) opened change)
    rfl rfl rfl

/-- A host may change outside its depot. -/
theorem traffic_modifyHost_of_same (h : HostRef) {change : Host → Host}
    (same : (change (engine.host h)).depot = (engine.host h).depot) :
    (engine.modifyHost h change).traffic = engine.traffic :=
  traffic_congr (fun _ => rfl) (fun _ => rfl) (by simp [modifyHost])
    (read_modifyHost_of_same (·.depot) same) rfl rfl

/-- A change of an executable shows in its listeners and its end. -/
theorem traffic_modifyExecutable (built : e < engine.executables.length)
    (change : Executable → Executable) :
    (engine.modifyExecutable e change).traffic =
      { engine.traffic with
        subscriptions := Function.update engine.traffic.subscriptions e
          (change (engine.executable e)).subscriptions
        destroyed := Function.update engine.traffic.destroyed e
          (change (engine.executable e)).destroyed } :=
  Traffic.ext (read_modifyExecutable (·.subscriptions) built change)
    (read_modifyExecutable (·.destroyed) built change) rfl rfl rfl rfl rfl

/-- An executable may change in all but listeners and end. -/
theorem traffic_modifyExecutable_of_same (e : ExecutableRef) {change : Executable → Executable}
    (subscriptions : (change (engine.executable e)).subscriptions =
      (engine.executable e).subscriptions)
    (destroyed : (change (engine.executable e)).destroyed = (engine.executable e).destroyed) :
    (engine.modifyExecutable e change).traffic = engine.traffic :=
  traffic_congr (read_modifyExecutable_of_same _ subscriptions)
    (read_modifyExecutable_of_same _ destroyed) rfl (fun _ => rfl) rfl rfl

/-- A change of the listeners shows. -/
theorem traffic_modifySubscriptions (built : e < engine.executables.length)
    (change : Subscriptions → Subscriptions) :
    (engine.modifySubscriptions e change).traffic =
      { engine.traffic with
        subscriptions := Function.update engine.traffic.subscriptions e
          (change (engine.traffic.subscriptions e)) } := by
  refine (engine.traffic_modifyExecutable built _).trans ?_
  exact Traffic.ext rfl (Function.update_eq_self e engine.traffic.destroyed) rfl rfl rfl rfl rfl

/-- A new executable without listeners does not show. -/
theorem traffic_addExecutable {added : Executable} (entries : added.subscriptions = {})
    (destroyed : added.destroyed = false) : (engine.addExecutable added).traffic = engine.traffic :=
  traffic_congr (read_addExecutable_of_same _ entries) (read_addExecutable_of_same _ destroyed)
    rfl (fun _ => rfl) rfl rfl

/-- A new executable does not show. -/
theorem traffic_addTemporary (h : HostRef) (work : Work) (handles : Nat) :
    (engine.addTemporary h work handles).traffic = engine.traffic :=
  (traffic_addExecutable _ rfl rfl).trans (engine.traffic_modifyHost_of_same h rfl)

/-- A new host shows with its settings. -/
theorem traffic_addHost (settings : Settings) (observer : Observer) :
    (engine.addHost settings observer).traffic =
      { engine.traffic with
        hosts := engine.traffic.hosts + 1
        depot := Function.update engine.traffic.depot engine.traffic.hosts
          { engine.traffic.depot engine.traffic.hosts with settings } } := by
  have vacant : engine.host engine.hosts.length = default := by
    simp [host, List.getD_eq_getElem?_getD]
  have blank : engine.traffic.depot engine.traffic.hosts = (default : Host).depot :=
    congrArg Host.depot vacant
  rw [blank]
  exact Traffic.ext rfl rfl (by simp [traffic, addHost])
    (read_addHost (·.depot) engine settings observer) rfl rfl rfl

/-- Waking sessions does not show. -/
theorem traffic_wake (h : HostRef) : (engine.wake h).traffic = engine.traffic := by
  unfold wake
  split <;> exact engine.traffic_modifyHost_of_same h rfl

/-- The end of a session does not show. -/
theorem traffic_endSession (k : SessionRef) : (engine.endSession k).traffic = engine.traffic := by
  have closed : (engine.modifySession k ({ · with phase := .finished })).traffic = engine.traffic :=
    rfl
  simp only [endSession]
  split
  · exact (traffic_modifyHost_of_same _ _ rfl).trans closed
  · exact (traffic_wake _ _).trans closed
  · exact closed

/-- A batch that is queued shows in the depot and the journal. -/
theorem traffic_enqueue (opened : h < engine.hosts.length) (batch : Batch) :
    (engine.enqueue h batch).traffic =
      { engine.traffic with
        depot := Function.update engine.traffic.depot h
          { engine.traffic.depot h with queue := (engine.traffic.depot h).queue ++ [batch] }
        journal := engine.traffic.journal ++ [.queued h batch.serial] } := by
  unfold enqueue
  rw [traffic_note_major _ rfl, traffic_modifyHost _ opened]
  rfl

/-- A batch that is put off shows. -/
theorem traffic_defer (opened : h < engine.hosts.length) (batch : Batch) :
    (engine.defer h batch).traffic = engine.traffic.defer h batch := by
  unfold defer
  rw [traffic_wake, traffic_note_major _ rfl, traffic_modifyHost _ opened]
  rfl

/-- A transition takes the listeners for one call, and is noted. -/
theorem traffic_transition (built : e < engine.executables.length) (status : Status) :
    (engine.transition e status).traffic =
      { engine.traffic with
        subscriptions := Function.update engine.traffic.subscriptions e
          ((engine.traffic.subscriptions e).settle status)
        journal := engine.traffic.journal ++
          [.transitioned e (engine.executable e).status status] } := by
  unfold transition modifyTally
  simp only
  rw [traffic_modifyHost_of_same _ _ rfl, traffic_note_major _ rfl,
    traffic_modifyExecutable _ built]
  exact Traffic.ext rfl (Function.update_eq_self e engine.traffic.destroyed) rfl rfl rfl rfl rfl

/-- Destruction shows, and takes the listeners. -/
theorem traffic_destroy (built : e < engine.executables.length) :
    (engine.destroy e).traffic =
      { engine.traffic with
        subscriptions := Function.update engine.traffic.subscriptions e
          (engine.traffic.subscriptions e).clear
        destroyed := Function.update engine.traffic.destroyed e true } := by
  have marked := engine.traffic_modifyExecutable built Executable.destroy
  unfold destroy modifyTally
  simp only
  rw [traffic_modifyHost_of_same _ _ rfl]
  split
  · rw [traffic_note _ rfl, traffic_modifyHost_of_same _ _ rfl, marked]
    rfl
  · exact marked

end

end Engine

namespace Machine

variable {machine : Machine}

section

variable (machine : Machine)

/-- A change of the store leaves the calls. -/
theorem traffic_update (change : Engine → Engine) :
    (machine.update change).traffic =
      { (change machine.engine).traffic with calls := machine.traffic.calls } :=
  rfl

/-- A change of the store that does not show in it does not show. -/
theorem traffic_update_of_same {change : Engine → Engine}
    (same : (change machine.engine).traffic = machine.engine.traffic) :
    (machine.update change).traffic = machine.traffic := by
  rw [traffic_update, same]
  rfl

/-- A delivery loop's claim on the queue shows as it is given up. -/
theorem traffic_modifyDraining (h : HostRef) :
    (machine.update (·.modifyHost h ({ · with draining := false }))).traffic =
      { machine.traffic with
        depot := Function.update machine.traffic.depot h
          { machine.traffic.depot h with draining := false } } := by
  rw [traffic_update]
  by_cases opened : h < machine.engine.hosts.length
  · rw [Engine.traffic_modifyHost _ opened]
    rfl
  · -- A host that is not open has no such claim.
    have blank : machine.engine.host h = default := by
      by_contra used
      exact opened (Engine.host_lt_of_ne_default used)
    rw [Engine.traffic_modifyHost_of_same _ _ (by rw [blank]; rfl)]
    have same : ({ machine.traffic.depot h with draining := false } : Host) =
        machine.traffic.depot h := by
      show ({ (machine.engine.host h).depot with draining := false } : Host) =
        (machine.engine.host h).depot
      rw [blank]
      rfl
    rw [same, Function.update_eq_self]
    rfl

/-- What is not about delivery does not show. -/
theorem traffic_note (minor : occurrence.isTraffic = false) :
    (machine.note occurrence).traffic = machine.traffic :=
  machine.traffic_update_of_same (machine.engine.traffic_note minor)

/-- What is about delivery is noted. -/
theorem traffic_note_major (major : occurrence.isTraffic = true) :
    (machine.note occurrence).traffic =
      { machine.traffic with journal := machine.traffic.journal ++ [occurrence] } := by
  unfold note
  rw [traffic_update, Engine.traffic_note_major _ major]
  rfl

/-- A frame that delivers nothing does not show. -/
theorem traffic_push_plain (plain : frame.isTraffic = false) :
    (machine.push frame).traffic = machine.traffic := by
  refine Traffic.ext rfl rfl rfl rfl rfl rfl ?_
  simp [traffic, push, plain]

/-- A frame that delivers something shows on top. -/
theorem traffic_push (major : frame.isTraffic = true) :
    (machine.push frame).traffic =
      { machine.traffic with calls := frame :: machine.traffic.calls } := by
  refine Traffic.ext rfl rfl rfl rfl rfl rfl ?_
  simp [traffic, push, major]

end

/-- The frame on top may be set apart. -/
theorem traffic_of_stack {rest : List Frame} (stands : machine.stack = frame :: rest)
    (major : frame.isTraffic = true) : machine.traffic =
      { ({ machine with stack := rest } : Machine).traffic with
        calls := frame :: ({ machine with stack := rest } : Machine).traffic.calls } := by
  rw [← traffic_push _ major]
  simp only [traffic, push, stands]

/-- A frame on top that delivers nothing may be left out. -/
theorem traffic_of_stack_plain {rest : List Frame} (stands : machine.stack = frame :: rest)
    (plain : frame.isTraffic = false) :
    machine.traffic = ({ machine with stack := rest } : Machine).traffic := by
  rw [← traffic_push_plain { machine with stack := rest } plain]
  simp only [traffic, push, stands]

/-- What is answered does not show. -/
@[simp] theorem traffic_resume (machine : Machine) (answer : Answer) :
    (machine.resume answer).traffic = machine.traffic :=
  rfl

/-- What is asked for does not show. -/
@[simp] theorem traffic_perform (machine : Machine) (command : Command) :
    (machine.perform command).traffic = machine.traffic :=
  rfl

/-- A call of a client that is not told anything does not show. -/
theorem traffic_callClient (machine : Machine) {callback : Callback}
    (plain : (Frame.client callback).isTraffic = false) :
    (machine.callClient callback).traffic = machine.traffic :=
  machine.traffic_push_plain plain

/-- The observer shows while it is told. -/
theorem traffic_notify (machine : Machine) (h : HostRef) (notice : Notice) :
    ∃ told, notice.Told told ∧ (machine.notify h notice).traffic =
      { machine.traffic with calls := told ++ machine.traffic.calls } := by
  have noted : (machine.note (.observed h notice)).traffic = machine.traffic :=
    machine.traffic_note rfl
  unfold notify
  cases (machine.engine.host h).observer with
  | silent | tracing => exact ⟨[], .inl rfl, noted⟩
  | client code =>
    refine ⟨[.client (.observer code notice)], .inr ⟨code, rfl⟩, ?_⟩
    have called : ((machine.note (.observed h notice)).push
        (.client (.observer code notice))).traffic = _ := traffic_push _ rfl
    exact called.trans (by rw [noted]; rfl)

end Machine

end Readiness
