import Readiness.Proofs.Delivery.Traffic
import Readiness.Proofs.Subscription.Numbered

/-! The rules of delivery: what can become of the traffic in one step, whatever the client does.

A transition is announced to the observer first. Then its calls go as one batch to the dispatch
queue of their host, or to its deferred queue, from where they enter the dispatch queue later. The
delivery loop of the host takes one batch after the other from the dispatch queue, and makes the
calls of each in turn.
-/

namespace Readiness

theorem Host.field_update {α : Type} (field : Host → α) {depot : HostRef → Host} {h : HostRef}
    {changed : Host} (same : field changed = field (depot h)) (other : HostRef) :
    field (Function.update depot h changed other) = field (depot other) := by
  by_cases here : other = h
  · subst here
    rw [Function.update_self, same]
  · rw [Function.update_of_ne here]

/-- What the rules leave open about a step. -/
structure Surroundings where
  /-- A later store, to look up what never changes. -/
  store : Engine
  /-- The frames that a panic ends. -/
  loses : Frame → Prop
  /-- What an observer has been told that calls the engine. -/
  reenters : Notice → Prop
  /-- Who asks to be called if an executable is ready. -/
  listens : ExecutableRef → Listener → Prop
  /-- The hosts whose deferred batches are asked for. -/
  pumps : HostRef → Prop

namespace Traffic

/-- No frame on top waits until someone has been told, so any call may begin. -/
def Calm (traffic : Traffic) : Prop :=
  ∀ frame ∈ traffic.calls.head?, frame.isTelling = false

/-- An executable moves, and its observer is told first. -/
def move (traffic : Traffic) (told : List Frame) (e : ExecutableRef) (transition : Transition) :
    Traffic :=
  { traffic with
    subscriptions := Function.update traffic.subscriptions e
      ((traffic.subscriptions e).settle transition.new)
    journal := traffic.journal ++ [.transitioned e transition.old transition.new]
    calls := told ++ .announce e transition ((traffic.subscriptions e).due transition.new) ::
      traffic.calls }

end Traffic

namespace Surroundings

/-- The host of an executable. -/
def home (given : Surroundings) (e : ExecutableRef) : HostRef :=
  (given.store.executable e).host

/-- Only an observer that calls the engine is in the way of a new call. -/
def Free (given : Surroundings) (traffic : Traffic) : Prop :=
  ∀ code notice rest, traffic.calls = .client (.observer code notice) :: rest →
    given.reenters notice

/-- The batch of the entries that are due on a transition. -/
def batch (given : Surroundings) (traffic : Traffic) (e : ExecutableRef) (transition : Transition)
    (entries : List Entry) : Batch :=
  ⟨traffic.nextBatch, transition.event e,
    (traffic.depot (given.home e)).arrange (entries.map Entry.delivery)⟩

/-- Whether the batch of a transition is put off. -/
def defers (given : Surroundings) (traffic : Traffic) (e : ExecutableRef) (transition : Transition)
    (entries : List Entry) : Bool :=
  (traffic.depot (given.home e)).defers (entries.map Entry.delivery)
    (decide (transition.new = (given.store.executable e).readyStatus))

/-- What can become of the traffic in one step. -/
inductive Step (given : Surroundings) (traffic : Traffic) : Traffic → Prop where
  | pass : Step given traffic traffic
  | openHost (settings : Settings) :
    Step given traffic
      { traffic with
        hosts := traffic.hosts + 1
        depot := Function.update traffic.depot traffic.hosts
          { traffic.depot traffic.hosts with settings } }
  | subscribe {e : ExecutableRef} {grown : Subscriptions}
    (more : (traffic.subscriptions e).Grown grown) :
    Step given traffic
      { traffic with subscriptions := Function.update traffic.subscriptions e grown }
  | unsubscribe {e : ExecutableRef} (keep : Status → Entry → Bool) :
    Step given traffic
      { traffic with
        subscriptions := Function.update traffic.subscriptions e
          ((traffic.subscriptions e).restrict keep) }
  | move {e : ExecutableRef} {transition : Transition} {told : List Frame}
    (real : transition.new ≠ .null) (calm : traffic.Calm) (free : given.Free traffic)
    (telling : (Notice.transitioned e transition.old transition.new).Told told) :
    Step given traffic (traffic.move told e transition)
  | tell {notice : Notice} {told : List Frame} (calm : traffic.Calm)
    (free : given.Free traffic) (telling : notice.Told told) :
    Step given traffic { traffic with calls := told ++ traffic.calls }
  | hear {code : CodeRef} {notice : Notice} {calls : List Frame}
    (top : traffic.calls = .client (.observer code notice) :: calls) :
    Step given traffic { traffic with calls := calls }
  | hush {e : ExecutableRef} {transition : Transition} {entries : List Entry}
    {calls : List Frame} (top : traffic.calls = .announce e transition entries :: calls)
    (why : entries = [] ∨ given.loses (.announce e transition entries)) :
    Step given traffic { traffic with calls := calls }
  | post {e : ExecutableRef} {transition : Transition} {entries : List Entry}
    {calls : List Frame} (top : traffic.calls = .announce e transition entries :: calls)
    (some_due : entries ≠ []) (opened : given.home e < traffic.hosts)
    (prompt : given.defers traffic e transition entries = false) :
    Step given traffic
      (Traffic.dispatch { traffic with nextBatch := traffic.nextBatch + 1, calls := calls }
        (given.home e) (given.batch traffic e transition entries))
  | putOff {e : ExecutableRef} {transition : Transition} {entries : List Entry}
    {calls : List Frame} (top : traffic.calls = .announce e transition entries :: calls)
    (some_due : entries ≠ []) (opened : given.home e < traffic.hosts)
    (later : given.defers traffic e transition entries = true) :
    Step given traffic
      (Traffic.defer { traffic with nextBatch := traffic.nextBatch + 1, calls := calls }
        (given.home e) (given.batch traffic e transition entries))
  | listen {e : ExecutableRef} {listener : Listener} {grown : Subscriptions}
    (asked : given.listens e listener) (opened : given.home e < traffic.hosts)
    (more : (traffic.subscriptions e).Grown grown) :
    Step given traffic
      (Traffic.defer
        { traffic with
          subscriptions := Function.update traffic.subscriptions e grown
          nextBatch := traffic.nextBatch + 1 }
        (given.home e)
        ⟨traffic.nextBatch, ⟨e, (given.store.executable e).readyStatus,
          (given.store.executable e).readyStatus⟩, [⟨listener, none⟩]⟩)
  | pump {h : HostRef} {batch : Batch} {others : List Batch}
    (asked : given.pumps h) (opened : h < traffic.hosts)
    (first : (traffic.depot h).deferred = batch :: others)
    (calm : traffic.Calm) (free : given.Free traffic) :
    Step given traffic
      (Traffic.dispatch
        { traffic with
          depot := Function.update traffic.depot h { traffic.depot h with deferred := others } }
        h batch)
  | take {h : HostRef} {batch : Batch} {others : List Batch}
    {calls : List Frame} (top : traffic.calls = .drain h :: calls) (opened : h < traffic.hosts)
    (first : (traffic.depot h).queue = batch :: others) :
    Step given traffic
      { traffic with
        depot := Function.update traffic.depot h { traffic.depot h with queue := others }
        journal := traffic.journal ++ [.opened h batch.serial]
        calls := .deliver batch :: traffic.calls }
  | close {h : HostRef} {calls : List Frame} (top : traffic.calls = .drain h :: calls)
    (why : (traffic.depot h).queue = [] ∨ given.loses (.drain h)) :
    Step given traffic
      { traffic with
        depot := Function.update traffic.depot h { traffic.depot h with draining := false }
        calls := calls }
  | invoke {batch : Batch} {delivery : Delivery} {others : List Delivery}
    {calls : List Frame} (top : traffic.calls = .deliver batch :: calls)
    (next : batch.deliveries = delivery :: others)
    (there : traffic.destroyed batch.event.source = false) :
    Step given traffic
      { traffic with
        journal := traffic.journal ++ [.invoked batch.serial batch.event delivery]
        calls := .guard batch.serial batch.event delivery ::
          .deliver { batch with deliveries := others } :: calls }
  | settle {serial : Nat} {event : Event} {delivery : Delivery}
    {fault : Option ListenerFault} {told calls : List Frame}
    (top : traffic.calls = .guard serial event delivery :: calls)
    (telling : told = [] ∨
      ∃ why, (Notice.listenerFailed event.source event.status why).Told told) :
    Step given traffic
      { traffic with
        journal := traffic.journal ++ [.returned serial event delivery fault]
        calls := told ++ calls }
  /-- A batch is done with: all its calls are made, or its source is destroyed, or an observer has
  panicked. -/
  | finish {batch : Batch} {calls : List Frame} (top : traffic.calls = .deliver batch :: calls)
    (why : batch.deliveries = [] ∨ traffic.destroyed batch.event.source = true ∨
      given.loses (.deliver batch)) : Step given traffic { traffic with calls := calls }
  | destroy {e : ExecutableRef} {told : List Frame} (calm : traffic.Calm)
    (free : given.Free traffic) (telling : (Notice.destroyed e).Told told) :
    Step given traffic
      { traffic with
        subscriptions := Function.update traffic.subscriptions e (traffic.subscriptions e).clear
        destroyed := Function.update traffic.destroyed e true
        calls := told ++ traffic.calls }

end Surroundings

end Readiness
