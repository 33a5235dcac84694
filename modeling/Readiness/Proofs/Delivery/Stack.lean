import Mathlib.Data.List.Count
import Readiness.Proofs.Delivery.Change
import Readiness.Proofs.Delivery.Simulation

/-! The calls of delivery stand on one another in one way only, and a host has at most one delivery
loop.

A listener is called from a batch, and a batch from the delivery loop of its host. The loop has the
host's claim on the queue, which no second loop can get until it is given up.
-/

namespace Readiness

open List

variable {notice : Notice} {told : List Frame} {store : Engine}

/-- The call of a listener, if the event is about an executable of this host. -/
def Frame.call? (store : Engine) (h : HostRef) : Frame → Option Call
  | .guard serial event delivery =>
    if (store.executable event.source).host = h then some ⟨serial, event, delivery⟩ else none
  | _ => none

/-- The batch that is being delivered, if it is one of this host. -/
def Frame.batch? (store : Engine) (h : HostRef) : Frame → Option Batch
  | .deliver batch =>
    if (store.executable batch.event.source).host = h then some batch else none
  | _ => none

/-- How the calls that have to do with delivery stand on one another, innermost first. -/
inductive Stacked (store : Engine) : List Frame → Prop where
  | empty : Stacked store []
  | observer {code : CodeRef} {notice : Notice} {calls : List Frame}
    (calm : ∀ frame ∈ calls.head?, frame.isTelling = false) (stacked : Stacked store calls) :
    Stacked store (.client (.observer code notice) :: calls)
  | announce {e : ExecutableRef} {transition : Transition} {entries : List Entry}
    {calls : List Frame} (calm : ∀ frame ∈ calls.head?, frame.isTelling = false)
    (stacked : Stacked store calls) : Stacked store (.announce e transition entries :: calls)
  | told {code : CodeRef} {e : ExecutableRef} {transition : Transition} {entries : List Entry}
    {calls : List Frame} (stacked : Stacked store (.announce e transition entries :: calls)) :
    Stacked store (.client (.observer code (.transitioned e transition.old transition.new)) ::
      .announce e transition entries :: calls)
  | drain {h : HostRef} {calls : List Frame}
    (calm : ∀ frame ∈ calls.head?, frame.isTelling = false) (stacked : Stacked store calls) :
    Stacked store (.drain h :: calls)
  | deliver {batch : Batch} {h : HostRef} {calls : List Frame}
    (home : (store.executable batch.event.source).host = h)
    (stacked : Stacked store (.drain h :: calls)) :
    Stacked store (.deliver batch :: .drain h :: calls)
  | guard {batch : Batch} {delivery : Delivery} {calls : List Frame}
    (stacked : Stacked store (.deliver batch :: calls)) :
    Stacked store (.guard batch.serial batch.event delivery :: .deliver batch :: calls)
  | fault {batch : Batch} {code : CodeRef} {status : Status} {why : ListenerFault}
    {calls : List Frame} (stacked : Stacked store (.deliver batch :: calls)) :
    Stacked store (.client (.observer code
      (.listenerFailed batch.event.source status why)) :: .deliver batch :: calls)

namespace Stacked

variable {calls : List Frame} {h : HostRef}

theorem tail {frame : Frame} (stacked : Stacked store (frame :: calls)) : Stacked store calls := by
  cases stacked with
  | observer _ stacked | announce _ stacked | told stacked | drain _ stacked | deliver _ stacked
  | guard stacked | fault stacked => exact stacked

/-- Where no delivery loop of a host is at work, none of its batches is being delivered. -/
theorem batches_eq_nil (stacked : Stacked store calls) (idle : .drain h ∉ calls) :
    calls.filterMap (Frame.batch? store h) = [] := by
  induction stacked with
  | empty => rfl
  | observer _ _ ih | announce _ _ ih | told _ ih | drain _ _ ih | guard _ ih | fault _ ih =>
    exact ih fun member => idle (mem_cons_of_mem _ member)
  | @deliver batch other _ home _ ih =>
    have elsewhere : (store.executable batch.event.source).host ≠ h := by
      rintro rfl
      exact idle (by simp [home])
    rw [filterMap_cons_none (by simp [Frame.batch?, elsewhere])]
    exact ih fun member => idle (mem_cons_of_mem _ member)

/-- With one delivery loop a host delivers one batch at a time. -/
theorem batch_unique (stacked : Stacked store calls) (one : calls.count (.drain h) ≤ 1)
    {left right : Batch} (first : left ∈ calls.filterMap (Frame.batch? store h))
    (second : right ∈ calls.filterMap (Frame.batch? store h)) : left = right := by
  induction stacked with
  | empty => cases first
  | observer _ _ ih | announce _ _ ih | told _ ih | guard _ ih | fault _ ih =>
    exact ih (by simpa using one) first second
  | drain _ _ ih => exact ih (Nat.le_trans (count_le_count_cons ..) one) first second
  | @deliver batch other rest home stacked ih =>
    by_cases here : (store.executable batch.event.source).host = h
    · have same : other = h := home.symm.trans here
      subst same
      have idle : .drain other ∉ rest := by
        rw [← count_eq_zero]
        simpa using one
      have alone : rest.filterMap (Frame.batch? store other) = [] :=
        stacked.tail.batches_eq_nil idle
      rw [filterMap_cons_some (by simp [Frame.batch?, here] : _ = some batch),
        filterMap_cons_none rfl, alone, mem_singleton] at first second
      rw [first, second]
    · rw [filterMap_cons_none (by simp [Frame.batch?, here])] at first second
      exact ih (by simpa using one) first second

/-- Where no batch of a host is being delivered, no listener is being called for one. -/
theorem calls_eq_nil (stacked : Stacked store calls)
    (idle : calls.filterMap (Frame.batch? store h) = []) :
    calls.filterMap (Frame.call? store h) = [] := by
  rw [filterMap_eq_nil_iff] at idle ⊢
  induction stacked with
  | empty => intro _ member; cases member
  | @guard batch delivery _ _ ih =>
    intro frame member
    rcases mem_cons.mp member with rfl | later
    · -- The batch that the listener is called for is of the same host.
      have none_here := idle (.deliver batch) (by simp)
      simp only [Frame.batch?, ite_eq_right_iff, reduceCtorEq, imp_false] at none_here
      simp [Frame.call?, none_here]
    · exact ih (fun frame member => idle frame (mem_cons_of_mem _ member)) frame later
  | observer _ _ ih | announce _ _ ih | told _ ih | drain _ _ ih | deliver _ _ ih | fault _ ih =>
    intro frame member
    rcases mem_cons.mp member with rfl | later
    · rfl
    · exact ih (fun frame member => idle frame (mem_cons_of_mem _ member)) frame later

end Stacked

/-- Batches wait with the host of their source, the calls stand on one another as they should, and a
host is draining exactly while it has a delivery loop. -/
structure Layered (store : Engine) (depot : HostRef → Host) (calls : List Frame) : Prop where
  homed : ∀ h, ∀ batch ∈ (depot h).queue ++ (depot h).deferred,
    (store.executable batch.event.source).host = h
  /-- The calls stand on one another as they should. -/
  stacked : Stacked store calls
  loops : ∀ h, calls.count (.drain h) = (depot h).draining.toNat

theorem Notice.Told.count_drain (telling : notice.Told told) (h : HostRef) (calls : List Frame) :
    (told ++ calls).count (.drain h) = calls.count (.drain h) := by
  rcases telling with rfl | ⟨code, rfl⟩
  · rfl
  · simp

theorem Notice.Told.stacked {calls : List Frame} (telling : notice.Told told)
    (calm : ∀ frame ∈ calls.head?, frame.isTelling = false) (stacked : Stacked store calls) :
    Stacked store (told ++ calls) := by
  rcases telling with rfl | ⟨code, rfl⟩
  · exact stacked
  · exact .observer calm stacked

namespace Layered

variable {depot : HostRef → Host} {calls after : List Frame} {h : HostRef} {batch : Batch}
  {changed : Host}

section

variable (layered : Layered store depot calls)
include layered

theorem draining_iff : (depot h).draining = true ↔ .drain h ∈ calls := by
  rw [← count_pos_iff, layered.loops h]
  cases (depot h).draining with
  | true => simp
  | false => simp

theorem of_calls (stacked : Stacked store after)
    (same : ∀ h, after.count (.drain h) = calls.count (.drain h)) : Layered store depot after :=
  ⟨layered.homed, stacked, fun h => (same h).trans (layered.loops h)⟩

/-- A host may change, with the delivery loops, if only batches of its own are added. -/
theorem of_depot (homed : ∀ batch ∈ changed.queue ++ changed.deferred,
      batch ∈ (depot h).queue ++ (depot h).deferred ∨
        (store.executable batch.event.source).host = h) (stacked : Stacked store after)
    (own : after.count (.drain h) = changed.draining.toNat)
    (same : ∀ other, other ≠ h → after.count (.drain other) = calls.count (.drain other)) :
    Layered store (Function.update depot h changed) after := by
  refine ⟨fun other batch listed => ?_, stacked, fun other => ?_⟩
  · by_cases here : other = h
    · subst here
      rw [Function.update_self] at listed
      exact (homed batch listed).elim (layered.homed other batch) id
    · rw [Function.update_of_ne here] at listed
      exact layered.homed other batch listed
  · by_cases here : other = h
    · subst here
      rw [Function.update_self]
      exact own
    · rw [Function.update_of_ne here]
      exact (same other here).trans (layered.loops other)

theorem dispatch (calm : ∀ frame ∈ calls.head?, frame.isTelling = false)
    (home : (store.executable batch.event.source).host = h) :
    Layered store
      (Function.update depot h
        { depot h with queue := (depot h).queue ++ [batch], draining := true })
      (if (depot h).draining then calls else .drain h :: calls) := by
  have before := layered.loops h
  refine layered.of_depot (fun other listed => ?_) ?_ ?_ fun other distinct => ?_
  · simp only [mem_append, mem_singleton] at listed ⊢
    rcases listed with (old | rfl) | old
    · exact .inl (.inl old)
    · exact .inr home
    · exact .inl (.inr old)
  · split
    · exact layered.stacked
    · exact .drain calm layered.stacked
  · cases busy : (depot h).draining <;> simp_all
  · split
    · rfl
    · exact count_cons_of_ne (by simpa using Ne.symm distinct)

theorem defer (home : (store.executable batch.event.source).host = h) :
    Layered store
      (Function.update depot h { depot h with deferred := (depot h).deferred ++ [batch] })
      calls := by
  refine layered.of_depot (fun other listed => ?_) layered.stacked (layered.loops h) fun _ _ => rfl
  simp only [mem_append, mem_singleton] at listed ⊢
  rcases listed with old | old | rfl
  · exact .inl (.inl old)
  · exact .inl (.inr old)
  · exact .inr home

/-- Batches may be taken out of the queues. -/
theorem of_fewer (fewer : ∀ batch ∈ changed.queue ++ changed.deferred,
      batch ∈ (depot h).queue ++ (depot h).deferred)
    (claim : changed.draining = (depot h).draining) :
    Layered store (Function.update depot h changed) calls :=
  layered.of_depot (fun batch listed => .inl (fewer batch listed)) layered.stacked
    (by rw [claim]; exact layered.loops h) fun _ _ => rfl

end

/-- A delivery loop may end, and gives up the claim on the queue. -/
theorem close (layered : Layered store depot (.drain h :: calls)) :
    Layered store (Function.update depot h { depot h with draining := false }) calls := by
  refine layered.of_depot (fun batch listed => .inl listed) layered.stacked.tail ?_
    fun other distinct => (count_cons_of_ne (by simpa using Ne.symm distinct)).symm
  -- There was one loop, and it is this one.
  have before := layered.loops h
  cases busy : (depot h).draining <;> simp_all

theorem not_mem_of_drain (layered : Layered store depot (.drain h :: calls)) :
    .drain h ∉ calls := by
  intro more
  have one := layered.loops h
  have two := count_pos_iff.mpr more
  have bound := Bool.toNat_le (depot h).draining
  rw [count_cons_self] at one
  omega

/-- Under a batch that is being delivered there is no other of the same host. -/
theorem batches_below (layered : Layered store depot (.deliver batch :: calls))
    (home : (store.executable batch.event.source).host = h) :
    calls.filterMap (Frame.batch? store h) = [] := by
  cases stands : layered.stacked with
  | @deliver _ loop rest same stacked =>
    have same : loop = h := same.symm.trans home
    subst same
    have idle := (layered.of_calls stacked fun h => by simp).not_mem_of_drain
    rw [filterMap_cons_none rfl]
    exact stacked.tail.batches_eq_nil idle

variable {given : Surroundings} {traffic next : Traffic}

/-- Every step keeps the calls in order. -/
theorem step (layered : Layered given.store traffic.depot traffic.calls)
    (step : given.Step traffic next) : Layered given.store next.depot next.calls := by
  have stacked := layered.stacked
  cases step with
  | pass | subscribe | unsubscribe => exact layered
  | openHost settings => exact layered.of_fewer (fun _ listed => listed) rfl
  | @move e transition told real calm free telling =>
    have announced : Stacked given.store (.announce e transition
        ((traffic.subscriptions e).due transition.new) :: traffic.calls) := .announce calm stacked
    refine layered.of_calls ?_ fun h => (telling.count_drain h _).trans (by simp)
    rcases telling with rfl | ⟨code, rfl⟩
    · exact announced
    · exact .told announced
  | tell calm free telling | destroy calm free telling =>
    exact layered.of_calls (telling.stacked calm stacked) fun h => telling.count_drain h _
  | hear top | hush top | finish top =>
    rw [top] at stacked
    exact layered.of_calls stacked.tail fun h => by simp [top]
  | post top some_due opened prompt =>
    rw [top] at stacked
    cases stacked with
    | announce calm stacked =>
      exact (layered.of_calls stacked fun h => by simp [top]).dispatch calm rfl
  | putOff top some_due opened later =>
    rw [top] at stacked
    exact (layered.of_calls stacked.tail fun h => by simp [top]).defer rfl
  | listen asked opened more => exact layered.defer rfl
  | @pump h batch others asked opened first calm free =>
    have popped : Layered given.store
        (Function.update traffic.depot h { traffic.depot h with deferred := others })
        traffic.calls := by
      refine layered.of_fewer (fun batch listed => ?_) rfl
      simp only [mem_append, first, mem_cons] at listed ⊢
      exact listed.imp_right .inr
    exact popped.dispatch calm (layered.homed h batch (by simp [first]))
  | @take h batch others calls top opened first =>
    have taken : Layered given.store
        (Function.update traffic.depot h { traffic.depot h with queue := others })
        traffic.calls := by
      refine layered.of_fewer (fun batch listed => ?_) rfl
      simp only [mem_append, first, mem_cons] at listed ⊢
      exact listed.imp_left .inr
    refine taken.of_calls ?_ fun other => count_cons_of_ne (by simp)
    rw [top] at stacked ⊢
    exact .deliver (layered.homed h batch (by simp [first])) stacked
  | close top why =>
    rw [top] at layered
    exact layered.close
  | @invoke batch delivery others calls top left there =>
    rw [top] at stacked
    refine layered.of_calls ?_ fun h => by simp [top]
    cases stacked with
    | deliver home stacked =>
      have rest : Stacked given.store (.deliver { batch with deliveries := others } :: _) :=
        .deliver home stacked
      exact .guard rest
  | @settle serial event delivery fault told calls top telling =>
    -- The guard goes, and the observer may be told on top of the batch.
    rw [top] at stacked
    refine layered.of_calls ?_ fun h => ?_
    · cases stacked with
      | guard stacked =>
        rcases telling with rfl | ⟨why, rfl | ⟨code, rfl⟩⟩
        · exact stacked
        · exact stacked
        · exact .fault stacked
    · rcases telling with rfl | ⟨why, telling⟩
      · simp [top]
      · rw [telling.count_drain]
        simp [top]

end Layered

/-- In every state of every run the calls stand on one another as they should. -/
theorem Machine.Reachable.layered {machine : Machine} (reachable : machine.Reachable)
    (grown : machine.engine.Extends store) :
    Layered store machine.traffic.depot machine.traffic.calls := by
  refine reachable.traffic_invariant grown (motive := fun traffic =>
    Layered store traffic.depot traffic.calls) ⟨?_, .empty, fun h => rfl⟩
    fun same step layered => ?_
  · intro h batch listed
    cases listed
  · subst same
    exact layered.step step

end Readiness
