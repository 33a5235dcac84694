import Readiness.Proofs.Delivery.Rules

/-! What one step can do to a single part of the traffic. -/

namespace Readiness

open List Function

variable {batch new : Batch} {frame : Frame} {h other : HostRef} {traffic : Traffic}

/-- One call of a listener, made for a batch. -/
structure Call where
  /-- The serial number of the batch. -/
  batch : Nat
  /-- What the listener is told. -/
  event : Event
  /-- Who is called, and for which entry. -/
  delivery : Delivery
  deriving DecidableEq

/-- The call of a listener that begins. -/
def Occurrence.call? : Occurrence → Option Call
  | .invoked serial event delivery => some ⟨serial, event, delivery⟩
  | _ => none

/-- The calls of listeners so far. -/
def callsIn (journal : List Occurrence) : List Call :=
  journal.filterMap Occurrence.call?

theorem callsIn_invoked (journal : List Occurrence) (serial : Nat) (event : Event)
    (delivery : Delivery) : callsIn (journal ++ [.invoked serial event delivery]) =
      callsIn journal ++ [⟨serial, event, delivery⟩] := by
  simp [callsIn, Occurrence.call?]

theorem callsIn_note {journal : List Occurrence} {occurrence : Occurrence}
    (other : occurrence.call? = none) : callsIn (journal ++ [occurrence]) = callsIn journal := by
  simp [callsIn, other]

theorem Traffic.mem_of_mem_dispatch (member : frame ∈ (traffic.dispatch h batch).calls)
    (other : frame ≠ .drain h) : frame ∈ traffic.calls := by
  simp only [dispatch] at member
  split at member
  · exact member
  · exact (mem_cons.mp member).resolve_left other

theorem Traffic.mem_dispatch_of_mem (member : frame ∈ traffic.calls) :
    frame ∈ (traffic.dispatch h batch).calls := by
  simp only [dispatch]
  split
  · exact member
  · exact mem_cons_of_mem _ member

/-- A batch that waits once another one has entered a queue has waited before, or is that one. -/
theorem Traffic.mem_dispatch_batches :
    batch ∈ ((traffic.dispatch other new).depot h).queue ++
        ((traffic.dispatch other new).depot h).deferred ↔
      batch ∈ (traffic.depot h).queue ++ (traffic.depot h).deferred ∨ other = h ∧ batch = new := by
  simp only [dispatch, update_apply]
  split
  · rename_i here
    subst here
    simp only [mem_append, mem_singleton, true_and]
    tauto
  · rename_i away
    simp [Ne.symm away]

theorem Traffic.mem_defer_batches :
    batch ∈ ((traffic.defer other new).depot h).queue ++
        ((traffic.defer other new).depot h).deferred ↔
      batch ∈ (traffic.depot h).queue ++ (traffic.depot h).deferred ∨ other = h ∧ batch = new := by
  simp only [defer, update_apply]
  split
  · rename_i here
    subst here
    simp only [mem_append, mem_singleton, true_and, or_assoc]
  · rename_i away
    simp [Ne.symm away]

theorem Notice.Told.mem {notice : Notice} {told calls : List Frame} (telling : notice.Told told)
    (member : frame ∈ told ++ calls) : frame ∈ calls ∨ ∃ callback, frame = .client callback := by
  rcases telling with rfl | ⟨code, rfl⟩
  · exact .inl member
  · rcases mem_cons.mp member with rfl | old
    · exact .inr ⟨_, rfl⟩
    · exact .inl old

/-- A call that was not there before. -/
inductive Surroundings.NewCall (traffic : Traffic) : Frame → Prop where
  | observer (callback : Callback) : NewCall traffic (.client callback)
  | announce (e : ExecutableRef) {transition : Transition} (real : transition.new ≠ .null) :
    NewCall traffic (.announce e transition ((traffic.subscriptions e).due transition.new))
  | drain (h : HostRef) : NewCall traffic (.drain h)
  | deliver {h : HostRef} {batch : Batch} {others : List Batch}
    (first : (traffic.depot h).queue = batch :: others) : NewCall traffic (.deliver batch)
  | guard {batch : Batch} {delivery : Delivery} {others : List Delivery}
    (current : .deliver batch ∈ traffic.calls) (next : batch.deliveries = delivery :: others)
    (there : traffic.destroyed batch.event.source = false) :
    NewCall traffic (.guard batch.serial batch.event delivery)
  | rest {batch : Batch} {delivery : Delivery} {others : List Delivery}
    (current : .deliver batch ∈ traffic.calls) (next : batch.deliveries = delivery :: others) :
    NewCall traffic (.deliver { batch with deliveries := others })

namespace Surroundings.Step

variable {given : Surroundings} {next : Traffic} {e : ExecutableRef}

variable (step : given.Step traffic next)
include step

/-- A call that is going on was so before, or it is one of those that a step can begin. -/
theorem mem_calls (member : frame ∈ next.calls) :
    frame ∈ traffic.calls ∨ NewCall traffic frame := by
  have told {notice : Notice} {told calls : List Frame} (telling : notice.Told told)
      (member : frame ∈ told ++ calls) : frame ∈ calls ∨ NewCall traffic frame := by
    rcases telling.mem member with old | ⟨callback, rfl⟩
    · exact .inl old
    · exact .inr (.observer callback)
  have dispatched {before : Traffic} {h : HostRef} {batch : Batch}
      (member : frame ∈ (before.dispatch h batch).calls) :
      frame ∈ before.calls ∨ NewCall traffic frame := by
    by_cases loop : frame = .drain h
    · exact .inr (loop ▸ .drain h)
    · exact .inl (Traffic.mem_of_mem_dispatch member loop)
  cases step with
  | @move e transition _ real calm free telling =>
    rcases told telling member with old | new
    · rcases mem_cons.mp old with rfl | old
      · exact .inr (.announce e real)
      · exact .inl old
    · exact .inr new
  | tell calm free telling | destroy calm free telling => exact told telling member
  | hear top | hush top | finish top | close top | putOff top =>
    rw [top]
    exact .inl (mem_cons_of_mem _ member)
  | post top =>
    rw [top]
    exact (dispatched member).imp_left (mem_cons_of_mem _)
  | pump => exact (dispatched member).imp_left id
  | take top opened first =>
    rcases mem_cons.mp member with rfl | old
    · exact .inr (.deliver first)
    · exact .inl old
  | @invoke batch delivery others calls top left there =>
    have current : .deliver batch ∈ traffic.calls := by
      rw [top]
      exact mem_cons_self ..
    rcases mem_cons.mp member with rfl | rest
    · exact .inr (.guard current left there)
    · rcases mem_cons.mp rest with rfl | old
      · exact .inr (.rest current left)
      · rw [top]
        exact .inl (mem_cons_of_mem _ old)
  | settle top telling =>
    rw [top]
    rcases telling with rfl | ⟨why, telling⟩
    · exact .inl (mem_cons_of_mem _ member)
    · exact (told telling member).imp_left (mem_cons_of_mem _)
  | _ => exact .inl member

theorem hosts_le : traffic.hosts ≤ next.hosts := by
  cases step with
  | openHost => exact Nat.le_succ _
  | _ => exact Nat.le_refl _

/-- An open host keeps its settings. -/
theorem settings_eq (opened : h < traffic.hosts) :
    (next.depot h).settings = (traffic.depot h).settings := by
  cases step with
  | openHost =>
    simp only
    rw [update_of_ne (Nat.ne_of_lt opened)]
  | post | putOff | listen | take | close => exact Host.field_update Host.settings (by rfl) h
  | @pump other batch others =>
    refine (Host.field_update Host.settings (by rfl) h).trans ?_
    exact Host.field_update Host.settings (by rfl) h
  | _ => rfl

/-- A batch that waits has waited before, or is made of the entries of a transition, or of a request
for readiness. -/
theorem mem_batches (waits : batch ∈ (next.depot h).queue ++ (next.depot h).deferred) :
    batch ∈ (traffic.depot h).queue ++ (traffic.depot h).deferred ∨
      (∃ e transition entries calls, traffic.calls = .announce e transition entries :: calls ∧
        given.home e = h ∧ h < traffic.hosts ∧ batch = given.batch traffic e transition entries) ∨
      ∃ e listener, given.listens e listener ∧ given.home e = h ∧ h < traffic.hosts ∧
        batch = ⟨traffic.nextBatch, ⟨e, (given.store.executable e).readyStatus,
          (given.store.executable e).readyStatus⟩, [⟨listener, none⟩]⟩ := by
  cases step with
  | openHost | close =>
    rw [show (Traffic.depot _ h).queue = (traffic.depot h).queue from
      Host.field_update Host.queue (by rfl) h, show (Traffic.depot _ h).deferred =
        (traffic.depot h).deferred from Host.field_update Host.deferred (by rfl) h] at waits
    exact .inl waits
  | @post e transition entries calls top some_due opened prompt =>
    rcases Traffic.mem_dispatch_batches.mp waits with old | ⟨rfl, rfl⟩
    · exact .inl old
    · exact .inr (.inl ⟨e, transition, entries, calls, top, rfl, opened, rfl⟩)
  | @putOff e transition entries calls top some_due opened later =>
    rcases Traffic.mem_defer_batches.mp waits with old | ⟨rfl, rfl⟩
    · exact .inl old
    · exact .inr (.inl ⟨e, transition, entries, calls, top, rfl, opened, rfl⟩)
  | @listen e listener grown asked opened more =>
    rcases Traffic.mem_defer_batches.mp waits with old | ⟨rfl, rfl⟩
    · exact .inl old
    · exact .inr (.inr ⟨e, listener, asked, rfl, opened, rfl⟩)
  | @pump other first others asked opened deferred calm free =>
    left
    simp only [Traffic.dispatch, update_idem, update_apply] at waits
    split at waits
    · rename_i here
      subst here
      simp only [if_true, mem_append, deferred, mem_cons] at waits ⊢
      tauto
    · exact waits
  | @take other first others calls top opened queue =>
    left
    simp only [update_apply] at waits
    split at waits
    · rename_i here
      subst here
      simp only [mem_append, queue, mem_cons] at waits ⊢
      tauto
    · exact waits
  | _ => exact .inl waits

/-- A batch that waits goes on waiting, or leaves the dispatch queue to be delivered. -/
theorem waiting_cases (waits : batch ∈ (traffic.depot h).queue ++ (traffic.depot h).deferred) :
    batch ∈ (next.depot h).queue ++ (next.depot h).deferred ∨
      .deliver batch ∈ next.calls ∧
        next.journal = traffic.journal ++ [.opened h batch.serial] := by
  cases step with
  | openHost | close =>
    rw [show (Traffic.depot _ h).queue = (traffic.depot h).queue from
      Host.field_update Host.queue (by rfl) h, show (Traffic.depot _ h).deferred =
        (traffic.depot h).deferred from Host.field_update Host.deferred (by rfl) h]
    exact .inl waits
  | post => exact .inl (Traffic.mem_dispatch_batches.mpr (.inl waits))
  | putOff | listen => exact .inl (Traffic.mem_defer_batches.mpr (.inl waits))
  | @pump other first others asked opened deferred calm free =>
    simp only [Traffic.dispatch, update_idem, update_apply]
    split
    · rename_i here
      subst here
      simp only [if_true, mem_append, deferred, mem_cons, not_mem_nil, or_false]
        at waits ⊢
      tauto
    · exact .inl waits
  | @take other first others calls top opened queue =>
    simp only [update_apply]
    split
    · rename_i here
      subst here
      simp only [mem_append, queue, mem_cons] at waits
      rcases waits with (rfl | later) | deferred
      · exact .inr ⟨mem_cons_self .., rfl⟩
      · exact .inl (mem_append_left _ later)
      · exact .inl (mem_append_right _ deferred)
    · exact .inl waits
  | _ => exact .inl waits

/-- The dispatch queue of a host stays as it is unless a delivery loop is at work, which goes on
until the queue is empty or a panic ends it. -/
theorem queue_cases (h : HostRef) :
    (next.depot h).draining = true ∨ (next.depot h).queue = [] ∨ given.loses (.drain h) ∨
      (next.depot h).draining = (traffic.depot h).draining ∧
        (.drain h ∈ traffic.calls ∨ (next.depot h).queue = (traffic.depot h).queue) := by
  cases step with
  | openHost | putOff | listen =>
    exact .inr (.inr (.inr ⟨Host.field_update Host.draining (by rfl) h,
      .inr (Host.field_update Host.queue (by rfl) h)⟩))
  | @post e | @pump other =>
    simp only [Traffic.dispatch, update_idem, update_apply]
    split
    · exact .inl rfl
    · exact .inr (.inr (.inr ⟨rfl, .inr rfl⟩))
  | @take other batch others calls top =>
    simp only [update_apply]
    split
    · rename_i here
      subst here
      exact .inr (.inr (.inr ⟨rfl, .inl (top ▸ mem_cons_self ..)⟩))
    · exact .inr (.inr (.inr ⟨rfl, .inr rfl⟩))
  | @close other calls top why =>
    simp only [update_apply]
    split
    · rename_i here
      subst here
      exact why.elim (fun empty => .inr (.inl empty)) fun lost => .inr (.inr (.inl lost))
    · exact .inr (.inr (.inr ⟨rfl, .inr rfl⟩))
  | _ => exact .inr (.inr (.inr ⟨rfl, .inr rfl⟩))

/-- What is announced has been announced before, or is due on the transition that is made. -/
theorem mem_announce {transition : Transition} {entries : List Entry}
    (member : .announce e transition entries ∈ next.calls) :
    .announce e transition entries ∈ traffic.calls ∨
      transition.new ≠ .null ∧ entries = (traffic.subscriptions e).due transition.new := by
  rcases step.mem_calls member with old | new
  · exact .inl old
  · cases new with
    | announce _ real => exact .inr ⟨real, rfl⟩

theorem journal_grows : ∃ news, next.journal = traffic.journal ++ news := by
  cases step with
  | move => exact ⟨[_], rfl⟩
  | post | putOff | listen | pump | take | invoke | settle => exact ⟨[_], rfl⟩
  | _ => exact ⟨[], (append_nil _).symm⟩

theorem destroyed_mono (gone : traffic.destroyed e = true) : next.destroyed e = true := by
  cases step with
  | @destroy other =>
    by_cases here : e = other
    · subst here
      exact update_self ..
    · exact (update_of_ne here ..).trans gone
  | _ => exact gone

/-- A step that calls no listener leaves the calls so far as they are. -/
theorem callsIn_cases :
    callsIn next.journal = callsIn traffic.journal ∨
      ∃ batch delivery others calls, traffic.calls = .deliver batch :: calls ∧
        batch.deliveries = delivery :: others ∧
        traffic.destroyed batch.event.source = false ∧
        callsIn next.journal =
          callsIn traffic.journal ++ [⟨batch.serial, batch.event, delivery⟩] := by
  cases step with
  | @invoke batch delivery others calls top left there =>
    exact .inr ⟨batch, delivery, others, calls, top, left, there, callsIn_invoked ..⟩
  | move | post | putOff | listen | pump | take | settle => exact .inl (callsIn_note rfl)
  | _ => exact .inl rfl

/-- What is being delivered goes on, or has its next listener called, or is done with. -/
theorem deliver_cases (member : .deliver batch ∈ traffic.calls) :
    (.deliver batch ∈ next.calls ∧ (callsIn next.journal = callsIn traffic.journal ∨
        ∃ other delivery, other ≠ batch ∧ .deliver other ∈ traffic.calls ∧
          callsIn next.journal =
            callsIn traffic.journal ++ [⟨other.serial, other.event, delivery⟩])) ∨
      (∃ delivery others, batch.deliveries = delivery :: others ∧
        .deliver { batch with deliveries := others } ∈ next.calls ∧
        callsIn next.journal =
          callsIn traffic.journal ++ [⟨batch.serial, batch.event, delivery⟩]) ∨
      traffic.calls = .deliver batch :: next.calls ∧ next.journal = traffic.journal ∧
        (batch.deliveries = [] ∨ next.destroyed batch.event.source = true ∨
          given.loses (.deliver batch)) := by
  have below {top : Frame} {calls : List Frame} (stands : traffic.calls = top :: calls)
      (other : .deliver batch ≠ top) : .deliver batch ∈ calls := by
    rw [stands] at member
    exact (mem_cons.mp member).resolve_left other
  cases step with
  | move =>
    exact .inl ⟨mem_append_right _ (mem_cons_of_mem _ member), .inl (callsIn_note rfl)⟩
  | tell | destroy => exact .inl ⟨mem_append_right _ member, .inl rfl⟩
  | hear top | hush top | close top => exact .inl ⟨below top (by simp), .inl rfl⟩
  | putOff top => exact .inl ⟨below top (by simp), .inl (callsIn_note rfl)⟩
  | post top =>
    have kept := below top (by simp)
    exact .inl ⟨Traffic.mem_dispatch_of_mem kept, .inl (callsIn_note rfl)⟩
  | pump => exact .inl ⟨Traffic.mem_dispatch_of_mem member, .inl (callsIn_note rfl)⟩
  | take => exact .inl ⟨mem_cons_of_mem _ member, .inl (callsIn_note rfl)⟩
  | listen => exact .inl ⟨member, .inl (callsIn_note rfl)⟩
  | settle top =>
    exact .inl ⟨mem_append_right _ (below top (by simp)), .inl (callsIn_note rfl)⟩
  | @invoke other delivery others calls top left there =>
    by_cases same : batch = other
    · subst same
      exact .inr (.inl ⟨delivery, others, left, by simp, callsIn_invoked ..⟩)
    · have kept := below top (by simpa using same)
      exact .inl ⟨mem_cons_of_mem _ (mem_cons_of_mem _ kept), .inr ⟨other, delivery,
        Ne.symm same, by rw [top]; exact mem_cons_self .., callsIn_invoked ..⟩⟩
  | @finish other calls top why =>
    by_cases same : batch = other
    · subst same
      exact .inr (.inr ⟨top, rfl, why⟩)
    · exact .inl ⟨below top (by simpa using same), .inl rfl⟩
  | _ => exact .inl ⟨member, .inl rfl⟩

/-- What is being delivered was so before, or has just left the dispatch queue of a host. -/
theorem mem_deliver (member : .deliver batch ∈ next.calls) :
    (∃ before, .deliver before ∈ traffic.calls ∧ before.serial = batch.serial) ∨
      ∃ h others, (traffic.depot h).queue = batch :: others := by
  rcases step.mem_calls member with old | new
  · exact .inl ⟨batch, old, rfl⟩
  · cases new with
    | deliver first => exact .inr ⟨_, _, first⟩
    | rest current => exact .inl ⟨_, current, rfl⟩

end Surroundings.Step

end Readiness
