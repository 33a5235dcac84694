import Readiness.Proofs.Delivery.Once

/-! A listener of all transitions hears of each of them, in the order in which they were made.

A transition changes the status at once, while the news of it may have to wait behind batches that
are being delivered. As long as no batch is put off and no observer gets in between, the news waits
in the order of the transitions.
-/

namespace Readiness

open List

variable {store : Engine}

/-- What a listener of the client has been called with. -/
def heardBy (code : CodeRef) (journal : List Occurrence) : List Event :=
  ((callsIn journal).filter (·.delivery.listener == .client code)).map Call.event

namespace Mail

variable {given : Postage} {e : ExecutableRef} {n : Nat} {mail next : Mail} {earlier : List Event}

/-- The transitions are those that the listener has been told of and those that it will be, in
order. -/
structure InOrder (earlier : List Event) (mail : Mail) : Prop where
  prompt : mail.deferred = []
  moved : mail.moved =
    earlier ++ (mail.told ++ (mail.current ++ (mail.queued ++ mail.announced)))

/-- Every step keeps the news in order, for an entry that all transitions call. -/
theorem InOrder.step (order : InOrder earlier mail) (numbered : mail.entries.Numbered)
    {entry : Entry} (listed : (.null, entry) ∈ mail.entries.listing) (number : entry.sequence = n)
    (step : Step given e n mail next) (kept : ¬ given.lost) (prompt : ¬ given.defers)
    (passive : given.passive) : InOrder earlier next := by
  have moved := order.moved
  cases step with
  | keep | subscribe | unsubscribe | clear => exact ⟨order.prompt, moved⟩
  | @move transition real alone =>
    refine ⟨order.prompt, ?_⟩
    have due : entry ∈ mail.entries.due transition.new :=
      (numbered.mem_due_iff listed).mpr (.inl rfl)
    have news : transition.newsTo e n (mail.entries.due transition.new) =
        [transition.event e] := by
      rw [Transition.newsTo, ← number, numbered.countP_due_eq_one due]
      rfl
    simp only [moved, alone passive, news, append_nil, append_assoc]
  | post first =>
    refine ⟨order.prompt, ?_⟩
    simp only [moved, first, append_assoc]
  | putOff first later => exact absurd later prompt
  | pump first =>
    have nothing := first.symm.trans order.prompt
    obtain ⟨rfl, rfl⟩ := append_eq_nil_iff.mp nothing
    refine ⟨rfl, ?_⟩
    simp only [moved, append_nil]
  | take first idle =>
    refine ⟨order.prompt, ?_⟩
    simp only [moved, first, idle, nil_append, append_assoc]
  | invoke first =>
    refine ⟨order.prompt, ?_⟩
    simp only [moved, first, cons_append, append_assoc, nil_append]
  | hush first lost | finish first lost => exact absurd lost kept

end Mail

/-- A call that is to be made, with the executable that it tells of. -/
def Batch.pending (batch : Batch) : List (ExecutableRef × Delivery) :=
  batch.deliveries.map (Prod.mk batch.event.source)

/-- A batch that has nothing to tell an entry makes no call for it. -/
theorem Batch.not_pending {batch : Batch} {e : ExecutableRef} {n : Nat}
    (silent : batch.newsTo e n = []) {call : ExecutableRef × Delivery}
    (pending : call ∈ batch.pending) : ¬ (call.1 = e ∧ call.2.entry = some n) := by
  rintro ⟨own, number⟩
  obtain ⟨delivery, within, rfl⟩ := mem_map.mp pending
  have own : batch.event.source = e := own
  simp only [newsTo, own, if_true, replicate_eq_nil_iff, countP_eq_zero] at silent
  exact silent delivery within (by simpa using number)

/-- The calls that a frame is going to make. -/
def Frame.pending : Frame → List (ExecutableRef × Delivery)
  | .announce e _ entries => entries.map fun entry => (e, entry.delivery)
  | .deliver batch => batch.pending
  | _ => []

/-- A listener is called for one entry, and for no other. -/
def OnlyFor (code : CodeRef) (e : ExecutableRef) (n : Nat)
    (call : ExecutableRef × Delivery) : Prop :=
  call.2.listener = .client code ↔ call.1 = e ∧ call.2.entry = some n

namespace Traffic

/-- Every call on its way fits, by the number of its batch if it is in one, its source and its
delivery. -/
structure Bound (traffic : Traffic) (fits : Option Nat → ExecutableRef → Delivery → Prop) :
    Prop where
  announced : ∀ e transition entries, .announce e transition entries ∈ traffic.calls →
    ∀ entry ∈ entries, fits none e entry.delivery
  waiting : ∀ h, ∀ batch ∈ (traffic.depot h).queue ++ (traffic.depot h).deferred,
    ∀ delivery ∈ batch.deliveries, fits (some batch.serial) batch.event.source delivery
  current : ∀ batch, .deliver batch ∈ traffic.calls → ∀ delivery ∈ batch.deliveries,
    fits (some batch.serial) batch.event.source delivery

variable {given : Surroundings} {traffic next : Traffic} {code : CodeRef} {e : ExecutableRef}
  {n : Nat} {fits : Option Nat → ExecutableRef → Delivery → Prop}

section

variable (bound : traffic.Bound fits)
include bound

theorem Bound.mono {wider : Option Nat → ExecutableRef → Delivery → Prop}
    (weaken : ∀ batch source delivery, fits batch source delivery → wider batch source delivery) :
    traffic.Bound wider :=
  ⟨fun e _ _ member entry due => weaken _ _ _ (bound.announced e _ _ member entry due),
    fun h batch waits delivery within => weaken _ _ _ (bound.waiting h batch waits delivery within),
    fun batch member delivery within => weaken _ _ _ (bound.current batch member delivery within)⟩

/-- What fits for two reasons fits for both. -/
theorem Bound.and {other : Option Nat → ExecutableRef → Delivery → Prop}
    (also : traffic.Bound other) : traffic.Bound fun batch source delivery =>
      fits batch source delivery ∧ other batch source delivery :=
  ⟨fun e _ _ member entry due =>
      ⟨bound.announced e _ _ member entry due, also.announced e _ _ member entry due⟩,
    fun h batch waits delivery within =>
      ⟨bound.waiting h batch waits delivery within, also.waiting h batch waits delivery within⟩,
    fun batch member delivery within =>
      ⟨bound.current batch member delivery within, also.current batch member delivery within⟩⟩

/-- A step sends what is due to entries, and what a request for readiness asks for. -/
theorem Bound.step (step : given.Step traffic next)
    (listed : ∀ e, ∀ filed ∈ (traffic.subscriptions e).listing, fits none e filed.2.delivery)
    (numbered : ∀ e, (traffic.subscriptions e).Numbered)
    (batched : ∀ e delivery, fits none e delivery → fits (some traffic.nextBatch) e delivery)
    (asked : ∀ e listener, given.listens e listener →
      fits (some traffic.nextBatch) e ⟨listener, none⟩) : next.Bound fits where
  announced := by
    intro e transition entries member entry due
    rcases step.mem_announce member with old | ⟨_, rfl⟩
    · exact bound.announced e transition entries old entry due
    · obtain ⟨key, filed⟩ := (numbered e).keyed.mem_listing_of_mem_due due
      exact listed e _ filed
  waiting := by
    intro h batch waits delivery within
    rcases step.mem_batches waits with old | ⟨e, transition, entries, calls, top, _, _, rfl⟩ |
      ⟨e, listener, listens, _, _, rfl⟩
    · exact bound.waiting h batch old delivery within
    · -- The batch has the calls of the announcement, in another order perhaps.
      have arranged : delivery ∈ entries.map Entry.delivery :=
        ((traffic.depot (given.home e)).arrange_perm _).mem_iff.mp within
      obtain ⟨entry, member, rfl⟩ := mem_map.mp arranged
      exact batched e _
        (bound.announced e transition entries (by rw [top]; exact mem_cons_self ..) entry member)
    · obtain rfl := mem_singleton.mp within
      exact asked e listener listens
  current := by
    intro batch member delivery within
    rcases step.mem_calls member with old | new
    · exact bound.current batch old delivery within
    · cases new with
      | @deliver h _ others first => exact bound.waiting h batch (by simp [first]) delivery within
      | @rest batch first others current left =>
        refine bound.current batch current delivery ?_
        rw [left]
        exact mem_cons_of_mem _ within

/-- A step makes one call at most, which was on its way before. -/
theorem Bound.callsIn_step (step : given.Step traffic next) :
    callsIn next.journal = callsIn traffic.journal ∨
      ∃ call : Call, fits (some call.batch) call.event.source call.delivery ∧
        callsIn next.journal = callsIn traffic.journal ++ [call] := by
  rcases step.callsIn_cases with same | ⟨batch, delivery, others, calls, top, left, _, called⟩
  · exact .inl same
  · exact .inr ⟨_, bound.current batch (by rw [top]; exact mem_cons_self ..) delivery
      (by rw [left]; exact mem_cons_self ..), called⟩

end

/-- Everything on its way to a listener is meant for one entry, and the other way round. -/
def Sole (traffic : Traffic) (code : CodeRef) (e : ExecutableRef) (n : Nat) : Prop :=
  traffic.Bound fun _ source delivery => OnlyFor code e n (source, delivery)

/-- A step sends to the listener what is due to its entry, and nothing else. -/
theorem Sole.step (sole : traffic.Sole code e n) (step : given.Step traffic next)
    (registered : ∀ other, ∀ filed ∈ (traffic.subscriptions other).listing,
      OnlyFor code e n (other, filed.2.delivery))
    (numbered : ∀ other, (traffic.subscriptions other).Numbered)
    (foreign : ∀ other listener, given.listens other listener → listener ≠ .client code) :
    next.Sole code e n :=
  Bound.step sole step registered numbered (fun _ _ only => only) fun other listener asked =>
    ⟨fun same => absurd same (foreign other listener asked), fun own => by cases own.2⟩

/-- The listener is called whenever its entry is told something. -/
theorem Sole.heardBy_step (sole : traffic.Sole code e n) (step : given.Step traffic next)
    {before : List Event}
    (heard : heardBy code traffic.journal = before ++ toldTo e n traffic.journal) :
    heardBy code next.journal = before ++ toldTo e n next.journal := by
  rcases Bound.callsIn_step sole step with same | ⟨call, only, called⟩
  · rw [heardBy, toldTo, same]
    exact heard
  · have agree : (call.delivery.listener == .client code) = call.isFor e n := by
      rw [Bool.eq_iff_iff]
      simpa [Call.isFor, OnlyFor] using only
    simp only [heardBy, toldTo] at heard ⊢
    rw [called, filter_append, filter_append, map_append, map_append, heard,
      append_assoc]
    simp only [filter_cons, filter_nil, agree]

end Traffic

/-- An observer is being told of an executable. -/
def Frame.isToldOf (e : ExecutableRef) : Frame → Bool
  | .client (.observer _ notice) => notice.about == e
  | _ => false

/-- An observer that stands on a frame is told of the executable that the frame is about. -/
theorem Stacked.about_eq {code : CodeRef} {notice : Notice} {frame : Frame} {calls : List Frame}
    (stacked : Stacked store (.client (.observer code notice) :: frame :: calls))
    (telling : frame.isTelling = true) {e : ExecutableRef} (source : frame.source? = some e) :
    notice.about = e := by
  cases stacked with
  | observer calm =>
    rw [calm frame rfl] at telling
    cases telling
  | told => exact Option.some.inj source
  | fault => exact Option.some.inj source

namespace Machine

variable {machine start : Machine} {code : CodeRef} {e : ExecutableRef} {n : Nat}

/-- The request for readiness that is being made. -/
def readyRequest? (machine : Machine) : Option ReadyRequest :=
  match machine.control with
  | .perform (.onReady _ request) => some request
  | _ => none

/-- A listener is registered for all transitions of an executable and for nothing else, nobody
destroys the executable, and no observer that is told of it calls the engine. -/
structure Attends (machine : Machine) (code : CodeRef) (e : ExecutableRef) (n : Nat) : Prop where
  there : (machine.engine.executable e).destroyed = false
  listed : (.null, ⟨.client code, false, n, none⟩) ∈
    (machine.engine.executable e).subscriptions.listing
  /-- It is registered nowhere else. -/
  only : ∀ other, ∀ filed ∈ (machine.engine.executable other).subscriptions.listing,
    filed.2.listener = .client code → other = e ∧ filed.2.sequence = n
  /-- It does not ask for readiness. -/
  foreign : ∀ request ∈ machine.readyRequest?, request.success ≠ .client code
  /-- Observers are passive, so nothing stands on them. -/
  passive : ∀ frame ∈ machine.stack.tail, frame.isToldOf e = false

/-- No panic escapes from an observer that is told of an executable. -/
def SteadyAbout (machine : Machine) (e : ExecutableRef) : Prop :=
  ∀ payload, machine.control = .unwind payload →
    ∀ frame ∈ machine.stack.head?, frame.isToldOf e = false

/-- What a listener that attends comes down to, part by part. -/
theorem attends_iff (machine : Machine) (code : CodeRef) (e : ExecutableRef) (n : Nat) :
    machine.Attends code e n ↔ (machine.engine.executable e).destroyed = false ∧
      (.null, ⟨.client code, false, n, none⟩) ∈
        (machine.engine.executable e).subscriptions.listing ∧
      (∀ other < machine.engine.executables.length,
        ∀ filed ∈ (machine.engine.executable other).subscriptions.listing,
          filed.2.listener = .client code → other = e ∧ filed.2.sequence = n) ∧
      (∀ request ∈ machine.readyRequest?, request.success ≠ .client code) ∧
      ∀ frame ∈ machine.stack.tail, frame.isToldOf e = false := by
  constructor
  · rintro ⟨there, listed, only, foreign, passive⟩
    exact ⟨there, listed, fun other _ => only other, foreign, passive⟩
  · rintro ⟨there, listed, only, foreign, passive⟩
    refine ⟨there, listed, fun other filed member => ?_, foreign, passive⟩
    by_cases built : other < machine.engine.executables.length
    · exact only other built filed member
    · -- What has not been built has no entries.
      have absent : machine.engine.executable other = default := by
        simp [Engine.executable, getD_eq_getElem?_getD, Nat.le_of_not_lt built]
      rw [absent] at member
      cases member

/-- Whether a listener attends can be checked. -/
instance (machine : Machine) (code : CodeRef) (e : ExecutableRef) (n : Nat) :
    Decidable (machine.Attends code e n) :=
  decidable_of_iff _ (machine.attends_iff code e n).symm

/-- Whether observers are steady can be checked. -/
instance (machine : Machine) (e : ExecutableRef) : Decidable (machine.SteadyAbout e) :=
  match turn : machine.control with
  | .unwind _ =>
    decidable_of_iff (∀ frame ∈ machine.stack.head?, frame.isToldOf e = false)
      ⟨fun silent _ _ => silent, fun steady => steady _ turn⟩
  | .perform _ | .resume _ | .called | .returned _ =>
    .isTrue fun _ same => by rw [turn] at same; cases same

namespace Attends

variable (attends : machine.Attends code e n)
include attends

/-- Only the innermost frame can be an observer that is told of the executable. -/
theorem eq_nil_of_stands {above below : List Frame} {observer : CodeRef} {notice : Notice}
    (stands : machine.stack = above ++ .client (.observer observer notice) :: below)
    (about : notice.about = e) : above = [] := by
  cases above with
  | nil => rfl
  | cons top others =>
    have passive := attends.passive (.client (.observer observer notice)) (by rw [stands]; simp)
    simp [Frame.isToldOf, about] at passive

/-- Nothing stands on an observer that is told of the executable. -/
theorem undisturbed : machine.traffic.Undisturbed e := by
  intro above observer notice below split about
  obtain ⟨front, back, whole, shown, rest⟩ := filter_eq_append_iff.mp split
  obtain ⟨hidden, under, back_eq, _, _, _⟩ := filter_eq_cons_iff.mp rest
  rw [back_eq, ← append_assoc] at whole
  have empty := attends.eq_nil_of_stands whole about
  rw [← shown, (append_eq_nil_iff.mp empty).1]
  rfl

theorem not_reenters (store : Engine) (notice : Notice) (about : notice.about = e) :
    ¬ (machine.surroundings store).reenters notice := by
  rintro ⟨above, observer, below, inhabited, stands⟩
  exact inhabited (attends.eq_nil_of_stands stands about)

/-- The listener is called for its entry only. -/
theorem onlyFor (numbered : (machine.engine.executable e).subscriptions.Numbered)
    (other : ExecutableRef) (filed : Status × Entry)
    (member : filed ∈ (machine.engine.executable other).subscriptions.listing) :
    OnlyFor code e n (other, filed.2.delivery) := by
  constructor
  · intro same
    obtain ⟨own, number⟩ := attends.only other filed member same
    exact ⟨own, congrArg some number⟩
  · rintro ⟨rfl, number⟩
    rw [numbered.eq_of_sequence member attends.listed (Option.some.inj number)]
    rfl

end Attends

/-- Where a run has come to that a listener of all transitions follows. -/
structure Follows (start : Machine) (store : Engine) (code : CodeRef) (e : ExecutableRef) (n : Nat)
    (machine : Machine) : Prop where
  kept : ∀ frame rest, machine.Unwinds frame rest → frame.isTelling = true →
    frame.source? ≠ some e
  opened : (store.executable e).host < machine.traffic.hosts
  prompt : (machine.traffic.depot (store.executable e).host).settings.dispatch.deferReady = false
  sole : machine.traffic.Sole code e n
  heard : heardBy code machine.traffic.journal =
    heardBy code start.traffic.journal ++ toldTo e n machine.traffic.journal
  order : (machine.mail store e n).InOrder (movesOf e start.traffic.journal)

/-- Every step keeps the news in order as long as the listener attends. -/
theorem Follows.next {next : Machine} (follows : start.Follows store code e n machine)
    (reachable : machine.Reachable) (attends : machine.Attends code e n)
    (steady : machine.SteadyAbout e) (step : Next machine next)
    (grown : next.engine.Extends store) : start.Follows store code e n next := by
  have sound := reachable.sound
  have before := (sound.later_next step).grown.trans grown
  have rule := sound.rules_next step before
  have numbered := reachable.filed.numbered
  refine ⟨?_, Nat.lt_of_lt_of_le follows.opened rule.hosts_le, ?_, ?_, ?_, ?_⟩
  · intro frame rest unwinds telling source
    -- The panic would have come from an observer that was told of the transition.
    obtain ⟨observer, told, ⟨payload, unwinding⟩, stands⟩ :=
      sound.unwound_telling step unwinds telling
    cases observer with
    | client callback =>
      cases callback with
      | observer observer notice =>
        have calls : machine.traffic.calls = .client (.observer observer notice) :: frame ::
            rest.filter Frame.isTraffic := by
          have shown : frame.isTraffic = true := by
            cases frame <;> first | rfl | cases source
          simp only [traffic, stands]
          rw [filter_cons_of_pos rfl, filter_cons_of_pos shown]
        have stacked := (reachable.layered before).stacked
        rw [calls] at stacked
        have silent := steady payload unwinding _ (by rw [stands]; rfl)
        simp [Frame.isToldOf, stacked.about_eq telling source] at silent
      | _ => cases told
    | _ => cases told
  · rw [rule.settings_eq follows.opened]
    exact follows.prompt
  · refine follows.sole.step rule (attends.onlyFor (numbered e)) numbered ?_
    rintro other listener (engine | ⟨request, asked, rfl⟩) same
    · rw [same] at engine
      cases engine
    · exact attends.foreign request (by rw [readyRequest?, asked]; rfl) same
  · exact follows.sole.heardBy_step rule follows.heard
  · refine follows.order.step (numbered e) attends.listed rfl (reachable.mail_next before rule n) ?_
      (by simp [Traffic.postage, follows.prompt]) ⟨attends.undisturbed, attends.not_reenters store⟩
    rintro (gone | ⟨frame, ⟨payload, rest, unwinding, stands⟩, source, telling⟩)
    · exact Bool.noConfusion (attends.there.symm.trans gone)
    · exact follows.kept frame rest ⟨⟨payload, unwinding⟩, stands⟩ telling source

theorem movesOf_traffic (machine : Machine) (e : ExecutableRef) :
    movesOf e machine.traffic.journal = movesOf e machine.engine.journal.toList :=
  machine.filterMap_journal fun occurrence hidden => by
    cases occurrence <;> first | rfl | cases hidden

theorem movesOf_mail (machine : Machine) (store : Engine) (e : ExecutableRef) (n : Nat) :
    (machine.mail store e n).moved = movesOf e machine.engine.journal.toList :=
  machine.movesOf_traffic e

/-- Nothing is on its way to a listener. -/
structure Unheard (machine : Machine) (code : CodeRef) : Prop where
  /-- Nobody on the stack is about to call it. -/
  stack : ∀ frame ∈ machine.stack, ∀ call ∈ frame.pending, call.2.listener ≠ .client code
  /-- No batch that waits is meant for it. -/
  batches : ∀ h, ∀ batch ∈ (machine.engine.host h).queue ++ (machine.engine.host h).deferred,
    ∀ call ∈ batch.pending, call.2.listener ≠ .client code

/-- Nothing is on its way to an entry that is yet to be registered. -/
theorem Reachable.not_pending (reachable : machine.Reachable) (grown : machine.engine.Extends store)
    (unused : (machine.engine.executable e).subscriptions.nextSequence ≤ n)
    {call : ExecutableRef × Delivery}
    (pending : (∃ frame ∈ machine.traffic.calls, call ∈ frame.pending) ∨
      ∃ h, ∃ batch ∈ (machine.traffic.depot h).queue ++ (machine.traffic.depot h).deferred,
        call ∈ batch.pending) : ¬ (call.1 = e ∧ call.2.entry = some n) := by
  have nothing := (reachable.fresh grown e n).unused unused
  simp only [Mail.all, append_eq_nil_iff] at nothing
  obtain ⟨_, current, queued, deferred, announced⟩ := nothing
  rcases pending with ⟨frame, member, within⟩ | ⟨h, batch, waits, within⟩
  · cases frame with
    | announce other transition entries =>
      have silent := flatMap_eq_nil_iff.mp announced _ member
      rintro ⟨own, number⟩
      obtain ⟨entry, due, rfl⟩ := mem_map.mp within
      have own : other = e := own
      simp only [Frame.announcedTo, own, if_true, Transition.newsTo, replicate_eq_nil_iff,
        countP_eq_zero] at silent
      exact silent entry due (by simpa [Entry.delivery] using number)
    | deliver batch => exact Batch.not_pending (flatMap_eq_nil_iff.mp current _ member) within
    | _ => cases within
  · by_cases here : h = (store.executable e).host
    · subst here
      rcases mem_append.mp waits with front | back
      · exact Batch.not_pending (flatMap_eq_nil_iff.mp queued _ front) within
      · exact Batch.not_pending (flatMap_eq_nil_iff.mp deferred _ back) within
    · -- Batches of the executable wait with its host.
      rintro ⟨own, _⟩
      obtain ⟨delivery, _, rfl⟩ := mem_map.mp within
      have homed := (reachable.layered grown).homed h batch waits
      exact here (by rw [← homed, show batch.event.source = e from own])

/-- Nothing is on its way to a listener of which nobody has heard, nor to an entry that is yet to be
registered. -/
theorem Reachable.sole_of_unheard (reachable : machine.Reachable)
    (grown : machine.engine.Extends store) (unheard : machine.Unheard code)
    (unused : (machine.engine.executable e).subscriptions.nextSequence ≤ n) :
    machine.traffic.Sole code e n := by
  have called {frame : Frame} (member : frame ∈ machine.traffic.calls)
      {call : ExecutableRef × Delivery} (pending : call ∈ frame.pending) : OnlyFor code e n call :=
    iff_of_false (unheard.stack frame (mem_of_mem_filter member) call pending)
      (reachable.not_pending grown unused (.inl ⟨frame, member, pending⟩))
  refine ⟨fun x transition entries member entry due => ?_, fun h batch waits delivery within => ?_,
    fun batch member delivery within => ?_⟩
  · exact called member (mem_map.mpr ⟨entry, due, rfl⟩)
  · have pending : (batch.event.source, delivery) ∈ batch.pending := mem_map_of_mem within
    exact iff_of_false (unheard.batches h batch waits _ pending)
      (reachable.not_pending grown unused (.inr ⟨h, batch, waits, pending⟩))
  · exact called member (mem_map_of_mem within)

/-- When a listener has just been registered, there is nothing for it to have heard. -/
theorem Reachable.follows (reachable : machine.Reachable) (grown : machine.engine.Extends store)
    (turn : machine.clientTurn = true) (alive : machine.isAlive e = true)
    (unheard : machine.Unheard code) (prompt : (machine.engine.host
      (machine.engine.executable e).host).settings.dispatch.deferReady = false) :
    machine.Follows store code e (machine.engine.executable e).subscriptions.nextSequence
      (machine.subscribe e (.client code) none false) := by
  have sound := reachable.sound
  have built := sound.lt_of_isAlive alive
  have home := grown.home e built
  have shown : (machine.subscribe e (.client code) none false).traffic = { machine.traffic with
      subscriptions := Function.update machine.traffic.subscriptions e
        ((machine.traffic.subscriptions e).add (.client code) none false) } := by
    rw [subscribe, traffic_update, Engine.traffic_modifySubscriptions _ built]
    rfl
  -- The number of the new entry is unused, so that nothing is on its way for it.
  have nothing := (reachable.fresh grown e
    (machine.engine.executable e).subscriptions.nextSequence).unused (Nat.le_refl _)
  simp only [Mail.all, append_eq_nil_iff, mail] at nothing
  obtain ⟨told, current, queued, deferred, announced⟩ := nothing
  refine ⟨?_, ?_, ?_, ?_, ?_, ?_⟩
  · exact fun frame rest unwinds => absurd unwinds (not_unwinds_of_clientTurn turn)
  · rw [shown, home]
    exact sound.store.hosted e built
  · rw [shown, home]
    exact prompt
  · rw [shown]
    have sole := reachable.sole_of_unheard (e := e) grown unheard (Nat.le_refl _)
    exact ⟨sole.announced, sole.waiting, sole.current⟩
  · rw [shown]
    exact (append_nil _).symm.trans (congrArg _ told.symm)
  · rw [mail, shown, Traffic.mail_subscriptions]
    refine ⟨deferred, ?_⟩
    simp only [told, current, queued, announced, append_nil]
    rfl

/-- A listener that is registered for all transitions of an executable, and for nothing else, hears
of all of them in the order in which they are made, if its host puts no batch off, the executable is
not destroyed, the listener is not removed, and observers that are told of the executable neither
call the engine nor panic. -/
theorem listener_hears_transitions_in_order (reachable : machine.Reachable)
    (turn : machine.clientTurn = true) (alive : machine.isAlive e = true)
    (unheard : machine.Unheard code)
    (prompt : (machine.engine.host
      (machine.engine.executable e).host).settings.dispatch.deferReady = false)
    {final : Machine}
    (run : (machine.subscribe e (.client code) none false).ReachesWhile (fun state =>
      state.Attends code e (machine.engine.executable e).subscriptions.nextSequence ∧
        state.SteadyAbout e) final)
    (queue : (final.engine.host (final.engine.executable e).host).queue = [])
    (idle : ∀ frame ∈ final.stack, frame.source? ≠ some e) :
    ∃ news, movesOf e final.engine.journal.toList =
        movesOf e machine.engine.journal.toList ++ news ∧
      heardBy code final.engine.journal.toList =
        heardBy code machine.engine.journal.toList ++ news := by
  have registers : Next machine (machine.subscribe e (.client code) none false) :=
    .subscribe turn alive code none false
  have registered : (machine.subscribe e (.client code) none false).Reachable :=
    .step reachable registers
  have grown := (reachable.sound.later_next registers).grown.trans
    (registered.sound.later_reaches run.reaches).grown
  -- What the listener was told and what is on its way to it make up the transitions.
  have follows : machine.Follows final.engine code e
      (machine.engine.executable e).subscriptions.nextSequence final := by
    refine run.rules_induction registered.sound (.refl _) (motive := fun state =>
      machine.Follows final.engine code e _ state)
      (reachable.follows grown turn alive unheard prompt) fun early _ step _ later _ follows => ?_
    exact follows.next (.trans registered early.reaches) early.holds.1 early.holds.2 step later
  -- In the end nothing is on its way.
  obtain ⟨current, announced⟩ := mail_of_idle idle final.engine
    (machine.engine.executable e).subscriptions.nextSequence
  have moved := follows.order.moved
  rw [current, queued_of_empty queue, announced, toldTo_mail, movesOf_mail,
    movesOf_traffic] at moved
  have heard := follows.heard
  simp only [heardBy, toldTo, callsIn_traffic] at heard
  exact ⟨_, moved.trans (congrArg _ (append_nil _)), heard⟩

/-- A listener moves the executable again before it returns, and an observer is told of both
transitions. -/
theorem listener_hears_transitions_in_order_nested : ∃ machine final : Machine,
    machine.Reachable ∧
    (machine.subscribe 0 (.client 1) none false).ReachesWhile (fun state =>
      state.Attends 1 0 0 ∧ state.SteadyAbout 0) final ∧
    final.stack = [] ∧
    movesOf 0 final.engine.journal.toList =
      [⟨0, .processing, .null⟩, ⟨0, .ready, .processing⟩] ∧
    heardBy 1 final.engine.journal.toList =
      [⟨0, .processing, .null⟩, ⟨0, .ready, .processing⟩] := by
  let attends (state : Machine) : Bool := decide (state.Attends 1 0 0 ∧ state.SteadyAbout 0)
  let machine := ({} : Machine).after [.openHost { dispatch := .inOrder } (.client 9),
    .build 0 (.manual false)]
  let start := machine.subscribe 0 (.client 1) none false
  let final := start.after [.call (.setStatus 0 .processing), .accept, .finish .done, .accept,
    .call (.setStatus 0 .ready), .accept, .finish .done, .finish .done, .accept, .finish .done]
    attends
  have reachable : machine.Reachable := reaches_after _ _
  have unheard : machine.Unheard 1 := by
    have empty : machine.stack = [] := by decide
    refine ⟨by simp [empty], fun h batch waits => ?_⟩
    rcases h with _ | h <;> cases waits
  have run : start.ReachesWhile (fun state => attends state = true) final :=
    reachesWhile_after (by decide) (by decide)
  have run := run.mono fun _ holds => of_decide_eq_true holds
  have settled : final.stack = [] := by decide
  have before : movesOf 0 machine.engine.journal.toList = [] ∧
      heardBy 1 machine.engine.journal.toList = [] := by decide
  have moved : movesOf 0 final.engine.journal.toList =
      [⟨0, .processing, .null⟩, ⟨0, .ready, .processing⟩] := by decide
  obtain ⟨news, moves, heard⟩ := listener_hears_transitions_in_order reachable (by decide)
    (by decide) unheard (by decide) run (by decide) (by simp [settled])
  rw [before.1, nil_append, moved] at moves
  rw [before.2, nil_append, ← moves] at heard
  exact ⟨machine, final, reachable, run, settled, moved, heard⟩

/-- A listener misses a transition of which an observer was told that panicked, although the
observer does not call the engine and all else is as it should be. -/
theorem listener_misses_transition_of_panicking_observer : ∃ machine final : Machine,
    machine.Reachable ∧ machine.clientTurn = true ∧ machine.isAlive 0 = true ∧
    machine.Unheard 1 ∧
    (machine.engine.host (machine.engine.executable 0).host).settings.dispatch.deferReady = false ∧
    (machine.subscribe 0 (.client 1) none false).ReachesWhile (·.Attends 1 0 0) final ∧
    final.Drained 0 ∧ final.stack = [] ∧
    movesOf 0 final.engine.journal.toList =
      [⟨0, .processing, .null⟩, ⟨0, .ready, .processing⟩] ∧
    heardBy 1 final.engine.journal.toList = [⟨0, .ready, .processing⟩] := by
  let attends (state : Machine) : Bool := decide (state.Attends 1 0 0)
  let machine := ({} : Machine).after [.openHost { dispatch := .inOrder } (.client 9),
    .build 0 (.manual false)]
  let start := machine.subscribe 0 (.client 1) none false
  let final := start.after [.call (.setStatus 0 .processing), .accept, .panic (.text "boom"),
    .call (.setStatus 0 .ready), .accept, .finish .done, .accept, .finish .done] attends
  have unheard : machine.Unheard 1 := by
    have empty : machine.stack = [] := by decide
    refine ⟨by simp [empty], fun h batch waits => ?_⟩
    rcases h with _ | h <;> cases waits
  have run : start.ReachesWhile (fun state => attends state = true) final :=
    reachesWhile_after (by decide) (by decide)
  have settled : final.stack = [] := by decide
  exact ⟨machine, final, reaches_after _ _, by decide, by decide, unheard, by decide,
    run.mono fun _ holds => of_decide_eq_true holds, ⟨by decide, by decide, by simp [settled]⟩,
    settled, by decide, by decide⟩

end Machine

end Readiness
