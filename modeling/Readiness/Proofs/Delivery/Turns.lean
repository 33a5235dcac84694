import Readiness.Proofs.Delivery.Ledger

/-! The listeners of a host are called one at a time, batch after batch.

Between two calls for one batch, no listener of the host is called for another one. The batches take
their turns in the order in which they leave the dispatch queue.
-/

namespace Readiness

open List

/-- The call of a listener begins or ends. -/
inductive Turn where
  /-- A listener is called. -/
  | begins (call : Call)
  /-- The listener has returned, or has panicked. -/
  | ends (call : Call)
  deriving DecidableEq

/-- No call begins before the one before it has ended; the last one may still be going on. -/
inductive OneAtATime : List Turn → Option Call → Prop where
  /-- Nobody has been called. -/
  | idle : OneAtATime [] none
  /-- A call begins while none is going on. -/
  | begins {turns : List Turn} (free : OneAtATime turns none) (call : Call) :
    OneAtATime (turns ++ [.begins call]) (some call)
  /-- The call that is going on ends. -/
  | ends {turns : List Turn} {call : Call} (busy : OneAtATime turns (some call)) :
    OneAtATime (turns ++ [.ends call]) none

namespace Occurrence

/-- The turn of a listener, if the event is about an executable of this host. -/
def turn? (store : Engine) (h : HostRef) : Occurrence → Option Turn
  | .invoked serial event delivery =>
    if (store.executable event.source).host = h then some (.begins ⟨serial, event, delivery⟩)
    else none
  | .returned serial event delivery _ =>
    if (store.executable event.source).host = h then some (.ends ⟨serial, event, delivery⟩)
    else none
  | _ => none

end Occurrence

/-- Nothing happens to a batch that is being delivered, or to a listener. -/
def Occurrence.isQuiet : Occurrence → Bool
  | .opened _ _ | .invoked _ _ _ | .returned _ _ _ _ => false
  | _ => true

/-- What happens elsewhere adds neither a call, nor a turn, nor a batch to deliver. -/
theorem Occurrence.filterMap_quiet {news : List Occurrence}
    (quiet : ∀ occurrence ∈ news, occurrence.isQuiet = true) (store : Engine) (h : HostRef) :
    news.filterMap Occurrence.call? = [] ∧ news.filterMap (Occurrence.turn? store h) = [] ∧
      news.filterMap (Occurrence.opened? h) = [] := by
  simp only [filterMap_eq_nil_iff]
  refine ⟨fun occurrence member => ?_, fun occurrence member => ?_, fun occurrence member => ?_⟩
  all_goals
    have other := quiet occurrence member
    cases occurrence <;> first | rfl | cases other

/-- The calls of listeners for one batch so far. -/
def callsOf (serial : Nat) (journal : List Occurrence) : List Call :=
  (callsIn journal).filter fun call => decide (call.batch = serial)

/-- The calls of listeners about executables of one host so far. -/
def callsAt (store : Engine) (h : HostRef) (journal : List Occurrence) : List Call :=
  (callsIn journal).filter fun call =>
    decide ((store.executable call.event.source).host = h)

/-- A frame that neither delivers a batch nor calls a listener. -/
def Frame.isMinor : Frame → Bool
  | .deliver _ | .guard _ _ _ => false
  | _ => true

/-- Frames of other kinds neither deliver a batch nor call a listener. -/
theorem Frame.filterMap_minor {frames : List Frame} (minor : ∀ frame ∈ frames, frame.isMinor = true)
    (store : Engine) (h : HostRef) : frames.filterMap (Frame.batch? store h) = [] ∧
      frames.filterMap (Frame.call? store h) = [] := by
  rw [filterMap_eq_nil_iff, filterMap_eq_nil_iff]
  refine ⟨fun frame member => ?_, fun frame member => ?_⟩
  all_goals
    have other := minor frame member
    cases frame <;> first | rfl | cases other

theorem Notice.Told.minor {notice : Notice} {told : List Frame} (telling : notice.Told told) :
    ∀ frame ∈ told, frame.isMinor = true := by
  rcases telling with rfl | ⟨code, rfl⟩ <;> simp [Frame.isMinor]

/-- Whose turn it is, and for which batch, agrees with the journal. -/
structure InTurn (store : Engine) (traffic : Traffic) : Prop where
  current : ∀ h, ∀ batch ∈ traffic.calls.filterMap (Frame.batch? store h),
    (traffic.account h).opened.getLast? = some batch.serial
  known : ∀ call ∈ callsIn traffic.journal,
    call.batch ∈ (traffic.account (store.executable call.event.source).host).opened
  grouped : ∀ h, callsAt store h traffic.journal =
    (traffic.account h).opened.flatMap fun serial => callsOf serial traffic.journal
  alone : ∀ h, ∃ running, traffic.calls.filterMap (Frame.call? store h) = running.toList ∧
    OneAtATime (traffic.journal.filterMap (Occurrence.turn? store h)) running

namespace InTurn

variable {store : Engine} {traffic next : Traffic} {h : HostRef} {below calls : List Frame}
  {serial : Nat} {batch : Batch}

section

variable (inTurn : InTurn store traffic)
include inTurn

/-- A step at which no batch is opened, no call begins and none ends. -/
theorem of_quiet (news : List Occurrence) (journal : next.journal = traffic.journal ++ news)
    (quiet : ∀ occurrence ∈ news, occurrence.isQuiet = true)
    (batches : ∀ h, ∀ batch ∈ next.calls.filterMap (Frame.batch? store h),
      batch ∈ traffic.calls.filterMap (Frame.batch? store h))
    (running : ∀ h, next.calls.filterMap (Frame.call? store h) =
      traffic.calls.filterMap (Frame.call? store h)) : InTurn store next := by
  have nothing := Occurrence.filterMap_quiet quiet store
  have calls : callsIn next.journal = callsIn traffic.journal := by
    rw [journal, callsIn, filterMap_append, (nothing 0).1, append_nil]
    rfl
  have opened (h : HostRef) : (next.account h).opened = (traffic.account h).opened := by
    simp only [Traffic.account, journal, filterMap_append, (nothing h).2.2, append_nil]
  refine ⟨fun h batch member => ?_, fun call member => ?_, fun h => ?_, fun h => ?_⟩
  · rw [opened]
    exact inTurn.current h batch (batches h batch member)
  · rw [opened]
    rw [calls] at member
    exact inTurn.known call member
  · simp only [callsAt, callsOf, calls, opened]
    exact inTurn.grouped h
  · obtain ⟨call, here, one⟩ := inTurn.alone h
    refine ⟨call, (running h).trans here, ?_⟩
    rw [journal, filterMap_append, (nothing h).2.1, append_nil]
    exact one

/-- A step that neither begins nor ends the delivery of a batch or the call of a listener. -/
theorem of_minor (news : List Occurrence) (dropped above : List Frame)
    (journal : next.journal = traffic.journal ++ news) (stands : traffic.calls = dropped ++ below)
    (stack : next.calls = above ++ below) (quiet : ∀ occurrence ∈ news, occurrence.isQuiet = true)
    (gone : ∀ frame ∈ dropped, frame.isMinor = true) (new : ∀ frame ∈ above, frame.isMinor = true) :
    InTurn store next := by
  have same (h : HostRef) :
      next.calls.filterMap (Frame.batch? store h) = traffic.calls.filterMap (Frame.batch? store h) ∧
        next.calls.filterMap (Frame.call? store h) =
          traffic.calls.filterMap (Frame.call? store h) := by
    simp only [stands, stack, filterMap_append, Frame.filterMap_minor gone,
      Frame.filterMap_minor new, and_self]
  exact inTurn.of_quiet news journal quiet (fun h batch member => (same h).1 ▸ member)
    fun h => (same h).2

/-- Nothing has been called for a batch that still waits. -/
theorem callsOf_of_waiting (balanced : traffic.ledger.Balanced)
    (waiting : serial ∈ (traffic.account h).queue ++ (traffic.account h).deferred) :
    callsOf serial traffic.journal = [] := by
  rw [callsOf, filter_eq_nil_iff]
  intro call member same
  have open_ := inTurn.known call member
  rw [of_decide_eq_true same] at open_
  -- A batch that was opened was so by the same host, and then it does not wait any more.
  obtain ⟨here, closed⟩ := Account.Balanced.of_waiting (balanced.account h) waiting
  have there := Account.Balanced.mentions_of_opened (balanced.account _) open_
  rw [balanced.alone _ _ _ there here] at open_
  exact closed open_

/-- A batch may leave the queue to be delivered. -/
theorem take (balanced : traffic.ledger.Balanced)
    (layered : Layered store traffic.depot traffic.calls) (top : traffic.calls = .drain h :: calls)
    {others : List Batch} (first : (traffic.depot h).queue = batch :: others)
    (journal : next.journal = traffic.journal ++ [.opened h batch.serial])
    (stack : next.calls = .deliver batch :: traffic.calls) : InTurn store next := by
  have made : callsIn next.journal = callsIn traffic.journal := by
    rw [journal]
    exact callsIn_note rfl
  have opened (other : HostRef) : (next.account other).opened =
      (traffic.account other).opened ++ if h = other then [batch.serial] else [] := by
    by_cases here : h = other
    · simp [Traffic.account, journal, Occurrence.opened?, here]
    · simp [Traffic.account, journal, Occurrence.opened?, here]
  have home := layered.homed h batch (by simp [first])
  -- The loop is the only one of its host, so no other batch of the host is being delivered.
  have none_other : traffic.calls.filterMap (Frame.batch? store h) = [] := by
    rw [top] at layered ⊢
    rw [filterMap_cons_none rfl]
    exact layered.stacked.tail.batches_eq_nil layered.not_mem_of_drain
  have uncalled := inTurn.callsOf_of_waiting balanced
    (show batch.serial ∈ (traffic.account h).queue ++ (traffic.account h).deferred by
      simp [Traffic.account, first])
  refine ⟨fun other current member => ?_, fun call member => ?_, fun other => ?_, fun other => ?_⟩
  · rw [stack] at member
    by_cases here : h = other
    · subst here
      rw [filterMap_cons_some (by simp [Frame.batch?, home] : _ = some batch), none_other,
        mem_singleton] at member
      rw [member, opened, if_pos rfl]
      simp
    · rw [filterMap_cons_none (by simp [Frame.batch?, home, here])] at member
      rw [opened, if_neg here, append_nil]
      exact inTurn.current other current member
  · rw [made] at member
    rw [opened]
    exact mem_append_left _ (inTurn.known call member)
  · have before := inTurn.grouped other
    rw [opened]
    simp only [callsAt, callsOf, made] at before uncalled ⊢
    rw [before, flatMap_append]
    by_cases here : h = other
    · simp [here, uncalled]
    · simp [here]
  · obtain ⟨running, here, one⟩ := inTurn.alone other
    refine ⟨running, ?_, ?_⟩
    · rw [stack, filterMap_cons_none rfl]
      exact here
    · rw [journal, filterMap_append, show [Occurrence.opened h batch.serial].filterMap
        (Occurrence.turn? store other) = [] from rfl, append_nil]
      exact one

end

section Invoke

variable {delivery : Delivery} {others : List Delivery}
  (journal : next.journal = traffic.journal ++ [.invoked batch.serial batch.event delivery])

include journal

theorem callsOf_invoked (serial : Nat) : callsOf serial next.journal =
    callsOf serial traffic.journal ++
      if batch.serial = serial then [⟨batch.serial, batch.event, delivery⟩] else [] := by
  simp only [callsOf, journal, callsIn_invoked, filter_append]
  by_cases same : batch.serial = serial
  · simp [same]
  · simp [same]

theorem flatMap_callsOf_of_foreign {serials : List Nat}
    (foreign : ∀ serial ∈ serials, batch.serial ≠ serial) :
    (serials.flatMap fun serial => callsOf serial next.journal) =
      serials.flatMap fun serial => callsOf serial traffic.journal :=
  flatMap_congr fun serial member => by
    rw [callsOf_invoked journal, if_neg (foreign serial member), append_nil]

/-- Once a listener is called for the last batch that was opened, calls are still made batch after
batch. -/
theorem invoke_grouped (inTurn : InTurn store traffic) (balanced : traffic.ledger.Balanced)
    {h : HostRef} (home : (store.executable batch.event.source).host = h)
    (last : (traffic.account h).opened.getLast? = some batch.serial) (other : HostRef) :
    callsAt store other next.journal =
      (traffic.account other).opened.flatMap fun serial => callsOf serial next.journal := by
  have old := inTurn.grouped other
  have made : callsIn next.journal =
      callsIn traffic.journal ++ [⟨batch.serial, batch.event, delivery⟩] := by
    rw [journal]
    exact callsIn_invoked ..
  by_cases here : other = h
  · -- The batch has no other place among those that were opened.
    subst here
    obtain ⟨before, split⟩ := getLast?_eq_some_iff.mp last
    have distinct : (before ++ [batch.serial]).Nodup := by
      have all := (balanced.account other).entered_nodup
      rw [(balanced.account other).queued] at all
      exact split ▸ (nodup_append.mp all).1
    have fresh : ∀ serial ∈ before, batch.serial ≠ serial := by
      rintro _ member rfl
      exact (nodup_append.mp distinct).2.2 _ member _ (mem_singleton_self _) rfl
    rw [split] at old ⊢
    rw [flatMap_append, flatMap_callsOf_of_foreign journal fresh]
    simp only [callsAt, made, filter_append, flatMap_append] at old ⊢
    rw [old]
    simp [callsOf_invoked journal, home]
  · -- A batch that another host has opened is another one.
    have elsewhere : ∀ serial ∈ (traffic.account other).opened, batch.serial ≠ serial := by
      rintro _ member rfl
      exact here (balanced.alone other h _
        (Account.Balanced.mentions_of_opened (balanced.account other) member)
        (Account.Balanced.mentions_of_opened (balanced.account h) (mem_of_getLast? last)))
    rw [flatMap_callsOf_of_foreign journal elsewhere, ← old]
    simp [callsAt, made, home, Ne.symm here]

/-- A listener is called only while no other of its host is. -/
theorem invoke_alone (inTurn : InTurn store traffic)
    (layered : Layered store traffic.depot traffic.calls)
    (top : traffic.calls = .deliver batch :: calls)
    (stack : next.calls = .guard batch.serial batch.event delivery ::
      .deliver { batch with deliveries := others } :: calls) (h : HostRef) :
    ∃ running, next.calls.filterMap (Frame.call? store h) = running.toList ∧
      OneAtATime (next.journal.filterMap (Occurrence.turn? store h)) running := by
  obtain ⟨running, here, one⟩ := inTurn.alone h
  rw [top, filterMap_cons_none rfl] at here
  rw [stack, journal, filterMap_append]
  by_cases home : (store.executable batch.event.source).host = h
  · have none_running : calls.filterMap (Frame.call? store h) = [] := by
      -- Another call for the host would stand on a batch of its own further down.
      rw [top] at layered
      exact layered.stacked.tail.calls_eq_nil (layered.batches_below home)
    rw [none_running] at here
    have idle : running = none := by
      cases running with
      | none => rfl
      | some call => cases here
    subst idle
    refine ⟨some ⟨batch.serial, batch.event, delivery⟩, ?_, ?_⟩
    · rw [filterMap_cons_some (by simp [Frame.call?, home] : _ = some
        ⟨batch.serial, batch.event, delivery⟩), filterMap_cons_none rfl, none_running]
      rfl
    · rw [show [Occurrence.invoked batch.serial batch.event delivery].filterMap
        (Occurrence.turn? store h) = [.begins ⟨batch.serial, batch.event, delivery⟩] by
          simp [Occurrence.turn?, home]]
      exact one.begins _
  · refine ⟨running, ?_, ?_⟩
    · rw [filterMap_cons_none (by simp [Frame.call?, home]), filterMap_cons_none rfl]
      exact here
    · rw [show [Occurrence.invoked batch.serial batch.event delivery].filterMap
        (Occurrence.turn? store h) = [] by simp [Occurrence.turn?, home], append_nil]
      exact one

/-- A listener may be called for the batch that is being delivered. -/
theorem invoke (inTurn : InTurn store traffic) (balanced : traffic.ledger.Balanced)
    (layered : Layered store traffic.depot traffic.calls)
    (top : traffic.calls = .deliver batch :: calls)
    (stack : next.calls = .guard batch.serial batch.event delivery ::
      .deliver { batch with deliveries := others } :: calls) : InTurn store next := by
  generalize home : (store.executable batch.event.source).host = h
  have opened (other : HostRef) : (next.account other).opened = (traffic.account other).opened := by
    simp [Traffic.account, journal, Occurrence.opened?]
  have last : (traffic.account h).opened.getLast? = some batch.serial :=
    inTurn.current h batch (by simp [top, Frame.batch?, home])
  refine ⟨fun other current member => ?_, fun call member => ?_, fun other => ?_,
    invoke_alone journal inTurn layered top stack⟩
  · rw [opened]
    rw [stack, filterMap_cons_none rfl] at member
    by_cases here : h = other
    · subst here
      rw [filterMap_cons_some (by simp [Frame.batch?, home] : _ = some
        { batch with deliveries := others })] at member
      rcases mem_cons.mp member with rfl | under
      · exact last
      · exact inTurn.current h current (by simp [top, Frame.batch?, home, under])
    · rw [filterMap_cons_none (by simp [Frame.batch?, home, here])] at member
      exact inTurn.current other current (by
        rw [top, filterMap_cons_none (by simp [Frame.batch?, home, here])]
        exact member)
  · rw [opened]
    rw [journal, callsIn_invoked, mem_append, mem_singleton] at member
    rcases member with old | rfl
    · exact inTurn.known call old
    · rw [home]
      exact mem_of_getLast? last
  · rw [opened]
    exact invoke_grouped journal inTurn balanced home last other

end Invoke

/-- The call of a listener may end. -/
theorem settle (inTurn : InTurn store traffic) {told : List Frame} {event : Event}
    {delivery : Delivery} {fault : Option ListenerFault}
    (top : traffic.calls = .guard serial event delivery :: calls)
    (minor : ∀ frame ∈ told, frame.isMinor = true)
    (journal : next.journal = traffic.journal ++ [.returned serial event delivery fault])
    (stack : next.calls = told ++ calls) : InTurn store next := by
  have made : callsIn next.journal = callsIn traffic.journal := by
    rw [journal]
    exact callsIn_note rfl
  have opened (other : HostRef) : (next.account other).opened = (traffic.account other).opened := by
    simp [Traffic.account, journal, Occurrence.opened?]
  have silent := Frame.filterMap_minor minor
  refine ⟨fun other batch member => ?_, fun call member => ?_, fun other => ?_, fun other => ?_⟩
  · rw [opened]
    rw [stack, filterMap_append, (silent store other).1, nil_append] at member
    refine inTurn.current other batch ?_
    rw [top, filterMap_cons_none rfl]
    exact member
  · rw [opened]
    rw [made] at member
    exact inTurn.known call member
  · simp only [callsAt, callsOf, made, opened]
    exact inTurn.grouped other
  · obtain ⟨running, here, one⟩ := inTurn.alone other
    rw [stack, filterMap_append, (silent store other).2, nil_append, journal,
      filterMap_append]
    rw [top] at here
    by_cases own : (store.executable event.source).host = other
    · -- The call that ends is the one that was going on.
      rw [filterMap_cons_some (by simp [Frame.call?, own] : _ = some
        ⟨serial, event, delivery⟩)] at here
      cases running with
      | none => cases here
      | some call =>
        obtain ⟨rfl, none_left⟩ := List.cons.inj here
        refine ⟨none, none_left, ?_⟩
        rw [show [Occurrence.returned serial event delivery fault].filterMap
          (Occurrence.turn? store other) = [.ends ⟨serial, event, delivery⟩] by
            simp [Occurrence.turn?, own]]
        exact one.ends
    · rw [filterMap_cons_none (by simp [Frame.call?, own])] at here
      refine ⟨running, here, ?_⟩
      rw [show [Occurrence.returned serial event delivery fault].filterMap
        (Occurrence.turn? store other) = [] by simp [Occurrence.turn?, own], append_nil]
      exact one

theorem dispatch (inTurn : InTurn store traffic) (dropped : List Frame)
    (stands : traffic.calls = dropped ++ below) (gone : ∀ frame ∈ dropped, frame.isMinor = true)
    {busy : Bool} (journal : next.journal = traffic.journal ++ [.queued h batch.serial])
    (stack : next.calls = if busy then below else .drain h :: below) : InTurn store next := by
  cases busy with
  | true =>
    exact inTurn.of_minor [_] dropped [] journal stands stack (by simp [Occurrence.isQuiet]) gone
      (by simp)
  | false =>
    exact inTurn.of_minor [_] dropped [.drain h] journal stands stack
      (by simp [Occurrence.isQuiet]) gone (by simp [Frame.isMinor])

/-- Every step keeps the turns in order. -/
theorem step {given : Surroundings} (inTurn : InTurn given.store traffic)
    (balanced : traffic.ledger.Balanced)
    (layered : Layered given.store traffic.depot traffic.calls)
    (step : given.Step traffic next) : InTurn given.store next := by
  have same : traffic.journal = traffic.journal ++ [] := (append_nil _).symm
  cases step with
  | pass => exact inTurn
  | openHost | subscribe | unsubscribe =>
    exact inTurn.of_minor [] [] [] same rfl rfl (by simp) (by simp) (by simp)
  | @move e transition told real calm free telling =>
    refine inTurn.of_minor [_] [] (told ++ [.announce e transition
      ((traffic.subscriptions e).due transition.new)]) rfl rfl (by simp [Traffic.move])
      (by simp [Occurrence.isQuiet]) (by simp) fun frame member => ?_
    rcases mem_append.mp member with early | late
    · exact telling.minor frame early
    · rw [mem_singleton.mp late]
      rfl
  | tell calm free telling | destroy calm free telling =>
    exact inTurn.of_minor [] [] _ same rfl rfl (by simp) (by simp) telling.minor
  | hear top | hush top =>
    exact inTurn.of_minor [] [_] [] same top rfl (by simp) (by simp [Frame.isMinor]) (by simp)
  | close top why =>
    exact inTurn.of_minor [] [_] [] same top rfl (by simp) (by simp [Frame.isMinor]) (by simp)
  | post top some_due opened prompt =>
    exact inTurn.dispatch [_] top (by simp [Frame.isMinor]) rfl rfl
  | pump asked opened first calm free => exact inTurn.dispatch [] rfl (by simp) rfl rfl
  | putOff top some_due opened later =>
    exact inTurn.of_minor [_] [_] [] rfl top rfl (by simp [Occurrence.isQuiet])
      (by simp [Frame.isMinor]) (by simp)
  | listen asked opened more =>
    exact inTurn.of_minor [_] [] [] rfl rfl rfl (by simp [Occurrence.isQuiet]) (by simp) (by simp)
  | take top opened first => exact inTurn.take balanced layered top first rfl rfl
  | invoke top left there => exact inTurn.invoke (by rfl) balanced layered top rfl
  | settle top telling =>
    refine inTurn.settle top ?_ rfl rfl
    rcases telling with rfl | ⟨why, telling⟩
    · simp
    · exact telling.minor
  | @finish batch calls top why =>
    -- The batch leaves the stack, and calls nobody.
    refine inTurn.of_quiet [] same (by simp) (fun h other member => ?_) fun h => ?_
    · obtain ⟨frame, under, found⟩ := mem_filterMap.mp member
      exact mem_filterMap.mpr ⟨frame, by rw [top]; exact mem_cons_of_mem _ under, found⟩
    · rw [top, filterMap_cons_none rfl]

end InTurn

/-- In every state of every run the turns are in order. -/
theorem Machine.Reachable.inTurn {machine : Machine} (reachable : machine.Reachable)
    {store : Engine} (grown : machine.engine.Extends store) : InTurn store machine.traffic := by
  -- The books and the layers are needed at each step, so all three go through the run together.
  refine And.left (reachable.traffic_invariant grown (motive := fun traffic =>
    InTurn store traffic ∧ traffic.ledger.Balanced ∧
      Layered store traffic.depot traffic.calls) ?_ fun same step before => ?_)
  · have empty : ({} : Machine).Reachable := .refl
    exact ⟨⟨fun _ _ member => (by cases member), fun _ member => (by cases member), fun _ => rfl,
      fun _ => ⟨none, rfl, .idle⟩⟩, empty.balanced,
      ⟨fun _ _ member => (by cases member), .empty, fun _ => rfl⟩⟩
  · obtain ⟨inTurn, balanced, layered⟩ := before
    subst same
    exact ⟨inTurn.step balanced layered step, balanced.step (Traffic.ledger_step step),
      layered.step step⟩

end Readiness
