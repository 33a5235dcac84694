import Readiness.Proofs.Delivery.Destroyed
import Readiness.Proofs.Delivery.Pump
import Readiness.Proofs.Delivery.Recovery
import Readiness.Proofs.Machine.Enters
import Readiness.Proofs.Tally.Calls

/-! A listener that fails is counted and reported, and the batch goes on as if it had not failed.

Main statement: whatever the listeners of a batch do, they are called one after the other until all
have been called or the source is destroyed, each failure is reported to the observer right after
it, and those who had the batch delivered hear nothing of it.
-/

namespace Readiness

open List

/-- Whether something occurs in the calls of the listeners of a host: one begins or ends, or its
failure is reported. -/
def Occurrence.isCallAt (store : Engine) (h : HostRef) : Occurrence → Bool
  | .invoked _ event _ | .returned _ event _ _ => decide ((store.executable event.source).host = h)
  | .observed host (.listenerFailed _ _ _) => decide (host = h)
  | _ => false

/-- The call of one listener of a batch. -/
structure Episode where
  /-- Who is called, and for which entry. -/
  delivery : Delivery
  /-- What occurs until the call ends. -/
  during : List Occurrence
  /-- How the call ends. -/
  fault : Option ListenerFault
  /-- What occurs while the observer is told of it. -/
  after : List Occurrence

/-- The part of the journal that tells of a call, reported to the observer of a host if it ended
badly. -/
def Episode.entries (episode : Episode) (h : HostRef) (batch : Batch) : List Occurrence :=
  .invoked batch.serial batch.event episode.delivery :: (episode.during ++
    .returned batch.serial batch.event episode.delivery episode.fault ::
      (batch.event.report h episode.fault ++ episode.after))

/-- The source of what a frame tells a listener. -/
def Frame.tells? : Frame → Option ExecutableRef
  | .guard _ event _ => some event.source
  | .deliver batch => some batch.event.source
  | _ => none

/-- What stands above the delivery of a batch tells listeners of other hosts. -/
theorem Layered.home_ne {store : Engine} {depot : HostRef → Host} {top frame : Frame}
    {more under : List Frame} {batch : Batch} {h : HostRef} {e : ExecutableRef}
    (layered : Layered store depot (top :: more ++ frame :: .deliver batch :: .drain h :: under))
    (plain : frame.isDeliver = false) (free : frame.isDrain = false)
    (tells : top.tells? = some e) : (store.executable e).host ≠ h := by
  rintro rfl
  -- A second delivery loop of the host would stand under what is on top.
  have one := layered.loops (store.executable e).host
  have once : (depot (store.executable e).host).draining.toNat ≤ 1 := Bool.toNat_le _
  have twice {above : List Frame} (second : .drain (store.executable e).host ∈ above)
      (inside : top :: more = above) : False := by
    have first := count_pos_iff.mpr second
    rw [inside, count_append, count_cons, count_cons, count_cons] at one
    simp at one
    omega
  have loop {other : Batch} {above : List Frame}
      (stacked : Stacked store (.deliver other :: (above ++ frame :: .deliver batch ::
        .drain (store.executable e).host :: under))) :
      .drain (store.executable other.event.source).host ∈ above := by
    generalize same : above ++ frame :: _ = calls at stacked
    cases stacked with
    | deliver home =>
      cases above with
      | nil =>
        cases same
        cases free
      | cons first rest =>
        cases same
        rw [home]
        exact mem_cons_self
  have stacked := layered.stacked
  rw [cons_append] at stacked
  cases top with
  | deliver other =>
    cases tells
    exact twice (mem_cons_of_mem _ (loop stacked)) rfl
  | guard serial event delivery =>
    cases tells
    generalize same : more ++ frame :: _ = calls at stacked
    cases stacked with
    | @guard other _ _ stacked =>
      cases more with
      | nil =>
        cases same
        cases plain
      | cons first rest =>
        cases same
        exact twice (mem_cons_of_mem _ (mem_cons_of_mem _ (loop stacked))) rfl
  | _ => cases tells

namespace Machine

variable {start machine next final : Machine} {batch : Batch} {rest : List Frame} {store : Engine}
  {h : HostRef} {left : List Delivery} {delivery : Delivery} {episodes : List Episode}

/-- A call of a listener that has ended is settled, and the batch goes on. -/
theorem step_of_ending {serial : Nat} {event : Event}
    (stands : machine.stack = .guard serial event delivery :: rest) {fault : Option ListenerFault}
    (ends : machine.control.ending? = some fault) :
    machine.step =
      listenerReturned { machine with stack := rest } serial event delivery fault := by
  cases turn : machine.control with
  | resume answer =>
    rw [turn] at ends
    simp only [Machine.step, turn, stands, receive]
    split
    · cases ends
      rfl
    · rename_i other
      rw [Control.ending?] at ends
      · cases ends
        rfl
      · exact fun reason same => other reason (by cases same; rfl)
  | unwind payload =>
    rw [turn] at ends
    obtain ⟨quiet, ⟨⟩⟩ := Option.ite_none_right_eq_some.mp ends
    simp only [Machine.step, turn, stands, unwind_guard quiet]
  | perform | called | returned =>
    rw [turn] at ends
    cases ends

/-- What a step adds to the journal is not about the calls of the listeners of a host, unless it
begins or ends one of them. -/
theorem Reachable.news_apart (reachable : machine.Reachable) (step : Next machine next)
    (grown : next.engine.Extends store)
    (begun : ∀ other calls, machine.traffic.calls = .deliver other :: calls →
      (store.executable other.event.source).host ≠ h)
    (ended : next.engine.receipts = machine.engine.receipts ∨ ∃ event delivery fault,
      event.source < machine.engine.executables.length ∧
      (store.executable event.source).host ≠ h ∧
      next.engine.receipts = machine.engine.receipts.settle
        (machine.engine.executable event.source).host (event, delivery) fault) :
    ∃ news, next.engine.journal.toList = machine.engine.journal.toList ++ news ∧
      (∀ occurrence ∈ news, occurrence.isCallAt store h = false) ∧
      next.engine.receipts.counted h = machine.engine.receipts.counted h := by
  have sound := reachable.sound
  have before := (sound.later_next step).grown.trans grown
  obtain ⟨news, more⟩ := (sound.enters_next step).journal_grows
  have more : next.engine.journal.toList = machine.engine.journal.toList ++ news := more
  -- A call that begins is one of the batch on top, which is of another host.
  have calls : ∀ call ∈ callsIn news, (store.executable call.event.source).host ≠ h := by
    have split : callsIn next.engine.journal.toList =
        callsIn machine.engine.journal.toList ++ callsIn news := by
      rw [more, callsIn, filterMap_append]
      rfl
    have rule := (sound.rules_next step before).callsIn_cases
    simp only [callsIn_traffic] at rule
    rcases rule with none | ⟨other, delivery, _, calls, top, _, _, one⟩
    · rw [append_right_eq_self.mp (split.symm.trans none)]
      exact fun _ member => by cases member
    · rw [append_cancel_left (split.symm.trans one)]
      intro call member
      rw [mem_singleton.mp member]
      exact begun other calls top
  -- What ends and what is reported is the one call that has been settled.
  have ends : (∀ call ∈ news.filterMap Occurrence.ended?,
        (store.executable call.1.1.source).host ≠ h) ∧
      (∀ occurrence ∈ news.filter Occurrence.isReport, occurrence.isCallAt store h = false) ∧
      next.engine.receipts.counted h = machine.engine.receipts.counted h := by
    have list : next.engine.receipts.ended =
        machine.engine.receipts.ended ++ news.filterMap Occurrence.ended? := by
      simp only [Engine.receipts, more, filterMap_append]
    have reports : next.engine.receipts.reports =
        machine.engine.receipts.reports ++ news.filter Occurrence.isReport := by
      simp only [Engine.receipts, more, filter_append]
    rcases ended with same | ⟨event, delivery, fault, built, other, settled⟩
    · rw [same] at list reports ⊢
      rw [append_right_eq_self.mp list.symm, append_right_eq_self.mp reports.symm]
      exact ⟨forall_mem_nil _, forall_mem_nil _, rfl⟩
    · have home := before.home _ built
      rw [settled] at list reports ⊢
      rw [← append_cancel_left list, ← append_cancel_left reports]
      refine ⟨fun call member => ?_, fun occurrence member => ?_, ?_⟩
      · rw [mem_singleton.mp member]
        exact other
      · cases fault with
        | none => cases member
        | some why =>
          rw [mem_singleton.mp member]
          exact decide_eq_false fun here => other (home.trans here)
      · exact Function.update_of_ne (fun here => other (home.trans here.symm)) _ _
  refine ⟨news, more, fun occurrence member => ?_, ends.2.2⟩
  cases occurrence with
  | invoked serial event delivery =>
    exact decide_eq_false (calls ⟨serial, event, delivery⟩
      (mem_filterMap.mpr ⟨_, member, rfl⟩))
  | returned serial event delivery fault =>
    exact decide_eq_false (ends.1 ((event, delivery), fault.isSome)
      (mem_filterMap.mpr ⟨_, member, rfl⟩))
  | observed host notice =>
    cases notice with
    | listenerFailed e status why => exact ends.2.1 _ (mem_filter.mpr ⟨member, rfl⟩)
    | _ => rfl
  | _ => rfl

/-- While somebody is called from a batch, no other call of a listener of its host begins or
ends. -/
theorem Reachable.attended_next (reachable : machine.Reachable) (step : Next machine next)
    (grown : next.engine.Extends store) {pushed under : List Frame} {frame : Frame}
    (stands : machine.stack = pushed ++ frame :: .deliver batch :: .drain h :: under)
    (visible : frame.isTraffic = true) (plain : frame.isDeliver = false)
    (free : frame.isDrain = false)
    (calm : pushed = [] → next.engine.receipts = machine.engine.receipts) :
    ∃ news, next.engine.journal.toList = machine.engine.journal.toList ++ news ∧
      (∀ occurrence ∈ news, occurrence.isCallAt store h = false) ∧
      next.engine.receipts.counted h = machine.engine.receipts.counted h := by
  have sound := reachable.sound
  have before := (sound.later_next step).grown.trans grown
  have calls : machine.traffic.calls = pushed.filter Frame.isTraffic ++
      frame :: .deliver batch :: .drain h :: under.filter Frame.isTraffic := by
    show machine.stack.filter Frame.isTraffic = _
    rw [stands, filter_append, filter_cons_of_pos visible]
    rfl
  have layered := reachable.layered before
  rw [calls] at layered
  refine reachable.news_apart step grown (fun other rest top => ?_) ?_
  · rw [calls] at top
    cases above : pushed.filter Frame.isTraffic with
    | nil =>
      rw [above] at top
      cases top
      cases plain
    | cons first more =>
      rw [above] at top layered
      cases top
      exact layered.home_ne plain free rfl
  · rcases sound.receipts_next step with same | ⟨_, event, delivery, _, fault, top, built, settled⟩
    · exact .inl same
    · cases pushed with
      | nil => exact .inl (calm rfl)
      | cons first more =>
        rw [stands] at top
        cases top
        exact .inr ⟨event, delivery, fault, built, layered.home_ne plain free rfl, settled⟩

/-- The call of a listener of a batch has just ended. Nothing changes in the store when it is
settled, but that it is counted, entered in the journal and reported if it ended badly. -/
structure EndsEpisode (call : Machine) (batch : Batch) (rest : List Frame) (h : HostRef)
    (episode : Episode) : Prop where
  /-- The listener was called from the batch. -/
  stands : ∃ left, call.stack = .guard batch.serial batch.event episode.delivery ::
    .deliver { batch with deliveries := left } :: rest
  /-- This is what came back from it. -/
  ends : call.control.ending? = some episode.fault
  /-- It is settled at once. -/
  settled : call.step.engine =
    call.engine.settle h batch.serial batch.event episode.delivery episode.fault

/-- What has come of the listeners of a batch that have been called so far. -/
structure Account (start : Machine) (batch : Batch) (rest : List Frame) (store : Engine)
    (h : HostRef) (episodes : List Episode) (machine : Machine) : Prop where
  /-- They have been called since the batch was opened. -/
  run : start.Reaches machine
  /-- The journal tells of one call after the other. -/
  journal : machine.engine.journal.toList =
    start.engine.journal.toList ++ episodes.flatMap (·.entries h batch)
  /-- Nothing else that it tells is about calls of listeners of the host. -/
  apart : ∀ episode ∈ episodes, ∀ occurrence ∈ episode.during ++ episode.after,
    occurrence.isCallAt store h = false
  /-- The host has counted the calls. -/
  invocations : (machine.engine.host h).tally.invocations =
    (start.engine.host h).tally.invocations + episodes.length
  /-- It has counted the failures. -/
  failures : (machine.engine.host h).tally.failures =
    (start.engine.host h).tally.failures + episodes.countP (·.fault.isSome)
  /-- Every call has ended in the way that the journal tells. -/
  ended : ∀ early episode late, episodes = early ++ episode :: late → ∃ call,
    start.Reaches call ∧ call.Reaches machine ∧ call.EndsEpisode batch rest h episode ∧
      call.engine.journal.toList = start.engine.journal.toList ++
        early.flatMap (·.entries h batch) ++
          .invoked batch.serial batch.event episode.delivery :: episode.during

/-- A listener of a batch has been called and is at work. -/
structure Calling (begun : Machine) (batch : Batch) (rest : List Frame) (store : Engine)
    (h : HostRef) (delivery : Delivery) (left : List Delivery) (during : List Occurrence)
    (machine : Machine) : Prop where
  /-- It was called while the source was there. -/
  there : (begun.engine.executable batch.event.source).destroyed = false
  /-- It has been at work since then. -/
  run : begun.Reaches machine
  /-- The journal tells of the call. -/
  journal : machine.engine.journal.toList = begun.engine.journal.toList ++
    .invoked batch.serial batch.event delivery :: during
  /-- Nothing else that it tells is about calls of listeners of the host. -/
  apart : ∀ occurrence ∈ during, occurrence.isCallAt store h = false
  /-- The host has counted no call meanwhile. -/
  counted : machine.engine.receipts.counted h = begun.engine.receipts.counted h
  /-- The call has not been settled. -/
  works : .guard batch.serial batch.event delivery ::
    .deliver { batch with deliveries := left } :: rest <:+ machine.stack

namespace Account

variable {made : List Episode} {last : Episode} {begun : Machine} {during news : List Occurrence}

theorem opens (start : Machine) (batch : Batch) (rest : List Frame) (store : Engine)
    (h : HostRef) : start.Account batch rest store h [] start where
  run := .refl
  journal := (append_nil _).symm
  apart := fun _ member => by cases member
  invocations := rfl
  failures := rfl
  ended := fun early _ _ none => by simp at none

/-- A step that leaves the store as it is leaves the account. -/
theorem pass (account : start.Account batch rest store h episodes machine)
    (step : Next machine next) (same : next.engine = machine.engine) :
    start.Account batch rest store h episodes next where
  run := .step account.run step
  journal := same ▸ account.journal
  apart := account.apart
  invocations := same ▸ account.invocations
  failures := same ▸ account.failures
  ended := fun early episode late split => by
    obtain ⟨call, before, after, rest⟩ := account.ended early episode late split
    exact ⟨call, before, .step after step, rest⟩

/-- What occurs while the observer is told goes on the account of the call that has ended. -/
theorem tell (account : start.Account batch rest store h (made ++ [last]) machine)
    (step : Next machine next)
    (more : next.engine.journal.toList = machine.engine.journal.toList ++ news)
    (apart : ∀ occurrence ∈ news, occurrence.isCallAt store h = false)
    (counted : next.engine.receipts.counted h = machine.engine.receipts.counted h) :
    start.Account batch rest store h (made ++ [{ last with after := last.after ++ news }])
      next where
  run := .step account.run step
  journal := by
    rw [more, account.journal]
    simp [Episode.entries]
  apart := by
    intro episode member occurrence told
    rcases mem_append.mp member with before | now
    · exact account.apart episode (mem_append_left _ before) occurrence told
    · have old := account.apart last (mem_append_right _ (mem_singleton_self _))
      rw [mem_singleton.mp now] at told
      simp only [mem_append] at told old
      rcases told with during | after | new
      · exact old occurrence (.inl during)
      · exact old occurrence (.inr after)
      · exact apart occurrence new
  invocations := by
    have all := account.invocations
    rw [length_append] at all ⊢
    exact (congrArg Prod.fst counted).trans all
  failures := by
    have all := account.failures
    rw [countP_append] at all ⊢
    exact (congrArg Prod.snd counted).trans all
  ended := by
    intro early episode late split
    -- The last call had ended before, as the others had.
    rcases late.eq_nil_or_concat with rfl | ⟨more, final, rfl⟩
    · obtain ⟨rfl, same⟩ := append_inj' split rfl
      obtain ⟨call, before, after, ended, told⟩ := account.ended made last [] rfl
      cases same
      exact ⟨call, before, .step after step, ⟨ended.stands, ended.ends, ended.settled⟩, told⟩
    · rw [concat_eq_append, ← cons_append, ← append_assoc] at split
      obtain ⟨rfl, same⟩ := append_inj' split rfl
      obtain ⟨call, before, after, rest⟩ := account.ended early episode (more ++ [last]) (by simp)
      exact ⟨call, before, .step after step, rest⟩

/-- A call that ends goes on the account. -/
theorem settle (account : start.Account batch rest store h episodes begun)
    (calling : begun.Calling batch rest store h delivery left during machine)
    (opened : h < machine.engine.hosts.length)
    (home : (machine.engine.executable batch.event.source).host = h)
    (stands : machine.stack = .guard batch.serial batch.event delivery ::
      .deliver { batch with deliveries := left } :: rest)
    {fault : Option ListenerFault} (ends : machine.control.ending? = some fault)
    (step : Next machine machine.step) :
    start.Account batch rest store h (episodes ++ [⟨delivery, during, fault, []⟩])
      machine.step := by
  have settled : machine.step.engine =
      machine.engine.settle h batch.serial batch.event delivery fault := by
    rw [step_of_ending stands ends, engine_listenerReturned, home]
  have counted : machine.step.engine.receipts.counted h =
      ((begun.engine.receipts.counted h).1 + 1,
        (begun.engine.receipts.counted h).2 + fault.isSome.toNat) := by
    rw [settled, Engine.receipts_settle _ opened, ← calling.counted]
    exact Function.update_self ..
  have run := account.run.trans calling.run
  refine ⟨.step run step, ?_, ?_, ?_, ?_, ?_⟩
  · have told : (machine.engine.settle h batch.serial batch.event delivery
        fault).journal.toList = machine.engine.journal.toList ++
          .returned batch.serial batch.event delivery fault :: batch.event.report h fault := by
      cases fault <;>
        simp [Engine.settle, Event.report, Engine.note, Engine.modifyTally, Engine.modifyHost]
    rw [settled, told, calling.journal, account.journal]
    simp [Episode.entries]
  · intro episode member occurrence told
    rcases mem_append.mp member with before | now
    · exact account.apart episode before occurrence told
    · rw [mem_singleton.mp now, append_nil] at told
      exact calling.apart occurrence told
  · rw [length_append, ← Nat.add_assoc, ← account.invocations]
    exact congrArg Prod.fst counted
  · rw [countP_append, ← Nat.add_assoc, ← account.failures]
    refine (congrArg Prod.snd counted).trans ?_
    cases fault <;> rfl
  · intro early episode late split
    -- It is the call that ends now, or one that had ended before.
    rcases late.eq_nil_or_concat with rfl | ⟨more, final, rfl⟩
    · obtain ⟨rfl, same⟩ := append_inj' split rfl
      cases same
      refine ⟨machine, run, .step .refl step, ⟨⟨left, stands⟩, ends, settled⟩, ?_⟩
      rw [calling.journal, account.journal]
    · rw [concat_eq_append, ← cons_append, ← append_assoc] at split
      obtain ⟨rfl, same⟩ := append_inj' split rfl
      obtain ⟨call, before, after, rest⟩ := account.ended early episode more rfl
      exact ⟨call, before, .step (after.trans calling.run) step, rest⟩

end Account

/-- How far the delivery of a batch has come that was opened above these frames. -/
inductive Headway (start : Machine) (batch : Batch) (rest : List Frame) (store : Engine)
    (h : HostRef) (machine : Machine) : Prop where
  /-- The batch goes on with the next listener. -/
  | between {episodes : List Episode} {left : List Delivery} {answer : Answer}
    (account : start.Account batch rest store h episodes machine)
    (split : batch.deliveries = episodes.map (·.delivery) ++ left)
    (answers : machine.control = .resume answer)
    (stands : machine.stack = .deliver { batch with deliveries := left } :: rest)
  /-- A listener is at work. -/
  | calling {begun : Machine} {episodes : List Episode} {delivery : Delivery}
    {left : List Delivery} {during : List Occurrence}
    (account : start.Account batch rest store h episodes begun)
    (split : batch.deliveries = episodes.map (·.delivery) ++ delivery :: left)
    (calling : begun.Calling batch rest store h delivery left during machine)
  /-- The observer is told that a listener has failed. -/
  | telling {made : List Episode} {last : Episode} {left : List Delivery} {code : CodeRef}
    {why : ListenerFault} (account : start.Account batch rest store h (made ++ [last]) machine)
    (failed : last.fault = some why)
    (split : batch.deliveries = (made ++ [last]).map (·.delivery) ++ left)
    (works : .client (.observer code
        (.listenerFailed batch.event.source batch.event.status why)) ::
      .deliver { batch with deliveries := left } :: rest <:+ machine.stack)
  /-- The batch is over: all listeners have been called, or the source is destroyed. Nothing is
  passed on but that it is done with. -/
  | finished {ended : Machine} {episodes : List Episode} {left : List Delivery}
    (account : start.Account batch rest store h episodes ended)
    (split : batch.deliveries = episodes.map (·.delivery) ++ left)
    (why : left = [] ∨ (ended.engine.executable batch.event.source).destroyed = true)
    (answers : ended.control = .resume .done) (stands : ended.stack = rest)
    (run : ended.Reaches machine)

/-- The observer panics while it is told that a listener of the batch has failed. -/
def PanicsTold (machine : Machine) (batch : Batch) (rest : List Frame) : Prop :=
  ∃ payload code notice left, machine.control = .unwind payload ∧
    machine.stack = .client (.observer code notice) ::
      .deliver { batch with deliveries := left } :: rest

/-- The batch calls its next listener, or is over. -/
theorem Account.stage_between {answer : Answer}
    (account : start.Account batch rest store h episodes machine)
    (split : batch.deliveries = episodes.map (·.delivery) ++ left)
    (answers : machine.control = .resume answer)
    (stands : machine.stack = .deliver { batch with deliveries := left } :: rest) :
    start.Headway batch rest store h machine.step := by
  have step : Next machine machine.step := .engine (by simp [clientTurn, answers])
  have does : machine.step = receive { machine with stack := rest } answer
      (.deliver { batch with deliveries := left }) := by
    simp only [Machine.step, answers, stands]
  have ends (same : machine.step = resume { machine with stack := rest } .done)
      (why : left = [] ∨ (machine.engine.executable batch.event.source).destroyed = true) :
      start.Headway batch rest store h machine.step := by
    have engine : machine.step.engine = machine.engine := by rw [same]; rfl
    exact .finished (account.pass step engine) split (by rw [engine]; exact why) (by rw [same]; rfl)
      (by rw [same]; rfl) .refl
  cases left with
  | nil => exact ends does (.inl rfl)
  | cons delivery left =>
    simp only [receive] at does
    split at does
    · rename_i gone
      exact ends does (.inr gone)
    · rename_i there
      have calling : machine.Calling batch rest store h delivery left [] machine.step := by
        refine ⟨by simpa using there, .step .refl step, ?_, forall_mem_nil _,
          ?_, ?_⟩
        · rw [does]
          exact Array.toList_push
        · rw [does]
          exact congrArg (Receipts.counted · h) (machine.engine.receipts_note rfl rfl)
        · rw [does]
          exact suffix_rfl
      exact .calling account split calling

/-- A listener at work goes on, or its call is settled. -/
theorem Account.stage_calling (reachable : machine.Reachable) {begun : Machine}
    {during : List Occurrence} (account : start.Account batch rest store h episodes begun)
    (split : batch.deliveries = episodes.map (·.delivery) ++ delivery :: left)
    (calling : begun.Calling batch rest store h delivery left during machine)
    (loop : ∃ under, rest = .drain h :: under)
    (home : (store.executable batch.event.source).host = h) (step : Next machine next)
    (grown : next.engine.Extends store) : start.Headway batch rest store h next := by
  have sound := reachable.sound
  have before := (sound.later_next step).grown.trans grown
  obtain ⟨under, rfl⟩ := loop
  obtain ⟨pushed, stands⟩ := calling.works
  have goesOn (calm : pushed = [] → next.engine.receipts = machine.engine.receipts)
      (works : .guard batch.serial batch.event delivery ::
        .deliver { batch with deliveries := left } :: .drain h :: under <:+ next.stack) :
      start.Headway batch (.drain h :: under) store h next := by
    obtain ⟨news, more, apart, counted⟩ :=
      reachable.attended_next step grown stands.symm rfl rfl rfl calm
    have later : begun.Calling batch (.drain h :: under) store h delivery left (during ++ news)
        next := by
      refine ⟨calling.there, .step calling.run step, ?_, fun occurrence member => ?_,
        counted.trans calling.counted, works⟩
      · rw [more, calling.journal, append_assoc, cons_append]
      · exact (mem_append.mp member).elim (calling.apart occurrence) (apart occurrence)
    exact .calling account split later
  cases pushed with
  | cons top more =>
    exact goesOn (fun none => by cases none)
      ((suffix_append ..).trans (step.suffix stands.symm))
  | nil =>
    have stands := stands.symm
    rw [nil_append] at stands
    have known := sound.frames _ (by rw [stands]; exact mem_cons_self)
    have built := known.executables batch.event.source (mem_singleton_self _)
    have here : (machine.engine.executable batch.event.source).host = h :=
      (before.home _ built).symm.trans home
    -- The call has ended; whether the observer is now at work depends on the host.
    have settles {fault : Option ListenerFault} (ends : machine.control.ending? = some fault)
        (busy : machine.clientTurn = false) :
        start.Headway batch (.drain h :: under) store h next := by
      rw [step.eq_step busy]
      have account := account.settle calling (here ▸ sound.store.hosted _ built) here stands ends
        (.engine busy)
      have split : batch.deliveries =
          (episodes ++ [(⟨delivery, during, fault, []⟩ : Episode)]).map (·.delivery) ++ left := by
        simp [split]
      have does := step_of_ending stands ends
      cases fault with
      | none => exact .between account split (by rw [does]; rfl) (by rw [does]; rfl)
      | some why =>
        simp only [listenerReturned, notify] at does
        split at does
        · exact .telling account rfl split (by rw [does]; exact suffix_rfl)
        · exact .between account split (by rw [does]; rfl) (by rw [does]; rfl)
        · exact .between account split (by rw [does]; rfl) (by rw [does]; rfl)
    cases turn : machine.control with
    | perform command =>
      have does : next = machine.start command := by
        rw [step.eq_step (by simp [clientTurn, turn]), Machine.step, turn]
      refine goesOn (fun _ => sound.receipts_eq step (by rw [turn]; rfl)) ?_
      rw [does, ← stands]
      exact (machine.sequel_start command).suffix
    | resume answer =>
      have ends : ∃ fault, machine.control.ending? = some fault := by
        rw [turn, Control.ending?.eq_def]
        split <;> simp_all
      obtain ⟨fault, ends⟩ := ends
      exact settles ends (by simp [clientTurn, turn])
    | unwind payload =>
      exact settles (by rw [turn]; exact if_pos (sound.quiet turn)) (by simp [clientTurn, turn])
    | called | returned answer =>
      have fits := sound.control
      rw [turn, stands] at fits
      exact absurd (fits _ rfl) (by simp [Frame.isClient])

/-- The observer goes on until it has been told, and then the batch does. -/
theorem Account.stage_telling (reachable : machine.Reachable) {made : List Episode} {last : Episode}
    {code : CodeRef} {why : ListenerFault}
    (account : start.Account batch rest store h (made ++ [last]) machine)
    (failed : last.fault = some why)
    (split : batch.deliveries = (made ++ [last]).map (·.delivery) ++ left)
    (works : .client (.observer code
        (.listenerFailed batch.event.source batch.event.status why)) ::
      .deliver { batch with deliveries := left } :: rest <:+ machine.stack)
    (loop : ∃ under, rest = .drain h :: under) (steady : ¬ machine.PanicsTold batch rest)
    (step : Next machine next) (grown : next.engine.Extends store) :
    start.Headway batch rest store h next := by
  obtain ⟨under, rfl⟩ := loop
  obtain ⟨pushed, stands⟩ := works
  -- As long as the observer is being told, all that happens belongs to the last call.
  have goesOn (calm : pushed = [] → next.engine.receipts = machine.engine.receipts)
      (works : .client (.observer code
          (.listenerFailed batch.event.source batch.event.status why)) ::
        .deliver { batch with deliveries := left } :: .drain h :: under <:+ next.stack) :
      start.Headway batch (.drain h :: under) store h next := by
    obtain ⟨news, more, apart, counted⟩ :=
      reachable.attended_next step grown stands.symm rfl rfl rfl calm
    exact .telling (account.tell step more apart counted) failed (by simpa using split) works
  cases pushed with
  | cons top more =>
    exact goesOn (fun none => by cases none)
      ((suffix_append ..).trans (step.suffix stands.symm))
  | nil =>
    have stands := stands.symm
    rw [nil_append] at stands
    have same (kept : next.stack = machine.stack)
        (calm : next.engine.receipts = machine.engine.receipts) :
        start.Headway batch (.drain h :: under) store h next :=
      goesOn (fun _ => calm) (by rw [kept, stands])
    cases turn : machine.clientTurn with
    | false =>
      have fits := reachable.sound.control
      cases control : machine.control with
      | perform command =>
        rw [control, stands] at fits
        obtain ⟨_, ⟨top, _, first, _, ours⟩, _⟩ := fits
        cases first
        cases ours
      | resume answer =>
        have does : next.stack = machine.stack ∧ next.engine = machine.engine := by
          rw [step.eq_step turn]
          simp only [Machine.step, control, stands, receive]
          exact ⟨rfl, rfl⟩
        exact same does.1 (by rw [does.2])
      | unwind payload => exact absurd ⟨payload, code, _, left, control, stands⟩ steady
      | called | returned answer =>
        rw [clientTurn, control] at turn
        cases turn
    | true =>
      have calm := reachable.sound.receipts_of_clientTurn turn step
      cases step with
      | engine busy => exact absurd turn (by simp [busy])
      | call _ permitted =>
        exact goesOn (fun _ => calm) (by rw [← stands]; exact suffix_cons ..)
      | finish _ top reply =>
        exact .between (account.pass (.finish turn top reply) rfl) split rfl
          (by rw [Machine.finish, stands]; rfl)
      | build _ opened alive success => exact same (kept_of_build success).1 calm
      | beginWait _ alive => exact same (machine.kept_of_beginWait _).1 calm
      | accept | advance | openHost | retain | release | subscribe | unsubscribe | openSession
      | closeSession | panic => exact same rfl calm

/-- The delivery of a batch comes further with every step, as long as no observer panics that is
told of a failure. -/
theorem Headway.onward (stage : start.Headway batch rest store h machine)
    (reachable : machine.Reachable) (loop : ∃ under, rest = .drain h :: under)
    (home : (store.executable batch.event.source).host = h)
    (steady : ¬ machine.PanicsTold batch rest) (step : Next machine next)
    (grown : next.engine.Extends store) : start.Headway batch rest store h next := by
  cases stage with
  | between account split answers stands =>
    rw [step.eq_step (by simp [clientTurn, answers])]
    exact account.stage_between split answers stands
  | calling account split calling =>
    exact account.stage_calling reachable split calling loop home step grown
  | telling account failed split works =>
    exact account.stage_telling reachable failed split works loop steady step grown
  | finished account split why answers stands run =>
    exact .finished account split why answers stands (.step run step)

/-- Once the source of a batch is destroyed, no listener is told of it any more. -/
theorem Reaches.callsAbout_eq (run : machine.Reaches final) (reachable : machine.Reachable)
    {e : ExecutableRef} (gone : (machine.engine.executable e).destroyed = true) :
    callsAbout e final.engine.journal.toList = callsAbout e machine.engine.journal.toList := by
  have kept : final.traffic.destroyed e = true ∧
      callsAbout e final.traffic.journal = callsAbout e machine.traffic.journal := by
    refine run.reachesWhile.rules_induction reachable.sound (.refl _) (motive := fun state =>
      state.traffic.destroyed e = true ∧
        callsAbout e state.traffic.journal = callsAbout e machine.traffic.journal) ⟨gone, rfl⟩ ?_
    rintro before after _ _ _ _ _ rule ⟨gone, calls⟩
    exact ⟨rule.destroyed_mono gone, (rule.callsAbout_eq gone).trans calls⟩
  simpa only [callsAbout, callsIn_traffic] using kept.2

-- What the first listener panics with panics once more when it is dropped: the second listener is
-- not called, nothing is counted, and the request to move never returns.
example :
    let calling := ({} : Machine).after [.openHost {} .silent, .build 0 (.manual false),
      .subscribe 0 1 none false, .subscribe 0 2 none false, .call (.setStatus 0 .processing),
        .accept]
    let final := (calling.panic (.volatile (.text "again"))).halt clientTurn
    final.control = .returned (.panicked (.text "again")) ∧
      (callsAbout 0 final.engine.journal.toList).length = 1 ∧
      (final.engine.host 0).tally.invocations = 0 ∧ (final.engine.host 0).tally.failures = 0 := by
  decide +kernel

end Machine

end Readiness
