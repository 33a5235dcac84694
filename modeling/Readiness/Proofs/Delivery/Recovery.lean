import Readiness.Proofs.Delivery.Order
import Readiness.Proofs.Machine.Mortality

/-! A panic that gets out of a batch ends the delivery loop of its host, which loses no other batch.

What is left in the dispatch queue waits for the next batch that enters it, and is delivered before
that one.
-/

namespace Readiness

open List

namespace Machine

variable {machine next final : Machine} {h : HostRef} {batch : Batch}

/-- A panic is about to end the delivery of a batch of a host. -/
def LosesBatchOf (machine : Machine) (h : HostRef) : Prop :=
  ∃ batch, machine.LosesBatch batch ∧ (machine.engine.executable batch.event.source).host = h

/-- A panic is about to pass the delivery loop of a host. -/
def PassesLoop (machine : Machine) (h : HostRef) : Prop :=
  ∃ payload rest, machine.control = .unwind payload ∧ machine.stack = .drain h :: rest

/-- A host is draining exactly while its delivery loop is on the stack. -/
theorem Reachable.draining_iff (reachable : machine.Reachable) (h : HostRef) :
    (machine.engine.host h).draining = true ↔ .drain h ∈ machine.stack := by
  have loops : (machine.engine.host h).draining = true ↔ .drain h ∈ machine.traffic.calls :=
    (reachable.layered (.refl _)).draining_iff
  -- Loops have to do with delivery, so the traffic shows them.
  rw [loops, traffic, mem_filter, Frame.isTraffic]
  exact and_iff_left rfl

theorem Reachable.count_drain_le (reachable : machine.Reachable) (h : HostRef) :
    machine.stack.count (.drain h) ≤ 1 := by
  have loops := (reachable.layered (.refl _)).loops h
  rw [traffic, count_filter rfl] at loops
  rw [loops]
  exact Bool.toNat_le _

/-- A batch on top of the stack stands on the delivery loop of its host. -/
theorem Reachable.drain_of_deliver (reachable : machine.Reachable) {frames : List Frame}
    (stands : machine.stack = .deliver batch :: frames) :
    ∃ rest, frames = .drain (machine.engine.executable batch.event.source).host :: rest := by
  have stacked := (reachable.layered (.refl _)).stacked
  rw [traffic, stands] at stacked
  cases frames with
  | nil => cases stacked
  | cons below rest =>
    -- The stack has some loop there, and the calls tell whose it is.
    have loop : true = below.isDrain := (reachable.sound.standsOn stands rfl).loop
    cases below with
    | drain h =>
      cases stacked with
      | deliver home => exact ⟨rest, by rw [home]⟩
    | _ => cases loop

/-- A panic passes the delivery loop of a host right after it has ended the delivery of a batch. -/
theorem Next.losesBatchOf (step : Next machine next) (reachable : machine.Reachable)
    (passes : next.PassesLoop h) : machine.LosesBatchOf h := by
  obtain ⟨payload, rest, unwinds, stands⟩ := passes
  -- Nothing but a batch stands on the loop, so the panic comes out of one.
  obtain ⟨top, ⟨⟨payload, unwinding⟩, under⟩, on, _⟩ :=
    reachable.sound.unwound_next step ⟨⟨payload, unwinds⟩, stands⟩ rfl
  obtain ⟨batch, rfl⟩ : ∃ batch, top = .deliver batch := by
    have loop := on.loop
    cases top with
    | deliver batch => exact ⟨batch, rfl⟩
    | _ => cases loop
  obtain ⟨_, loop⟩ := reachable.drain_of_deliver under
  have home : h = (machine.engine.executable batch.event.source).host := by
    cases loop
    rfl
  exact ⟨batch, ⟨payload, batch.deliveries, _, unwinding, under⟩, home.symm⟩

/-- As long as no panic gets out of a batch of a host, its dispatch queue is empty whenever it is
not draining. -/
theorem ReachesWhile.draining_or_empty {start : Machine}
    (run : start.ReachesWhile (fun state => ¬ state.LosesBatchOf h) machine)
    (reachable : start.Reachable) (calm : ¬ start.PassesLoop h)
    (first : (start.engine.host h).draining = true ∨ (start.engine.host h).queue = []) :
    (machine.engine.host h).draining = true ∨ (machine.engine.host h).queue = [] := by
  -- The panic must not stand before the loop either, since the next step ends the loop then.
  refine (run.rules_induction reachable.sound (.refl _) (motive := fun state =>
    ¬ state.PassesLoop h ∧
      ((state.engine.host h).draining = true ∨ (state.engine.host h).queue = []))
    ⟨calm, first⟩ ?_).2
  rintro before after run sound step - grown rules ⟨calm, idle⟩
  have known : before.Reachable := Reaches.trans reachable run.reaches
  refine ⟨fun passes => run.holds (step.losesBatchOf known passes), ?_⟩
  have layered := known.layered ((sound.later_next step).grown.trans grown)
  rcases rules.queue_cases h with draining | empty | passes | ⟨same, busy | still⟩
  · exact .inl draining
  · exact .inr empty
  · exact absurd passes calm
  · exact .inl (same.trans (layered.draining_iff.mpr busy))
  · rw [show (after.engine.host h).queue = (before.engine.host h).queue from still,
      show (after.engine.host h).draining = (before.engine.host h).draining from same]
    exact idle

theorem Reachable.balanced_account (reachable : machine.Reachable) (h : HostRef) :
    (machine.engine.account h).Balanced :=
  machine.account_traffic h ▸ reachable.balanced.account h

/-- What has entered the dispatch queue of a host stays in the books. -/
theorem Reaches.entered_grows (run : machine.Reaches final) (reachable : machine.Reachable)
    (h : HostRef) : (machine.engine.account h).entered <+: (final.engine.account h).entered := by
  rw [← account_traffic, ← account_traffic]
  refine run.reachesWhile.rules_induction reachable.sound (.refl _) (motive := fun state =>
    (machine.traffic.account h).entered <+: (state.traffic.account h).entered)
    prefix_rfl fun _ _ _ _ _ rules grown => grown.trans ?_
  obtain ⟨news, journal⟩ := rules.journal_grows
  simp only [Traffic.account, journal, filterMap_append]
  exact prefix_append _ _

/-- The batches of a dispatch queue leave it in their order, after those that have left it before
and ahead of those that enter it later. -/
theorem Reaches.opened_in_order (run : machine.Reaches final) (reachable : machine.Reachable)
    (h : HostRef) : ∃ later, (final.engine.account h).opened ++ (final.engine.account h).queue =
      (machine.engine.account h).opened ++ (machine.engine.account h).queue ++ later := by
  have known : final.Reachable := Reaches.trans reachable run
  obtain ⟨later, grown⟩ := run.entered_grows reachable h
  -- In both states the batches that have entered are those that have left and those that wait.
  refine ⟨later, ?_⟩
  rw [← (reachable.balanced_account h).queued, ← (known.balanced_account h).queued, grown]

/-- When a batch enters the dispatch queue of a host, the host is draining. -/
theorem Next.draining_of_entered (step : Next machine next) (reachable : machine.Reachable)
    (enters : (next.engine.host h).queue = (machine.engine.host h).queue ++ [batch]) :
    (next.engine.host h).draining = true := by
  have other : (next.engine.host h).queue ≠ (machine.engine.host h).queue := by
    rw [enters]
    simp
  have layered := reachable.layered (.refl _)
  have rules := reachable.sound.rules_next step (.refl _)
  rcases rules.queue_cases h with draining | empty | ⟨payload, rest, unwinds, stands⟩ |
    ⟨same, busy | still⟩
  · exact draining
  · rw [show (next.engine.host h).queue = [] from empty] at enters
    simp at enters
  · -- A loop that a panic passes leaves the queue alone.
    rw [step.eq_step (by rw [clientTurn, unwinds])] at other
    refine absurd ?_ other
    simp only [Machine.step, unwinds, stands, unwind, update, Engine.host_modifyHost]
    split <;> rfl
  · exact same.trans (layered.draining_iff.mpr busy)
  · exact absurd still other

/-- As long as no panic gets out of a batch of a host, a batch of its dispatch queue is delivered
until all its calls have been made or its source is destroyed. -/
theorem ReachesWhile.goes_on
    (run : machine.ReachesWhile (fun state => ¬ state.LosesBatchOf h) final)
    (reachable : machine.Reachable) (queued : batch ∈ (machine.engine.host h).queue) :
    batch ∈ (final.engine.host h).queue ∨
      (∃ rest, .deliver { batch with deliveries := rest } ∈ final.stack) ∨
      callsOf batch.serial final.engine.journal.toList = batch.calls ∨
      (final.engine.executable batch.event.source).destroyed = true := by
  have known : final.Reachable := Reaches.trans reachable run.reaches
  have waits := mem_append_left (machine.engine.host h).deferred queued
  have filed := reachable.sound.store.batches h batch waits
  cases run.fate reachable waits with
  | waiting still =>
    refine (mem_append.mp still).imp_right fun deferred => ?_
    -- It had entered the dispatch queue, so it is not among the deferred batches.
    have entered : batch.serial ∈ (machine.engine.account h).entered := by
      rw [(reachable.balanced_account h).queued]
      exact mem_append_right _ (mem_map_of_mem queued)
    exact absurd ((run.reaches.entered_grows reachable h).mem entered)
      ((known.balanced_account h).not_mem_entered (mem_map_of_mem deferred))
  | underway rest current => exact .inr (.inl ⟨rest, mem_of_mem_filter current⟩)
  | finished opened gone made why =>
    rcases why with done | destroyed | ⟨state, steady, past, -, loses⟩
    · rw [callsOf, callsIn_traffic] at done
      exact .inr (.inr (.inl done))
    · exact .inr (.inr (.inr destroyed))
    · -- The panic would have got out of a batch of this host.
      have home := ((reachable.sound.later_reaches past).grown.home _ filed.built).trans filed.home
      exact absurd ⟨batch, loses, home⟩ steady

/-- No batch of a host is being delivered while the host is not draining. -/
theorem Reachable.not_delivering (reachable : machine.Reachable)
    (idle : (machine.engine.host h).draining = false)
    (home : (machine.engine.executable batch.event.source).host = h) :
    .deliver batch ∉ machine.stack := by
  intro current
  have layered := reachable.layered (.refl _)
  -- A batch of the host would stand on a loop of the host, and there is none.
  have none_left := layered.stacked.batches_eq_nil (h := h) fun loop =>
    Bool.false_ne_true (idle.symm.trans (layered.draining_iff.mpr loop))
  rw [filterMap_eq_nil_iff] at none_left
  have none_here := none_left (.deliver batch) (mem_filter.mpr ⟨current, rfl⟩)
  simp [Frame.batch?, home] at none_here

/-- Of a batch that is being delivered those calls are left that have not been made. -/
theorem Reachable.calls_left {past : Machine} {job : Batch} {other : HostRef}
    (reachable : past.Reachable) (run : past.Reaches machine)
    (waited : job ∈ (past.engine.host other).queue ++ (past.engine.host other).deferred)
    (current : .deliver batch ∈ machine.stack) (same : batch.serial = job.serial) :
    callsOf job.serial machine.engine.journal.toList ++ batch.calls = job.calls := by
  have known : machine.Reachable := Reaches.trans reachable run
  have inTurn := known.inTurn (.refl _)
  have standing : .deliver batch ∈ machine.traffic.calls := mem_filter.mpr ⟨current, rfl⟩
  cases run.reachesWhile.fate reachable waited with
  | waiting waits =>
    -- A batch that is being delivered has left the queue of its host.
    generalize home : (machine.engine.executable batch.event.source).host = h
    have here : batch ∈ machine.traffic.calls.filterMap (Frame.batch? machine.engine h) :=
      mem_filterMap.mpr ⟨_, standing, by simp [Frame.batch?, home]⟩
    have opened := mem_of_getLast? (inTurn.current h batch here)
    have listed : job.serial ∈ (machine.traffic.account other).queue ++
        (machine.traffic.account other).deferred := by
      simp only [Traffic.account, ← map_append]
      exact mem_map_of_mem waits
    obtain ⟨mentioned, unopened⟩ :=
      Account.Balanced.of_waiting (known.balanced.account other) listed
    have shared : other = h := known.balanced.alone other h job.serial mentioned
      (Account.Balanced.mentions_of_opened (known.balanced.account h) (same ▸ opened))
    rw [shared, ← same] at unopened
    exact absurd opened unopened
  | underway rest underway made =>
    have equal :=
      inTurn.eq_of_serial known.balanced (known.layered (.refl _)) standing underway same
    rw [callsOf, callsIn_traffic, ← equal] at made
    exact made
  | finished _ gone => exact absurd same (gone batch standing)

/-- A panic gets out of a batch of a host, and cuts short nothing else. -/
structure CutsShort (machine : Machine) (h : HostRef) (batch : Batch) (after : Machine) : Prop where
  /-- It passes the delivery loop under the batch, which gives up its claim on the queue. -/
  passes : ∃ payload rest, machine.control = .unwind payload ∧
    machine.stack = .deliver batch :: .drain h :: rest ∧ after =
      ⟨machine.engine.modifyHost h ({ · with draining := false }), rest, .unwind payload⟩
  /-- The host is not draining any more. -/
  idle : (after.engine.host h).draining = false
  /-- The batches that wait stay in their queues. -/
  queue : ∀ other, (after.engine.host other).queue = (machine.engine.host other).queue
  /-- No call gets lost that was on its way, but those that are left of the batch. -/
  kept : ∀ event delivery, machine.Sends event delivery →
    after.Sends event delivery ∨ event = batch.event ∧ delivery ∈ batch.deliveries
  /-- These are the calls of the batch that have not been made. -/
  unmade : ∀ (past : Machine) (other : HostRef) (job : Batch), past.Reachable →
    past.Reaches machine →
      job ∈ (past.engine.host other).queue ++ (past.engine.host other).deferred →
        batch.serial = job.serial →
          callsOf job.serial machine.engine.journal.toList ++ batch.calls = job.calls

/-- The batches in the dispatch queue of a host are delivered, as long as no panic gets out of
one. -/
structure Serves (machine : Machine) (h : HostRef) (final : Machine) : Prop where
  /-- Every batch still waits or is being delivered, unless all its calls have been made or its
  source was destroyed. -/
  goesOn : ∀ batch ∈ (machine.engine.host h).queue, batch ∈ (final.engine.host h).queue ∨
    (∃ rest, .deliver { batch with deliveries := rest } ∈ final.stack) ∨
    callsOf batch.serial final.engine.journal.toList = batch.calls ∨
    (final.engine.executable batch.event.source).destroyed = true
  /-- Once the host is no longer draining, no batch waits. -/
  empty : (final.engine.host h).draining = false → (final.engine.host h).queue = []
  /-- All calls have been made by then, but for those of destroyed sources. -/
  whole : (final.engine.host h).draining = false → ∀ batch ∈ (machine.engine.host h).queue,
    callsOf batch.serial final.engine.journal.toList = batch.calls ∨
      (final.engine.executable batch.event.source).destroyed = true

/-- How the delivery loop of a host gets over panics. -/
structure Recovers (machine : Machine) (h : HostRef) : Prop where
  /-- The host is draining exactly while its delivery loop is on the stack. -/
  claimed : (machine.engine.host h).draining = true ↔ .drain h ∈ machine.stack
  /-- It has one at most. -/
  alone : machine.stack.count (.drain h) ≤ 1
  /-- A panic that gets out of a batch ends the loop, and loses what is left of this batch only. -/
  escapes : ∀ payload batch frames, machine.control = .unwind payload →
    machine.stack = .deliver batch :: frames →
      (machine.engine.executable batch.event.source).host = h →
        machine.CutsShort h batch machine.step.step
  /-- Whatever happens, the batches that wait leave the queue in their order, and before those that
  enter it later. -/
  ordered : ∀ final, machine.Reaches final →
    ∃ later, (final.engine.account h).opened ++ (final.engine.account h).queue =
      (machine.engine.account h).opened ++ (machine.engine.account h).queue ++ later
  /-- Listeners are called in the order in which the batches leave the queue. -/
  grouped : callsAt machine.engine h machine.engine.journal.toList =
    (machine.engine.account h).opened.flatMap fun serial =>
      callsOf serial machine.engine.journal.toList
  /-- Once the next batch enters the queue, the host is draining, and all that wait are
  delivered. -/
  restarts : ∀ next batch, Next machine next →
    (next.engine.host h).queue = (machine.engine.host h).queue ++ [batch] →
      (next.engine.host h).draining = true ∧
        ∀ final, next.ReachesWhile (fun state => ¬ state.LosesBatchOf h) final → next.Serves h final
  /-- Batches wait without a delivery loop only after a panic has got out of one. -/
  undisturbed : ({} : Machine).ReachesWhile (fun state => ¬ state.LosesBatchOf h) machine →
    .drain h ∉ machine.stack → (machine.engine.host h).queue = []

/-- A panic that gets out of a batch cuts short this batch, and nothing else. -/
theorem Reachable.cutsShort (reachable : machine.Reachable) {payload : Payload}
    {frames : List Frame} (unwinds : machine.control = .unwind payload)
    (stands : machine.stack = .deliver batch :: frames)
    (home : (machine.engine.executable batch.event.source).host = h) :
    machine.CutsShort h batch machine.step.step := by
  obtain ⟨rest, rfl⟩ := reachable.drain_of_deliver stands
  rw [home] at stands
  have left : machine.step.step =
      ⟨machine.engine.modifyHost h ({ · with draining := false }), rest, .unwind payload⟩ := by
    simp only [step, unwinds, stands, unwind, update]
  -- Only the claim changes, so both queues stay as they are.
  have same (view : Host → List Batch) (blind : ∀ host, view { host with draining := false } =
      view host) (other : HostRef) :
      view (machine.step.step.engine.host other) = view (machine.engine.host other) := by
    rw [left, Engine.host_modifyHost]
    split
    · rename_i here
      rw [blind, here.1]
    · rfl
  have queue := same Host.queue fun _ => rfl
  have deferred := same Host.deferred fun _ => rfl
  refine ⟨⟨payload, rest, unwinds, stands, left⟩, ?_, queue, ?_, ?_⟩
  · -- The loop that was passed was the only one of the host.
    have known : machine.step.step.Reachable :=
      (Reaches.step reachable (.engine (by rw [clientTurn, unwinds]))).step
        (.engine (by simp only [clientTurn, step, unwinds, stands, unwind]))
    rw [Bool.eq_false_iff, ne_eq, known.draining_iff, left]
    have one := reachable.count_drain_le h
    rw [stands, count_cons_of_ne (by simp), count_cons_self] at one
    have none_left : rest.count (.drain h) = 0 := by omega
    exact count_eq_zero.mp none_left
  · intro event delivery sends
    cases sends with
    | @waiting other waiting waits about listed =>
      rw [← queue, ← deferred] at waits
      exact .inl (.waiting waits about listed)
    | @underway frame member listed =>
      rw [stands] at member
      rcases mem_cons.mp member with rfl | member
      · -- Of the two frames that are gone only the batch was going to make calls.
        obtain ⟨_, left_out, same⟩ := mem_map.mp listed
        cases same
        exact .inr ⟨rfl, left_out⟩
      · rcases mem_cons.mp member with rfl | below
        · cases listed
        · exact .inl (.underway (by rw [left]; exact below) listed)
  · intro past other job earlier run waited same
    exact earlier.calls_left run waited (by rw [stands]; exact mem_cons_self) same

/-- Once a batch has entered the dispatch queue of a host, all that wait there are delivered. -/
theorem Next.serves (step : Next machine next) (reachable : machine.Reachable)
    (enters : (next.engine.host h).queue = (machine.engine.host h).queue ++ [batch])
    (run : next.ReachesWhile (fun state => ¬ state.LosesBatchOf h) final) :
    next.Serves h final := by
  have began : next.Reachable := .step reachable step
  have known : final.Reachable := Reaches.trans began run.reaches
  have draining := step.draining_of_entered reachable enters
  -- No panic stands before the loop, since it would have left the queue alone on its way there.
  have calm : ¬ next.PassesLoop h := by
    intro passes
    obtain ⟨_, ⟨payload, _, _, unwinds, stands⟩, _⟩ := step.losesBatchOf reachable passes
    rw [step.eq_step (by rw [clientTurn, unwinds])] at enters
    -- Taking the batch off the stack touches no queue.
    simp [Machine.step, unwinds, stands, unwind] at enters
  have empty (idle : (final.engine.host h).draining = false) : (final.engine.host h).queue = [] :=
    (run.draining_or_empty began calm (.inl draining)).resolve_left (by rw [idle]; decide)
  refine ⟨fun _ queued => run.goes_on began queued, empty, fun idle job queued => ?_⟩
  -- Without a loop the batch neither waits nor is being delivered, so it is done with.
  have filed := began.sound.store.batches h job (mem_append_left _ queued)
  have home := ((began.sound.later_reaches run.reaches).grown.home _ filed.built).trans filed.home
  rcases run.goes_on began queued with waits | ⟨rest, current⟩ | settled
  · rw [empty idle] at waits
    cases waits
  · exact absurd current (known.not_delivering idle home)
  · exact settled

/-- In every state of every run, whatever panics there were, the delivery loop of a host has lost
nothing but the calls that a panic cut off from their own batch, and no batch is left behind by a
claim that nobody holds. -/
theorem delivery_loops_recover (reachable : machine.Reachable) (h : HostRef) :
    machine.Recovers h where
  claimed := reachable.draining_iff h
  alone := reachable.count_drain_le h
  escapes := fun _ _ _ unwinds stands home => reachable.cutsShort unwinds stands home
  ordered := fun _ run => run.opened_in_order reachable h
  grouped := reachable.callsAt_eq h
  restarts := fun _ _ step enters =>
    ⟨step.draining_of_entered reachable enters, fun _ run => step.serves reachable enters run⟩
  undisturbed := by
    intro run absent
    -- The run starts with an empty queue and without a panic.
    have calm : ¬ ({} : Machine).PassesLoop h := by
      rintro ⟨_, _, unwinds, _⟩
      cases unwinds
    refine (run.draining_or_empty .refl calm (.inr rfl)).resolve_left ?_
    rwa [reachable.draining_iff]

/-- The observer panics when it is told of a listener that failed, which cuts the batch short with
another one behind it. The next batch has that one delivered first. -/
theorem delivery_loops_recover_stranded : ∃ torn machine next final : Machine,
    torn.Reachable ∧ torn.LosesBatchOf 0 ∧
    torn.CutsShort 0 ⟨0, ⟨0, .processing, .null⟩, [⟨.client 1, some 0⟩]⟩ torn.step.step ∧
    torn.Reaches machine ∧ (machine.engine.host 0).draining = false ∧
    (machine.engine.host 0).queue =
      [⟨1, ⟨0, .failed, .processing⟩, [⟨.client 2, some 1⟩, ⟨.client 1, some 0⟩]⟩] ∧
    Next machine next ∧ (next.engine.host 0).queue = (machine.engine.host 0).queue ++
      [⟨2, ⟨0, .processing, .failed⟩, [⟨.client 2, some 1⟩, ⟨.client 1, some 0⟩]⟩] ∧
    (final.engine.host 0).draining = false ∧ (final.engine.account 0).opened = [0, 1, 2] ∧
    next.Serves 0 final := by
  let told := ({} : Machine).after [.openHost {} (.client 9), .build 0 (.manual false),
    .subscribe 0 1 none false, .subscribe 0 2 none false, .call (.setStatus 0 .processing),
    .accept, .finish .done, .accept, .call (.setStatus 0 .failed), .accept, .finish .done,
    .finish (.failed "bad"), .accept]
  let torn := (told.panic (.text "boom")).step
  let asked := (torn.halt (·.clientTurn)).after [.call (.setStatus 0 .processing), .accept]
  let machine := asked.finish .done
  let quiet : Machine → Bool := fun state => match state.control with
    | .unwind _ => false
    | _ => true
  let final := (machine.step.halt (·.clientTurn) quiet).after [.accept, .finish .done, .accept,
    .finish .done, .accept, .finish .done, .accept, .finish .done] quiet
  have reachable : torn.Reachable := by
    have early : told.Reachable := reaches_after _ _
    exact (Reaches.step early (.panic (by decide +kernel) rfl)).step (.engine (by decide +kernel))
  have stands : torn.stack = [.deliver ⟨0, ⟨0, .processing, .null⟩, [⟨.client 1, some 0⟩]⟩,
      .drain 0, .conclude 0 ⟨.null, .processing⟩, .hold [0]] := by decide +kernel
  have unwinds : torn.control = .unwind (.text "boom") := by decide +kernel
  have home : (torn.engine.executable 0).host = 0 := by decide +kernel
  have loses : torn.LosesBatchOf 0 :=
    ⟨⟨0, ⟨0, .processing, .null⟩, []⟩, ⟨_, [⟨.client 1, some 0⟩], _, unwinds, stands⟩, home⟩
  have cut := (delivery_loops_recover reachable 0).escapes _ _ _ unwinds stands home
  have top : asked.stack = .client (.observer 9 (.transitioned 0 .failed .processing)) ::
      asked.stack.tail := by decide +kernel
  have later : torn.Reaches machine :=
    ((reaches_halt _ _).trans (reaches_after _ _)).step (.finish (by decide +kernel) top .done)
  have step : Next machine machine.step := .engine (by decide +kernel)
  have enters : (machine.step.engine.host 0).queue = (machine.engine.host 0).queue ++
      [⟨2, ⟨0, .processing, .failed⟩, [⟨.client 2, some 1⟩, ⟨.client 1, some 0⟩]⟩] := by
    decide +kernel
  have run : machine.step.ReachesWhile (fun state => ¬ state.LosesBatchOf 0) final := by
    refine ((reachesWhile_halt (by decide +kernel) (by decide +kernel)).trans
      (reachesWhile_after (by decide +kernel) (by decide +kernel))).mono fun state calm => ?_
    rintro ⟨_, ⟨_, _, _, unwinds, _⟩, _⟩
    simp [quiet, unwinds] at calm
  have serves :=
    ((delivery_loops_recover (reachable.trans later) 0).restarts _ _ step enters).2 final run
  have idle : (machine.engine.host 0).draining = false := by decide +kernel
  have waits : (machine.engine.host 0).queue =
      [⟨1, ⟨0, .failed, .processing⟩, [⟨.client 2, some 1⟩, ⟨.client 1, some 0⟩]⟩] := by
    decide +kernel
  have settled : (final.engine.host 0).draining = false := by decide +kernel
  have opened : (final.engine.account 0).opened = [0, 1, 2] := by decide +kernel
  exact ⟨torn, machine, machine.step, final, reachable, loses, cut, later, idle, waits, step,
    enters, settled, opened, serves⟩

end Machine

end Readiness
