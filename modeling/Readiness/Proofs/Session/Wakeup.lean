import Readiness.Proofs.Delivery.Recovery
import Readiness.Proofs.Machine.Enters
import Readiness.Proofs.Session.Polls

/-! A session that has a host for itself loses no wakeup.

Whenever batches are put off while it is parked, it is woken, and when a poll returns without the
future being done, all batches that were put off have been delivered.
-/

namespace Readiness

open List

/-- A batch that was put off stays so, unless the delivery loop of its host gets it. -/
theorem Surroundings.Step.deferred_cases {given : Surroundings} {traffic next : Traffic}
    (step : given.Step traffic next) {h : HostRef} {batch : Batch}
    (waits : batch ∈ (traffic.depot h).deferred) :
    batch ∈ (next.depot h).deferred ∨ (next.depot h).draining = true := by
  have kept (same : (next.depot h).deferred = (traffic.depot h).deferred) :
      batch ∈ (next.depot h).deferred ∨ (next.depot h).draining = true :=
    .inl (by rw [same]; exact waits)
  cases step with
  | openHost | post | take | close => exact kept (Host.field_update Host.deferred (by rfl) h)
  | putOff | listen =>
    -- The queue only gets longer.
    refine .inl ?_
    simp only [Traffic.defer, Function.update_apply]
    split
    · rename_i here
      exact mem_append_left _ (here ▸ waits)
    · exact waits
  | pump =>
    simp only [Traffic.dispatch, Function.update_idem, Function.update_apply]
    split
    · exact .inr rfl
    · exact .inl waits
  | _ => exact .inl waits

namespace Machine

variable {machine next final called : Machine} {base : List Frame} {h : HostRef} {k : SessionRef}
  {batch : Batch}

/-- No other session of its host is parked or being polled. -/
def Alone (machine : Machine) (k : SessionRef) : Prop :=
  ∀ j < machine.engine.sessions.length, j ≠ k →
    (machine.engine.session j).host = (machine.engine.session k).host →
      (machine.engine.session j).phase ≠ .parked ∧ machine.control ≠ .perform (.poll j) ∧
        ∀ frame ∈ machine.stack, frame.session? ≠ some j

/-- A session that is alone with its host is so in the lobby too. -/
theorem Alone.lobby (alone : machine.Alone k) : machine.lobby.Alone k := by
  intro j there other home
  obtain ⟨up, unasked, free⟩ := alone j there other home
  refine ⟨up, ?_⟩
  rintro poll member rfl
  rcases mem_append.mp member with asked | stands
  · -- It would have been asked for just now.
    refine unasked ?_
    cases control : machine.control with
    | perform command =>
      rw [control] at asked
      cases command with
      | poll k =>
        simp only [Control.poll?, Option.toList_some, mem_singleton] at asked
        rw [asked]
      | _ => cases asked
    | _ =>
      rw [control] at asked
      cases asked
  · obtain ⟨frame, stands, belongs⟩ := mem_filterMap.mp stands
    refine free frame stands ?_
    cases frame with
    | pumped | asked =>
      cases belongs
      rfl
    | _ => cases belongs

/-- The future of a session gives its reply in this step: a wait tells whether it has ended, and
client code returns. -/
inductive Replies (k : SessionRef) (reply : Reply) (machine next : Machine) : Prop where
  /-- It is the end of a wait. -/
  | wait {w : WaitRef} (future : (next.engine.session k).future = .wait w)
    (asked : next.stack.head? = some (.asked k)) (answers : next.control = .resume (.replied reply))
    (settled : reply = if (next.settlement? w).isSome then .done else .pending)
  /-- It is client code. -/
  | client {code : CodeRef} {rest : List Frame}
    (future : (machine.engine.session k).future = .client code)
    (called : machine.stack = .client (.future code) :: .asked k :: rest)
    (turn : machine.clientTurn = true) (returns : next = machine.finish reply)

/-- Where the poll of a session stands that was asked for when this run started, on top of these
frames. -/
inductive Polling (called : Machine) (k : SessionRef) (base : List Frame) (machine : Machine) :
    Prop where
  | begins (asked : machine.control = .perform (.poll k)) (stands : machine.stack = base)
  | delivers (upper : List Frame) (stands : machine.stack = upper ++ .pumped k :: base)
  | asks {code : CodeRef} (upper : List Frame)
    (future : (machine.engine.session k).future = .client code)
    (stands : machine.stack = upper ++ .client (.future code) :: .asked k :: base)
  | replied (reply : Reply) {before : Machine} (stands : machine.stack = .asked k :: base)
    (answers : machine.control = .resume (.replied reply)) (early : called.Reaches before)
    (step : Next before machine) (replies : Replies k reply before machine)
  /-- It returns what the future has replied, and has parked the session unless it is done. -/
  | ends {reply : Reply} {before after : Machine}
    (answers : machine.control = .resume (.polled (decide (reply ≠ .pending))))
    (stands : machine.stack = base) (early : called.Reaches before) (step : Next before after)
    (replies : Replies k reply before after) (late : after.Reaches machine)
    (parks : reply = .pending → (machine.engine.session k).phase = .parked)
  | breaks {payload : Payload} (unwinds : machine.control = .unwind payload)
    (stands : machine.stack = base ∨ machine.stack = .asked k :: base)

namespace Polling

theorem askFuture {carrier : Machine} (run : called.Reaches machine)
    (step : Next machine (carrier.askFuture k)) (stands : carrier.stack = base)
    (idle : carrier.controlExecutables = []) : Polling called k base (carrier.askFuture k) := by
  cases future : (carrier.engine.session k).future with
  | client code =>
    have asked : carrier.askFuture k = (carrier.push (.asked k)).callClient (.future code) := by
      rw [Machine.askFuture, future]
    rw [asked]
    exact .asks [] future (by rw [← stands]; rfl)
  | wait w =>
    have asked : carrier.askFuture k = (carrier.push (.asked k)).resume
        (.replied (if (carrier.settlement? w).isSome then .done else .pending)) := by
      rw [Machine.askFuture, future]
    -- Asking keeps nobody alive, so what the wait has come to is the same.
    have same : (carrier.askFuture k).settlement? w = carrier.settlement? w := by
      rw [asked]
      simp only [settlement?, heldListeners, living, roots, idle]
      rfl
    have stack : (carrier.askFuture k).stack = .asked k :: base := by
      rw [asked, ← stands]
      rfl
    have answers : (carrier.askFuture k).control =
        .resume (.replied (if (carrier.settlement? w).isSome then .done else .pending)) := by
      rw [asked]
      rfl
    refine .replied _ stack answers run step (.wait (w := w) ?_ ?_ answers (by rw [same]))
    · rw [asked]
      exact future
    · rw [stack]
      rfl

section

variable (reachable : machine.Reachable)
include reachable

/-- A poll that begins has deferred batches delivered, or asks the future if the session has
parked. -/
theorem of_begins (run : called.Reaches machine) (step : Next machine next)
    (asked : machine.control = .perform (.poll k)) (stands : machine.stack = base) :
    Polling called k base next := by
  have idle : machine.controlExecutables = [] := by
    rw [controlExecutables, asked]
    rfl
  have polled : ⟨k, .begun⟩ ∈ machine.lobby.polls := by
    show _ ∈ machine.polls
    rw [polls, asked]
    exact mem_cons_self
  obtain rfl := step.eq_step (by rw [clientTurn, asked])
  have begins : machine.step = machine.start (.poll k) := by rw [Machine.step, asked]
  cases phase : (machine.engine.session k).phase with
  | fresh =>
    have runs : machine.step = machine.runSession k := by rw [begins, start, phase]
    exact .delivers [] (by rw [runs, ← stands]; rfl)
  | parked | woken =>
    have asks : machine.step = machine.askFuture k := by rw [begins, start, phase]
    rw [asks] at step ⊢
    exact askFuture run step stands idle
  | finished => exact absurd phase (reachable.attended.2.polled _ polled).2

/-- A poll that has deferred batches delivered goes on with that, and then asks the future. -/
theorem of_delivers (run : called.Reaches machine) (step : Next machine next) {upper : List Frame}
    (stands : machine.stack = upper ++ .pumped k :: base) : Polling called k base next := by
  cases upper with
  | cons top rest =>
    obtain ⟨pushed, stack⟩ := step.suffix stands
    exact .delivers (pushed ++ rest) (by rw [← stack, append_assoc]; rfl)
  | nil =>
    -- Its frame is on top, so it is about to go on.
    have awaits := reachable.attended.1.top (.pumped k) (by rw [stands]; rfl)
    rcases awaits.2 with asked | ⟨⟨answer, answers⟩, _⟩ | ⟨payload, unwinds⟩
    · obtain rfl := step.eq_step (by rw [clientTurn, asked])
      refine .delivers [.pump (machine.engine.session k).host 0] ?_
      simp only [Machine.step, asked, start]
      exact congrArg (_ :: ·) stands
    · obtain rfl := step.eq_step (by rw [clientTurn, answers])
      have asks : machine.step = Machine.askFuture { machine with stack := base } k := by
        simp only [Machine.step, answers, stands]
        rfl
      rw [asks] at step ⊢
      refine askFuture run step rfl ?_
      rw [controlExecutables, answers]
    · obtain rfl := step.eq_step (by rw [clientTurn, unwinds])
      have gone : machine.step =
          Machine.update { machine with stack := base } (·.endSession k) := by
        simp only [Machine.step, unwinds, stands]
        rfl
      rw [gone]
      exact .breaks unwinds (.inl rfl)

/-- A poll that has the client asked waits for its reply. -/
theorem of_asks (run : called.Reaches machine) (step : Next machine next) {code : CodeRef}
    {upper : List Frame} (future : (machine.engine.session k).future = .client code)
    (stands : machine.stack = upper ++ .client (.future code) :: .asked k :: base) :
    Polling called k base next := by
  have polled : ⟨k, .asking⟩ ∈ machine.lobby.polls := by
    refine mem_append_right _ (mem_filterMap.mpr ⟨.asked k, ?_, rfl⟩)
    rw [stands]
    simp
  have opened := (reachable.attended.2.polled _ polled).1
  have kept : (next.engine.session k).future = .client code :=
    ((step.lobby reachable).origin opened).2.2.trans future
  cases upper with
  | cons top rest =>
    obtain ⟨pushed, stack⟩ := step.suffix stands
    exact .asks (pushed ++ rest) kept (by rw [← stack, append_assoc]; rfl)
  | nil =>
    -- Whatever the client does but return leaves its own frame there.
    have still (same : next.stack = machine.stack) : Polling called k base next :=
      .asks [] kept (same.trans stands)
    cases step with
    | engine busy =>
      cases control : machine.control with
      | perform command =>
        -- No command begins on top of client code.
        have fits := reachable.sound.control
        rw [control] at fits
        obtain ⟨_, ⟨top, rest, stack, _, other⟩, _⟩ := fits
        rw [stands] at stack
        cases stack
        cases other
      | resume answer =>
        refine still ?_
        simp only [Machine.step, control, stands]
        rfl
      | unwind payload =>
        have gone : machine.step = { machine with stack := .asked k :: base } := by
          simp only [Machine.step, control, stands]
          rfl
        rw [gone]
        exact .breaks control (.inr rfl)
      | called | returned =>
        rw [clientTurn, control] at busy
        cases busy
    | finish turn top reply =>
      refine .replied reply ?_ rfl run (.finish turn top reply)
        (.client future stands turn rfl)
      rw [Machine.finish, stands]
      rfl
    | call turn permitted => exact .asks [_] kept (congrArg (_ :: ·) stands)
    | build turn opened alive success => exact still (kept_of_build success).1
    | beginWait turn alive => exact still (machine.kept_of_beginWait _).1
    | accept | advance | openHost | retain | release | subscribe | unsubscribe | openSession
    | closeSession | panic => exact still rfl

/-- A poll whose future has replied returns, or has deferred batches delivered again. -/
theorem of_replied (step : Next machine next) {reply : Reply} {before : Machine}
    (stands : machine.stack = .asked k :: base)
    (answers : machine.control = .resume (.replied reply)) (early : called.Reaches before)
    (replying : Next before machine) (replies : Replies k reply before machine) :
    Polling called k base next := by
  have polled : ⟨k, .asking⟩ ∈ machine.lobby.polls := by
    refine mem_append_right _ (mem_filterMap.mpr ⟨.asked k, ?_, rfl⟩)
    rw [stands]
    exact mem_cons_self
  obtain ⟨opened, going⟩ := reachable.attended.2.polled _ polled
  obtain rfl := step.eq_step (by rw [clientTurn, answers])
  have concludes : machine.step = Machine.concludePoll { machine with stack := base } k
      (decide (reply ≠ .pending)) := by
    simp only [Machine.step, answers, stands, receive, ne_eq, Answer.replied.injEq]
  -- What the future has replied is what the poll returns, if it returns.
  have returns (answer : machine.step.control = .resume (.polled (decide (reply ≠ .pending))))
      (stack : machine.step.stack = base)
      (parks : reply = .pending → (machine.step.engine.session k).phase = .parked) :
      Polling called k base machine.step :=
    .ends answer stack early replying replies (.step .refl step) parks
  by_cases pending : reply = .pending
  · subst pending
    have undone : decide (Reply.pending ≠ .pending) = false := by decide
    rw [undone] at concludes returns
    simp only [Machine.concludePoll, Bool.false_eq_true, if_false] at concludes
    cases phase : (machine.engine.session k).phase with
    | woken =>
      rw [phase] at concludes
      exact .delivers [] (by rw [concludes]; rfl)
    | parked =>
      rw [phase] at concludes
      refine returns ?_ ?_ fun _ => ?_
      · rw [concludes]
        rfl
      · rw [concludes]
        rfl
      · rw [concludes]
        exact phase
    | finished => exact absurd phase going
    | fresh =>
      rw [phase] at concludes
      simp only at concludes
      split at concludes
      · exact .delivers [] (by rw [concludes]; rfl)
      · refine returns ?_ ?_ fun _ => ?_
        · rw [concludes]
          rfl
        · rw [concludes]
          rfl
        · rw [concludes]
          exact @Lobby.phase_modify_self machine.lobby k opened .parked
  · have done : decide (reply ≠ .pending) = true := decide_eq_true pending
    rw [done] at concludes returns
    simp only [Machine.concludePoll, if_true] at concludes
    refine returns ?_ ?_ fun same => absurd same pending
    · rw [concludes]
      rfl
    · rw [concludes]
      rfl

end

/-- A poll goes on in every step, until it has returned or a panic has got out of it. -/
theorem onward (polling : Polling called k base machine) (reachable : machine.Reachable)
    (run : called.Reaches machine) (step : Next machine next) (during : base <:+ next.stack)
    (bottom : base = .hold [] :: base.tail) : Polling called k base next := by
  have shorter : ¬ base <:+ base.tail := by
    intro fits
    have longer := fits.length_le
    rw [bottom, length_cons, tail_cons] at longer
    exact absurd longer (Nat.not_succ_le_self _)
  cases polling with
  | begins asked stands => exact of_begins reachable run step asked stands
  | delivers upper stands => exact of_delivers reachable run step stands
  | asks upper future stands => exact of_asks reachable run step future stands
  | replied reply stands answers early replying replies =>
    exact of_replied reachable step stands answers early replying replies
  | ends answers stands =>
    -- The answer is passed on to the client, and the call is over.
    obtain rfl := step.eq_step (by rw [clientTurn, answers])
    rw [bottom] at stands
    simp only [Machine.step, answers, stands] at during
    exact absurd during shorter
  | breaks unwinds stands =>
    obtain rfl := step.eq_step (by rw [clientTurn, unwinds])
    rcases stands with stands | stands
    · rw [bottom] at stands
      simp only [Machine.step, unwinds, stands] at during
      exact absurd during shorter
    · have gone : machine.step =
          Machine.update { machine with stack := base } (·.endSession k) := by
        simp only [Machine.step, unwinds, stands]
        rfl
      rw [gone]
      exact .breaks unwinds (.inl rfl)

end Polling

/-- While a poll has not returned, it stands somewhere. -/
theorem ReachesWhile.polling
    (run : (machine.call (.poll k)).ReachesWhile
      (fun state => .hold [] :: machine.stack <:+ state.stack) final)
    (reachable : (machine.call (.poll k)).Reachable) :
    Polling (machine.call (.poll k)) k (.hold [] :: machine.stack) final := by
  induction run with
  | refl => exact .begins rfl rfl
  | step run step during ih =>
    exact ih.onward (Reaches.trans reachable run.reaches) run.reaches step during rfl

/-- A session that is alone with its host stays awake in every run. -/
theorem ReachesWhile.awake (run : called.ReachesWhile (·.Alone k) machine)
    (reachable : called.Reachable) (opened : k < called.engine.sessions.length)
    (awake : called.lobby.Awake k) :
    machine.lobby.Awake k ∧ k < machine.engine.sessions.length := by
  induction run with
  | refl => exact ⟨awake, opened⟩
  | step run step _ ih =>
    have known : Reachable _ := Reaches.trans reachable run.reaches
    exact ⟨ih.1.step known.attended.2 run.holds.lobby ih.2 (step.lobby known),
      ((step.lobby known).origin ih.2).1⟩

/-- A batch that was put off stays so until its host is draining. -/
theorem ReachesWhile.deferred_until
    (run : machine.ReachesWhile (fun state => ¬ state.LosesBatchOf h) final)
    (reachable : machine.Reachable) (waits : batch ∈ (machine.engine.host h).deferred) :
    batch ∈ (final.engine.host h).deferred ∨ ∃ state, machine.Reaches state ∧
      (state.engine.host h).draining = true ∧ ¬ state.PassesLoop h ∧
        state.ReachesWhile (fun state => ¬ state.LosesBatchOf h) final := by
  induction run with
  | refl => exact .inl waits
  | @step before next run step steady ih =>
    have known : before.Reachable := Reaches.trans reachable run.reaches
    rcases ih with deferred | ⟨state, early, draining, calm, late⟩
    · have rules := known.sound.rules_next step (.refl _)
      refine (rules.deferred_cases (h := h) deferred).imp_right fun draining => ?_
      exact ⟨next, .step run.reaches step, draining,
        fun passes => run.holds (step.losesBatchOf known passes), .refl steady⟩
    · exact .inr ⟨state, early, draining, calm, .step late step steady⟩

/-- A batch has left the dispatch queue, and all its calls have been made unless its source was
destroyed. -/
structure Ran (machine : Machine) (h : HostRef) (batch : Batch) : Prop where
  /-- It has been taken from the queue to be delivered. -/
  opened : batch.serial ∈ (machine.engine.account h).opened
  /-- Its calls have been made. -/
  whole : callsOf batch.serial machine.engine.journal.toList = batch.calls ∨
    (machine.engine.executable batch.event.source).destroyed = true

/-- As long as no panic gets out of a batch of a host, a batch that was put off has been delivered
once it is put off no longer and the host is not draining. -/
theorem ReachesWhile.ran
    (run : machine.ReachesWhile (fun state => ¬ state.LosesBatchOf h) final)
    (reachable : machine.Reachable) (waits : batch ∈ (machine.engine.host h).deferred)
    (idle : (final.engine.host h).draining = false)
    (empty : (final.engine.host h).deferred = []) : final.Ran h batch := by
  have known : final.Reachable := Reaches.trans reachable run.reaches
  have filed := reachable.sound.store.batches h batch (mem_append_right _ waits)
  cases run.fate reachable (mem_append_right _ waits) with
  | waiting still =>
    -- Both queues are empty by now.
    have drained : (final.engine.host h).queue = [] := by
      rcases run.deferred_until reachable waits with deferred | ⟨_, early, draining, calm, late⟩
      · rw [empty] at deferred
        cases deferred
      · refine (late.draining_or_empty (Reaches.trans reachable early) calm
          (.inl draining)).resolve_left ?_
        rw [idle]
        decide
    have nowhere : batch ∈ (final.engine.host h).queue ++ (final.engine.host h).deferred := still
    rw [drained, empty] at nowhere
    cases nowhere
  | underway rest current =>
    have home := ((reachable.sound.later_reaches run.reaches).grown.home _ filed.built).trans
      filed.home
    have standing := mem_of_mem_filter current
    exact absurd standing (known.not_delivering idle home)
  | finished opened gone made why =>
    rw [account_traffic] at opened
    refine ⟨opened, ?_⟩
    rcases why with done | destroyed | ⟨state, steady, past, -, loses⟩
    · rw [callsOf, callsIn_traffic] at done
      exact .inl done
    · exact .inr destroyed
    · -- The panic would have got out of a batch of this host.
      have home := ((reachable.sound.later_reaches past).grown.home _ filed.built).trans filed.home
      exact absurd ⟨batch, loses, home⟩ steady

/-- Sessions stay in every run, with their hosts and their futures. -/
theorem Reaches.origin (run : machine.Reaches final) (reachable : machine.Reachable)
    (opened : k < machine.engine.sessions.length) :
    (final.engine.session k).host = (machine.engine.session k).host ∧
      k < final.engine.sessions.length := by
  induction run with
  | refl => exact ⟨rfl, opened⟩
  | step run step ih =>
    have kept := (step.lobby (Reaches.trans reachable run)).origin ih.2
    exact ⟨kept.2.1.trans ih.1, kept.1⟩

/-- The journal only gets longer. -/
theorem Reaches.journal_prefix (run : machine.Reaches final) (reachable : machine.Reachable) :
    machine.engine.journal.toList <+: final.engine.journal.toList := by
  induction run with
  | refl => exact prefix_rfl
  | step run step ih =>
    have known : Reachable _ := Reaches.trans reachable run
    obtain ⟨news, grown⟩ := (known.sound.enters_next step).journal_grows
    exact ih.trans ⟨news, grown.symm⟩

/-- A batch that was put off and is so no longer has entered the dispatch queue. -/
theorem Reaches.entered_of_deferred (run : machine.Reaches final) (reachable : machine.Reachable)
    (waits : batch ∈ (machine.engine.host h).deferred)
    (empty : (final.engine.host h).deferred = []) :
    batch.serial ∈ (final.engine.account h).entered := by
  have known : final.Reachable := Reaches.trans reachable run
  have listed : batch.serial ∈ (machine.engine.account h).deferred := mem_map_of_mem waits
  -- That it was put off stays in the books, and these balance.
  obtain ⟨news, grown⟩ := run.journal_prefix reachable
  have postponed : batch.serial ∈ (final.engine.account h).postponed := by
    simp only [Engine.account, ← grown, filterMap_append]
    exact mem_append_left _ ((reachable.balanced_account h).mem_postponed listed)
  rw [(known.balanced_account h).deferred, Engine.account, empty, map_nil,
    append_nil] at postponed
  exact (mem_filter.mp postponed).1

/-- What a poll of a session comes to that was made in one state and returns in another. -/
structure Polled (machine : Machine) (k : SessionRef) (answer : Answer) (final : Machine) :
    Prop where
  /-- It returns what its future has replied during the poll, and nothing else. -/
  output : ∃ reply before after, answer = .polled (decide (reply ≠ .pending)) ∧
    (machine.call (.poll k)).Reaches before ∧ Next before after ∧ Replies k reply before after ∧
      after.Reaches final
  /-- If the future is not done, the session is parked, and no batch is put off. -/
  parked : answer = .polled false → (final.engine.session k).phase = .parked ∧
    (final.engine.host (machine.engine.session k).host).deferred = []
  /-- If the future is not done, all batches that were put off have been handed to the delivery
  loop, which has delivered them by now unless it was at work all the time or a panic got out of a
  batch of the host. -/
  ran : answer = .polled false →
    ∀ batch ∈ (machine.engine.host (machine.engine.session k).host).deferred,
      batch.serial ∈ (final.engine.account (machine.engine.session k).host).entered ∧
        (.drain (machine.engine.session k).host ∉ machine.stack →
          final.Ran (machine.engine.session k).host batch ∨
            ∃ torn, (machine.call (.poll k)).Reaches torn ∧ torn.Reaches final ∧
              torn.LosesBatchOf (machine.engine.session k).host)

/-- A session loses no wakeup. -/
structure Wakeful (machine : Machine) (k : SessionRef) : Prop where
  /-- Once it has parked, it has been woken whenever batches are put off. -/
  woken : (machine.engine.session k).phase = .parked ∨ (machine.engine.session k).phase = .woken →
    (machine.engine.host (machine.engine.session k).host).deferred ≠ [] →
      (machine.engine.session k).phase = .woken
  /-- A poll that is made now and returns has delivered them, or returns that its future is done. -/
  polled : machine.clientTurn = true → machine.Permitted (.poll k) → ∀ final answer,
    (machine.call (.poll k)).ReachesWhile
      (fun state => state.Alone k ∧ .hold [] :: machine.stack <:+ state.stack) final →
    final.stack = .hold [] :: machine.stack → final.control = .resume answer →
      machine.Polled k answer final

/-- A poll that returns while its session is alone with its host has delivered what was put off, or
its future is done. -/
theorem polled_of_run (reachable : machine.Reachable) (awake : machine.lobby.Awake k)
    (alone : machine.Alone k) (turn : machine.clientTurn = true)
    (permitted : machine.Permitted (.poll k)) {answer : Answer}
    (run : (machine.call (.poll k)).ReachesWhile
      (fun state => state.Alone k ∧ .hold [] :: machine.stack <:+ state.stack) final)
    (stands : final.stack = .hold [] :: machine.stack) (answers : final.control = .resume answer) :
    machine.Polled k answer final := by
  have call : Next machine (machine.call (.poll k)) := .call turn permitted
  have began : (machine.call (.poll k)).Reachable := .step reachable call
  have known : final.Reachable := Reaches.trans began run.reaches
  have opened : k < machine.engine.sessions.length := (permitted.idle k rfl).1
  -- The only poll that can have come so far is one that has ended.
  cases (run.mono fun _ => And.right).polling began with
  | begins asked => cases answers.symm.trans asked
  | delivers _ stack | asks _ _ stack =>
    -- There would be more frames.
    have longer := congrArg List.length (stands.symm.trans stack)
    simp only [length_append, length_cons] at longer
    omega
  | replied _ stack => cases stands.symm.trans stack
  | breaks unwinds => cases answers.symm.trans unwinds
  | @ends reply before after ends _ early step replies late parks =>
    cases answers.symm.trans ends
    have still := ((run.mono fun _ => And.left).awake began opened
      (awake.step reachable.attended.2 alone.lobby opened (call.lobby reachable))).1
    have home := (run.reaches.origin began opened).1
    -- If the future is not done, the session is parked, which it is only if no batch is put off.
    have parked (undone : Answer.polled (decide (reply ≠ .pending)) = .polled false) :
        (final.engine.session k).phase = .parked ∧
          (final.engine.host (machine.engine.session k).host).deferred = [] := by
      have asleep := parks (by simpa using undone)
      have empty := still.parked asleep
      exact ⟨asleep, home ▸ empty⟩
    refine ⟨⟨reply, before, after, rfl, early, step, replies, late⟩, parked, ?_⟩
    intro undone batch waits
    refine ⟨run.reaches.entered_of_deferred began waits (parked undone).2, fun outside => ?_⟩
    -- The host is draining no more than it was when the poll was made.
    have idle : (final.engine.host (machine.engine.session k).host).draining = false := by
      rw [Bool.eq_false_iff, ne_eq, known.draining_iff, stands, mem_cons]
      rintro (same | below)
      · cases same
      · exact outside below
    rcases run.reaches.reachesWhile.avoids_or_passes
        (·.LosesBatchOf (machine.engine.session k).host) with steady | ⟨torn, early, loses, late⟩
    · exact .inl ((steady.mono fun _ => And.right).ran began waits idle (parked undone).2)
    · exact .inr ⟨torn, early.reaches, late.reaches, loses⟩

/-- In every run in which a session has its host for itself, it loses no wakeup, whatever else is
done before, between and during its polls. -/
theorem sessions_lose_no_wakeup {start : Machine} (reachable : start.Reachable)
    (idle : start.sessionIdle k) (turn : start.clientTurn = true)
    (fresh : (start.engine.session k).phase = .fresh)
    (run : start.ReachesWhile (·.Alone k) machine) : machine.Wakeful k := by
  -- A session that was never polled is awake, and stays so.
  have first : start.lobby.Awake k := by
    refine ⟨fun parked => absurd (fresh.symm.trans parked) (by decide), fun asking => ?_⟩
    exact absurd rfl ((idle_of_sessionIdle turn idle).2.2 _ asking)
  obtain ⟨awake, opened⟩ := run.awake reachable idle.1 first
  have known : machine.Reachable := Reaches.trans reachable run.reaches
  constructor
  · rintro (parked | woken) waits
    · exact absurd (awake.parked parked) waits
    · exact woken
  · intro turn permitted final answer poll stands answers
    exact polled_of_run known awake run.holds turn permitted poll stands answers

/-- A batch is put off while the future is asked, and the poll delivers it before it parks. Another
one is put off then, which wakes the session, and the next poll delivers that one too. -/
theorem sessions_lose_no_wakeup_twice : ∃ start machine final : Machine,
    start.Reachable ∧ start.ReachesWhile (·.Alone 0) machine ∧ machine.Wakeful 0 ∧
    (machine.engine.account 0).opened = [0] ∧
    (machine.engine.host 0).deferred =
      [⟨1, ⟨0, .ready, .processing⟩, [⟨.client 2, some 1⟩, ⟨.client 1, some 0⟩]⟩] ∧
    (machine.engine.session 0).phase = .woken ∧
    final.stack = .hold [] :: machine.stack ∧ final.control = .resume (.polled false) ∧
    (final.engine.account 0).opened = [0, 1] ∧ machine.Polled 0 (.polled false) final := by
  -- There is one session in all, so it is alone.
  let single : Machine → Bool := fun state => decide (state.engine.sessions.length ≤ 1)
  have alone (state : Machine) (few : single state = true) : state.Alone 0 := by
    intro j there other
    exact absurd (Nat.lt_one_iff.mp (Nat.lt_of_lt_of_le there (of_decide_eq_true few))) other
  let start := ({} : Machine).after [.openHost {} .silent, .build 0 (.manual false),
    .subscribe 0 1 (some .ready) false, .subscribe 0 2 (some .ready) false,
    .openSession 0 (.client 9)]
  let machine := start.after [.call (.poll 0), .accept, .call (.setStatus 0 .ready),
    .finish .pending, .accept, .finish .done, .accept, .finish .done, .accept, .finish .pending,
    .call (.setStatus 0 .processing), .call (.setStatus 0 .ready)] single
  let within : Machine → Bool := fun state =>
    single state && decide (.hold [] :: machine.stack <:+ state.stack)
  let asked := ((machine.call (.poll 0)).halt (·.clientTurn) within).after [.accept,
    .finish .pending, .accept, .finish .done, .accept, .finish .done, .accept] within
  let final := (asked.finish .pending).halt (fun state =>
    decide (state.stack = .hold [] :: machine.stack)) within
  have reachable : start.Reachable := reaches_after _ _
  have run : start.ReachesWhile (·.Alone 0) machine :=
    (reachesWhile_after (by decide +kernel) (by decide +kernel)).mono alone
  have top : asked.stack = .client (.future 9) :: asked.stack.tail := by decide +kernel
  have poll : (machine.call (.poll 0)).ReachesWhile
      (fun state => state.Alone 0 ∧ .hold [] :: machine.stack <:+ state.stack) final := by
    have first : (machine.call (.poll 0)).ReachesWhile (fun state => within state = true) asked :=
      (reachesWhile_halt (by decide +kernel) (by decide +kernel)).trans
        (reachesWhile_after (by decide +kernel) (by decide +kernel))
    have second := first.step (.finish (by decide +kernel) top .pending) (by decide +kernel)
    refine (second.trans (reachesWhile_halt second.holds (by decide +kernel))).mono ?_
    intro state holds
    obtain ⟨few, above⟩ := Bool.and_eq_true_iff.mp holds
    exact ⟨alone state few, of_decide_eq_true above⟩
  have wakeful := sessions_lose_no_wakeup reachable (by decide +kernel) (by decide +kernel)
    (by decide +kernel) run
  have stands : final.stack = .hold [] :: machine.stack := by decide +kernel
  have answers : final.control = .resume (.polled false) := by decide +kernel
  have polled := wakeful.polled (by decide +kernel) (by decide +kernel) final _ poll stands answers
  have opened : (machine.engine.account 0).opened = [0] := by decide +kernel
  have deferred : (machine.engine.host 0).deferred =
      [⟨1, ⟨0, .ready, .processing⟩, [⟨.client 2, some 1⟩, ⟨.client 1, some 0⟩]⟩] := by
    decide +kernel
  have woken : (machine.engine.session 0).phase = .woken := by decide +kernel
  have both : (final.engine.account 0).opened = [0, 1] := by decide +kernel
  exact ⟨start, machine, final, reachable, run, wakeful, opened, deferred, woken, stands, answers,
    both, polled⟩

/-- A session that was woken is polled by a listener of its own host. The delivery loop is at work
under the listener, so the batch that was put off is only queued: the poll returns with the future
undone, and nobody has been told. -/
theorem session_polled_by_listener_runs_nothing : ∃ machine final : Machine, ∃ batch,
    machine.Reachable ∧ (machine.engine.session 0).phase = .woken ∧
    (machine.engine.host 0).deferred = [batch] ∧ machine.Permitted (.poll 0) ∧
    (machine.call (.poll 0)).Reaches final ∧ final.stack = .hold [] :: machine.stack ∧
    final.control = .resume (.polled false) ∧ ¬ final.Ran 0 batch ∧
    callsOf batch.serial final.engine.journal.toList = [] := by
  let machine := ({} : Machine).after [.openHost {} .silent, .build 0 (.manual false),
    .build 0 (.manual false), .subscribe 0 1 (some .ready) false,
    .subscribe 0 2 (some .ready) false, .subscribe 1 3 none false, .openSession 0 (.client 9),
    .call (.poll 0), .accept, .finish .pending, .call (.setStatus 0 .ready),
    .call (.setStatus 1 .processing), .accept]
  let asked := ((machine.call (.poll 0)).halt clientTurn).after [.accept, .finish .pending, .accept]
  let final := (asked.finish .pending).halt fun state =>
    decide (state.stack = .hold [] :: machine.stack)
  have top : asked.stack = .client (.future 9) :: asked.stack.tail := by decide +kernel
  have early : (machine.call (.poll 0)).Reaches asked :=
    (reaches_halt _ _).trans (reaches_after _ _)
  have poll : (machine.call (.poll 0)).Reaches final :=
    (Reaches.step early (.finish (by decide +kernel) top .pending)).trans (reaches_halt _ _)
  refine ⟨machine, final, ⟨0, ⟨0, .ready, .null⟩, [⟨.client 2, some 1⟩, ⟨.client 1, some 0⟩]⟩,
    reaches_after _ _, by decide +kernel, by decide +kernel, by decide +kernel, poll,
    by decide +kernel, by decide +kernel, fun ran => ?_, by decide +kernel⟩
  exact absurd ran.opened (by decide +kernel)

end Machine

end Readiness
