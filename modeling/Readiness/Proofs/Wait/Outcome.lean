import Readiness.Proofs.Wait.Stage

/-! What a wait comes to: it reports the first status that settles the executable, and it goes on
for ever only if the executable was destroyed before it began.
-/

namespace Readiness

namespace Machine

variable {machine final : Machine} {e : ExecutableRef} {w : WaitRef} {stage : Stage}

/-- A listener that ends a wait is being called, or is next to be. -/
def EndsWait (machine : Machine) (w : WaitRef) : Prop :=
  ∃ frame ∈ machine.stack, ∃ listener ∈ frame.listeners, listener.wait? = some w

namespace Awaits

/-- Whoever reports on a wait knows what has settled the executable. -/
theorem decided_of_report (awaits : machine.Awaits e w stage) {settlement : Settlement}
    (reported : (machine.engine.wait w).report = some settlement) {course : List Status}
    {before now : Bool}
    (agrees : stage.Agrees (machine.engine.executable e).work course before now) :
    ∃ status, course.find? (machine.engine.executable e).work.settles = some status ∧
      settlement = (machine.engine.executable e).work.verdict status := by
  obtain ⟨status, rfl, same⟩ := awaits.report settlement reported
  exact ⟨status, agrees, same⟩

/-- A wait that is reported on has no entries left. -/
theorem not_listed_of_report (awaits : machine.Awaits e w stage) {settlement : Settlement}
    (reported : (machine.engine.wait w).report = some settlement) {x : ExecutableRef}
    {filed : Status × Entry}
    (listed : filed ∈ (machine.engine.executable x).subscriptions.listing) :
    filed.2.listener.wait? ≠ some w := by
  intro about
  obtain ⟨status, decided, _⟩ := awaits.report settlement reported
  rw [(awaits.listed x filed listed about).2] at decided
  cases decided

theorem holds_of_waiting (awaits : machine.Awaits e w .waiting)
    (living : machine.isAlive e = true) : machine.Holds w := by
  obtain ⟨filed, listed, _, about⟩ := (awaits.entries rfl).covers _
    (Work.settles_iff.mpr (.inl rfl))
  exact .listed living listed about

/-- With both queues empty a wait is held by an executable that is alive while the wait goes on, or
by a call that is being made. -/
theorem holds_cases (awaits : machine.Awaits e w stage) (sound : machine.Sound)
    (queue : (machine.engine.host (machine.engine.executable e).host).queue = [])
    (deferred : (machine.engine.host (machine.engine.executable e).host).deferred = [])
    (holds : machine.Holds w) :
    stage = .waiting ∧ machine.isAlive e = true ∨ machine.EndsWait w := by
  cases holds with
  | sent sends about =>
    obtain ⟨_, _, source, _⟩ := awaits.sent _ _ sends about
    cases sends with
    | @waiting h batch waits told listed =>
      -- Batches about the executable wait with its host, which has none.
      have home := (sound.store.batches h batch waits).home
      rw [told, source] at home
      rw [← home, queue, deferred] at waits
      cases waits
    | underway stands listed =>
      exact .inr ⟨_, stands, _, Frame.listeners_of_sends listed, about⟩
  | listed living listed about =>
    obtain ⟨rfl, waiting⟩ := awaits.listed _ _ listed about
    exact .inl ⟨waiting, living⟩

end Awaits

/-- A wait that has ended stays as it is. Unless it ended as destroyed, it reports the first status
that settled the executable, counted from the one that the executable had when the wait began. None
of its entries is left with an executable that is alive. -/
theorem wait_reports_first_settlement (reachable : machine.Reachable)
    (turn : machine.clientTurn = true) (alive : machine.isAlive e = true)
    (run : (machine.beginWait e).1.Reaches final) {settlement : Settlement}
    (ended : final.settlement? (machine.beginWait e).2 = some settlement) :
    (∀ later, final.Reaches later →
      later.settlement? (machine.beginWait e).2 = some settlement) ∧
    (settlement ≠ .destroyed → ∃ since status,
      movesOf e final.engine.journal.toList = movesOf e machine.engine.journal.toList ++ since ∧
      ((machine.engine.executable e).status :: since.map Event.status).find?
        (machine.engine.executable e).work.settles = some status ∧
      (status = (machine.engine.executable e).readyStatus ∧ settlement = .ready ∧
          final.waitFault? (machine.beginWait e).2 settlement = none ∨
        status ∈ (machine.engine.executable e).failedStatuses ∧ settlement = .failed status ∧
          final.waitFault? (machine.beginWait e).2 settlement =
            some (.failed (machine.engine.executable e).id status))) ∧
    (final.isAlive e = true → ∀ entry ∈ (final.engine.executable e).subscriptions.entries,
      entry.listener.wait? ≠ some (machine.beginWait e).2) := by
  rw [snd_beginWait] at ended ⊢
  have built := reachable.sound.lt_of_isAlive alive
  have early : machine.Reaches final := Reaches.trans (.step .refl (.beginWait turn alive)) run
  have reached : final.Reachable := Reaches.trans reachable early
  obtain ⟨stage, since, awaits, moved, agrees⟩ := reachable.awaits_reaches turn alive run
  have work := (reachable.sound.later_reaches early).grown.work e built
  rw [← work] at agrees
  -- The wait was reported on, or nothing was and nothing holds it.
  have outcome := reached.settlement?_eq_some_iff.mp ended
  refine ⟨fun later on => reached.settlement?_reaches awaits.begun on ended, fun real => ?_,
    fun living entry member about => ?_⟩
  · have reported := outcome.resolve_right fun unheld => real unheld.2.2
    obtain ⟨status, first, same⟩ := awaits.decided_of_report reported agrees
    refine ⟨since, status, moved, work ▸ first, ?_⟩
    rcases Work.settles_iff.mp (List.find?_some first) with rfl | failed
    · rw [Work.verdict_readyStatus] at same
      subst same
      exact .inl ⟨congrArg Work.readyStatus work, rfl, rfl⟩
    · rw [Work.verdict_of_mem_failedStatuses
        (reached.sound.store.lawful e awaits.built) failed] at same
      subst same
      refine .inr ⟨show status ∈ (machine.engine.executable e).work.failedStatuses from
        work ▸ failed, rfl, ?_⟩
      rw [waitFault?, awaits.target, reachable.id_reaches built early]
  · obtain ⟨filed, listed, rfl⟩ := Subscriptions.mem_entries_iff.mp member
    rcases outcome with reported | ⟨_, unheld, _⟩
    · exact awaits.not_listed_of_report reported listed about
    · exact unheld (.listed living listed about)

/-- A wait begins, the executable becomes ready, which is put off for a later turn, and fails before
that turn comes; the wait still ends well, whatever happens afterwards. -/
theorem wait_reports_first_settlement_deferred : ∃ machine final later : Machine,
    machine.Reachable ∧ machine.clientTurn = true ∧ machine.isAlive 0 = true ∧
    (machine.beginWait 0).1.Reaches final ∧ final.Reaches later ∧
    final.isAlive 0 = true ∧ (final.engine.executable 0).status = .failed ∧
    (∃ since, movesOf 0 final.engine.journal.toList =
        movesOf 0 machine.engine.journal.toList ++ since ∧
      (.processing :: since.map Event.status).find?
        (machine.engine.executable 0).work.settles = some .ready) ∧
    later.settlement? (machine.beginWait 0).2 = some .ready ∧
    (later.engine.executable 0).destroyed = true ∧
    ∀ entry ∈ (final.engine.executable 0).subscriptions.entries,
      entry.listener.wait? ≠ some (machine.beginWait 0).2 := by
  let machine := ({} : Machine).after [.openHost {} .silent, .build 0 (.manual true),
    .subscribe 0 1 (some .ready) false, .call (.setStatus 0 .processing)]
  let final := (machine.beginWait 0).1.after [.call (.setStatus 0 .waiting),
    .call (.setStatus 0 .ready), .call (.setStatus 0 .failed), .call (.pump 0), .accept,
    .finish .done]
  let later := final.after [.call (.setStatus 0 .ready), .call (.destroy 0)]
  have reachable : machine.Reachable := reaches_after _ _
  have run : (machine.beginWait 0).1.Reaches final := reaches_after _ _
  have on : final.Reaches later := reaches_after _ _
  have living : final.isAlive 0 = true := by decide
  have outcome := wait_reports_first_settlement reachable (by decide) (by decide) run
    (show final.settlement? (machine.beginWait 0).2 = some .ready by decide)
  obtain ⟨since, status, moved, first, ⟨rfl, _⟩ | ⟨_, failed, _⟩⟩ := outcome.2.1 (by decide)
  · exact ⟨machine, final, later, reachable, by decide, by decide, run, on, living, by decide,
      ⟨since, moved, first⟩, outcome.1 later on, by decide, outcome.2.2 living⟩
  · cases failed

/-- Once an executable is destroyed and both queues of its host are empty, a wait for it has ended,
as reported or as destroyed, unless the executable was destroyed already when the wait began, has
not been settled from then on and is still alive, or a listener that ends it is being called. -/
theorem wait_hangs_iff_begun_after_destruction (reachable : machine.Reachable)
    (turn : machine.clientTurn = true) (alive : machine.isAlive e = true)
    (run : (machine.beginWait e).1.Reaches final)
    (gone : (final.engine.executable e).destroyed = true)
    (queue : (final.engine.host (final.engine.executable e).host).queue = [])
    (deferred : (final.engine.host (final.engine.executable e).host).deferred = []) :
    ∃ since,
      movesOf e final.engine.journal.toList = movesOf e machine.engine.journal.toList ++ since ∧
      (final.settlement? (machine.beginWait e).2 = none ↔
        (machine.engine.executable e).destroyed = true ∧
            ((machine.engine.executable e).status :: since.map Event.status).find?
              (machine.engine.executable e).work.settles = none ∧ final.isAlive e = true ∨
          (final.engine.wait (machine.beginWait e).2).report = none ∧
            final.EndsWait (machine.beginWait e).2) ∧
      (∀ settlement, final.settlement? (machine.beginWait e).2 = some settlement →
        settlement = (final.engine.wait (machine.beginWait e).2).report.getD .destroyed) ∧
      final.waitFault? (machine.beginWait e).2 .destroyed =
        some (.destroyed (machine.engine.executable e).id) := by
  rw [snd_beginWait]
  have built := reachable.sound.lt_of_isAlive alive
  have early : machine.Reaches final := Reaches.trans (.step .refl (.beginWait turn alive)) run
  have reached : final.Reachable := Reaches.trans reachable early
  obtain ⟨stage, since, awaits, moved, agrees⟩ := reachable.awaits_reaches turn alive run
  rw [gone] at agrees
  refine ⟨since, moved, ?_, fun settlement ended => ?_, ?_⟩
  · rw [reached.settlement?_eq_none_iff]
    constructor
    · rintro ⟨unreported, holds⟩
      rcases awaits.holds_cases reached.sound queue deferred holds with ⟨rfl, living⟩ | calling
      · exact .inl ⟨agrees.2.symm, agrees.1, living⟩
      · exact .inr ⟨unreported, calling⟩
    · rintro (⟨before, unsettled, living⟩ | ⟨unreported, frame, stands, listener, kept, about⟩)
      · -- The other two stages do not agree with what is known of the course.
        cases stage with
        | waiting =>
          refine ⟨Option.eq_none_iff_forall_ne_some.mpr fun settlement reported => ?_,
            awaits.holds_of_waiting living⟩
          obtain ⟨_, decided, _⟩ := awaits.report settlement reported
          cases decided
        | decided status =>
          rw [show _ = some status from agrees] at unsettled
          cases unsettled
        | cleared =>
          rw [show _ = false from agrees] at before
          cases before
      · have known := reached.sound.frames frame stands
        obtain ⟨event, entry, listed⟩ := known.sends_of_listeners kept about
        exact ⟨unreported, .sent (.underway stands listed) about⟩
  · rcases reached.settlement?_eq_some_iff.mp ended with reported | ⟨unreported, _, rfl⟩
    · rw [reported]
      rfl
    · rw [unreported]
      rfl
  · rw [waitFault?, awaits.target, reachable.id_reaches built early]

/-- A wait that began while the executable was processing ends as destroyed, although the executable
moves on afterwards. -/
theorem wait_hangs_iff_begun_after_destruction_before : ∃ machine final : Machine,
    machine.Reachable ∧ machine.clientTurn = true ∧ machine.isAlive 0 = true ∧
    (machine.beginWait 0).1.Reaches final ∧ (machine.engine.executable 0).destroyed = false ∧
    (final.engine.executable 0).destroyed = true ∧ (final.engine.host 0).queue = [] ∧
    (final.engine.host 0).deferred = [] ∧ final.isAlive 0 = true ∧
    (final.engine.executable 0).status = .ready ∧
    final.settlement? (machine.beginWait 0).2 = some .destroyed ∧
    final.waitFault? (machine.beginWait 0).2 .destroyed =
      some (.destroyed (machine.engine.executable 0).id) := by
  let machine := ({} : Machine).after [.openHost {} .silent, .build 0 (.manual true),
    .subscribe 0 1 (some .ready) false, .call (.setStatus 0 .processing)]
  let final := (machine.beginWait 0).1.after [.call (.setStatus 0 .waiting), .call (.destroy 0),
    .call (.setStatus 0 .ready), .call (.pump 0)]
  have reachable : machine.Reachable := reaches_after _ _
  have run : (machine.beginWait 0).1.Reaches final := reaches_after _ _
  obtain ⟨since, _, hangs, ended, fault⟩ := wait_hangs_iff_begun_after_destruction reachable
    (e := 0) (by decide) (by decide) run (by decide) (by decide) (by decide)
  have idle : final.stack = [] := by decide
  have resolved : final.settlement? (machine.beginWait 0).2 ≠ none := by
    rw [Ne, hangs]
    rintro (⟨before, _⟩ | ⟨_, frame, stands, _⟩)
    · exact absurd before (by decide)
    · rw [idle] at stands
      cases stands
  obtain ⟨settlement, some⟩ := Option.ne_none_iff_exists'.mp resolved
  obtain rfl : settlement = .destroyed := (ended settlement some).trans (by decide)
  exact ⟨machine, final, reachable, by decide, by decide, run, by decide, by decide, by decide,
    by decide, by decide, by decide, some, fault⟩

/-- A wait that begins after the executable was destroyed does not end, although nothing is left to
do. -/
theorem wait_begun_after_destruction_hangs : ∃ machine final : Machine,
    machine.Reachable ∧ machine.clientTurn = true ∧ machine.isAlive 0 = true ∧
    (machine.beginWait 0).1.Reaches final ∧ (final.engine.executable 0).destroyed = true ∧
    final.stack = [] ∧ (final.engine.host 0).queue = [] ∧ (final.engine.host 0).deferred = [] ∧
    final.settlement? (machine.beginWait 0).2 = none := by
  let machine := ({} : Machine).after [.openHost {} .silent, .build 0 (.manual false),
    .call (.destroy 0)]
  let final := (machine.beginWait 0).1.after [.call (.pump 0)]
  exact ⟨machine, final, reaches_after _ _, by decide, by decide, reaches_after _ _, by decide,
    by decide, by decide, by decide, by decide⟩

end Machine

end Readiness
