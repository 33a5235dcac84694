import Readiness.Proofs.Wait.Awaited
import Readiness.Proofs.Wait.Held

/-! The stages of a wait.

As long as a wait goes on, its entries stand with the executable and nothing is on its way. Once the
executable is settled all the entries are gone, and nothing but the one verdict is on its way. If
the executable is destroyed before, the entries are gone and nothing comes of them.
-/

namespace Readiness

open List

/-- How far a wait has come. -/
inductive Stage where
  | waiting
  | decided (status : Status)
  | cleared

namespace Stage

/-- The stage after a transition of the executable. -/
def moved (work : Work) (status : Status) : Stage → Stage
  | .waiting => if work.settles status then .decided status else .waiting
  | stage => stage

/-- The stage after the destruction of the executable. -/
def struck : Stage → Stage
  | .waiting => .cleared
  | stage => stage

/-- A stage agrees with the statuses that the executable had since the wait began, and with whether
it was destroyed then and is now. -/
def Agrees (work : Work) (course : List Status) (before now : Bool) : Stage → Prop
  | .waiting => course.find? work.settles = none ∧ now = before
  | .decided status => course.find? work.settles = some status
  | .cleared => before = false

variable {work : Work} {course : List Status} {before : Bool} {stage : Stage}

/-- A transition keeps the agreement. -/
theorem Agrees.moved {now : Bool} (agrees : stage.Agrees work course before now)
    (status : Status) : (stage.moved work status).Agrees work (course ++ [status]) before now := by
  -- Only a wait that goes on can be decided, and then by this very status.
  cases stage with
  | waiting =>
    cases settles : work.settles status with
    | true =>
      simp only [Stage.moved, settles, if_true, Agrees, find?_append, agrees.1]
      simp [settles]
    | false =>
      simp only [Stage.moved, settles, Bool.false_eq_true, if_false]
      refine ⟨?_, agrees.2⟩
      simp [find?_append, agrees.1, settles]
  | decided reached =>
    simp only [Stage.moved, Agrees] at agrees ⊢
    simp [find?_append, agrees]
  | cleared => exact agrees

theorem Agrees.struck (agrees : stage.Agrees work course before false) :
    stage.struck.Agrees work course before true := by
  cases stage with
  | waiting => exact agrees.2.symm
  | decided status => exact agrees
  | cleared => exact agrees

end Stage

namespace Machine

variable {machine next final : Machine} {e : ExecutableRef} {w : WaitRef} {stage : Stage}

/-- A wait for an executable has come to a stage. -/
structure Awaits (machine : Machine) (e : ExecutableRef) (w : WaitRef) (stage : Stage) : Prop where
  built : e < machine.engine.executables.length
  begun : w < machine.engine.waits.length
  target : (machine.engine.wait w).executable = e
  report : ∀ settlement ∈ (machine.engine.wait w).report, ∃ status, stage = .decided status ∧
    settlement = (machine.engine.executable e).work.verdict status
  sent : ∀ event delivery, machine.Sends event delivery → delivery.listener.wait? = some w →
    ∃ status, stage = .decided status ∧ event.source = e ∧
      delivery.listener.verdict? event =
        some (w, (machine.engine.executable e).work.verdict status)
  listed : ∀ x, ∀ filed ∈ (machine.engine.executable x).subscriptions.listing,
    filed.2.listener.wait? = some w → x = e ∧ stage = .waiting
  entries : stage = .waiting → (machine.engine.executable e).subscriptions.Awaited
    (machine.engine.executable e).work w

/-- A step takes a wait to a stage that agrees with what becomes of the executable. -/
def Proceeds (machine next : Machine) (e : ExecutableRef) (w : WaitRef) (stage : Stage) : Prop :=
  ∃ after news, next.Awaits e w after ∧
    movesOf e next.engine.record.moves = movesOf e machine.engine.record.moves ++ news ∧
    ∀ course before,
      stage.Agrees (machine.engine.executable e).work course before
        (machine.engine.executable e).destroyed →
      after.Agrees (machine.engine.executable e).work (course ++ news.map Event.status) before
        (next.engine.executable e).destroyed

namespace Awaits

variable (awaits : machine.Awaits e w stage) (reachable : machine.Reachable)
  (step : Next machine next)
include awaits reachable step

/-- A step reports nothing but the verdict, since no other call was on its way. -/
theorem report_next {settlement : Settlement}
    (ended : (next.engine.wait w).report = some settlement) :
    ∃ status, stage = .decided status ∧
      settlement = (machine.engine.executable e).work.verdict status := by
  rcases (reachable.writes_next step).wait_cases awaits.begun with
    same | ⟨listener, event, verdict, asked, about, told⟩
  · rw [show next.engine.wait w = _ from same] at ended
    exact awaits.report settlement ended
  · rw [show next.engine.wait w = _ from told] at ended
    -- The first report counts, and the call has been on its way.
    rcases Option.or_eq_some_iff.mp ended with old | ⟨_, new⟩
    · exact awaits.report settlement old
    · have ends := Listener.wait?_of_verdict? about
      obtain ⟨entry, sent⟩ := reachable.sends_of_invoke asked ends
      obtain ⟨status, decided, _, same⟩ := awaits.sent _ _ sent ends
      rw [about] at same
      cases new
      exact ⟨status, decided, (Prod.ext_iff.mp (Option.some.inj same)).2⟩

theorem target_next : (next.engine.wait w).executable = e := by
  rcases (reachable.writes_next step).wait_cases awaits.begun with same | ⟨_, _, _, _, _, told⟩
  · rw [show next.engine.wait w = _ from same]
    exact awaits.target
  · rw [show next.engine.wait w = _ from told]
    exact awaits.target

/-- No executable but the one that is waited for gets entries of the wait. -/
theorem mem_listing_next {x : ExecutableRef} {filed : Status × Entry}
    (listed : filed ∈ (next.engine.executable x).subscriptions.listing)
    (about : filed.2.listener.wait? = some w) : x = e ∧ stage = .waiting := by
  -- Entries are new only along with their wait, and this one has begun before.
  rcases (reachable.fares_next step x).mem_listing listed about with old | ⟨rfl, _⟩
  · exact awaits.listed x filed old about
  · exact absurd awaits.begun (Nat.lt_irrefl _)

/-- A step takes a wait to a stage that fits what becomes of the entries. -/
theorem carry {after : Stage} (kept : ∀ status, stage = .decided status → after = .decided status)
    (issued : ∀ filed ∈ (machine.engine.executable e).subscriptions.listing,
      filed.2.listener.wait? = some w → ∀ event : Event, event.source = e →
        machine.control = .perform (.setStatus e event.status) →
        (machine.engine.executable e).moves event.status = true →
        (filed.1 = .null ∨ filed.1 = event.status) →
          ∃ status, after = .decided status ∧ filed.2.listener.verdict? event =
            some (w, (machine.engine.executable e).work.verdict status))
    (left : ∀ filed ∈ (next.engine.executable e).subscriptions.listing,
      filed.2.listener.wait? = some w → after = .waiting)
    (entries : after = .waiting → (next.engine.executable e).subscriptions.Awaited
      (machine.engine.executable e).work w) : next.Awaits e w after := by
  have grown := (reachable.sound.later_next step).grown
  have work := grown.work e awaits.built
  refine ⟨Nat.lt_of_lt_of_le awaits.built grown.executables,
    Nat.lt_of_lt_of_le awaits.begun (reachable.writes_next step).waits_le,
    awaits.target_next reachable step, ?_, ?_, ?_, ?_⟩
  · rw [work]
    intro settlement ended
    obtain ⟨status, decided, same⟩ := awaits.report_next reachable step ended
    exact ⟨status, kept status decided, same⟩
  · -- What is on its way was so before, or is due for one of the entries.
    rw [work]
    intro event delivery sent about
    rcases reachable.sends_cases step sent about with
      old | ⟨filed, listed, asked, moves, due, rfl⟩ | ⟨rfl, _⟩
    · obtain ⟨status, decided, source, verdict⟩ := awaits.sent event delivery old about
      exact ⟨status, kept status decided, source, verdict⟩
    · obtain ⟨source, _⟩ := awaits.listed _ filed listed about
      rw [source] at listed asked moves
      obtain ⟨status, decided, verdict⟩ := issued filed listed about event source asked moves due
      exact ⟨status, decided, source, verdict⟩
    · exact absurd awaits.begun (Nat.lt_irrefl _)
  · intro x filed listed about
    obtain ⟨rfl, _⟩ := awaits.mem_listing_next reachable step listed about
    exact ⟨rfl, left filed listed about⟩
  · rw [work]
    exact entries

/-- A transition of the executable takes a wait to the next stage. -/
theorem move {status : Status} (asked : machine.control = .perform (.setStatus e status))
    (settled : (next.engine.executable e).subscriptions =
      (machine.engine.executable e).subscriptions.settle status) :
    next.Awaits e w (stage.moved (machine.engine.executable e).work status) := by
  have sensible := reachable.sound.store.lawful e awaits.built
  have numbered := reachable.numbered e
  refine awaits.carry reachable step ?_ ?_ ?_ ?_
  · rintro reached rfl
    rfl
  · -- An entry of the wait that is due decides it by the status of the transition.
    rintro filed listed about event rfl again _ due
    obtain rfl : event.status = status := by
      rw [asked] at again
      cases again
      rfl
    obtain ⟨_, rfl⟩ := awaits.listed _ filed listed about
    obtain ⟨settles, verdict⟩ := (awaits.entries rfl).fits filed listed about
    have under := due.resolve_left (Work.ne_null_of_settles sensible settles)
    rw [under] at settles verdict
    exact ⟨event.status, by simp [Stage.moved, settles], verdict event rfl⟩
  · -- Entries are left only by a transition that does not settle the executable.
    rw [settled]
    intro filed listed about
    obtain ⟨_, rfl⟩ := awaits.listed e filed (Subscriptions.mem_settle_iff.mp listed).1 about
    cases settles : (machine.engine.executable e).work.settles status with
    | true => exact absurd about ((awaits.entries rfl).not_mem_settle numbered settles listed)
    | false => simp [Stage.moved, settles]
  · rw [settled]
    intro waiting
    cases stage with
    | waiting =>
      cases settles : (machine.engine.executable e).work.settles status with
      | true => simp [Stage.moved, settles] at waiting
      | false => exact (awaits.entries rfl).settle sensible numbered settles
    | _ => cases waiting

theorem destroy (asked : machine.control = .perform (.destroy e))
    (cleared : (next.engine.executable e).subscriptions =
      (machine.engine.executable e).subscriptions.clear) : next.Awaits e w stage.struck := by
  -- Nothing is due and nothing is left, so that a wait which goes on has come to its end.
  refine awaits.carry reachable step ?_ ?_ ?_ ?_
  · rintro status rfl
    rfl
  · intro filed listed about event source again
    rw [asked] at again
    cases again
  · rw [cleared]
    intro filed listed
    cases listed
  · intro waiting
    cases stage <;> cases waiting

/-- Every step of a run takes a wait to a stage that agrees with what becomes of the executable. -/
theorem proceeds : machine.Proceeds next e w stage := by
  by_cases moving : ∃ status, machine.control = .perform (.setStatus e status) ∧
      (machine.engine.executable e).moves status = true
  · obtain ⟨status, asked, moves⟩ := moving
    obtain ⟨settled, moved, fate⟩ := reachable.sound.move_next asked moves step
    refine ⟨_, _, awaits.move reachable step asked settled, moved, fun course before agrees => ?_⟩
    rw [show (next.engine.executable e).destroyed = _ from fate]
    exact agrees.moved status
  -- Without a transition of the executable no entry of the wait is due.
  have carried (same : (next.engine.executable e).destroyed =
      (machine.engine.executable e).destroyed)
      (moved : movesOf e next.engine.record.moves = movesOf e machine.engine.record.moves)
      (entries : (machine.engine.executable e).subscriptions.Awaited
          (machine.engine.executable e).work w →
        (next.engine.executable e).subscriptions.Awaited (machine.engine.executable e).work w) :
      machine.Proceeds next e w stage := by
    refine ⟨stage, [], ?_, by rw [moved, append_nil], fun course before agrees => ?_⟩
    · refine awaits.carry reachable step (fun _ => id) ?_ ?_ fun waiting =>
        entries (awaits.entries waiting)
      · exact fun _ _ _ event _ asked moves => absurd ⟨event.status, asked, moves⟩ moving
      · exact fun filed listed about => (awaits.mem_listing_next reachable step listed about).2
    · rw [same, map_nil, append_nil]
      exact agrees
  cases reachable.fares_next step e with
  | enlist entries moved fate =>
    exact carried fate moved fun awaited =>
      awaited.enlisted (fun _ plain about => by rw [plain] at about; cases about) entries
  | remove code status entries moved fate =>
    refine carried fate moved fun awaited => ?_
    rw [show (next.engine.executable e).subscriptions = _ from entries]
    exact awaited.remove code status
  | wait begun entries moved fate =>
    -- The other wait has another number.
    refine carried fate moved fun awaited => ?_
    rw [show (next.engine.executable e).subscriptions = _ from entries]
    refine awaited.enlisted (fun _ own about => ?_) (Executable.enlisted_waitRequest _ _)
    rw [own] at about
    cases about
    exact Nat.lt_irrefl _ awaits.begun
  | move asked moves => exact absurd ⟨_, asked, moves⟩ moving
  | destroy asked there entries moved fate =>
    refine ⟨_, [], awaits.destroy reachable step asked entries, by rw [moved, append_nil],
      fun course before agrees => ?_⟩
    rw [there] at agrees
    rw [show (next.engine.executable e).destroyed = _ from fate, map_nil, append_nil]
    exact agrees.struck

end Awaits

theorem snd_beginWait (machine : Machine) (e : ExecutableRef) :
    (machine.beginWait e).2 = machine.engine.waits.length := by
  unfold beginWait
  simp only
  split <;> rfl

section

variable (reachable : machine.Reachable)
include reachable

section

variable (turn : machine.clientTurn = true)
include turn

theorem Reachable.sends_beginWait (alive : machine.isAlive e = true) {event : Event}
    {delivery : Delivery} (sent : (machine.beginWait e).1.Sends event delivery)
    (about : delivery.listener.wait? = some machine.engine.waits.length) :
    delivery.listener = .waitReady machine.engine.waits.length ∧
      (machine.beginWait e).1.engine.waits = machine.engine.waits ++ [⟨event.source, none⟩] ∧
      (machine.engine.executable event.source).isReady = true ∧
      event.status = (machine.engine.executable event.source).readyStatus := by
  rcases reachable.sends_cases (.beginWait turn alive) sent about with
    old | ⟨_, _, asked, _⟩ | ⟨_, own, begun, ready, reached⟩
  · exact absurd (reachable.timely.sent event delivery old _ about) (Nat.lt_irrefl _)
  · rw [clientTurn, asked] at turn
    cases turn
  · exact ⟨own, begun, ready, reached⟩

/-- A wait for an executable that has failed is decided at once. -/
theorem Reachable.awaits_of_failed (alive : machine.isAlive e = true)
    (failed : (machine.engine.executable e).hasFailed = true) :
    (machine.beginWait e).1.Awaits e machine.engine.waits.length
      (.decided (machine.engine.executable e).status) := by
  have built := reachable.sound.lt_of_isAlive alive
  have sensible := reachable.sound.store.lawful e built
  have grown := (reachable.sound.later_next (.beginWait turn alive)).grown
  have work := grown.work e built
  have written := machine.record_beginWait_of_failed failed
  have waits : (machine.beginWait e).1.engine.waits = _ := congrArg Record.waits written
  have last : (machine.beginWait e).1.engine.wait machine.engine.waits.length =
      ⟨e, some (.failed (machine.engine.executable e).status)⟩ := by
    rw [Engine.wait, waits]
    simp [Engine.record]
  have among : (machine.engine.executable e).status ∈
      (machine.engine.executable e).work.failedStatuses := by
    simpa [Executable.hasFailed, Executable.failedStatuses] using failed
  refine ⟨Nat.lt_of_lt_of_le built grown.executables, by rw [waits]; simp [Engine.record],
    by rw [last], ?_, ?_, ?_, fun waiting => (by cases waiting)⟩
  · -- The failure is reported before anybody is told of it.
    rw [last, work]
    rintro settlement ⟨⟩
    exact ⟨_, rfl, (Work.verdict_of_mem_failedStatuses sensible among).symm⟩
  · -- Only a wait that begins without a report is sent for.
    intro event delivery sent about
    obtain ⟨_, begun, _⟩ := reachable.sends_beginWait turn alive sent about
    rw [waits] at begun
    cases append_cancel_left begun
  · intro x filed listed about
    have same : (machine.beginWait e).1.engine.record.subscriptions x = _ :=
      congrFun (congrArg Record.subscriptions written) x
    rw [show ((machine.beginWait e).1.engine.executable x).subscriptions = _ from same] at listed
    exact absurd (reachable.timely.listed x filed listed _ about) (Nat.lt_irrefl _)

/-- A wait for an executable that has not failed is decided at once if it is ready, and goes on
otherwise. -/
theorem Reachable.awaits_of_unfailed (alive : machine.isAlive e = true)
    (unfailed : (machine.engine.executable e).hasFailed = false) :
    (machine.beginWait e).1.Awaits e machine.engine.waits.length
      (if (machine.engine.executable e).isReady then .decided (machine.engine.executable e).status
        else .waiting) := by
  have built := reachable.sound.lt_of_isAlive alive
  have sensible := reachable.sound.store.lawful e built
  have grown := (reachable.sound.later_next (.beginWait turn alive)).grown
  have work := grown.work e built
  have written := machine.record_beginWait built unfailed
  have waits : (machine.beginWait e).1.engine.waits = _ := congrArg Record.waits written
  have entries : ((machine.beginWait e).1.engine.executable e).subscriptions = _ :=
    (congrFun (congrArg Record.subscriptions written) e).trans (Function.update_self ..)
  rw [Executable.requested_waitRequest] at entries
  have last : (machine.beginWait e).1.engine.wait machine.engine.waits.length = ⟨e, none⟩ := by
    rw [Engine.wait, waits]
    simp [Engine.record]
  refine ⟨Nat.lt_of_lt_of_le built grown.executables, by rw [waits]; simp [Engine.record],
    by rw [last], ?_, ?_, ?_, ?_⟩
  · rw [last]
    rintro settlement ⟨⟩
  · -- If the executable is ready, the success listener is on its way with that very news.
    intro event delivery sent about
    obtain ⟨own, begun, ready, reached⟩ := reachable.sends_beginWait turn alive sent about
    rw [waits] at begun
    obtain rfl : e = event.source := by
      simpa using append_cancel_left begun
    refine ⟨_, if_pos ready, rfl, ?_⟩
    have now : (machine.engine.executable event.source).status =
        (machine.engine.executable event.source).work.readyStatus := of_decide_eq_true ready
    rw [work, own, now, Work.verdict_readyStatus]
    rfl
  · -- An entry of the wait is new, and only an executable that is not ready gets one.
    intro x filed listed about
    have old {y : ExecutableRef}
        (before : filed ∈ (machine.engine.executable y).subscriptions.listing) : False :=
      Nat.lt_irrefl _ (reachable.timely.listed y filed before _ about)
    rcases (reachable.fares_next (.beginWait turn alive) x).mem_listing listed about with
      before | ⟨_, begun⟩
    · exact (old before).elim
    · obtain rfl : e = x := by
        rw [show (machine.beginWait e).1.engine.record.waits = _ from waits] at begun
        simpa using append_cancel_left begun
      refine ⟨rfl, if_neg fun ready => ?_⟩
      rw [entries, if_pos ready] at listed
      exact old listed
  · rw [work, entries]
    intro waiting
    split at waiting
    · cases waiting
    · rename_i unready
      rw [if_neg unready]
      exact Executable.awaited_waitRequest sensible (reachable.grouped e) fun filed listed about =>
        Nat.lt_irrefl _ (reachable.timely.listed e filed listed _ about)

theorem Reachable.awaits_beginWait (alive : machine.isAlive e = true) :
    ∃ stage, (machine.beginWait e).1.Awaits e machine.engine.waits.length stage ∧
      ∀ gone, stage.Agrees (machine.engine.executable e).work
        [(machine.engine.executable e).status] gone gone := by
  have settles : (machine.engine.executable e).work.settles (machine.engine.executable e).status =
      ((machine.engine.executable e).isReady || (machine.engine.executable e).hasFailed) := rfl
  cases failed : (machine.engine.executable e).hasFailed with
  | true =>
    refine ⟨_, reachable.awaits_of_failed turn alive failed, fun gone => ?_⟩
    simp [Stage.Agrees, settles, failed]
  | false =>
    refine ⟨_, reachable.awaits_of_unfailed turn alive failed, fun gone => ?_⟩
    split
    · rename_i ready
      simp [Stage.Agrees, settles, ready]
    · rename_i unready
      simp [Stage.Agrees, settles, failed, unready]

end

end

theorem Sound.fate_beginWait (sound : machine.Sound) (alive : machine.isAlive e = true) :
    (machine.beginWait e).1.engine.record.moves = machine.engine.record.moves ∧
      (machine.beginWait e).1.engine.record.destroyed = machine.engine.record.destroyed := by
  cases failed : (machine.engine.executable e).hasFailed with
  | true =>
    rw [machine.record_beginWait_of_failed failed]
    exact ⟨rfl, rfl⟩
  | false =>
    rw [machine.record_beginWait (sound.lt_of_isAlive alive) failed]
    exact ⟨rfl, rfl⟩

/-- Every state of a run finds a wait at a stage that agrees with what has become of the executable
since the wait began. -/
theorem Reachable.awaits_reaches (reachable : machine.Reachable)
    (turn : machine.clientTurn = true) (alive : machine.isAlive e = true)
    (run : (machine.beginWait e).1.Reaches final) :
    ∃ stage since, final.Awaits e machine.engine.waits.length stage ∧
      movesOf e final.engine.journal.toList = movesOf e machine.engine.journal.toList ++ since ∧
      stage.Agrees (machine.engine.executable e).work
        ((machine.engine.executable e).status :: since.map Event.status)
        (machine.engine.executable e).destroyed (final.engine.executable e).destroyed := by
  -- The induction is on the run; the stage and the transitions since go along with it.
  have first : Next machine (machine.beginWait e).1 := .beginWait turn alive
  have built := reachable.sound.lt_of_isAlive alive
  suffices kept : ∃ stage since, final.Awaits e machine.engine.waits.length stage ∧
      movesOf e final.engine.record.moves = movesOf e machine.engine.record.moves ++ since ∧
      stage.Agrees (machine.engine.executable e).work
        ((machine.engine.executable e).status :: since.map Event.status)
        (machine.engine.executable e).destroyed (final.engine.executable e).destroyed by
    simpa only [movesOf_record] using kept
  induction run with
  | refl =>
    obtain ⟨stage, awaits, agrees⟩ := reachable.awaits_beginWait turn alive
    obtain ⟨moves, destroyed⟩ := reachable.sound.fate_beginWait alive
    refine ⟨stage, [], awaits, by rw [moves, append_nil], ?_⟩
    rw [show ((machine.beginWait e).1.engine.executable e).destroyed = _ from
      congrFun destroyed e]
    exact agrees _
  | @step state next run step ih =>
    obtain ⟨stage, since, awaits, moved, agrees⟩ := ih
    have early : machine.Reaches state := Reaches.trans (.step .refl first) run
    have reached : state.Reachable := Reaches.trans reachable early
    have work := (reachable.sound.later_reaches early).grown.work e built
    obtain ⟨after, news, later, told, onward⟩ := awaits.proceeds reached step
    rw [work] at onward
    refine ⟨after, since ++ news, later, by rw [told, moved, append_assoc], ?_⟩
    rw [map_append, ← cons_append]
    exact onward _ _ agrees

end Machine

end Readiness
