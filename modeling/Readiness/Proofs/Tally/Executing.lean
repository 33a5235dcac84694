import Readiness.Proofs.Machine.Carried
import Readiness.Proofs.Machine.Writes

/-! Who counts as executing after destruction.

Destruction takes the id of an executable off those that count as executing. A transition that the
executable makes afterwards counts like any other, so the id can come back.
-/

namespace Readiness

open List

/-- A course of statuses has come to one other than initialized, and not to the ready one since. -/
def Unfinished (goal : Status) (course : List Status) : Prop :=
  ∃ early last late, course = early ++ last :: late ∧ last ≠ goal ∧ last ≠ .initialized ∧
    goal ∉ late

theorem not_unfinished_nil (goal : Status) : ¬ Unfinished goal [] := by
  rintro ⟨early, last, late, same, _⟩
  simp at same

/-- The last status decides whether a course is unfinished, unless it is initialized. -/
theorem unfinished_append_singleton (goal : Status) (course : List Status) (status : Status) :
    Unfinished goal (course ++ [status]) ↔
      status ≠ goal ∧ (status = .initialized → Unfinished goal course) := by
  constructor
  · rintro ⟨early, last, late, same, other, begun, quiet⟩
    -- The last status either is the one that the course has come to, or follows it.
    rcases eq_nil_or_concat late with rfl | ⟨rest, final, rfl⟩
    · obtain ⟨-, rfl⟩ := append_singleton_inj.mp same
      exact ⟨other, fun initial => absurd initial begun⟩
    · rw [concat_eq_append, ← cons_append, ← append_assoc] at same
      obtain ⟨rfl, rfl⟩ := append_singleton_inj.mp same
      simp only [concat_eq_append, mem_append, mem_singleton, not_or] at quiet
      exact ⟨Ne.symm quiet.2, fun _ => ⟨early, last, rest, rfl, other, begun, quiet.1⟩⟩
  · rintro ⟨other, before⟩
    by_cases initial : status = .initialized
    · obtain ⟨early, last, late, rfl, last_other, begun, quiet⟩ := before initial
      refine ⟨early, last, late ++ [status], by simp, last_other, begun, ?_⟩
      simp only [mem_append, mem_singleton, not_or]
      exact ⟨quiet, Ne.symm other⟩
    · exact ⟨course, status, [], rfl, other, initial, not_mem_nil⟩

namespace Executable

variable {executable : Executable} {status : Status} {executing : List String}

theorem id_mem_mark : executable.id ∈ executable.mark status executing ↔
    status ≠ executable.readyStatus ∧ (status = .initialized → executable.id ∈ executing) := by
  unfold mark
  split
  · simp [*]
  · rename_i unready
    split
    · rename_i initial
      exact ⟨fun listed => ⟨unready, fun _ => listed⟩, fun counted => counted.2 initial⟩
    · simp [*]

theorem mem_mark_of_ne {id : String} (other : id ≠ executable.id) :
    id ∈ executable.mark status executing ↔ id ∈ executing := by
  unfold mark
  split
  · simp [other]
  · split
    · rfl
    · simp [other]

end Executable

namespace Machine

variable {machine next final : Machine} {e : ExecutableRef}

/-- No other living executable of the same host has the same id. -/
def SoleBearer (machine : Machine) (e : ExecutableRef) : Prop :=
  ∀ other < machine.engine.executables.length, other ≠ e → machine.isAlive other = true →
    (machine.engine.executable other).host = (machine.engine.executable e).host →
      (machine.engine.executable other).id ≠ (machine.engine.executable e).id

/-- Whether an id has one bearer can be checked. -/
instance (machine : Machine) (e : ExecutableRef) : Decidable (machine.SoleBearer e) :=
  inferInstanceAs (Decidable (∀ other < machine.engine.executables.length, other ≠ e →
    machine.isAlive other = true →
      (machine.engine.executable other).host = (machine.engine.executable e).host →
        (machine.engine.executable other).id ≠ (machine.engine.executable e).id))

/-- Whether the id of an executable counts as executing with its host. -/
def CountsExecuting (machine : Machine) (e : ExecutableRef) : Prop :=
  (machine.engine.executable e).id ∈
    (machine.engine.host (machine.engine.executable e).host).tally.executing

/-- Whether an id counts as executing can be checked. -/
instance (machine : Machine) (e : ExecutableRef) : Decidable (machine.CountsExecuting e) :=
  inferInstanceAs (Decidable (_ ∈ _))

/-- After destruction a step either moves the executable, which then counts as executing or not by
the status that it moves to, or leaves all that as it is. -/
theorem Reachable.counts_next (reachable : machine.Reachable) (step : Next machine next)
    (built : e < machine.engine.executables.length)
    (gone : (machine.engine.executable e).destroyed = true) (sole : machine.SoleBearer e) :
    (movesOf e next.engine.record.moves = movesOf e machine.engine.record.moves ∧
      (next.CountsExecuting e ↔ machine.CountsExecuting e)) ∨
    ∃ status, movesOf e next.engine.record.moves = movesOf e machine.engine.record.moves ++
        [⟨e, status, (machine.engine.executable e).status⟩] ∧
      (next.CountsExecuting e ↔ status ≠ (machine.engine.executable e).readyStatus ∧
        (status = .initialized → machine.CountsExecuting e)) := by
  have writes := reachable.writes_next step
  have home := (reachable.sound.later_next step).grown.home e built
  -- Neither the id nor the host of the executable changes.
  have counts : next.CountsExecuting e ↔ (machine.engine.executable e).id ∈
      next.engine.record.executing (machine.engine.executable e).host := by
    show next.engine.record.id e ∈ next.engine.record.executing _ ↔ _
    rw [writes.id_eq built, home]
    rfl
  -- Whoever else moves or is destroyed is alive, so that it has another host or another id.
  have apart {other : ExecutableRef} {command : Command} {change : List String → List String}
      (asked : machine.control = .perform command) (about : command.executables = [other])
      (distinct : other ≠ e)
      (plain : ∀ id executing, id ≠ (machine.engine.executable other).id →
        (id ∈ change executing ↔ id ∈ executing)) :
      (machine.engine.executable e).id ∈ Function.update machine.engine.record.executing
          (machine.engine.executable other).host
          (change (machine.engine.record.executing (machine.engine.executable other).host))
          (machine.engine.executable e).host ↔ machine.CountsExecuting e := by
    have alive : machine.isAlive other = true := isAlive_of_perform asked (by simp [about])
    by_cases together : (machine.engine.executable other).host = (machine.engine.executable e).host
    · have named := sole other (reachable.sound.lt_of_isAlive alive) distinct alive together
      rw [together, Function.update_self]
      exact plain _ _ (Ne.symm named)
    · rw [Function.update_of_ne (Ne.symm together)]
      rfl
  rw [counts]
  generalize next.engine.record = after at writes
  cases writes with
  | pass | build | remove | settle | waitOver | wait => exact .inl ⟨rfl, Iff.rfl⟩
  | enlist more =>
    obtain ⟨_, _, _, rfl⟩ := more
    exact .inl ⟨rfl, Iff.rfl⟩
  | @move other status asked moves =>
    by_cases same : other = e
    · subst same
      refine .inr ⟨status, by simp [movesOf, Occurrence.move?, Engine.record], ?_⟩
      show _ ∈ Function.update machine.engine.record.executing _ _ _ ↔ _
      rw [Function.update_self]
      exact Executable.id_mem_mark
    · refine .inl ⟨?_, apart asked rfl same fun _ _ => Executable.mem_mark_of_ne⟩
      simp [movesOf, Occurrence.move?, same]
  | @destroy other asked there =>
    -- Nobody is destroyed twice.
    have distinct : other ≠ e := by
      rintro rfl
      rw [there] at gone
      cases gone
    refine .inl ⟨rfl, apart asked rfl distinct fun id executing differs => ?_⟩
    simp [differs]

/-- Destruction takes the id off those that count as executing, and moves nothing. -/
theorem Sound.destroy_step (sound : machine.Sound)
    (turn : machine.control = .perform (.destroy e))
    (there : (machine.engine.executable e).destroyed = false) :
    (machine.step.engine.executable e).destroyed = true ∧ ¬ machine.step.CountsExecuting e ∧
      movesOf e machine.step.engine.record.moves = movesOf e machine.engine.record.moves := by
  have fits := sound.control
  rw [turn] at fits
  have built := fits.1.executables e (mem_singleton_self e)
  have home : (machine.step.engine.executable e).host = (machine.engine.executable e).host :=
    (sound.later_next (.engine (by simp [clientTurn, turn]))).grown.home e built
  -- The observer is told afterwards, which does not show.
  have struck : machine.step.engine.record = (machine.engine.destroy e).record := by
    simp only [step, turn, start, there, Bool.false_eq_true, if_false]
    rw [engine_notify, Engine.record_note _ rfl]
    rfl
  rw [Engine.record_destroy _ built (sound.store.hosted e built)] at struck
  refine ⟨?_, ?_, ?_⟩
  · show machine.step.engine.record.destroyed e = true
    rw [struck]
    exact Function.update_self ..
  · show machine.step.engine.record.id e ∉ machine.step.engine.record.executing _
    rw [struck, home]
    simp [Engine.record]
  · rw [struck]

/-- After its destruction an executable counts as executing exactly if it has moved since to a
status other than initialized and ready, and not to the ready one after that, as long as nobody else
alive has its id. -/
theorem destroyed_executing_iff_unfinished (reachable : machine.Reachable)
    (turn : machine.control = .perform (.destroy e))
    (there : (machine.engine.executable e).destroyed = false)
    (run : machine.step.ReachesWhile (·.SoleBearer e) final) :
    ∃ since, movesOf e final.engine.journal.toList =
        movesOf e machine.engine.journal.toList ++ since ∧
      (final.CountsExecuting e ↔
        Unfinished (machine.engine.executable e).readyStatus (since.map Event.status)) := by
  have first : Next machine machine.step := .engine (by simp [clientTurn, turn])
  have fits := reachable.sound.control
  rw [turn] at fits
  have built := fits.1.executables e (mem_singleton_self e)
  obtain ⟨gone, out, unmoved⟩ := reachable.sound.destroy_step turn there
  -- The induction is on the run, and that the executable stays destroyed goes along with it.
  suffices kept : (final.engine.executable e).destroyed = true ∧
      ∃ since, movesOf e final.engine.record.moves =
          movesOf e machine.engine.record.moves ++ since ∧
        (final.CountsExecuting e ↔
          Unfinished (machine.engine.executable e).readyStatus (since.map Event.status)) by
    obtain ⟨since, moved, counts⟩ := kept.2
    rw [movesOf_record, movesOf_record] at moved
    exact ⟨since, moved, counts⟩
  induction run with
  | refl =>
    refine ⟨gone, [], by rw [unmoved, append_nil], ?_⟩
    exact iff_of_false out (not_unfinished_nil _)
  | @step state next run step _ ih =>
    obtain ⟨state_gone, since, moved, counts⟩ := ih
    have early : machine.Reaches state := Reaches.trans (.step .refl first) run.reaches
    have reached : state.Reachable := Reaches.trans reachable early
    have grown := (reachable.sound.later_reaches early).grown
    have state_built := Nat.lt_of_lt_of_le built grown.executables
    have goal : (state.engine.executable e).readyStatus =
        (machine.engine.executable e).readyStatus := by
      rw [Executable.readyStatus, grown.work e built]
      rfl
    refine ⟨(reached.writes_next step).destroyed_mono state_gone, ?_⟩
    rcases reached.counts_next step state_built state_gone run.holds with
      ⟨still, same⟩ | ⟨status, news, same⟩
    · exact ⟨since, still.trans moved, same.trans counts⟩
    · refine ⟨since ++ [⟨e, status, _⟩], by rw [news, moved, append_assoc], ?_⟩
      rw [map_append, map_singleton, unfinished_append_singleton, same, goal, counts]

/-- An executable that is destroyed while another one goes on counts as executing once it moves on
from ready and is initialized again. -/
theorem destroyed_executing_iff_unfinished_again : ∃ machine final : Machine,
    machine.Reachable ∧ machine.control = .perform (.destroy 0) ∧
    machine.step.ReachesWhile (·.SoleBearer 0) final ∧ machine.CountsExecuting 0 ∧
    ¬ machine.step.CountsExecuting 0 ∧ final.CountsExecuting 1 ∧
    movesOf 0 final.engine.journal.toList = movesOf 0 machine.engine.journal.toList ++
      [⟨0, .ready, .processing⟩, ⟨0, .waiting, .ready⟩, ⟨0, .initialized, .waiting⟩] ∧
    final.CountsExecuting 0 := by
  let machine := (({} : Machine).after [.openHost {} .silent, .build 0 (.manual true),
    .build 0 (.manual true), .call (.setStatus 1 .processing),
    .call (.setStatus 0 .processing)]).call (.destroy 0)
  let condition : Machine → Bool := fun state => decide (state.SoleBearer 0)
  let final := (machine.step.halt (·.clientTurn) condition).after
    [.call (.setStatus 0 .ready), .call (.setStatus 0 .waiting), .call (.setStatus 0 .initialized)]
    condition
  have reachable : machine.Reachable :=
    .step (reaches_after _ _) (.call (by decide) (by decide))
  have run : machine.step.ReachesWhile (·.SoleBearer 0) final :=
    ((reachesWhile_halt (by decide) (by decide)).trans
      (reachesWhile_after (by decide) (by decide))).mono fun _ holds => of_decide_eq_true holds
  have moved : movesOf 0 final.engine.journal.toList = movesOf 0 machine.engine.journal.toList ++
      [⟨0, .ready, .processing⟩, ⟨0, .waiting, .ready⟩, ⟨0, .initialized, .waiting⟩] := by decide
  obtain ⟨since, told, counts⟩ :=
    destroyed_executing_iff_unfinished reachable (e := 0) rfl (by decide) run
  obtain rfl := append_cancel_left (told.symm.trans moved)
  refine ⟨machine, final, reachable, rfl, run, by decide, by decide, by decide, moved, ?_⟩
  exact counts.mpr ⟨[.ready], .waiting, [.initialized], rfl, by decide, by decide, by decide⟩

/-- A transition made after destruction brings the id back, although nobody else has it. -/
theorem destroyed_counts_executing_again : ∃ machine final : Machine,
    machine.Reachable ∧ machine.stack = [] ∧ (machine.engine.executable 0).destroyed = true ∧
    ¬ machine.CountsExecuting 0 ∧ machine.ReachesWhile (·.SoleBearer 0) final ∧
    final.CountsExecuting 0 := by
  let machine := ({} : Machine).after [.openHost {} .silent, .build 0 (.manual false),
    .call (.setStatus 0 .processing), .call (.destroy 0)]
  let condition : Machine → Bool := fun state => decide (state.SoleBearer 0)
  let final := machine.after [.call (.setStatus 0 .waiting)] condition
  have run : machine.ReachesWhile (·.SoleBearer 0) final :=
    (reachesWhile_after (by decide) (by decide)).mono fun _ holds => of_decide_eq_true holds
  exact ⟨machine, final, reaches_after _ _, by decide, by decide, by decide, run, by decide⟩

end Machine

end Readiness
