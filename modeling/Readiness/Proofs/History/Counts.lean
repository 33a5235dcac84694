import Mathlib.Algebra.BigOperators.Group.Finset.Basic
import Mathlib.Algebra.BigOperators.Group.Finset.Piecewise
import Readiness.Proofs.History.Dated

/-! What a host has counted of transitions, as a sum over the lives of its executables.

Only a transition changes those counts, and it adds to one life. So a count equals a sum over lives
as soon as one transition adds the same to both.
-/

namespace Readiness

open List

namespace Tally

/-- A change for one status shows there and nowhere else. -/
theorem lookup_updateStay (status other : Status) (change : Stay → Stay)
    (stays : List (Status × Stay)) :
    ((updateStay status change stays).lookup other).getD {} =
      if other = status then change ((stays.lookup status).getD {})
      else (stays.lookup other).getD {} := by
  induction stays with
  | nil =>
    by_cases same : other = status
    · simp [updateStay, same]
    · have distinct : (other == status) = false := beq_eq_false_iff_ne.mpr same
      simp [updateStay, lookup_cons, same, distinct]
  | cons head rest ih =>
    obtain ⟨key, stay⟩ := head
    unfold updateStay
    by_cases same : other = key
    · -- The first row is the one that is looked up, whether it changes or not.
      subst same
      by_cases here : other = status <;> simp [here]
    · have distinct : (other == key) = false := beq_eq_false_iff_ne.mpr same
      by_cases here : key = status
      · subst here
        simp [lookup_cons, same, distinct]
      · have apart : (status == key) = false := beq_eq_false_iff_ne.mpr (Ne.symm here)
        simpa [lookup_cons, here, distinct, apart] using ih

/-- A transition adds one to the row of the status it leads to, and the time to that of the status
it leaves. -/
theorem stay_countTransition (tally : Tally) (old new status : Status) (elapsed : Option Nat) :
    (tally.countTransition old new elapsed).stay status =
      { reached := (tally.stay status).reached + if status = new then 1 else 0
        total := (tally.stay status).total + if status = old then elapsed.getD 0 else 0 } := by
  cases elapsed with
  | none =>
    simp only [countTransition, stay, lookup_updateStay]
    by_cases same : status = new <;> simp [same]
  | some time =>
    simp only [countTransition, stay, lookup_updateStay]
    by_cases left : status = old <;> by_cases same : status = new <;> simp_all

end Tally

/-- Something counted in a tally, and what each life contributes to it. -/
structure Counted (count : Tally → Nat) (share : ExecutableRef → Bool → List Moment → Nat) :
    Prop where
  start : count {} = 0
  fresh : ∀ e timed, share e timed [] = 0
  began : ∀ e timed life time, share e timed (life ++ [.began time]) = share e timed life
  moved : ∀ e {timed life executable} (tally : Tally) (time : Nat) (status : Status),
    Executable.Lived timed life executable → executable.moves status = true →
    count (tally.countTransition executable.status status
        ((if timed then some time else none).bind fun now => executable.since.map (now - ·))) +
      share e timed life =
    count tally + share e timed (life ++ [.moved time executable.status status])

/-- Two sums that differ in one term differ by as much. -/
theorem sum_range_add_of_ne {bound place : Nat} {left right : Nat → Nat} (inside : place < bound)
    (others : ∀ n < bound, n ≠ place → left n = right n) :
    ∑ n ∈ Finset.range bound, left n + right place =
      ∑ n ∈ Finset.range bound, right n + left place := by
  have member : place ∈ Finset.range bound := Finset.mem_range.mpr inside
  have rest : ∑ n ∈ (Finset.range bound).erase place, left n =
      ∑ n ∈ (Finset.range bound).erase place, right n :=
    Finset.sum_congr rfl fun n among => others n
      (Finset.mem_range.mp (Finset.mem_of_mem_erase among)) (Finset.ne_of_mem_erase among)
  rw [← Finset.add_sum_erase _ left member, ← Finset.add_sum_erase _ right member, rest]
  omega

namespace Annals

/-- What an executable contributes to the count of a host. -/
def shareOf (share : ExecutableRef → Bool → List Moment → Nat) (annals : Annals) (h : HostRef)
    (entries : List (Nat × Occurrence)) (e : ExecutableRef) : Nat :=
  if (annals.file e).host = h then share e (annals.office h).settings.timed (lifeOf e entries)
  else 0

end Annals

namespace Machine

variable {machine : Machine} {entries : List (Nat × Occurrence)} {count : Tally → Nat}
  {share : ExecutableRef → Bool → List Moment → Nat} {after : Annals} {news : List Occurrence}

/-- A step changes what is counted of transitions only by a transition, which one life shows. -/
theorem Enters.quiet_or_moves (enters : machine.Enters after)
    (grown : after.journal = machine.engine.annals.journal ++ news) :
    ((∀ h, (after.office h).tally = (machine.engine.annals.office h).tally) ∧
      ∀ e, lifeOf e (news.map (machine.engine.clock, ·)) = [] ∨
        lifeOf e (news.map (machine.engine.clock, ·)) = [.began machine.engine.clock]) ∨
    ∃ source status, machine.control = .perform (.setStatus source status) ∧
      (machine.engine.executable source).moves status = true ∧
      after.office = Function.update machine.engine.annals.office
        (machine.engine.executable source).host
        ((machine.engine.annals.office (machine.engine.executable source).host).modifyTally
          (·.countTransition (machine.engine.executable source).status status
            (machine.engine.spent source))) ∧
      ∀ e, lifeOf e (news.map (machine.engine.clock, ·)) = if source = e then
        [.moved machine.engine.clock (machine.engine.executable source).status status] else [] := by
  -- The annals leave out what is counted of executions, so an execution is as quiet as a note.
  cases enters with
  | note noted =>
    obtain ⟨entered, minor, rfl⟩ := noted
    obtain rfl := append_cancel_left grown
    exact .inl ⟨fun _ => rfl, fun e => .inl (lifeOf_minor minor e _)⟩
  | advance elapsed =>
    obtain rfl := self_eq_append_right.mp grown
    exact .inl ⟨fun _ => rfl, fun e => .inl rfl⟩
  | openHost settings =>
    obtain rfl := self_eq_append_right.mp grown
    refine .inl ⟨view_update Host.tally ?_, fun e => .inl rfl⟩
    exact (congrArg Host.tally (Engine.office_of_ge (Nat.le_refl _))).symm
  | temporary opened lawful =>
    obtain rfl := self_eq_append_right.mp grown
    exact .inl ⟨view_update Host.tally rfl, fun e => .inl rfl⟩
  | register opened lawful vacant =>
    obtain rfl := append_cancel_left grown
    exact .inl ⟨view_update Host.tally rfl, fun e => .inl rfl⟩
  | @execute source refresh asked runs =>
    obtain rfl := append_cancel_left grown
    refine .inl ⟨fun _ => rfl, fun e => ?_⟩
    rw [lifeOf_executed]
    split
    · exact .inr rfl
    · exact .inl rfl
  | @move source status asked moves =>
    obtain rfl := append_cancel_left grown
    exact .inr ⟨source, status, asked, moves, rfl, fun e => lifeOf_transitioned e source _ _ _ _⟩
  | destroy asked there noted =>
    obtain ⟨entered, minor, rfl⟩ := noted
    obtain rfl := append_cancel_left grown
    refine .inl ⟨view_update Host.tally ?_, fun e => .inl (lifeOf_minor minor e _)⟩
    split <;> rfl

/-- After a step an executable contributes what its life is worth with what the step adds to it. -/
theorem Enters.shareOf_eq (enters : machine.Enters after) (sound : machine.Sound)
    {e : ExecutableRef} (built : e < machine.engine.annals.size) (h : HostRef)
    (told : List (Nat × Occurrence)) :
    after.shareOf share h (entries ++ told) e = if (machine.engine.annals.file e).host = h then
      share e (machine.engine.annals.office h).settings.timed (lifeOf e entries ++ lifeOf e told)
    else 0 := by
  have home : (after.file e).host = (machine.engine.annals.file e).host :=
    congrArg (·.2.1) (enters.registration_eq built)
  unfold Annals.shareOf
  rw [home, lifeOf_append]
  split
  · -- The host of an executable is open, so its settings stay.
    rename_i own
    have opened : h < machine.engine.hosts.length := own ▸ sound.store.hosted e built
    rw [enters.settings_eq opened]
  · rfl

/-- A step keeps what a host has counted equal to what its executables contribute. -/
theorem Enters.counted (counted : Counted count share) (enters : machine.Enters after)
    (sound : machine.Sound) (grown : after.journal = machine.engine.annals.journal ++ news)
    (recounts : machine.engine.annals.Recounts entries) {h : HostRef}
    (before : count (machine.engine.annals.office h).tally =
      ∑ e ∈ Finset.range machine.engine.annals.size,
        machine.engine.annals.shareOf share h entries e) :
    count (after.office h).tally = ∑ e ∈ Finset.range machine.engine.annals.size,
      after.shareOf share h (entries ++ news.map (machine.engine.clock, ·)) e := by
  rcases enters.quiet_or_moves grown with ⟨tallies, quiet⟩ |
    ⟨source, status, asked, moves, office, told⟩
  · rw [tallies, before]
    refine Finset.sum_congr rfl fun e member => ?_
    rw [enters.shareOf_eq sound (Finset.mem_range.mp member)]
    rcases quiet e with same | began
    · rw [same, append_nil]
      rfl
    · rw [began, counted.began]
      rfl
  · have built : source < machine.engine.annals.size :=
      sound.lt_of_isAlive (isAlive_of_perform asked (mem_singleton.mpr rfl))
    -- Nobody else contributes more than before.
    have others (e : Nat) (inside : e < machine.engine.annals.size) (apart : e ≠ source) :
        after.shareOf share h (entries ++ news.map (machine.engine.clock, ·)) e =
          machine.engine.annals.shareOf share h entries e := by
      rw [enters.shareOf_eq sound inside, told, if_neg (Ne.symm apart), append_nil]
      rfl
    have sums := sum_range_add_of_ne built others
    -- Whoever moves contributes as much more as its host counts.
    have gain : count (after.office h).tally +
          machine.engine.annals.shareOf share h entries source =
        count (machine.engine.annals.office h).tally +
          after.shareOf share h (entries ++ news.map (machine.engine.clock, ·)) source := by
      rw [enters.shareOf_eq sound built, told, if_pos rfl, office]
      unfold Annals.shareOf
      by_cases own : (machine.engine.annals.file source).host = h
      · subst own
        have same : (machine.engine.annals.file source).host =
          (machine.engine.executable source).host := rfl
        rw [if_pos rfl, if_pos rfl, same, Function.update_self]
        have counts := counted.moved source
          (machine.engine.annals.office (machine.engine.executable source).host).tally
          machine.engine.clock status (recounts.lived source built) moves
        exact counts
      · have elsewhere : h ≠ (machine.engine.executable source).host := Ne.symm own
        rw [if_neg own, if_neg own, Function.update_of_ne elsewhere]
    omega

/-- The executables that were built with a host. -/
def executablesOf (machine : Machine) (h : HostRef) : Finset ExecutableRef :=
  (Finset.range machine.engine.executables.length).filter fun e =>
    (machine.engine.executable e).host = h

/-- What a host has counted is the sum of what all executables contribute to it. -/
theorem Dated.counted (counted : Counted count share) (dated : machine.Dated entries)
    (h : HostRef) :
    count (machine.engine.annals.office h).tally =
      ∑ e ∈ Finset.range machine.engine.annals.size,
        machine.engine.annals.shareOf share h entries e := by
  induction dated with
  | start => exact counted.start
  | @step machine next entries dated step news grown ih =>
    have sound := dated.reachable.sound
    have enters := sound.enters_next step
    have older : machine.engine.annals.size ≤ next.engine.annals.size :=
      (sound.later_next step).grown.executables
    rw [enters.counted counted sound grown dated.recounts ih]
    -- Whoever is not built before the step contributes nothing after it.
    refine Finset.sum_subset (Finset.range_subset_range.mpr older) fun e _ new => ?_
    have beyond : machine.engine.annals.size ≤ e := by simpa using new
    have quiet := (enters.unborn sound grown beyond).1
    simp [Annals.shareOf, lifeOf_append, quiet, dated.recounts.unborn e beyond, counted.fresh]

theorem Dated.count_eq_sum (counted : Counted count share) (dated : machine.Dated entries)
    (h : HostRef) :
    count (machine.engine.annals.office h).tally = ∑ e ∈ machine.executablesOf h,
      share e (machine.engine.host h).settings.timed (lifeOf e entries) :=
  (dated.counted counted h).trans (Finset.sum_filter ..).symm

end Machine

end Readiness
