import Readiness.Proofs.Delivery.Mail
import Readiness.Proofs.History.Life
import Readiness.Proofs.Machine.Carried
import Readiness.Proofs.Machine.Enters
import Readiness.Proofs.Machine.Mortality

/-! Journals with the time of each entry, and the lives that they tell of.

Every run has such a journal. Each step enters at most one moment of one life there, so what is on
file about an executable is what its life makes of it.
-/

namespace Readiness

open List Function

/-- The moment in the life of an executable that an entry tells of; an execution begins as the
observer is told. -/
def Moment.of? (e : ExecutableRef) : Nat × Occurrence → Option Moment
  | (time, .transitioned source old new) => if source = e then some (.moved time old new) else none
  | (time, .observed _ (.executed source _)) => if source = e then some (.began time) else none
  | _ => none

/-- The life of an executable that a journal tells of. -/
def lifeOf (e : ExecutableRef) (entries : List (Nat × Occurrence)) : List Moment :=
  entries.filterMap (Moment.of? e)

theorem lifeOf_append (e : ExecutableRef) (entries news : List (Nat × Occurrence)) :
    lifeOf e (entries ++ news) = lifeOf e entries ++ lifeOf e news :=
  filterMap_append

/-- What is not about a life tells of none. -/
theorem lifeOf_minor {news : List Occurrence}
    (minor : ∀ occurrence ∈ news, occurrence.isVital = false) (e : ExecutableRef) (time : Nat) :
    lifeOf e (news.map (time, ·)) = [] := by
  simp only [lifeOf, filterMap_map, filterMap_eq_nil_iff]
  intro occurrence member
  have plain := minor occurrence member
  -- Only vital entries tell of a life.
  cases occurrence with
  | transitioned => cases plain
  | observed _ notice =>
    cases notice with
    | executed => cases plain
    | transitioned | listenerFailed | destroyed => rfl
  | _ => rfl

theorem lifeOf_executed (e source : ExecutableRef) (time : Nat) (h : HostRef) (status : Status) :
    lifeOf e ([.observed h (.executed source status)].map (time, ·)) =
      if source = e then [.began time] else [] := by
  by_cases same : source = e <;> simp [lifeOf, Moment.of?, same]

theorem lifeOf_transitioned (e source : ExecutableRef) (time : Nat) (h : HostRef)
    (old new : Status) :
    lifeOf e ([.transitioned source old new, .observed h (.transitioned source old new)].map
      (time, ·)) = if source = e then [.moved time old new] else [] := by
  by_cases same : source = e <;> simp [lifeOf, Moment.of?, same]

/-- The transitions of a life are those in the journal. -/
theorem eventsOf_lifeOf (e : ExecutableRef) (entries : List (Nat × Occurrence)) :
    eventsOf e (lifeOf e entries) = movesOf e (entries.map Prod.snd) := by
  simp only [eventsOf, lifeOf, movesOf, filterMap_filterMap, filterMap_map]
  congr 1
  funext entry
  obtain ⟨time, occurrence⟩ := entry
  -- An entry is a transition of the executable for both, or for neither.
  cases occurrence with
  | transitioned source old new =>
    by_cases same : source = e <;> simp [Moment.of?, Occurrence.move?, Moment.event?, same]
  | observed _ notice =>
    cases notice with
    | executed source status =>
      by_cases same : source = e <;> simp [Moment.of?, Occurrence.move?, Moment.event?, same]
    | transitioned | listenerFailed | destroyed => rfl
  | _ => rfl

/-- No moment of a life is later than all entries. -/
theorem time_le_of_mem_lifeOf {e : ExecutableRef} {entries : List (Nat × Occurrence)} {time : Nat}
    (early : ∀ entry ∈ entries, entry.1 ≤ time) :
    ∀ moment ∈ lifeOf e entries, moment.time ≤ time := by
  intro moment member
  obtain ⟨⟨date, occurrence⟩, entered, tells⟩ := mem_filterMap.mp member
  -- A moment has the date of the entry that tells of it.
  have dated : moment.time = date := by
    unfold Moment.of? at tells
    split at tells
    · split at tells <;> cases tells
      simp_all [Moment.time]
    · split at tells <;> cases tells
      simp_all [Moment.time]
    · cases tells
  exact dated ▸ early _ entered

namespace Annals

/-- What is on file about executables is what the lives told of make of them. -/
structure Recounts (annals : Annals) (entries : List (Nat × Occurrence)) : Prop where
  lived : ∀ e < annals.size,
    Executable.Lived (annals.office (annals.file e).host).settings.timed (lifeOf e entries)
      (annals.file e)
  unborn : ∀ e, annals.size ≤ e → lifeOf e entries = []

end Annals

namespace Machine

variable {machine next : Machine} {entries : List (Nat × Occurrence)} {e : ExecutableRef}
  {after : Annals} {news : List Occurrence}

/-- A step adds to the life of an executable what it enters about it. -/
theorem Enters.lived (enters : machine.Enters after)
    (grown : after.journal = machine.engine.annals.journal ++ news)
    (built : e < machine.engine.annals.size) {timed : Bool} (same :
      (machine.engine.annals.office (machine.engine.annals.file e).host).settings.timed = timed)
    {life : List Moment} (late : ∀ moment ∈ life, moment.time ≤ machine.engine.clock)
    (lived : Executable.Lived timed life (machine.engine.annals.file e)) :
    Executable.Lived timed (life ++ lifeOf e (news.map (machine.engine.clock, ·)))
      (after.file e) := by
  have older : e ≠ machine.engine.annals.size := Nat.ne_of_lt built
  -- Only an execution and a transition add a moment, to the life of whoever they are about.
  cases enters with
  | note noted =>
    obtain ⟨entered, minor, rfl⟩ := noted
    obtain rfl := append_cancel_left grown
    rwa [lifeOf_minor minor, append_nil]
  | advance | openHost =>
    obtain rfl := self_eq_append_right.mp grown
    exact (append_nil life).symm ▸ lived
  | temporary opened lawful =>
    obtain rfl := self_eq_append_right.mp grown
    simp only [update_of_ne older]
    exact (append_nil life).symm ▸ lived
  | register opened lawful vacant =>
    obtain rfl := append_cancel_left grown
    simp only [update_of_ne older]
    exact (append_nil life).symm ▸ lived
  | @execute source refresh asked runs =>
    obtain rfl := append_cancel_left grown
    rw [lifeOf_executed]
    by_cases own : source = e
    · subst own
      simp only [if_true, update_self]
      exact lived.begin late
    · simp only [if_neg own, append_nil, update_of_ne (Ne.symm own)]
      exact lived
  | @move source status asked moves =>
    obtain rfl := append_cancel_left grown
    rw [lifeOf_transitioned]
    by_cases own : source = e
    · subst own
      -- The host of the executable says whether the transition is dated.
      have dating : machine.engine.dating source =
          if timed then some machine.engine.clock else none := by
        rw [← same]
        rfl
      simp only [if_true, update_self, dating]
      exact lived.move late moves
    · simp only [if_neg own, append_nil, update_of_ne (Ne.symm own)]
      exact lived
  | @destroy source after asked there noted =>
    obtain ⟨entered, minor, rfl⟩ := noted
    obtain rfl := append_cancel_left grown
    rw [lifeOf_minor minor, append_nil]
    by_cases own : e = source
    · subst own
      simp only [update_self]
      exact lived.destroy
    · simpa only [update_of_ne own] using lived

/-- A step enters nothing about an executable that is not built yet, and if it builds it, it is
fresh afterwards. -/
theorem Enters.unborn (enters : machine.Enters after) (sound : machine.Sound)
    (grown : after.journal = machine.engine.annals.journal ++ news)
    (beyond : machine.engine.annals.size ≤ e) :
    lifeOf e (news.map (machine.engine.clock, ·)) = [] ∧
      (e < after.size → ∀ timed, Executable.Lived timed [] (after.file e)) := by
  -- Whoever the turn is about has been built.
  have apart {source : ExecutableRef} {command : Command}
      (asked : machine.control = .perform command) (about : source ∈ command.executables) :
      source ≠ e :=
    Nat.ne_of_lt (Nat.lt_of_lt_of_le (sound.lt_of_isAlive (isAlive_of_perform asked about)) beyond)
  cases enters with
  | note noted =>
    obtain ⟨entered, minor, rfl⟩ := noted
    obtain rfl := append_cancel_left grown
    exact ⟨lifeOf_minor minor e _, fun built => absurd built (Nat.not_lt.mpr beyond)⟩
  | advance | openHost =>
    obtain rfl := self_eq_append_right.mp grown
    exact ⟨rfl, fun built => absurd built (Nat.not_lt.mpr beyond)⟩
  | temporary opened lawful =>
    obtain rfl := self_eq_append_right.mp grown
    refine ⟨rfl, fun built timed => ?_⟩
    -- The first one that was not built is the one that is built now.
    obtain rfl : e = machine.engine.annals.size := Nat.le_antisymm (Nat.le_of_lt_succ built) beyond
    simp only [update_self]
    exact .fresh _ _ _ _
  | register opened lawful vacant =>
    obtain rfl := append_cancel_left grown
    refine ⟨rfl, fun built timed => ?_⟩
    obtain rfl : e = machine.engine.annals.size := Nat.le_antisymm (Nat.le_of_lt_succ built) beyond
    simp only [update_self]
    exact .fresh _ _ _ _
  | execute asked runs =>
    obtain rfl := append_cancel_left grown
    rw [lifeOf_executed, if_neg (apart asked (mem_singleton.mpr rfl))]
    exact ⟨rfl, fun built => absurd built (Nat.not_lt.mpr beyond)⟩
  | move asked moves =>
    obtain rfl := append_cancel_left grown
    rw [lifeOf_transitioned, if_neg (apart asked (mem_singleton.mpr rfl))]
    exact ⟨rfl, fun built => absurd built (Nat.not_lt.mpr beyond)⟩
  | destroy asked there noted =>
    obtain ⟨entered, minor, rfl⟩ := noted
    obtain rfl := append_cancel_left grown
    exact ⟨lifeOf_minor minor e _, fun built => absurd built (Nat.not_lt.mpr beyond)⟩

/-- A run and its journal, with the reading of the clock at each entry. -/
inductive Dated : Machine → List (Nat × Occurrence) → Prop where
  /-- A run starts with an empty journal. -/
  | start : Dated {} []
  /-- What a step enters is dated when the step is made. -/
  | step {machine next : Machine} {entries : List (Nat × Occurrence)}
    (dated : Dated machine entries) (step : Next machine next) {news : List Occurrence}
    (grown : next.engine.journal.toList = machine.engine.journal.toList ++ news) :
    Dated next (entries ++ news.map (machine.engine.clock, ·))

theorem Reachable.dated (reachable : machine.Reachable) : ∃ entries, machine.Dated entries := by
  induction reachable with
  | refl => exact ⟨[], .start⟩
  | step run step ih =>
    obtain ⟨entries, dated⟩ := ih
    obtain ⟨news, grown⟩ := ((Reachable.sound run).enters_next step).journal_grows
    exact ⟨_, dated.step step grown⟩

/-- The state that a list of moves leads to, if they can be made while time stands still. -/
def meanwhile (machine : Machine) (moves : List Move) : Machine :=
  machine.after moves (decide <| ·.engine.clock = machine.engine.clock)

namespace Dated

variable (dated : machine.Dated entries)
include dated

theorem reachable : machine.Reachable := by
  induction dated with
  | start => exact .refl
  | step _ step _ ih => exact .step ih step

theorem map_snd : entries.map Prod.snd = machine.engine.journal.toList := by
  induction dated with
  | start => rfl
  | step _ _ grown ih => simp [ih, grown, comp_def]

theorem events_eq (e : ExecutableRef) :
    eventsOf e (lifeOf e entries) = movesOf e machine.engine.journal.toList := by
  rw [eventsOf_lifeOf, dated.map_snd]

/-- No entry is dated later than now. -/
theorem le_clock : ∀ entry ∈ entries, entry.1 ≤ machine.engine.clock := by
  induction dated with
  | start => exact fun _ member => absurd member not_mem_nil
  | @step machine next entries dated step news grown ih =>
    have later := (dated.reachable.sound.enters_next step).clock_le
    intro entry member
    rcases mem_append.mp member with old | new
    · exact Nat.le_trans (ih entry old) later
    · -- What the step has entered is dated when it began.
      obtain ⟨occurrence, _, rfl⟩ := mem_map.mp new
      exact later

theorem advance (turn : machine.clientTurn = true) (elapsed : Nat) :
    (machine.advance elapsed).Dated entries := by
  have later := dated.step (.advance turn elapsed) (append_nil _).symm
  rwa [map_nil, append_nil] at later

/-- While time stands still everything is entered with the same date. -/
theorem still {final : Machine} {time : Nat}
    (run : machine.ReachesWhile (fun state => state.engine.clock = time) final) :
    final.Dated (entries ++
      (final.engine.journal.toList.drop machine.engine.journal.toList.length).map (time, ·)) := by
  induction run with
  | refl =>
    rw [drop_length, map_nil, append_nil]
    exact dated
  | @step before after early step _ ih =>
    obtain ⟨news, grown⟩ := (ih.reachable.sound.enters_next step).journal_grows
    -- The journal of the start is the first part of every later one.
    have length : machine.engine.journal.toList.length ≤ before.engine.journal.toList.length := by
      have whole := ih.map_snd
      rw [map_append, dated.map_snd] at whole
      rw [← whole, length_append]
      exact Nat.le_add_right _ _
    have later := ih.step step grown
    rw [early.holds, append_assoc, ← map_append] at later
    rwa [show after.engine.journal.toList = _ from grown, drop_append_of_le_length length]

/-- What a list of moves leads to has a dated journal, if they can be made while time stands
still. -/
theorem meanwhile {moves : List Move} (possible :
      (machine.carryOut? (decide <| ·.engine.clock = machine.engine.clock) moves).isSome) :
    (machine.meanwhile moves).Dated (entries ++
      ((machine.meanwhile moves).engine.journal.toList.drop
        machine.engine.journal.toList.length).map (machine.engine.clock, ·)) := by
  refine dated.still ((reachesWhile_after (decide_eq_true rfl) possible).mono fun state holds => ?_)
  exact of_decide_eq_true holds

/-- In every state of every run, what is on file about executables is what their lives made of
them. -/
theorem recounts : machine.engine.annals.Recounts entries := by
  induction dated with
  | start => exact ⟨fun e built => absurd built (Nat.not_lt_zero e), fun _ _ => rfl⟩
  | @step machine next entries dated step news grown ih =>
    have sound := dated.reachable.sound
    have enters := sound.enters_next step
    refine ⟨fun e built => ?_, fun e beyond => ?_⟩
    · rw [lifeOf_append]
      rcases Nat.lt_or_ge e machine.engine.executables.length with old | beyond
      · -- An older executable lives on with the same host.
        have home : (next.engine.annals.file e).host = (machine.engine.annals.file e).host :=
          congrArg (·.2.1) (enters.registration_eq old)
        have settings : (next.engine.annals.office (machine.engine.annals.file e).host).settings =
            (machine.engine.annals.office (machine.engine.annals.file e).host).settings :=
          enters.settings_eq (sound.store.hosted e old)
        rw [home, settings]
        exact enters.lived grown old rfl (time_le_of_mem_lifeOf dated.le_clock) (ih.lived e old)
      · -- Whoever is built by the step starts with an empty life.
        obtain ⟨quiet, fresh⟩ := enters.unborn sound grown beyond
        rw [quiet, ih.unborn e beyond]
        exact fresh built _
    · have older : machine.engine.executables.length ≤ next.engine.executables.length :=
        (sound.later_next step).grown.executables
      rw [lifeOf_append, ih.unborn e (Nat.le_trans older beyond),
        (enters.unborn sound grown (Nat.le_trans older beyond)).1]
      rfl

end Dated

end Machine

end Readiness
