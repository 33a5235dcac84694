import Readiness.Proofs.History.Counts

/-! The time spent in a status: what a host has counted, and the stays of its executables there.

A stay begins with one transition and ends with the next. What is counted of it begins anew with
every execution in between, as an execution forgets since when the status has been held.
-/

namespace Readiness

/-- A stay in a status: since when, and which executions have begun meanwhile. -/
structure Visit where
  /-- The status. -/
  status : Status
  /-- When it was reached. -/
  entered : Nat
  /-- When executions began during the stay, in order. -/
  renewals : List Nat := []
  deriving DecidableEq

/-- When the last execution of the stay began, or else when the status was reached. -/
def Visit.since (visit : Visit) : Nat :=
  visit.renewals.getLast?.getD visit.entered

/-- A stay that has ended. -/
structure Sojourn extends Visit where
  /-- When the status was left. -/
  left : Nat
  deriving DecidableEq

namespace Sojourn

/-- The time between reaching the status and leaving it. -/
def length (sojourn : Sojourn) : Nat :=
  sojourn.left - sojourn.entered

/-- The time between the last execution of the stay and its end, or all of it if there was none. -/
def counted (sojourn : Sojourn) : Nat :=
  sojourn.left - sojourn.since

end Sojourn

/-- The stays of an executable so far. -/
structure Itinerary where
  /-- Those that have ended, in order. -/
  ended : List Sojourn := []
  /-- The stay in the current status, unless that is still the sentinel. -/
  current : Option Visit := none

/-- What one more moment adds to the stays. -/
def Itinerary.add (itinerary : Itinerary) : Moment → Itinerary
  | .began time =>
    { itinerary with
      current := itinerary.current.map fun visit =>
        { visit with renewals := visit.renewals ++ [time] } }
  | .moved time _ new =>
    -- A transition ends one stay and begins the next.
    { ended := itinerary.ended ++ (itinerary.current.map (Sojourn.mk · time)).toList
      current := some ⟨new, time, []⟩ }

/-- The stays that make up a life. -/
def itinerary (life : List Moment) : Itinerary :=
  life.foldl Itinerary.add {}

theorem itinerary_append (life : List Moment) (moment : Moment) :
    itinerary (life ++ [moment]) = (itinerary life).add moment :=
  List.foldl_append ..

/-- The stays in one status that have ended. -/
def sojournsIn (status : Status) (life : List Moment) : List Sojourn :=
  (itinerary life).ended.filter (·.status = status)

theorem sojournsIn_append_began (status : Status) (life : List Moment) (time : Nat) :
    sojournsIn status (life ++ [.began time]) = sojournsIn status life := by
  rw [sojournsIn, itinerary_append]
  rfl

theorem sojournsIn_append_moved (status : Status) (life : List Moment) (time : Nat)
    (old new : Status) :
    sojournsIn status (life ++ [.moved time old new]) = sojournsIn status life ++
      ((itinerary life).current.map (Sojourn.mk · time)).toList.filter (·.status = status) := by
  rw [sojournsIn, itinerary_append]
  exact List.filter_append ..

namespace Executable.Lived

variable {life : List Moment} {executable : Executable}

/-- Where transitions are dated, the time since which the status counts as held is that of the last
execution of the current stay, or else that of its beginning. -/
theorem current (lived : Lived true life executable) :
    match (itinerary life).current with
    | none => executable.status = .null
    | some visit => visit.status = executable.status ∧ executable.since = some visit.since := by
  induction lived with
  | fresh id registered host work => rfl
  | @begin life executable _ time _ ih =>
    rw [itinerary_append]
    cases now : (itinerary life).current with
    | none =>
      rw [now] at ih
      simp only [Itinerary.add, now, Option.map_none]
      exact ih
    | some visit =>
      rw [now] at ih
      -- The execution forgets the samples, so the stay counts from its beginning.
      simp only [Itinerary.add, now, Option.map_some]
      exact ⟨ih.1, by simp [Executable.begin, since, Visit.since]⟩
  | @move life executable _ time _ status _ ih =>
    rw [itinerary_append]
    -- The transition is the latest sample, so the new stay counts from there.
    exact ⟨rfl, by simp [Executable.moveTo, file, since, Visit.since]⟩
  | destroy _ ih => exact ih

/-- Executions begin during a stay, and it ends after them. -/
theorem bounded {timed : Bool} (lived : Lived timed life executable) :
    (∀ visit ∈ (itinerary life).current,
      visit.entered ≤ visit.since ∧ ∃ moment ∈ life, visit.since = moment.time) ∧
    ∀ sojourn ∈ (itinerary life).ended,
      sojourn.entered ≤ sojourn.since ∧ sojourn.since ≤ sojourn.left := by
  induction lived with
  | fresh id registered host work =>
    exact ⟨fun _ here => absurd here (Option.not_mem_none _),
      fun _ old => absurd old List.not_mem_nil⟩
  | @begin life executable _ time late ih =>
    rw [itinerary_append]
    refine ⟨fun visit here => ?_, ih.2⟩
    obtain ⟨before, present, rfl⟩ := Option.mem_map.mp here
    obtain ⟨entered, moment, member, same⟩ := ih.1 before present
    -- The execution begins after everything that the stay has seen.
    have now : Visit.since { before with renewals := before.renewals ++ [time] } = time := by
      simp [Visit.since]
    refine ⟨?_, .began time, by simp, now⟩
    rw [now]
    exact Nat.le_trans entered (same ▸ late moment member)
  | @move life executable _ time late status _ ih =>
    rw [itinerary_append]
    refine ⟨fun visit here => ?_, fun sojourn among => ?_⟩
    · -- The stay that begins has seen nothing but the transition.
      obtain rfl := Option.mem_some_iff.mp here
      exact ⟨Nat.le_refl time, .moved time executable.status status, by simp, rfl⟩
    · rcases List.mem_append.mp among with old | new
      · exact ih.2 sojourn old
      · -- The stay that ends now was the current one.
        obtain ⟨visit, present, rfl⟩ := Option.mem_map.mp (Option.mem_toList.mp new)
        obtain ⟨entered, moment, member, same⟩ := ih.1 visit present
        exact ⟨entered, same ▸ late moment member⟩
  | destroy _ ih => exact ih

end Executable.Lived

/-- The time spent in a status is counted stay by stay. -/
theorem counted_total {status : Status} (real : status ≠ .null) :
    Counted (fun tally => (tally.stay status).total) fun _ timed life =>
      if timed then ((sojournsIn status life).map Sojourn.counted).sum else 0 where
  start := rfl
  fresh := fun _ timed => by cases timed <;> rfl
  began := fun _ timed life time => by simp only [sojournsIn_append_began]
  moved := fun _ timed life executable tally time new lived _ => by
    rw [Tally.stay_countTransition]
    cases timed with
    | false =>
      -- Without dates no time is counted.
      simp
    | true =>
      have current := lived.current
      rw [sojournsIn_append_moved]
      cases now : (itinerary life).current with
      | none =>
        -- Nobody returns to the sentinel, so no stay ends here.
        rw [now] at current
        have elsewhere : status ≠ executable.status := current ▸ real
        simp [elsewhere]
      | some visit =>
        rw [now] at current
        obtain ⟨same, since⟩ := current
        by_cases here : status = executable.status
        · -- The stay that ends is one in the status, and both sides count it from the same time.
          simp [here, same, since, Sojourn.counted]
          omega
        · have apart : visit.status ≠ status := same ▸ Ne.symm here
          simp [here, apart]

namespace Machine

variable {machine : Machine} {entries : List (Nat × Occurrence)} {h : HostRef} {status : Status}

/-- In every state of every run, the time that a host which dates transitions has counted for a
status is the sum, over the stays there that its executables have ended, of the time since the last
execution that began during the stay. So it is the whole time of the stays if none did. -/
theorem status_time_since_last_execution (dated : machine.Dated entries)
    (timed : (machine.engine.host h).settings.timed = true) (real : status ≠ .null) :
    ((machine.engine.host h).tally.stay status).total = ∑ e ∈ machine.executablesOf h,
      ((sojournsIn status (lifeOf e entries)).map Sojourn.counted).sum ∧
    (∀ e ∈ machine.executablesOf h, ∀ sojourn ∈ sojournsIn status (lifeOf e entries),
      sojourn.entered ≤ sojourn.since ∧ sojourn.since ≤ sojourn.left) ∧
    ((∀ e ∈ machine.executablesOf h, ∀ sojourn ∈ sojournsIn status (lifeOf e entries),
        sojourn.renewals = []) →
      ((machine.engine.host h).tally.stay status).total = ∑ e ∈ machine.executablesOf h,
        ((sojournsIn status (lifeOf e entries)).map Sojourn.length).sum) := by
  have total : ((machine.engine.host h).tally.stay status).total = ∑ e ∈ machine.executablesOf h,
      ((sojournsIn status (lifeOf e entries)).map Sojourn.counted).sum := by
    have counts := dated.count_eq_sum (counted_total real) h
    simp only [timed, if_true] at counts
    exact counts
  refine ⟨total, fun e among sojourn listed => ?_, fun undisturbed => ?_⟩
  · have built : e < machine.engine.executables.length :=
      Finset.mem_range.mp (Finset.mem_of_mem_filter e among)
    exact (dated.recounts.lived e built).bounded.2 sojourn (List.mem_of_mem_filter listed)
  · rw [total]
    refine Finset.sum_congr rfl fun e among => congrArg List.sum (List.map_congr_left ?_)
    intro sojourn listed
    -- Without an execution the stay counts from its beginning.
    simp [Sojourn.counted, Sojourn.length, Visit.since, undisturbed e among sojourn listed]

/-- One executable is executed twice while it is processing, another one is not. -/
theorem status_time_since_last_execution_shared :
    ∃ (machine : Machine) (entries : List (Nat × Occurrence)),
      machine.Dated entries ∧ (machine.engine.host 0).settings.timed = true ∧
      sojournsIn .processing (lifeOf 0 entries) = [⟨⟨.processing, 0, [4, 10]⟩, 15⟩] ∧
      sojournsIn .processing (lifeOf 1 entries) = [⟨⟨.processing, 4, []⟩, 10⟩] ∧
      ((machine.engine.host 0).tally.stay .processing).total = ∑ e ∈ {0, 1},
        ((sojournsIn .processing (lifeOf e entries)).map Sojourn.counted).sum ∧
      ((machine.engine.host 0).tally.stay .processing).total = 11 := by
  let first := ({} : Machine).meanwhile [.openHost {} .silent, .build 0 (.manual false),
    .build 0 (.manual false), .call (.setStatus 0 .processing)]
  let second := (first.advance 4).meanwhile
    [.call (.execute 0 .always), .call (.setStatus 1 .processing)]
  let third := (second.advance 6).meanwhile
    [.call (.execute 0 .always), .call (.setStatus 1 .ready)]
  let machine := (third.advance 5).meanwhile [.call (.setStatus 0 .ready)]
  have begun : first.Dated _ := Dated.start.meanwhile (by decide +kernel)
  have early : second.Dated _ := (begun.advance (by decide +kernel) 4).meanwhile (by decide +kernel)
  have later : third.Dated _ := (early.advance (by decide +kernel) 6).meanwhile (by decide +kernel)
  have dated : machine.Dated _ :=
    (later.advance (by decide +kernel) 5).meanwhile (by decide +kernel)
  have timed : (machine.engine.host 0).settings.timed = true := by decide +kernel
  have both : machine.executablesOf 0 = {0, 1} := by decide +kernel
  have total := (status_time_since_last_execution dated timed
    (show Status.processing ≠ .null by decide)).1
  exact ⟨machine, _, dated, timed, by decide +kernel, by decide +kernel, both ▸ total,
    by decide +kernel⟩

/-- An executable is processing for 15 units of time, of which the 10 before it is executed are not
counted. -/
theorem status_time_lost_on_execution :
    ∃ (machine : Machine) (entries : List (Nat × Occurrence)),
      machine.Dated entries ∧ (machine.engine.host 0).settings.timed = true ∧
      machine.executablesOf 0 = {0} ∧
      ((sojournsIn .processing (lifeOf 0 entries)).map Sojourn.length).sum = 15 ∧
      ((machine.engine.host 0).tally.stay .processing).total = 5 := by
  let first := ({} : Machine).meanwhile [.openHost {} .silent, .build 0 (.manual false),
    .call (.setStatus 0 .processing)]
  let second := (first.advance 10).meanwhile [.call (.execute 0 .always)]
  let machine := (second.advance 5).meanwhile [.call (.setStatus 0 .ready)]
  have begun : first.Dated _ := Dated.start.meanwhile (by decide +kernel)
  have later : second.Dated _ :=
    (begun.advance (by decide +kernel) 10).meanwhile (by decide +kernel)
  have dated : machine.Dated _ :=
    (later.advance (by decide +kernel) 5).meanwhile (by decide +kernel)
  exact ⟨machine, _, dated, by decide +kernel, by decide +kernel, by decide +kernel,
    by decide +kernel⟩

end Machine

end Readiness
