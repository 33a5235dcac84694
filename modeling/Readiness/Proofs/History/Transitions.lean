import Readiness.Proofs.History.Counts

/-! The history of transitions: the observer is told all of it, the status, the samples and the
statistics follow from it. -/

namespace Readiness

open List

/-- The transition of one executable that an observer is told of. -/
def Occurrence.observedMove? (e : ExecutableRef) : Occurrence → Option (HostRef × Event)
  | .observed h (.transitioned source old new) =>
    if source = e then some (h, ⟨e, new, old⟩) else none
  | _ => none

/-- What observers have been told of the transitions of an executable, in order. -/
def observedMovesOf (e : ExecutableRef) (journal : List Occurrence) : List (HostRef × Event) :=
  journal.filterMap (Occurrence.observedMove? e)

/-- Nobody is told of a transition, and there is none, where nothing is entered about a life. -/
theorem observedMovesOf_minor {news : List Occurrence}
    (minor : ∀ occurrence ∈ news, occurrence.isVital = false) (e : ExecutableRef) :
    observedMovesOf e news = [] ∧ movesOf e news = [] := by
  simp only [observedMovesOf, movesOf, filterMap_eq_nil_iff]
  -- Both kinds of entry are vital: a transition, and the news of it.
  refine ⟨fun occurrence member => ?_, fun occurrence member => ?_⟩
  · have plain := minor occurrence member
    cases occurrence with
    | observed _ notice =>
      cases notice with
      | transitioned => cases plain
      | executed | listenerFailed | destroyed => rfl
    | _ => rfl
  · have plain := minor occurrence member
    cases occurrence with
    | transitioned => cases plain
    | _ => rfl

theorem counted_transitions :
    Counted Tally.transitions fun e _ life => (eventsOf e life).length where
  start := rfl
  fresh := fun _ _ => rfl
  began := fun e _ life time => by rw [eventsOf_append_began]
  moved := fun e _ life executable tally time status _ _ => by
    rw [eventsOf_append_moved, length_append]
    show tally.transitions + 1 + _ = _
    simp only [length_singleton]
    omega

/-- The transitions to a status are counted life by life. -/
theorem counted_reached (status : Status) :
    Counted (fun tally => (tally.stay status).reached) fun e _ life =>
      (eventsOf e life).countP (·.status = status) where
  start := rfl
  fresh := fun _ _ => rfl
  began := fun e _ life time => by rw [eventsOf_append_began]
  moved := fun e _ life executable tally time new _ _ => by
    rw [eventsOf_append_moved, countP_append, Tally.stay_countTransition]
    -- The transition counts on both sides if it leads to the status.
    by_cases same : status = new
    · simp [same]
      omega
    · simp [same, Ne.symm same]

namespace Machine

variable {machine : Machine} {entries : List (Nat × Occurrence)} {e : ExecutableRef}

/-- A step has the observer of the host told of every transition that it makes. -/
theorem Enters.observed {after : Annals} (enters : machine.Enters after) {news : List Occurrence}
    (grown : after.journal = machine.engine.annals.journal ++ news) (e : ExecutableRef) :
    observedMovesOf e news = (movesOf e news).map ((machine.engine.executable e).host, ·) := by
  -- The step that makes a transition also has the observer told of it.
  cases enters with
  | note noted =>
    obtain ⟨entered, minor, rfl⟩ := noted
    obtain rfl := append_cancel_left grown
    rw [(observedMovesOf_minor minor e).1, (observedMovesOf_minor minor e).2]
    rfl
  | advance | openHost | temporary =>
    obtain rfl := self_eq_append_right.mp grown
    rfl
  | register | execute =>
    obtain rfl := append_cancel_left grown
    rfl
  | @move source status asked moves =>
    obtain rfl := append_cancel_left grown
    by_cases own : source = e
    · subst own
      simp [observedMovesOf, movesOf, filterMap_cons, Occurrence.observedMove?,
        Occurrence.move?]
    · simp [observedMovesOf, movesOf, filterMap_cons, Occurrence.observedMove?,
        Occurrence.move?, own]
  | destroy asked there noted =>
    obtain ⟨entered, minor, rfl⟩ := noted
    obtain rfl := append_cancel_left grown
    rw [(observedMovesOf_minor minor e).1, (observedMovesOf_minor minor e).2]
    rfl

/-- In every state of every run the observer of the host has been told of every transition. -/
theorem Dated.observed (dated : machine.Dated entries) (e : ExecutableRef) :
    observedMovesOf e machine.engine.journal.toList =
      (movesOf e machine.engine.journal.toList).map ((machine.engine.executable e).host, ·) := by
  induction dated with
  | start => rfl
  | @step machine next entries dated step news grown ih =>
    have sound := dated.reachable.sound
    have enters := sound.enters_next step
    -- What was told before and what the step adds are put together, as of the earlier state.
    have told : observedMovesOf e next.engine.journal.toList =
        (movesOf e next.engine.journal.toList).map ((machine.engine.executable e).host, ·) := by
      have latest := enters.observed grown e
      simp only [observedMovesOf, movesOf] at ih latest ⊢
      rw [grown, filterMap_append, filterMap_append, map_append, ih, latest]
    rcases Nat.lt_or_ge e machine.engine.executables.length with built | beyond
    · have home : (next.engine.executable e).host = (machine.engine.executable e).host :=
        congrArg (·.2.1) (enters.registration_eq built)
      rwa [home]
    · -- Whoever is not built before the step has not moved after it.
      have none : movesOf e next.engine.journal.toList = [] := by
        rw [← (dated.step step grown).events_eq, lifeOf_append,
          (enters.unborn sound grown beyond).1, dated.recounts.unborn e beyond]
        rfl
      rw [told, none]
      rfl

/-- The history of an executable accounts for what is known about it. -/
structure Accounts (machine : Machine) (entries : List (Nat × Occurrence)) (e : ExecutableRef)
    (history : List Event) : Prop where
  /-- The observer of its host was told of every transition, in order. -/
  observed : observedMovesOf e machine.engine.journal.toList =
    history.map ((machine.engine.executable e).host, ·)
  /-- The transitions lead from the sentinel to the current status. -/
  leads : Leads .null history (machine.engine.executable e).status
  /-- It was settled before if one of them led to the ready status or to a failed one. -/
  settledBefore : (machine.engine.executable e).settledBefore = true ↔ ∃ event ∈ history,
    event.status = (machine.engine.executable e).readyStatus ∨
      event.status ∈ (machine.engine.executable e).failedStatuses
  /-- It is not ready and failed at once. -/
  exclusive : ¬ ((machine.engine.executable e).isReady = true ∧
    (machine.engine.executable e).hasFailed = true)
  /-- If it is ready it was settled before. -/
  ready : (machine.engine.executable e).isReady = true →
    (machine.engine.executable e).settledBefore = true
  /-- If it has failed it was settled before. -/
  failed : (machine.engine.executable e).hasFailed = true →
    (machine.engine.executable e).settledBefore = true
  /-- Its life has the same transitions. -/
  dated : eventsOf e (lifeOf e entries) = history
  /-- The samples are the transitions since the last execution began, one after the other. -/
  sampled : (machine.engine.hostOf e).settings.timed = true →
    (machine.engine.executable e).samples = recentSamples (lifeOf e entries) ∧
    (machine.engine.executable e).samples.Pairwise fun early late => early.time ≤ late.time

/-- The transitions in a dated journal account for what is known about an executable. -/
theorem Dated.accounts (dated : machine.Dated entries)
    (built : e < machine.engine.executables.length) :
    machine.Accounts entries e (movesOf e machine.engine.journal.toList) := by
  have lived := dated.recounts.lived e built
  have lawful := dated.reachable.sound.store.lawful e built
  have history := dated.events_eq e
  refine ⟨dated.observed e, history ▸ lived.leads e, history ▸ lived.settledBefore_iff e, ?_,
    fun ready => lived.settledBefore_of_settled lawful (.inl ready),
    fun failed => lived.settledBefore_of_settled lawful (.inr failed), history, fun timed => ?_⟩
  · -- The ready status is none of the failed ones.
    rintro ⟨ready, failed⟩
    have same : (machine.engine.executable e).status = (machine.engine.executable e).readyStatus :=
      of_decide_eq_true ready
    have among :
        (machine.engine.executable e).status ∈ (machine.engine.executable e).failedStatuses :=
      contains_iff_mem.mp failed
    rw [same] at among
    exact Work.readyStatus_not_mem_failedStatuses lawful among
  · have recorded : Executable.Lived true (lifeOf e entries) (machine.engine.annals.file e) :=
      timed ▸ lived
    have samples : (machine.engine.executable e).samples = recentSamples (lifeOf e entries) :=
      recorded.samples_eq
    exact ⟨samples, samples ▸ recentSamples_pairwise recorded.pairwise⟩

/-- In every state of every run the transitions of an executable account for its status, for what
its observer was told, for its samples and for whether it was ever settled, and the transitions of
all its executables account for the statistics of a host. -/
theorem history_accounts_for_state (reachable : machine.Reachable) :
    (∃ entries, machine.Dated entries) ∧ ∀ entries, machine.Dated entries →
      (∀ e < machine.engine.executables.length,
        machine.Accounts entries e (movesOf e machine.engine.journal.toList)) ∧
      ∀ h, (machine.engine.host h).tally.transitions =
          ∑ e ∈ machine.executablesOf h, (movesOf e machine.engine.journal.toList).length ∧
        ∀ status, ((machine.engine.host h).tally.stay status).reached =
          ∑ e ∈ machine.executablesOf h,
            (movesOf e machine.engine.journal.toList).countP (·.status = status) := by
  refine ⟨reachable.dated, fun entries dated => ⟨fun e => dated.accounts, fun h => ?_⟩⟩
  -- The statistics are sums over lives, which have the transitions of the journal.
  simp only [← dated.events_eq]
  exact ⟨dated.count_eq_sum counted_transitions h,
    fun status => dated.count_eq_sum (counted_reached status) h⟩

/-- An observer moves an executable once more while being told that it moved, and panics then; an
execution begins between that and the last transition, which alone is left among the samples. -/
theorem history_accounts_for_state_nested :
    ∃ (machine : Machine) (entries : List (Nat × Occurrence)),
      machine.Dated entries ∧ machine.Accounts entries 0
        [⟨0, .processing, .null⟩, ⟨0, .waiting, .processing⟩, ⟨0, .ready, .waiting⟩] ∧
      (machine.engine.executable 0).samples = [⟨.ready, 9⟩] ∧
      lifeOf 0 entries = [.moved 0 .null .processing, .moved 0 .processing .waiting, .began 7,
        .moved 9 .waiting .ready] ∧
      (machine.engine.host 0).tally.transitions = ∑ e ∈ {0, 1},
        (movesOf e machine.engine.journal.toList).length ∧
      ((machine.engine.host 0).tally.stay .processing).reached = 2 := by
  let first := ({} : Machine).meanwhile [.openHost {} (.client 0), .build 0 (.manual false),
    .build 0 (.manual true), .call (.setStatus 0 .processing), .accept,
    .call (.setStatus 0 .waiting), .accept, .panic (.text "boom"),
    .call (.setStatus 1 .processing), .accept, .finish .done]
  let second := (first.advance 7).meanwhile [.call (.execute 0 .always), .accept, .finish .done]
  let machine := (second.advance 2).meanwhile [.call (.setStatus 0 .ready), .accept, .finish .done]
  have begun : first.Dated _ := Dated.start.meanwhile (by decide +kernel)
  have later : second.Dated _ := (begun.advance (by decide +kernel) 7).meanwhile (by decide +kernel)
  have dated : machine.Dated _ :=
    (later.advance (by decide +kernel) 2).meanwhile (by decide +kernel)
  obtain ⟨_, accounted⟩ := history_accounts_for_state dated.reachable
  obtain ⟨accounts, counts⟩ := accounted _ dated
  have both : machine.executablesOf 0 = {0, 1} := by decide +kernel
  have history : movesOf 0 machine.engine.journal.toList =
      [⟨0, .processing, .null⟩, ⟨0, .waiting, .processing⟩, ⟨0, .ready, .waiting⟩] := by
    decide +kernel
  refine ⟨machine, _, dated, history ▸ accounts 0 (by decide +kernel), by decide +kernel,
    by decide +kernel, both ▸ (counts 0).1, by decide +kernel⟩

end Machine

end Readiness
