import Readiness.Proofs.Gate.Countdown

/-! The countdown of a gate goes on with every step of the protocol.

A token gets lost only if the dependent is dead when its call is made, if a dependency is
destroyed, if a panic of the observer ends the calls, or if the dependent cannot be moved when the
last call is made.
-/

namespace Readiness

open List Function

variable {given : Circumstances} {view next : View} {passage : Passage} {counted : Finset Nat}
  {whole whole' : Prop} {reached position : Nat}

/-- No step of this kind loses a token of the gate. -/
structure Passage.Harmless (passage : Passage) (given : Circumstances) (view next : View) :
    Prop where
  calls : ∀ frame, given.loses frame → frame.alerts = 0
  there : ∀ d ∈ passage.dependencies, next.destroyed d = false
  able : ∀ position event, view.errand = some (.invoke (.countdown passage.g position) event) →
    given.alive passage.dependent = true ∧ ((view.gate passage.g).remaining = 1 →
      view.destroyed passage.dependent = false ∧ ¬ given.Failed view passage.dependent)

/-- Destruction is final. -/
theorem Circumstances.Step.destroyed (step : given.Step view next) {e : ExecutableRef}
    (gone : view.destroyed e = true) : next.destroyed e = true := by
  cases step with
  | @destroy other idle asked =>
    by_cases same : e = other
    · subst same
      exact update_self ..
    · exact (update_of_ne same ..).trans gone
  | count | tick =>
    rw [View.destroyed_countOrRelease]
    exact gone
  | _ => exact gone

theorem Passage.Tokens.weaken (tokens : passage.Tokens view reached counted whole)
    (kept : whole' → whole) : passage.Tokens view reached counted whole' :=
  { tokens with full := fun unlost => tokens.full (kept unlost) }

theorem Passage.Bar.note (bar : passage.Bar view counted whole) (gates : next.gates = view.gates)
    {occurrence : Occurrence} (journal : next.journal = view.journal ++ [occurrence])
    (other : occurrence ≠ .gateOpened passage.g) (kept : whole' → whole) :
    passage.Bar next counted whole' where
  gate := gates ▸ bar.gate
  once := journal ▸ bar.once.append_other other
  shut := fun more opened => by
    rw [journal] at opened
    rcases mem_append.mp opened with old | new
    · exact bar.shut more old
    · exact other (mem_singleton.mp new).symm
  done := fun unlost all => journal ▸ mem_append_left _ (bar.done (kept unlost) all)

theorem Passage.Bar.of_same (bar : passage.Bar view counted whole) (gates : next.gates = view.gates)
    (journal : next.journal = view.journal) : passage.Bar next counted whole :=
  ⟨gates ▸ bar.gate, journal ▸ bar.once, journal ▸ bar.shut, journal ▸ bar.done⟩

namespace Passage.Countdown

variable {duties : List Frame} {alerts : Multiset (Event × Listener)} {errand : Option Command}
  {other g : GateRef} {old : Frame} {d : ExecutableRef} {rest : List ExecutableRef}
  {onFailure : Option Listener}

theorem weaken (countdown : passage.Countdown view reached counted whole) (kept : whole' → whole) :
    passage.Countdown view reached counted whole' :=
  ⟨countdown.toTokens.weaken kept,
    { countdown.toBar with done := fun unlost => countdown.done (kept unlost) }⟩

theorem gate_append (bar : passage.Bar view counted whole) (added : Gate) :
    (view.gates ++ [added])[passage.g]? = view.gates[passage.g]? :=
  List.getElem?_append_left (List.getElem?_eq_some_iff.mp bar.gate).1

section

variable (countdown : passage.Countdown view reached counted whole)
include countdown

/-- Calls may get lost. -/
theorem lose_alerts {gone : Multiset (Event × Listener)} (split : view.alerts = gone + alerts)
    (gate : next.gates[passage.g]? = view.gates[passage.g]?) (journal : next.journal = view.journal)
    (passing : (next.passing passage.g).Sublist (view.passing passage.g))
    (watches : next.watches = view.watches) (left : next.alerts = alerts)
    (kept : whole' → whole ∧ ∀ call ∈ gone, ∀ position, call.2 ≠ .countdown passage.g position) :
    passage.Countdown next reached counted whole' := by
  have held (position : Nat) (d : ExecutableRef) : view.held passage.g position d =
      next.held passage.g position d +
        gone.countP fun call => call.2 = .countdown passage.g position := by
    rw [View.held, View.held, watches, split, left, Multiset.countP_add]
    omega
  refine countdown.lessen gate (by rw [journal, append_nil]) (fun _ member => by cases member)
    passing (fun d _ _ => by rw [watches]; exact id) ?_ ?_ ?_
  · intro event position member
    rw [left] at member
    rw [split]
    exact Multiset.mem_add.mpr (.inr member)
  · exact fun position d _ => (held position d).symm ▸ Nat.le_add_right ..
  · refine fun unlost => ⟨(kept unlost).1, fun position d _ => ?_⟩
    rw [held position d, Multiset.countP_eq_zero.mpr fun call member =>
      (kept unlost).2 call member position, Nat.add_zero]

/-- A call may be made, or found to be of no use, if it is not one of the gate's. -/
theorem lose_call {event : Event} {listener : Listener}
    (sent : view.alerts = (event, listener) ::ₘ alerts)
    (kept : whole' → whole ∧ ∀ position, listener ≠ .countdown passage.g position) :
    passage.Countdown { view with alerts := alerts, errand := errand } reached counted whole' := by
  refine countdown.lose_alerts (by rw [sent, ← Multiset.singleton_add]) rfl rfl
    (List.Sublist.refl _) rfl rfl fun holds => ⟨(kept holds).1, ?_⟩
  rintro call member position
  cases Multiset.mem_singleton.mp member
  exact (kept holds).2 position

/-- Duties may end, and what is asked for may change. -/
theorem quiet (gate : next.gates[passage.g]? = view.gates[passage.g]?)
    (journal : next.journal = view.journal)
    (passing : (next.passing passage.g).Sublist (view.passing passage.g))
    (watches : next.watches = view.watches) (alerts : next.alerts = view.alerts)
    (kept : whole' → whole) : passage.Countdown next reached counted whole' :=
  countdown.lose_alerts (zero_add _).symm gate journal passing watches alerts
    fun unlost => ⟨kept unlost, forall_mem_nil _⟩

theorem count_other (distinct : passage.g ≠ other) :
    passage.Countdown (view.count other) reached counted whole :=
  countdown.quiet (view.getElem?_gates_count distinct) rfl (List.Sublist.refl _) rfl rfl id

/-- Another gate may count one of its dependencies, and open. -/
theorem countOrRelease_other (distinct : passage.g ≠ other) :
    passage.Countdown (view.countOrRelease other) reached counted whole := by
  have held (position : Nat) (d : ExecutableRef) : (view.countOrRelease other).held passage.g
      position d = view.held passage.g position d := by
    rw [View.held, View.held, View.watches_countOrRelease, View.alerts_countOrRelease]
  refine countdown.lessen ?_ (view.journal_countOrRelease other) ?_ ?_ ?_ ?_ ?_ ?_
  · rw [View.gates_countOrRelease, view.getElem?_gates_count distinct]
  · intro occurrence member
    split at member
    · exact ⟨other, distinct.symm, .inr (mem_singleton.mp member)⟩
    · cases member
  · rw [View.passing, View.duties_countOrRelease]
    exact List.Sublist.refl _
  · intro d status position member
    rwa [View.watches_countOrRelease] at member
  · intro event position member
    rwa [View.alerts_countOrRelease] at member
  · exact fun position d _ => Nat.le_of_eq (held position d)
  · exact fun unlost => ⟨unlost, fun position d _ => held position d⟩

end

/-- Another gate may go on to its next dependency. -/
theorem passing_other {new : Frame} (top : view.duties = old :: duties) (other : g ≠ passage.g)
    (before : old.gate? = some g) (after : new.gate? = some g)
    (duties' : next.duties = new :: duties) :
    (next.passing passage.g).Sublist (view.passing passage.g) := by
  rw [View.passing, View.passing, top, duties', filter_cons_of_neg (by simpa [after]),
    filter_cons_of_neg (by simpa [before])]

/-- Moves may take the place of the duty on top. -/
theorem passing_moves {own : List Frame} (top : view.duties = old :: duties)
    (moves : ∀ duty ∈ own, duty.gate? = none) (duties' : next.duties = own ++ duties) :
    (next.passing passage.g).Sublist (view.passing passage.g) := by
  rw [View.passing, View.passing, top, duties', filter_append,
    filter_eq_nil_iff.mpr fun duty member => by simp [moves duty member]]
  exact (sublist_cons_self ..).filter _

section

variable (countdown : passage.Countdown view reached counted whole)
include countdown

/-- The gate may have a dependency executed before it looks at it. -/
theorem send_own (top : view.duties = .arm passage.g position (d :: rest) onFailure :: duties) :
    passage.Countdown
      { view with
        duties := .examine passage.g position d rest onFailure :: duties, errand := errand }
      reached counted whole := by
  obtain ⟨at_, others⟩ := top_passing countdown.toTokens top rfl
  obtain ⟨rfl, here, rfl⟩ := at_.of_arm
  have passing : View.passing { view with
      duties := .examine passage.g position d (passage.dependencies.drop (position + 1))
        onFailure :: duties
      errand := errand } passage.g =
      [.examine passage.g position d (passage.dependencies.drop (position + 1)) onFailure] := by
    rw [View.passing, filter_cons_of_pos (by simp [Frame.gate?]), others]
  refine ⟨⟨countdown.progress, countdown.settled, ?_, ?_, countdown.watched, countdown.called,
    countdown.tokens, countdown.full, countdown.fresh⟩, countdown.gate, countdown.once,
    countdown.shut, countdown.done⟩
  · rw [passing]
    exact Nat.le_refl 1
  · intro duty member
    rw [passing] at member
    rw [mem_singleton.mp member]
    exact .inr ⟨d, onFailure, here, rfl⟩

/-- Another gate may listen to one of its dependencies. -/
theorem watch_other (bounded : view.Bounded) (other : g ≠ passage.g)
    (top : view.duties = .examine g position d rest onFailure :: duties) :
    passage.Countdown
      { view with
        duties := .arm g (position + 1) rest onFailure :: duties
        journal := view.journal ++ [.examined g position d false]
        watches := Function.update view.watches d
          (given.links g position d onFailure + view.watches d) } reached counted whole := by
  have uncounting := (bounded.duties _ (top ▸ mem_cons_self ..)).listeners
  -- None of the new watches is a token of this gate.
  have foreign (place : Nat) : (given.links g position d onFailure).countP
      (fun watch => watch.2 = .countdown passage.g place) = 0 := by
    rw [Passage.Tokens.countP_links position place d
      (fun listener heard => uncounting listener (Option.mem_toList.mpr heard)),
      if_neg fun same => other same.1.symm]
  have watches (place : Nat) (e : ExecutableRef) : (Function.update view.watches d
      (given.links g position d onFailure + view.watches d) e).countP
        (fun watch => watch.2 = .countdown passage.g place) =
      (view.watches e).countP fun watch => watch.2 = .countdown passage.g place := by
    by_cases same : e = d
    · subst same
      rw [update_self, Multiset.countP_add, foreign, Nat.zero_add]
    · rw [update_of_ne same]
  refine countdown.lessen rfl rfl ?_ (passing_other top other rfl rfl rfl) ?_ (fun _ _ => id) ?_ ?_
  · intro occurrence member
    exact ⟨g, other, .inl ⟨position, d, false, mem_singleton.mp member⟩⟩
  · intro e status place member
    by_cases same : e = d
    · subst same
      simp only [update_self] at member
      rcases Multiset.mem_add.mp member with added | old
      · exact absurd rfl (Multiset.countP_eq_zero.mp (foreign place) _ added)
      · exact old
    · simpa only [update_of_ne same] using member
  · exact fun place e _ => Nat.le_of_eq (congrArg (· + _) (watches place e))
  · exact fun unlost => ⟨unlost, fun place e _ => congrArg (· + _) (watches place e)⟩

/-- An executable may be destroyed, which takes tokens only if it is a dependency. -/
theorem destroy (e : ExecutableRef) (kept : whole' → whole ∧ e ∉ passage.dependencies) :
    passage.Countdown
      { view with
        destroyed := Function.update view.destroyed e true
        watches := Function.update view.watches e 0 } reached counted whole' := by
  have watches (d : ExecutableRef) : Function.update view.watches e 0 d ≤ view.watches d := by
    by_cases same : d = e
    · subst same
      rw [update_self]
      exact Multiset.zero_le _
    · rw [update_of_ne same]
  refine countdown.lessen rfl (append_nil _).symm (fun _ member => by cases member)
    (List.Sublist.refl _) (fun d _ _ member => Multiset.mem_of_le (watches d) member)
    (fun _ _ => id) ?_ ?_
  · exact fun position d _ => Nat.add_le_add_right (Multiset.countP_le_of_le _ (watches d)) _
  · refine fun holds => ⟨(kept holds).1, fun position d here => ?_⟩
    have different : d ≠ e := fun same => (kept holds).2 (same ▸ mem_of_getElem? here)
    simp only [View.held, update_of_ne different]

end

end Passage.Countdown

/-- The countdown has come at least as far. -/
def Passage.Advanced (passage : Passage) (view : View) (reached : Nat) (counted : Finset Nat)
    (whole : Prop) : Prop :=
  ∃ reached' counted', reached ≤ reached' ∧ counted ⊆ counted' ∧
    passage.Countdown view reached' counted' whole

/-- More tokens may have been lost. -/
theorem Passage.Advanced.weaken (advanced : passage.Advanced view reached counted whole)
    (kept : whole' → whole) : passage.Advanced view reached counted whole' := by
  obtain ⟨reached', counted', further, more, countdown⟩ := advanced
  exact ⟨reached', counted', further, more, countdown.weaken kept⟩

namespace Passage.Countdown

variable {duties : List Frame} {alerts : Multiset (Event × Listener)} {errand : Option Command}
  {g : GateRef} {d : ExecutableRef} {rest : List ExecutableRef} {onFailure : Option Listener}
  {event : Event} (countdown : passage.Countdown view reached counted whole)
include countdown

/-- The gate may stay where it is. -/
theorem advanced : passage.Advanced view reached counted whole :=
  ⟨reached, counted, Nat.le_refl _, Finset.Subset.refl _, countdown⟩

/-- A gate may be made that is open from the start. -/
theorem open_other (added : Gate) :
    passage.Countdown
      { view with
        gates := view.gates ++ [added]
        journal := view.journal ++ [.gateOpened view.gates.length]
        errand := errand } reached counted whole := by
  have old := (List.getElem?_eq_some_iff.mp countdown.gate).1
  have held (position : Nat) (d : ExecutableRef) := rfl (a := view.held passage.g position d)
  refine countdown.lessen (gate_append countdown.toBar _) rfl ?_ (List.Sublist.refl _)
    (fun _ _ _ => id) (fun _ _ => id) (fun position d _ => Nat.le_of_eq (held position d))
    fun holds => ⟨holds, fun position d _ => held position d⟩
  intro occurrence member
  exact ⟨_, (Nat.ne_of_lt old).symm, .inr (mem_singleton.mp member)⟩

/-- A gate counts the dependency that it finds ready. -/
theorem count_ready (top : view.duties = .arm g position (d :: rest) onFailure :: duties ∨
      view.duties = .examine g position d rest onFailure :: duties) :
    passage.Advanced (View.countOrRelease { view with
      duties := .arm g (position + 1) rest onFailure :: duties
      journal := view.journal ++ [.examined g position d true] } g) reached counted whole := by
  by_cases own : g = passage.g
  · subst own
    have facts : (position = reached ∧ passage.dependencies[reached]? = some d ∧
        rest = passage.dependencies.drop (reached + 1)) ∧
        (duties.filter fun other => other.gate? = some passage.g) = [] := by
      rcases top with top | top
      · obtain ⟨at_, others⟩ := top_passing countdown.toTokens top rfl
        exact ⟨at_.of_arm, others⟩
      · obtain ⟨at_, others⟩ := top_passing countdown.toTokens top rfl
        exact ⟨at_.of_examine, others⟩
    obtain ⟨⟨rfl, here, rfl⟩, others⟩ := facts
    refine ⟨position + 1, insert position counted, Nat.le_succ _, Finset.subset_insert _ _,
      of_count (countdown.toTokens.examine_ready here others)
        (countdown.toBar.note rfl rfl (by rintro ⟨⟩) id) ?_⟩
    exact fun member => Nat.lt_irrefl _ (countdown.settled position member).1
  · refine (countOrRelease_other ?_ (Ne.symm own)).advanced
    refine countdown.lessen rfl rfl ?_ ?_ (fun _ _ _ => id) (fun _ _ => id)
      (fun _ _ _ => Nat.le_refl _) fun holds => ⟨holds, fun _ _ _ => rfl⟩
    · intro occurrence member
      exact ⟨g, own, .inl ⟨position, d, true, mem_singleton.mp member⟩⟩
    · rcases top with top | top <;> exact passing_other top own rfl rfl rfl

/-- A gate listens to the dependency that it finds pending. -/
theorem watch_pending (bounded : view.Bounded)
    (top : view.duties = .examine g position d rest onFailure :: duties)
    (success : ∀ d ∈ passage.dependencies, passage.success d = (given.work d).readyStatus) :
    passage.Advanced
      { view with
        duties := .arm g (position + 1) rest onFailure :: duties
        journal := view.journal ++ [.examined g position d false]
        watches := Function.update view.watches d
          (given.links g position d onFailure + view.watches d) } reached counted whole := by
  by_cases own : g = passage.g
  · subst own
    obtain ⟨at_, others⟩ := top_passing countdown.toTokens top rfl
    obtain ⟨rfl, here, rfl⟩ := at_.of_examine
    have uncounting := (bounded.duties _ (top ▸ mem_cons_self ..)).listeners
    have tokens := countdown.toTokens.examine_pending here others
      (fun listener heard => uncounting listener (Option.mem_toList.mpr heard))
      (success d (mem_of_getElem? here))
    exact ⟨position + 1, counted, Nat.le_succ _, Finset.Subset.refl _, tokens,
      countdown.toBar.note rfl rfl (by rintro ⟨⟩) id⟩
  · exact (countdown.watch_other bounded own top).advanced

/-- A gate is called, and counts the dependency. -/
theorem call_counted (sent : view.alerts = (event, .countdown g position) ::ₘ alerts) :
    passage.Advanced (View.countOrRelease { view with alerts := alerts, errand := none } g)
      reached counted whole := by
  by_cases own : g = passage.g
  · subst own
    obtain ⟨new, tokens⟩ := countdown.toTokens.called_back sent
    exact ⟨reached, insert position counted, Nat.le_refl _, Finset.subset_insert _ _,
      of_count tokens (countdown.toBar.of_same rfl rfl) new⟩
  · refine (countOrRelease_other (countdown.lose_call sent fun holds => ⟨holds, ?_⟩)
      (Ne.symm own)).advanced
    rintro _ ⟨⟩
    exact own rfl

/-- A gate is called for the last time in vain, which loses a token of its own. -/
theorem call_skipped (sent : view.alerts = (event, .countdown g position) ::ₘ alerts)
    (last : (view.gate g).remaining = 1) (kept : whole' → whole ∧ g ≠ passage.g) :
    passage.Advanced (View.count { view with alerts := alerts, errand := none } g)
      reached counted whole' := by
  by_cases own : g = passage.g
  · subst own
    obtain ⟨new, tokens⟩ := countdown.toTokens.called_back sent
    have skipped := of_skip (tokens.weaken False.elim) (countdown.toBar.of_same rfl rfl) new last
    exact ⟨reached, insert position counted, Nat.le_refl _, Finset.subset_insert _ _,
      skipped.weaken fun holds => (kept holds).2 rfl⟩
  · refine (count_other (countdown.lose_call sent fun holds => ⟨(kept holds).1, ?_⟩)
      (Ne.symm own)).advanced
    rintro _ ⟨⟩
    exact own rfl

end Passage.Countdown

/-- A step of the protocol takes the countdown on, and loses a token only if it may. -/
theorem Passage.Countdown.step (countdown : passage.Countdown view reached counted whole)
    (bounded : view.Bounded) (step : given.Step view next)
    (success : ∀ d ∈ passage.dependencies, passage.success d = (given.work d).readyStatus)
    (kept : whole' → whole ∧ passage.Harmless given view next) :
    passage.Advanced next reached counted whole' := by
  have unlost := fun holds => (kept holds).1
  -- Most steps leave the gate where it is, and differ in what they do to the duties.
  have quiet {next : View} (gate : next.gates[passage.g]? = view.gates[passage.g]?)
      (journal : next.journal = view.journal)
      (passing : (next.passing passage.g).Sublist (view.passing passage.g))
      (watches : next.watches = view.watches) (alerts : next.alerts = view.alerts) :
      passage.Advanced next reached counted whole' :=
    (countdown.quiet gate journal passing watches alerts unlost).advanced
  cases step with
  | pass | ask | leave | stay | call => exact quiet rfl rfl (List.Sublist.refl _) rfl rfl
  | execute | report | build => exact quiet rfl rfl (by simp [View.passing, Frame.gate?]) rfl rfl
  | compose idle top | gather idle top =>
    exact quiet rfl rfl (by simp [View.passing, top, Frame.gate?]) rfl rfl
  | work idle top other moves asks =>
    refine quiet rfl rfl (passing_moves top (fun duty own => ?_) rfl) rfl rfl
    obtain ⟨statuses, rfl⟩ := moves duty own
    rfl
  | prompt idle top =>
    refine quiet rfl rfl (passing_moves top (fun duty own => ?_) rfl) rfl rfl
    rw [Frame.eq_of_mem_duty own]
    rfl
  | clear idle top | fault idle top | finish idle top =>
    refine quiet rfl rfl ?_ rfl rfl
    rw [View.passing, View.passing, top]
    exact (sublist_cons_self ..).filter _
  | close asked pending =>
    have old := (List.getElem?_eq_some_iff.mp countdown.gate).1
    refine quiet (gate_append countdown.toBar _) rfl ?_ rfl rfl
    simp [View.passing, Frame.gate?, (Nat.ne_of_lt old).symm]
  | @send g position d rest onFailure duties idle top pending =>
    by_cases own : g = passage.g
    · subst own
      exact (countdown.send_own top).advanced.weaken unlost
    · exact quiet rfl rfl (passing_other top own rfl rfl rfl) rfl rfl
  | @move e status asked real new =>
    exact advanced ⟨(countdown.toTokens.move e status).weaken unlost,
      countdown.toBar.note rfl rfl (by rintro ⟨⟩) unlost⟩
  | passThrough => exact (countdown.open_other _).advanced.weaken unlost
  | count idle top ready => exact (countdown.count_ready top).weaken unlost
  | watch idle top pending => exact (countdown.watch_pending bounded top success).weaken unlost
  | tick asked sent => exact (countdown.call_counted sent).weaken unlost
  -- Here a token may get lost, unless the step is harmless.
  | @spare listener event alerts e asked sent about dead =>
    refine (countdown.lose_call sent fun holds => ⟨unlost holds, ?_⟩).advanced
    rintro position rfl
    have dependent : e = passage.dependent := by
      rw [View.target?, gate_eq countdown.toBar] at about
      exact (Option.some.inj about).symm
    rw [dependent, ((kept holds).2.able position event asked).1] at dead
    cases dead
  | @skip g position event alerts asked sent alive last unable =>
    refine countdown.call_skipped sent last fun holds => ⟨unlost holds, fun own => ?_⟩
    subst own
    obtain ⟨there, sane⟩ := ((kept holds).2.able position event asked).2 last
    rw [gate_eq countdown.toBar] at unable
    rcases unable with gone | failed
    · rw [there] at gone
      cases gone
    · exact sane failed
  | alarm asked sent alive =>
    exact (countdown.lose_call sent fun holds => ⟨unlost holds, by rintro _ ⟨⟩⟩).advanced
  | @drop gone alerts e idle destroyed split about =>
    refine advanced (countdown.lose_alerts split rfl rfl (List.Sublist.refl _) rfl rfl
      fun holds => ⟨unlost holds, ?_⟩)
    rintro ⟨event, listener⟩ member position counts
    cases counts
    have here := (countdown.called event position
      (split ▸ Multiset.mem_add.mpr (.inl member))).2.1
    have there := (kept holds).2.there event.source (mem_of_getElem? here)
    rw [about _ member] at there
    rw [show view.destroyed e = false from there] at destroyed
    cases destroyed
  | @destroy e idle asked =>
    refine (countdown.destroy e fun holds => ⟨unlost holds, fun listed => ?_⟩).advanced
    have there := (kept holds).2.there e listed
    simp only [update_self] at there
    cases there
  | lose idle lost calls stands =>
    refine advanced (countdown.lose_alerts calls rfl rfl ?_ rfl rfl fun holds =>
      ⟨unlost holds, ?_⟩)
    · rw [View.passing, View.passing, stands]
      exact (sublist_append_right ..).filter _
    · intro call member
      rw [(kept holds).2.calls _ lost] at member
      cases member

/-- The last call for a gate is made when every position is satisfied. -/
theorem Passage.Countdown.met_of_last_call
    (countdown : passage.Countdown view reached counted whole) {event : Event}
    (sent : (event, .countdown passage.g position) ∈ view.alerts)
    (last : (view.gate passage.g).remaining = 1) : passage.Met view.journal := by
  obtain ⟨others, split⟩ := Multiset.exists_cons_of_mem sent
  -- The call stands for the only position that is not counted yet.
  obtain ⟨new, tokens⟩ := countdown.toTokens.called_back split
  have all : passage.dependencies.length ≤ (insert position counted).card := by
    rw [gate_eq countdown.toBar] at last
    rw [Finset.card_insert_of_notMem new]
    simp only at last
    omega
  have met := met_of_card tokens all
  exact met

/-- A position that a step satisfies belongs to a dependency that is ready then. -/
theorem Circumstances.Step.ready_of_satisfied (step : given.Step view next) {g : GateRef}
    {d : ExecutableRef} (now : Satisfied next.journal g position d (given.work d).readyStatus)
    (before : ¬ Satisfied view.journal g position d (given.work d).readyStatus) :
    given.Ready next d := by
  -- The opening of a gate satisfies nobody.
  have unopened {journal : List Occurrence} {other : GateRef} {last : Prop} [Decidable last]
      (opened : Satisfied (journal ++ if last then [.gateOpened other] else []) g position d
        (given.work d).readyStatus) :
      Satisfied journal g position d (given.work d).readyStatus := by
    split at opened
    · rcases opened.of_append_singleton with old | found | ⟨_, _, moved⟩
      · exact old
      · cases found
      · cases moved
    · rwa [append_nil] at opened
  cases step with
  | move asked real new =>
    rcases now.of_append_singleton with old | found | ⟨_, _, moved⟩
    · exact absurd old before
    · cases found
    · cases moved
      exact update_self ..
  | passThrough | watch =>
    rcases now.of_append_singleton with old | found | ⟨_, _, moved⟩
    · exact absurd old before
    · cases found
    · cases moved
  | count idle top ready =>
    rw [View.journal_countOrRelease] at now
    rcases (unopened now).of_append_singleton with old | found | ⟨_, _, moved⟩
    · exact absurd old before
    · cases found
      rw [Ready, View.status_countOrRelease]
      exact ready
    · cases moved
  | tick asked sent alive able =>
    rw [View.journal_countOrRelease] at now
    exact absurd (unopened now) before
  | _ => exact absurd now before

/-- If nothing got lost, the gate has opened once it has come to every position and no token for one
is left. -/
theorem Passage.Countdown.opened_of_unheld
    (countdown : passage.Countdown view reached counted whole) (unlost : whole)
    (spent : ∀ position d, passage.dependencies[position]? = some d →
      position < reached ∧ view.held passage.g position d = 0) :
    .gateOpened passage.g ∈ view.journal := by
  have covered : Finset.range passage.dependencies.length ⊆ counted := by
    intro position below
    have at_ := getElem?_eq_getElem (Finset.mem_range.mp below)
    obtain ⟨come, unheld⟩ := spent position _ at_
    have token := countdown.full unlost position _ come at_
    by_contra uncounted
    rw [unheld, if_neg uncounted] at token
    cases token
  refine countdown.done unlost ?_
  rw [Finset.Subset.antisymm (counted_subset countdown.toTokens) covered, Finset.card_range]

/-- If nothing got lost, the gate has opened once every position is satisfied and no call is on its
way. -/
theorem Passage.Countdown.opened (countdown : passage.Countdown view reached counted whole)
    (unlost : whole) (met : passage.Met view.journal)
    (silent : ∀ event position, passage.dependencies[position]? = some event.source →
      (event, .countdown passage.g position) ∉ view.alerts) :
    .gateOpened passage.g ∈ view.journal := by
  refine countdown.opened_of_unheld unlost fun position d at_ => ?_
  have satisfied := met position d at_
  obtain ⟨found, seen⟩ := satisfied.examined
  refine ⟨countdown.fresh position d found seen, ?_⟩
  -- Neither a watch nor a call is left.
  rw [View.held, Multiset.countP_eq_zero.mpr, Multiset.countP_eq_zero.mpr]
  · rintro ⟨event, listener⟩ member rfl
    obtain ⟨_, source, _⟩ := countdown.called event position member
    exact silent event position source member
  · rintro ⟨status, listener⟩ member rfl
    exact (countdown.watched d status position member).2.2.2.2 satisfied

end Readiness
