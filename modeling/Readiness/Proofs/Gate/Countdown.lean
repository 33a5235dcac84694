import Mathlib.Data.Finset.Card
import Readiness.Proofs.Gate.Bounded
import Readiness.Proofs.Gate.Journal

/-! The countdown of a gate.

For every position of a gate that has been examined there is one token: a watch on the dependency,
a call of that watch on its way, or a count. Tokens can get lost, but they do not multiply, so the
gate opens at most once and not before all positions are satisfied. Unless a token gets lost, it
opens as soon as they are.
-/

namespace Readiness

open List Function

variable {journal added : List Occurrence} {g : GateRef}

/-- How many tokens of a position are watches or calls on their way. -/
def View.held (view : View) (g : GateRef) (position : Nat) (d : ExecutableRef) : Nat :=
  (view.watches d).countP (fun watch => watch.2 = .countdown g position) +
    view.alerts.countP (fun call => call.2 = .countdown g position)

/-- The duties that go through one gate. -/
def View.passing (view : View) (g : GateRef) : List Frame :=
  view.duties.filter fun duty => duty.gate? = some g

/-- A gate, what it moves and where to, its dependencies and their ready statuses. -/
structure Passage where
  /-- The gate. -/
  g : GateRef
  /-- The executable to move. -/
  dependent : ExecutableRef
  /-- The status to move it to. -/
  target : Status
  /-- The dependencies, one for each position. -/
  dependencies : List ExecutableRef
  /-- The status that means readiness. -/
  success : ExecutableRef → Status

namespace Passage

/-- Every position is satisfied. -/
def Met (passage : Passage) (journal : List Occurrence) : Prop :=
  ∀ position d, passage.dependencies[position]? = some d →
    Satisfied journal passage.g position d (passage.success d)

/-- A duty that goes through the gate has come to a position. -/
def At (passage : Passage) (position : Nat) (duty : Frame) : Prop :=
  (∃ onFailure, duty =
    .arm passage.g position (passage.dependencies.drop position) onFailure) ∨
  ∃ d onFailure, passage.dependencies[position]? = some d ∧
    duty = .examine passage.g position d (passage.dependencies.drop (position + 1)) onFailure

/-- Where the tokens are: positions below `reached` are examined, those in `counted` are counted,
and if `whole` holds then no token has got lost. -/
structure Tokens (passage : Passage) (view : View) (reached : Nat) (counted : Finset Nat)
    (whole : Prop) : Prop where
  progress : reached ≤ passage.dependencies.length
  settled : ∀ position ∈ counted, position < reached ∧
    ∀ d, passage.dependencies[position]? = some d →
      Satisfied view.journal passage.g position d (passage.success d)
  single : (view.passing passage.g).length ≤ 1
  passing : ∀ duty ∈ view.passing passage.g, passage.At reached duty
  watched : ∀ d status position, (status, .countdown passage.g position) ∈ view.watches d →
    position < reached ∧ passage.dependencies[position]? = some d ∧ status = passage.success d ∧
      .examined passage.g position d false ∈ view.journal ∧
      ¬ Satisfied view.journal passage.g position d (passage.success d)
  called : ∀ event position, (event, .countdown passage.g position) ∈ view.alerts →
    position < reached ∧ passage.dependencies[position]? = some event.source ∧
      Satisfied view.journal passage.g position event.source (passage.success event.source)
  tokens : ∀ position d, passage.dependencies[position]? = some d →
    view.held passage.g position d + (if position ∈ counted then 1 else 0) ≤ 1
  full : whole → ∀ position d, position < reached → passage.dependencies[position]? = some d →
    view.held passage.g position d + (if position ∈ counted then 1 else 0) = 1
  fresh : ∀ position d found, .examined passage.g position d found ∈ view.journal →
    position < reached

/-- What the gate has made of its counts. -/
structure Bar (passage : Passage) (view : View) (counted : Finset Nat) (whole : Prop) : Prop where
  gate : view.gates[passage.g]? = some
    ⟨passage.dependent, passage.target, passage.dependencies.length - counted.card⟩
  /-- The gate opens once, when every position is satisfied. -/
  once : OpensOnce passage.g passage.Met view.journal
  shut : counted.card < passage.dependencies.length → .gateOpened passage.g ∉ view.journal
  done : whole → counted.card = passage.dependencies.length → .gateOpened passage.g ∈ view.journal

/-- How far the countdown has come. -/
structure Countdown (passage : Passage) (view : View) (reached : Nat) (counted : Finset Nat)
    (whole : Prop) : Prop
    extends passage.Tokens view reached counted whole, passage.Bar view counted whole

end Passage

/-- An occurrence about another gate. -/
def Occurrence.Elsewhere (g : GateRef) (occurrence : Occurrence) : Prop :=
  ∃ other, other ≠ g ∧
    ((∃ position d found, occurrence = .examined other position d found) ∨
      occurrence = .gateOpened other)

/-- An occurrence about another gate satisfies no position. -/
theorem Satisfied.of_append_elsewhere {position : Nat} {d : ExecutableRef} {success : Status}
    (elsewhere : ∀ occurrence ∈ added, occurrence.Elsewhere g)
    (satisfied : Satisfied (journal ++ added) g position d success) :
    Satisfied journal g position d success := by
  induction added using List.reverseRecOn with
  | nil => simpa using satisfied
  | append_singleton earlier last ih =>
    rw [← append_assoc] at satisfied
    obtain ⟨other, distinct, about⟩ := elsewhere last (by simp)
    have before : Satisfied (journal ++ earlier) g position d success := by
      rcases satisfied.of_append_singleton with before | found | ⟨_, old, moved⟩
      · exact before
      · rcases about with ⟨_, _, _, about⟩ | about
        · rw [about] at found
          cases found
          exact absurd rfl distinct
        · rw [about] at found
          cases found
      · rcases about with ⟨_, _, _, about⟩ | about <;> rw [about] at moved <;> cases moved
    exact ih (fun occurrence member => elsewhere occurrence (by simp [member])) before

/-- Occurrences about other gates leave the opening of a gate alone. -/
theorem OpensOnce.append_elsewhere {met : List Occurrence → Prop} (once : OpensOnce g met journal)
    (elsewhere : ∀ occurrence ∈ added, occurrence.Elsewhere g) :
    OpensOnce g met (journal ++ added) := by
  induction added using List.reverseRecOn with
  | nil => simpa using once
  | append_singleton earlier last ih =>
    rw [← append_assoc]
    obtain ⟨other, distinct, about⟩ := elsewhere last (by simp)
    refine (ih fun occurrence member => elsewhere occurrence (by simp [member])).append_other ?_
    rintro rfl
    rcases about with ⟨_, _, _, about⟩ | about <;> cases about
    exact distinct rfl

namespace Passage.Countdown

variable {passage : Passage} {view next mid : View} {reached position : Nat} {counted : Finset Nat}
  {whole whole' : Prop}

/-- Tokens may get lost, duties may end and other gates may go on. -/
theorem lessen (countdown : passage.Countdown view reached counted whole)
    (gate : next.gates[passage.g]? = view.gates[passage.g]?)
    {added : List Occurrence} (journal : next.journal = view.journal ++ added)
    (elsewhere : ∀ occurrence ∈ added, occurrence.Elsewhere passage.g)
    (passing : (next.passing passage.g).Sublist (view.passing passage.g))
    (watches : ∀ d status position, (status, .countdown passage.g position) ∈ next.watches d →
      (status, .countdown passage.g position) ∈ view.watches d)
    (alerts : ∀ event position, (event, .countdown passage.g position) ∈ next.alerts →
      (event, .countdown passage.g position) ∈ view.alerts)
    (held : ∀ position d, passage.dependencies[position]? = some d →
      next.held passage.g position d ≤ view.held passage.g position d)
    (kept : whole' → whole ∧ ∀ position d, passage.dependencies[position]? = some d →
      next.held passage.g position d = view.held passage.g position d) :
    passage.Countdown next reached counted whole' := by
  have opened : .gateOpened passage.g ∈ next.journal ↔ .gateOpened passage.g ∈ view.journal := by
    rw [journal, mem_append]
    refine ⟨fun either => either.resolve_right fun new => ?_, .inl⟩
    -- What has been added is about other gates.
    obtain ⟨other, distinct, about⟩ := elsewhere _ new
    rcases about with ⟨_, _, _, about⟩ | about <;> cases about
    exact distinct rfl
  refine ⟨⟨countdown.progress, ?_, ?_, ?_, ?_, ?_, ?_, ?_, ?_⟩, ?_, ?_, ?_, ?_⟩
  · intro position member
    obtain ⟨below, satisfied⟩ := countdown.settled position member
    exact ⟨below, fun d at_ => journal ▸ (satisfied d at_).append added⟩
  · exact Nat.le_trans passing.length_le countdown.single
  · exact fun duty member => countdown.passing duty (passing.subset member)
  · intro d status position member
    obtain ⟨below, at_, key, listened, waiting⟩ :=
      countdown.watched d status position (watches d status position member)
    exact ⟨below, at_, key, journal ▸ mem_append_left _ listened, fun satisfied =>
      waiting (Satisfied.of_append_elsewhere elsewhere (journal ▸ satisfied))⟩
  · intro event position member
    obtain ⟨below, at_, satisfied⟩ := countdown.called event position (alerts event position member)
    exact ⟨below, at_, journal ▸ satisfied.append added⟩
  · intro position d at_
    exact Nat.le_trans (Nat.add_le_add_right (held position d at_) _)
      (countdown.tokens position d at_)
  · intro whole position d below at_
    rw [(kept whole).2 position d at_]
    exact countdown.full (kept whole).1 position d below at_
  · intro position d found member
    rw [journal] at member
    rcases mem_append.mp member with old | new
    · exact countdown.fresh position d found old
    · obtain ⟨other, distinct, about⟩ := elsewhere _ new
      rcases about with ⟨_, _, _, about⟩ | about <;> cases about
      exact absurd rfl distinct
  · rw [gate, countdown.gate]
  · exact journal ▸ countdown.once.append_elsewhere elsewhere
  · exact fun more => opened.not.mpr (countdown.shut more)
  · exact fun whole all => opened.mpr (countdown.done (kept whole).1 all)

theorem gate_eq (bar : passage.Bar view counted whole) : view.gate passage.g =
    ⟨passage.dependent, passage.target, passage.dependencies.length - counted.card⟩ := by
  simp [View.gate, getD_eq_getElem?_getD, bar.gate]

theorem tokens_release (tokens : passage.Tokens mid reached counted whole) :
    passage.Tokens ((mid.count passage.g).release passage.g) reached counted whole := by
  have satisfied {position : Nat} {d : ExecutableRef} {success : Status}
      (now : Satisfied (mid.journal ++ [.gateOpened passage.g]) passage.g position d success) :
      Satisfied mid.journal passage.g position d success := by
    rcases now.of_append_singleton with before | found | ⟨_, _, moved⟩
    · exact before
    · cases found
    · cases moved
  refine ⟨tokens.progress, ?_, tokens.single, tokens.passing, ?_, ?_, tokens.tokens,
    tokens.full, ?_⟩
  · intro position member
    obtain ⟨below, settled⟩ := tokens.settled position member
    exact ⟨below, fun d at_ => (settled d at_).append _⟩
  · intro d status position member
    obtain ⟨below, at_, key, listened, waiting⟩ := tokens.watched d status position member
    exact ⟨below, at_, key, mem_append_left _ listened, fun now => waiting (satisfied now)⟩
  · intro event position member
    obtain ⟨below, at_, settled⟩ := tokens.called event position member
    exact ⟨below, at_, settled.append _⟩
  · intro position d found member
    rcases mem_append.mp member with old | new
    · exact tokens.fresh position d found old
    · cases mem_singleton.mp new

theorem counted_subset (tokens : passage.Tokens view reached counted whole) :
    counted ⊆ Finset.range passage.dependencies.length := fun position member =>
  Finset.mem_range.mpr (Nat.lt_of_lt_of_le (tokens.settled position member).1 tokens.progress)

/-- Every position is satisfied once as many are counted as there are. -/
theorem met_of_card (tokens : passage.Tokens view reached counted whole)
    (all : passage.dependencies.length ≤ counted.card) : passage.Met view.journal := by
  -- What is counted are positions, so none of them is left out.
  have full : counted = Finset.range passage.dependencies.length :=
    Finset.eq_of_subset_of_card_le (counted_subset tokens) (by rw [Finset.card_range]; exact all)
  intro position d at_
  refine (tokens.settled position ?_).2 d at_
  rw [full]
  exact Finset.mem_range.mpr (List.getElem?_eq_some_iff.mp at_).1

/-- Counting the last position opens the gate. -/
theorem of_count (tokens : passage.Tokens mid reached (insert position counted) whole')
    (bar : passage.Bar mid counted whole) (new : position ∉ counted) :
    passage.Countdown (mid.countOrRelease passage.g) reached (insert position counted) whole' := by
  have size : (insert position counted).card = counted.card + 1 := Finset.card_insert_of_notMem new
  have bound : counted.card + 1 ≤ passage.dependencies.length := by
    rw [← size]
    simpa using Finset.card_le_card (counted_subset tokens)
  have same := gate_eq bar
  have gate : (mid.count passage.g).gates[passage.g]? = some
      ⟨passage.dependent, passage.target,
        passage.dependencies.length - (insert position counted).card⟩ := by
    simp only [View.count, getElem?_modify_eq, bar.gate, same, size]
    rfl
  have shut := bar.shut (by omega)
  unfold View.countOrRelease
  rw [same]
  split
  · rename_i last
    have all : (insert position counted).card = passage.dependencies.length := by
      simp only at last
      omega
    have met : passage.Met mid.journal := met_of_card tokens (Nat.le_of_eq all.symm)
    refine ⟨tokens_release tokens, gate, OpensOnce.append_opened shut met, ?_, ?_⟩
    · intro more
      rw [all] at more
      exact absurd more (Nat.lt_irrefl _)
    · exact fun _ _ => mem_append_right _ (mem_singleton_self _)
  · rename_i more
    refine ⟨⟨tokens.progress, tokens.settled, tokens.single, tokens.passing, tokens.watched,
      tokens.called, tokens.tokens, tokens.full, tokens.fresh⟩, gate, bar.once, fun _ => shut, ?_⟩
    intro whole all
    simp at more
    omega

/-- The last position may be counted without opening the gate, which is a loss. -/
theorem of_skip (tokens : passage.Tokens mid reached (insert position counted) False)
    (bar : passage.Bar mid counted whole) (new : position ∉ counted)
    (last : (mid.gate passage.g).remaining = 1) :
    passage.Countdown (mid.count passage.g) reached (insert position counted) False := by
  have size : (insert position counted).card = counted.card + 1 := Finset.card_insert_of_notMem new
  have same := gate_eq bar
  rw [same] at last
  refine ⟨⟨tokens.progress, tokens.settled, tokens.single, tokens.passing, tokens.watched,
    tokens.called, tokens.tokens, tokens.full, tokens.fresh⟩, ?_, bar.once, ?_,
    fun whole => whole.elim⟩
  · simp only [View.count, getElem?_modify_eq, bar.gate, same, size]
    rfl
  · intro more
    simp only at last
    omega

/-- Nothing is held for a position yet to be examined. -/
theorem held_eq_zero (tokens : passage.Tokens view reached counted whole)
    (later : reached ≤ position) (d : ExecutableRef) : view.held passage.g position d = 0 := by
  have watches : (view.watches d).countP (fun watch => watch.2 = .countdown passage.g position) =
      0 := by
    refine Multiset.countP_eq_zero.mpr fun watch member same => ?_
    obtain ⟨status, listener⟩ := watch
    cases same
    exact absurd (tokens.watched d status position member).1 (Nat.not_lt.mpr later)
  have alerts : view.alerts.countP (fun call => call.2 = .countdown passage.g position) = 0 := by
    refine Multiset.countP_eq_zero.mpr fun call member same => ?_
    obtain ⟨event, listener⟩ := call
    cases same
    exact absurd (tokens.called event position member).1 (Nat.not_lt.mpr later)
  rw [View.held, watches, alerts]

/-- The duty on top that goes through the gate is the only one, and is at the next position. -/
theorem top_passing (tokens : passage.Tokens view reached counted whole) {duty : Frame}
    {duties : List Frame} (top : view.duties = duty :: duties)
    (through : duty.gate? = some passage.g) :
    passage.At reached duty ∧ (duties.filter fun other => other.gate? = some passage.g) = [] := by
  have first : view.passing passage.g =
      duty :: duties.filter fun other => other.gate? = some passage.g := by
    rw [View.passing, top, filter_cons_of_pos (by simpa using through)]
  refine ⟨tokens.passing duty (first ▸ mem_cons_self ..), ?_⟩
  have short := tokens.single
  rw [first, length_cons] at short
  exact eq_nil_of_length_eq_zero (by omega)

end Passage.Countdown

namespace Passage.At

variable {passage : Passage} {reached position : Nat} {d : ExecutableRef}
  {rest : List ExecutableRef} {onFailure : Option Listener}

theorem of_arm (at_ : passage.At reached (.arm passage.g position (d :: rest) onFailure)) :
    position = reached ∧ passage.dependencies[reached]? = some d ∧
      rest = passage.dependencies.drop (reached + 1) := by
  rcases at_ with ⟨_, same⟩ | ⟨_, _, _, same⟩
  · injection same with _ position left _
    have here : passage.dependencies[reached]? = (d :: rest)[0]? := by
      rw [left, getElem?_drop, Nat.add_zero]
    have others : rest = (d :: rest).drop 1 := rfl
    rw [left, drop_drop] at others
    exact ⟨position, here, others⟩
  · cases same

theorem of_examine (at_ : passage.At reached (.examine passage.g position d rest onFailure)) :
    position = reached ∧ passage.dependencies[reached]? = some d ∧
      rest = passage.dependencies.drop (reached + 1) := by
  rcases at_ with ⟨_, same⟩ | ⟨_, _, here, same⟩ <;> cases same
  exact ⟨rfl, here, rfl⟩

end Passage.At

namespace Passage.Tokens

variable {passage : Passage} {view : View} {reached : Nat} {counted : Finset Nat} {whole : Prop}
  {duty : Frame} {duties : List Frame} {d : ExecutableRef} {onFailure : Option Listener}
  {given : Circumstances}

theorem passing_next (rest : (duties.filter fun other => other.gate? = some passage.g) = []) :
    ((Frame.arm passage.g (reached + 1) (passage.dependencies.drop (reached + 1)) onFailure ::
      duties).filter fun other => other.gate? = some passage.g) =
        [.arm passage.g (reached + 1) (passage.dependencies.drop (reached + 1)) onFailure] := by
  rw [filter_cons_of_pos (by simp [Frame.gate?]), rest]

/-- The next dependency is examined: if it is found ready its position is counted, otherwise it may
be watched for it. Either way there is one token more, which is for that position. -/
theorem examine (tokens : passage.Tokens view reached counted whole)
    (next : passage.dependencies[reached]? = some d)
    (rest : (duties.filter fun other => other.gate? = some passage.g) = []) {found : Bool}
    {watches : ExecutableRef → Multiset (Status × Listener)} {after : Finset Nat}
    (settled : ∀ position ∈ after, position = reached ∧ found = true ∨ position ∈ counted)
    (watched : ∀ other status position, (status, .countdown passage.g position) ∈ watches other →
      (status, .countdown passage.g position) ∈ view.watches other ∨
        position = reached ∧ other = d ∧ status = passage.success d ∧ found = false)
    (held : ∀ position other, passage.dependencies[position]? = some other →
      View.held { view with watches } passage.g position other +
          (if position ∈ after then 1 else 0) =
        view.held passage.g position other + (if position ∈ counted then 1 else 0) +
          if position = reached then 1 else 0) :
    passage.Tokens { view with
      duties := .arm passage.g (reached + 1) (passage.dependencies.drop (reached + 1)) onFailure ::
        duties
      journal := view.journal ++ [.examined passage.g reached d found]
      watches } (reached + 1) after whole := by
  have uncounted : reached ∉ counted := fun member =>
    Nat.lt_irrefl _ (tokens.settled reached member).1
  refine ⟨(List.getElem?_eq_some_iff.mp next).1, ?_, ?_, ?_, ?_, ?_, ?_, ?_, ?_⟩
  · intro position member
    rcases settled position member with ⟨rfl, rfl⟩ | old
    · refine ⟨Nat.lt_succ_self _, fun other at_ => ?_⟩
      rw [next] at at_
      cases at_
      exact .inl (mem_append_right _ (mem_singleton_self _))
    · obtain ⟨below, satisfied⟩ := tokens.settled position old
      exact ⟨Nat.lt_succ_of_lt below, fun other at_ => (satisfied other at_).append _⟩
  · simp only [View.passing, passing_next rest, length_singleton, Nat.le_refl]
  · intro passing member
    simp only [View.passing, passing_next rest] at member
    rw [mem_singleton.mp member]
    exact .inl ⟨_, rfl⟩
  · intro other status position member
    rcases watched other status position member with old | ⟨rfl, rfl, rfl, rfl⟩
    · obtain ⟨below, at_, key, listened, waiting⟩ := tokens.watched other status position old
      refine ⟨Nat.lt_succ_of_lt below, at_, key, mem_append_left _ listened, fun now => ?_⟩
      rcases now.of_append_singleton with before | same | ⟨_, _, moved⟩
      · exact waiting before
      · cases same
        exact Nat.lt_irrefl _ below
      · cases moved
    · refine ⟨Nat.lt_succ_self _, next, rfl,
        mem_append_right _ (mem_singleton_self _), fun now => ?_⟩
      -- It has not been examined for this position before.
      rcases now.of_append_singleton with before | same | ⟨_, _, moved⟩
      · obtain ⟨ready, seen⟩ := before.examined
        exact Nat.lt_irrefl _ (tokens.fresh _ _ ready seen)
      · cases same
      · cases moved
  · intro event position member
    obtain ⟨below, at_, satisfied⟩ := tokens.called event position member
    exact ⟨Nat.lt_succ_of_lt below, at_, satisfied.append _⟩
  · intro position other at_
    refine (held position other at_).trans_le ?_
    by_cases here : position = reached
    · subst here
      rw [Countdown.held_eq_zero tokens (Nat.le_refl _) other, if_neg uncounted, if_pos rfl]
    · rw [if_neg here]
      exact tokens.tokens position other at_
  · intro unlost position other below at_
    refine (held position other at_).trans ?_
    by_cases here : position = reached
    · subst here
      rw [Countdown.held_eq_zero tokens (Nat.le_refl _) other, if_neg uncounted, if_pos rfl]
    · rw [if_neg here]
      exact tokens.full unlost position other (by omega) at_
  · intro position other ready member
    rcases mem_append.mp member with old | new
    · exact Nat.lt_succ_of_lt (tokens.fresh position other ready old)
    · cases mem_singleton.mp new
      exact Nat.lt_succ_self _

/-- A dependency that is found ready is counted at once. -/
theorem examine_ready (tokens : passage.Tokens view reached counted whole)
    (next : passage.dependencies[reached]? = some d)
    (rest : (duties.filter fun other => other.gate? = some passage.g) = []) :
    passage.Tokens { view with
      duties := .arm passage.g (reached + 1) (passage.dependencies.drop (reached + 1)) onFailure ::
        duties
      journal := view.journal ++ [.examined passage.g reached d true] }
      (reached + 1) (insert reached counted) whole := by
  refine tokens.examine next rest (fun position member => ?_) (fun _ _ _ old => .inl old)
    fun position other _ => ?_
  · exact (Finset.mem_insert.mp member).imp_left fun here => ⟨here, rfl⟩
  · by_cases here : position = reached
    · have uncounted : position ∉ counted := fun member =>
        absurd (tokens.settled position member).1 (by omega)
      simp [here ▸ uncounted, here]
    · simp [here]

/-- How many of the watches that a gate puts on a dependency count for a position of a gate. -/
theorem countP_links (position other : Nat) (d : ExecutableRef)
    (uncounting : ∀ listener ∈ onFailure, listener.Uncounting) (g g' : GateRef) :
    (given.links g position d onFailure).countP
      (fun watch => watch.2 = .countdown g' other) =
        if g' = g ∧ other = position then 1 else 0 := by
  unfold Circumstances.links
  have failures : Multiset.countP (fun watch => watch.2 = .countdown g' other)
      ((((onFailure.toList.filter Listener.isWatcher).flatMap fun listener =>
        (given.work d).failedStatuses.map fun status => (status, listener)) :
          List (Status × Listener)) : Multiset (Status × Listener)) = 0 := by
    refine Multiset.countP_eq_zero.mpr fun watch member same => ?_
    obtain ⟨listener, kept, member⟩ := mem_flatMap.mp (Multiset.mem_coe.mp member)
    obtain ⟨status, _, rfl⟩ := mem_map.mp member
    exact uncounting listener (by simpa using (mem_filter.mp kept).1) _ _ same
  rw [Multiset.countP_cons, failures, Nat.zero_add]
  simp only [Listener.countdown.injEq]
  simp only [eq_comm]

section

variable (tokens : passage.Tokens view reached counted whole)
include tokens

/-- A dependency that is not found ready is watched. -/
theorem examine_pending (next : passage.dependencies[reached]? = some d)
    (rest : (duties.filter fun other => other.gate? = some passage.g) = [])
    (uncounting : ∀ listener ∈ onFailure, listener.Uncounting)
    (success : passage.success d = (given.work d).readyStatus) :
    passage.Tokens { view with
      duties := .arm passage.g (reached + 1) (passage.dependencies.drop (reached + 1)) onFailure ::
        duties
      journal := view.journal ++ [.examined passage.g reached d false]
      watches := Function.update view.watches d
        (given.links passage.g reached d onFailure + view.watches d) }
      (reached + 1) counted whole := by
  refine tokens.examine next rest (fun _ old => .inr old) (fun other status position member => ?_)
    fun position other at_ => ?_
  · by_cases same : other = d
    · subst same
      rw [update_self] at member
      rcases Multiset.mem_add.mp member with added | earlier
      · rcases Circumstances.mem_links added with new | ⟨heard, _⟩
        · cases new
          exact .inr ⟨rfl, rfl, success.symm, rfl⟩
        · exact absurd rfl (uncounting _ heard passage.g position)
      · exact .inl earlier
    · rw [update_of_ne same] at member
      exact .inl member
  · -- The one new token is a watch for the position that was examined.
    by_cases same : other = d
    · subst same
      simp only [View.held, update_self, Multiset.countP_add,
        countP_links reached position other uncounting, true_and]
      omega
    · have different : position ≠ reached := by
        rintro rfl
        rw [next] at at_
        exact same (Option.some.inj at_).symm
      simp only [View.held, update_of_ne same, if_neg different, Nat.add_zero]

/-- A call that has been made is a count. -/
theorem called_back {event : Event} {position : Nat} {alerts : Multiset (Event × Listener)}
    (sent : view.alerts = (event, .countdown passage.g position) ::ₘ alerts) :
    position ∉ counted ∧
      passage.Tokens { view with alerts := alerts, errand := none } reached
        (insert position counted) whole := by
  obtain ⟨below, at_, satisfied⟩ := tokens.called event position (by rw [sent]; simp)
  -- The call was the token of its position, and has been made.
  have held (other : Nat) (d : ExecutableRef) : view.held passage.g other d =
      View.held { view with alerts := alerts, errand := none } passage.g other d +
        if other = position then 1 else 0 := by
    simp only [View.held, sent, Multiset.countP_cons, Listener.countdown.injEq, true_and,
      eq_comm (a := position)]
    omega
  have uncounted : position ∉ counted := by
    intro member
    have single := tokens.tokens position event.source at_
    rw [held position event.source, if_pos rfl, if_pos member] at single
    omega
  refine ⟨uncounted, tokens.progress, ?_, tokens.single, tokens.passing, tokens.watched, ?_, ?_, ?_,
    tokens.fresh⟩
  · intro other member
    rcases Finset.mem_insert.mp member with rfl | old
    · refine ⟨below, fun d here => ?_⟩
      rw [at_] at here
      cases here
      exact satisfied
    · exact tokens.settled other old
  · intro event' other member
    exact tokens.called event' other (by rw [sent]; exact Multiset.mem_cons_of_mem member)
  · intro other d here
    have single := tokens.tokens other d here
    rw [held other d] at single
    by_cases same : other = position
    · subst same
      simpa [uncounted] using single
    · simpa [same] using single
  · intro unlost other d lower here
    have single := tokens.full unlost other d lower here
    rw [held other d] at single
    by_cases same : other = position
    · subst same
      simpa [uncounted] using single
    · simpa [same] using single

/-- A transition turns watches for it into calls. -/
theorem move (e : ExecutableRef) (status : Status) :
    passage.Tokens (view.move e status) reached counted whole := by
  -- The calls that set out are as many as the watches that are spent.
  have calls (position : Nat) : (((view.watches e).filter fun watch => watch.1 = status).map
      fun watch => ((⟨e, status, view.status e⟩ : Event), watch.2)).countP
        (fun call => call.2 = .countdown passage.g position) =
      ((view.watches e).filter fun watch => watch.1 = status).countP
        fun watch => watch.2 = .countdown passage.g position := by
    rw [Multiset.countP_map, Multiset.countP_eq_card_filter]
  have held (position : Nat) (d : ExecutableRef)
      (at_ : passage.dependencies[position]? = some d) :
      (view.move e status).held passage.g position d = view.held passage.g position d := by
    simp only [View.held, View.move, Multiset.countP_add, calls, ne_eq]
    by_cases same : d = e
    · subst same
      have whole := congrArg (Multiset.countP fun watch => watch.2 = .countdown passage.g position)
        (Multiset.filter_add_not (fun watch => watch.1 = status) (view.watches d))
      rw [Multiset.countP_add] at whole
      rw [update_self]
      omega
    · -- Watches on another executable are for other positions.
      have elsewhere : ((view.watches e).filter fun watch => watch.1 = status).countP
          (fun watch => watch.2 = .countdown passage.g position) = 0 := by
        refine Multiset.countP_eq_zero.mpr fun watch member about => ?_
        obtain ⟨key, listener⟩ := watch
        cases about
        have here := (tokens.watched e key position (Multiset.mem_of_mem_filter member)).2.1
        rw [at_] at here
        exact same (Option.some.inj here)
      rw [update_of_ne same, elsewhere, Nat.zero_add]
  refine ⟨tokens.progress, ?_, tokens.single, tokens.passing, ?_, ?_, ?_, ?_, ?_⟩
  · intro position member
    obtain ⟨below, satisfied⟩ := tokens.settled position member
    exact ⟨below, fun d at_ => (satisfied d at_).append _⟩
  · intro d key position member
    have old : (key, .countdown passage.g position) ∈ view.watches d ∧ (d = e → key ≠ status) := by
      by_cases same : d = e
      · subst same
        simp only [View.move, update_self] at member
        exact ⟨Multiset.mem_of_mem_filter member, fun _ => by
          simpa using Multiset.of_mem_filter member⟩
      · simp only [View.move, update_of_ne same] at member
        exact ⟨member, fun here => absurd here same⟩
    obtain ⟨below, at_, success, listened, waiting⟩ := tokens.watched d key position old.1
    refine ⟨below, at_, success, mem_append_left _ listened, fun now => ?_⟩
    rcases now.of_append_singleton with before | found | ⟨_, _, moved⟩
    · exact waiting before
    · cases found
    · cases moved
      exact old.2 rfl success
  · intro event position member
    rcases Multiset.mem_add.mp member with new | old
    · obtain ⟨⟨key, listener⟩, spent, same⟩ := Multiset.mem_map.mp new
      cases same
      obtain ⟨below, at_, success, listened, _⟩ :=
        tokens.watched e key position (Multiset.mem_of_mem_filter spent)
      have reason : key = status := by simpa using Multiset.of_mem_filter spent
      refine ⟨below, at_, ?_⟩
      rw [← success, reason]
      exact Satisfied.of_transition listened _
    · obtain ⟨below, at_, satisfied⟩ := tokens.called event position old
      exact ⟨below, at_, satisfied.append _⟩
  · exact fun position d at_ => held position d at_ ▸ tokens.tokens position d at_
  · exact fun unlost position d below at_ =>
      held position d at_ ▸ tokens.full unlost position d below at_
  · intro position d found member
    rcases mem_append.mp member with old | new
    · exact tokens.fresh position d found old
    · cases mem_singleton.mp new

end

end Passage.Tokens

end Readiness
