import Readiness.Proofs.Machine.View

/-! What the journal tells of a gate: which of its dependencies it need not wait for any more, and
when it opened.
-/

namespace Readiness

open List

/-- A gate need not wait for the dependency at a position: it was ready when it was examined, or it
became ready after the gate had begun to listen to it. -/
def Satisfied (journal : List Occurrence) (g : GateRef) (position : Nat) (d : ExecutableRef)
    (success : Status) : Prop :=
  .examined g position d true ∈ journal ∨
    ∃ old, [.examined g position d false, .transitioned d old success].Sublist journal

/-- Whenever a gate opened it had not opened before, and a condition was met by then. -/
def OpensOnce (g : GateRef) (met : List Occurrence → Prop) (journal : List Occurrence) : Prop :=
  ∀ before after, journal = before ++ .gateOpened g :: after →
    met before ∧ .gateOpened g ∉ before

namespace Satisfied

variable {journal : List Occurrence} {g : GateRef} {position : Nat} {d : ExecutableRef}
  {success : Status}

theorem append (satisfied : Satisfied journal g position d success) (later : List Occurrence) :
    Satisfied (journal ++ later) g position d success := by
  rcases satisfied with found | ⟨old, moved⟩
  · exact .inl (mem_append_left _ found)
  · exact .inr ⟨old, moved.trans (sublist_append_left ..)⟩

theorem of_transition (listened : .examined g position d false ∈ journal) (old : Status) :
    Satisfied (journal ++ [.transitioned d old success]) g position d success :=
  .inr ⟨old, (singleton_sublist.mpr listened).append (List.Sublist.refl _)⟩

/-- A position is satisfied by being found ready, or by a transition while it is listened to. -/
theorem of_append_singleton {occurrence : Occurrence}
    (satisfied : Satisfied (journal ++ [occurrence]) g position d success) :
    Satisfied journal g position d success ∨ occurrence = .examined g position d true ∨
      .examined g position d false ∈ journal ∧ ∃ old, occurrence = .transitioned d old success := by
  rcases satisfied with found | ⟨old, moved⟩
  · rcases mem_append.mp found with earlier | last
    · exact .inl (.inl earlier)
    · exact .inr (.inl (mem_singleton.mp last).symm)
  · -- Either both occurrences came before, or the transition is the last one.
    obtain ⟨left, right, split, early, late⟩ := sublist_append_iff.mp moved
    rcases right with _ | ⟨first, _ | ⟨second, others⟩⟩
    · rw [append_nil] at split
      exact .inl (.inr ⟨old, split ▸ early⟩)
    · have last : [Occurrence.examined g position d false] ++
          [.transitioned d old success] = left ++ [first] := split
      obtain ⟨rfl, same⟩ := append_inj' last rfl
      cases same
      refine .inr (.inr ⟨singleton_sublist.mp early, old, ?_⟩)
      exact (mem_singleton.mp (singleton_sublist.mp late)).symm
    · have short := late.length_le
      simp at short

theorem examined (satisfied : Satisfied journal g position d success) :
    ∃ found, .examined g position d found ∈ journal := by
  rcases satisfied with found | ⟨_, moved⟩
  · exact ⟨true, found⟩
  · exact ⟨false, moved.subset (mem_cons_self ..)⟩

/-- Only pivotal occurrences count. -/
theorem filter_iff :
    Satisfied (journal.filter Occurrence.isPivotal) g position d success ↔
      Satisfied journal g position d success := by
  constructor
  · rintro (found | ⟨old, moved⟩)
    · exact .inl (mem_of_mem_filter found)
    · exact .inr ⟨old, moved.trans filter_sublist⟩
  · rintro (found | ⟨old, moved⟩)
    · exact .inl (mem_filter.mpr ⟨found, rfl⟩)
    · exact .inr ⟨old, moved.filter Occurrence.isPivotal⟩

end Satisfied

namespace OpensOnce

variable {g : GateRef} {met : List Occurrence → Prop} {journal : List Occurrence}

theorem of_not_mem (shut : .gateOpened g ∉ journal) : OpensOnce g met journal := by
  intro before after split
  exact absurd (by rw [split]; simp) shut

/-- An entry about something else changes nothing. -/
theorem append_other (once : OpensOnce g met journal) {occurrence : Occurrence}
    (other : occurrence ≠ .gateOpened g) : OpensOnce g met (journal ++ [occurrence]) := by
  intro before after split
  rcases eq_nil_or_concat after with rfl | ⟨earlier, last, rfl⟩
  · exact absurd (append_inj' split rfl).2 (by simpa using other)
  · have shorter : journal ++ [occurrence] = (before ++ .gateOpened g :: earlier) ++ [last] := by
      simpa using split
    exact once before earlier (append_inj' shorter rfl).1

/-- A gate may open once its condition is met. -/
theorem append_opened (shut : .gateOpened g ∉ journal) (now : met journal) :
    OpensOnce g met (journal ++ [.gateOpened g]) := by
  intro before after split
  rcases eq_nil_or_concat after with rfl | ⟨earlier, last, rfl⟩
  · obtain ⟨rfl, _⟩ := append_inj' split rfl
    exact ⟨now, shut⟩
  · have shorter : journal ++ [.gateOpened g] = (before ++ .gateOpened g :: earlier) ++ [last] := by
      simpa using split
    have within := (append_inj' shorter rfl).1
    exact absurd (by rw [within]; simp) shut

/-- Only pivotal occurrences count. -/
theorem of_filter {met' : List Occurrence → Prop}
    (once : OpensOnce g met (journal.filter Occurrence.isPivotal))
    (holds : ∀ before : List Occurrence, met (before.filter Occurrence.isPivotal) → met' before) :
    OpensOnce g met' journal := by
  intro before after split
  obtain ⟨now, fresh⟩ := once (before.filter Occurrence.isPivotal)
    (after.filter Occurrence.isPivotal) (by rw [split, filter_append]; rfl)
  exact ⟨holds before now, fun member => fresh (mem_filter.mpr ⟨member, rfl⟩)⟩

/-- A gate opens at most once. -/
theorem count_le_one (once : OpensOnce g met journal) :
    journal.count (.gateOpened g) ≤ 1 := by
  by_cases opened : .gateOpened g ∈ journal
  · obtain ⟨before, after, split, fresh⟩ := eq_append_cons_of_mem opened
    have never : .gateOpened g ∉ after := by
      intro again
      obtain ⟨between, rest, later⟩ := append_of_mem again
      have second : journal = (before ++ .gateOpened g :: between) ++ .gateOpened g :: rest := by
        rw [split, later, append_assoc, cons_append]
      exact (once _ _ second).2 (by simp)
    rw [split, count_append, count_eq_zero.mpr fresh, count_cons_self,
      count_eq_zero.mpr never]
  · rw [count_eq_zero.mpr opened]
    exact Nat.zero_le 1

end OpensOnce

end Readiness
