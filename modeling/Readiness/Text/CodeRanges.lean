/-! Sets of characters, given by closed ranges of code points. -/

namespace Readiness

/-- A set of characters, as the first and the last code point of each of its ranges. -/
abbrev CodeRanges := List (Nat × Nat)

namespace CodeRanges

/-- The ranges told by lengths in turn: of a gap, then of the range that follows it. -/
def ofRuns (start : Nat) : List Nat → CodeRanges
  | gap :: length :: rest =>
    (start + gap, start + gap + length - 1) :: ofRuns (start + gap + length) rest
  | _ => []

/-- Whether a character is in the set. -/
def covers (ranges : CodeRanges) (c : Char) : Bool :=
  ranges.any fun range => range.1 ≤ c.toNat && c.toNat ≤ range.2

/-- A character is in the set exactly if it lies in one of the ranges. -/
theorem covers_iff {ranges : CodeRanges} {c : Char} :
    ranges.covers c = true ↔ ∃ range ∈ ranges, range.1 ≤ c.toNat ∧ c.toNat ≤ range.2 := by
  simp [covers]

/-- A character between two bounds is not in the set if no range reaches between them. -/
theorem covers_eq_false_of_apart {ranges : CodeRanges} {c : Char} {low high : Nat}
    (apart : ranges.all (fun range => range.2 < low || high < range.1) = true)
    (above : low ≤ c.toNat) (below : c.toNat ≤ high) : ranges.covers c = false := by
  -- A range that held the character would reach between the bounds.
  rw [Bool.eq_false_iff]
  intro covered
  obtain ⟨range, member, first, last⟩ := covers_iff.mp covered
  have outside := List.all_eq_true.mp apart range member
  simp only [Bool.or_eq_true, decide_eq_true_eq] at outside
  omega

end CodeRanges

end Readiness
