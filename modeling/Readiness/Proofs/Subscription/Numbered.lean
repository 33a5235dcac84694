import Mathlib.Data.List.Pairwise
import Mathlib.Data.List.Nodup
import Readiness.Proofs.Subscription.Listing

/-! Sequence numbers: no two entries of an executable share one, and what is due on a transition is
called in their order.
-/

namespace Readiness

open List

variable {entry : Entry} {status : Status} {α : Type}

/-- An insertion keeps an ordered list ordered. -/
theorem insertOrdered_pairwise {le : α → α → Bool}
    (trans : ∀ a b c, le a b = true → le b c = true → le a c = true)
    (total : ∀ a b, le a b = false → le b a = true) {value : α} {values : List α}
    (ordered : values.Pairwise fun left right => le left right = true) :
    (insertOrdered le value values).Pairwise fun left right => le left right = true := by
  induction values with
  | nil => exact pairwise_singleton ..
  | cons head rest ih =>
    rw [pairwise_cons] at ordered
    unfold insertOrdered
    split
    · rename_i first
      refine pairwise_cons.mpr ⟨fun other member => ?_, pairwise_cons.mpr ordered⟩
      rcases mem_cons.mp member with rfl | later
      · exact first
      · exact trans _ _ _ first (ordered.1 other later)
    · rename_i after
      refine pairwise_cons.mpr ⟨fun other member => ?_, ih ordered.2⟩
      rcases mem_cons.mp ((insertOrdered_perm le value rest).mem_iff.mp member) with rfl | old
      · exact total _ _ (Bool.eq_false_iff.mpr after)
      · exact ordered.1 other old

/-- Sorting sorts. -/
theorem sortOrdered_pairwise {le : α → α → Bool}
    (trans : ∀ a b c, le a b = true → le b c = true → le a c = true)
    (total : ∀ a b, le a b = false → le b a = true) (values : List α) :
    (sortOrdered le values).Pairwise fun left right => le left right = true := by
  induction values with
  | nil => exact .nil
  | cons head rest ih => exact insertOrdered_pairwise trans total ih

/-- Sorting by numbers that are all different puts them in ascending order. -/
theorem sortOrdered_pairwise_lt (number : α → Nat) {values : List α}
    (distinct : ((sortOrdered (fun left right => decide (number left ≤ number right))
      values).map number).Nodup) :
    (sortOrdered (fun left right => decide (number left ≤ number right)) values).Pairwise
      fun left right => number left < number right := by
  have ordered : (sortOrdered (fun left right => decide (number left ≤ number right))
      values).Pairwise fun left right => decide (number left ≤ number right) = true := by
    refine sortOrdered_pairwise (fun a b c first second => ?_) (fun a b above => ?_) _
    · exact decide_eq_true (Nat.le_trans (of_decide_eq_true first) (of_decide_eq_true second))
    · exact decide_eq_true (Nat.le_of_not_le (of_decide_eq_false above))
  exact (ordered.and (pairwise_map.mp distinct)).imp fun both =>
    Nat.lt_of_le_of_ne (of_decide_eq_true both.1) both.2

namespace Subscriptions

/-- Entries may have been registered, and none removed. -/
inductive Grown (before : Subscriptions) : Subscriptions → Prop where
  | refl : Grown before before
  | insert {grown : Subscriptions} (more : Grown before grown) (listener : Listener) (key : Status)
    (once : Bool) (group : Option Nat) : Grown before (grown.insert listener key once group)
  | spend {grown : Subscriptions} (more : Grown before grown) :
    Grown before { grown with nextGroup := grown.nextGroup + 1 }

/-- Listeners may be registered one after the other. -/
theorem Grown.foldl {before grown : Subscriptions} (more : before.Grown grown)
    {insert : Subscriptions → Listener × Status → Subscriptions}
    (once : Bool) (group : Option Nat)
    (inserts : ∀ grown link, insert grown link = grown.insert link.1 link.2 once group)
    (links : List (Listener × Status)) : before.Grown (links.foldl insert grown) := by
  induction links generalizing grown with
  | nil => exact more
  | cons link rest ih =>
    rw [foldl_cons, inserts]
    exact ih (more.insert ..)

/-- Listeners may be added one by one. -/
theorem grown_foldl_add (subscriptions : Subscriptions) (once : Bool)
    (links : List (Listener × Status)) : subscriptions.Grown
      (links.foldl (fun grown link => grown.add link.1 (some link.2) once) subscriptions) :=
  Grown.foldl .refl once none (fun _ _ => rfl) links

/-- A group may be added. -/
theorem grown_addGroup (subscriptions : Subscriptions) (links : List (Listener × Status)) :
    subscriptions.Grown (subscriptions.addGroup links) :=
  Grown.foldl (.spend .refl) true (some subscriptions.nextGroup) (fun _ _ => rfl) links

/-- Entries may have been removed or registered, but none under a number that was used before. -/
structure Kept (before after : Subscriptions) : Prop where
  spent : before.nextSequence ≤ after.nextSequence
  listed : ∀ filed ∈ after.listing,
    filed ∈ before.listing ∨ before.nextSequence ≤ filed.2.sequence

namespace Kept

/-- Nothing need be left out. -/
theorem refl (subscriptions : Subscriptions) : subscriptions.Kept subscriptions :=
  ⟨Nat.le_refl _, fun _ member => .inl member⟩

/-- Registrations take new numbers. -/
theorem grown {before after : Subscriptions} (more : before.Grown after) : before.Kept after := by
  induction more with
  | refl => exact .refl before
  | @insert grown _ listener key once group ih =>
    refine ⟨Nat.le_succ_of_le ih.spent, fun filed member => ?_⟩
    rcases mem_cons.mp ((grown.listing_insert_perm listener key once group).mem_iff.mp member)
      with rfl | old
    · exact .inr ih.spent
    · exact ih.listed filed old
  | spend _ ih => exact ⟨ih.spent, ih.listed⟩

/-- Entries may be left out. -/
theorem restrict (subscriptions : Subscriptions) (keep : Status → Entry → Bool) :
    subscriptions.Kept (subscriptions.restrict keep) :=
  ⟨Nat.le_refl _, fun _ member =>
    .inl (mem_of_mem_filter (subscriptions.listing_restrict keep ▸ member))⟩

/-- Entries for one call may be spent. -/
theorem settle (subscriptions : Subscriptions) (status : Status) :
    subscriptions.Kept (subscriptions.settle status) := by
  unfold Subscriptions.settle
  exact restrict ..

/-- All entries may go. -/
theorem clear (subscriptions : Subscriptions) : subscriptions.Kept subscriptions.clear :=
  ⟨Nat.le_refl _, forall_mem_nil _⟩

end Kept

/-- The entries have numbers of their own, and the next one is free. -/
structure Numbered (subscriptions : Subscriptions) : Prop where
  /-- No status has two buckets. -/
  keyed : subscriptions.Keyed
  /-- No two entries share a number. -/
  distinct : (subscriptions.listing.map (·.2.sequence)).Nodup
  /-- The next number is above all others. -/
  below : ∀ filed ∈ subscriptions.listing, filed.2.sequence < subscriptions.nextSequence

namespace Numbered

variable {subscriptions : Subscriptions}

/-- There is nothing to number. -/
theorem empty : ({} : Subscriptions).Numbered :=
  ⟨nodup_nil, nodup_nil, forall_mem_nil _⟩

section

variable (numbered : subscriptions.Numbered)
include numbered

/-- A registration takes the next number. -/
theorem insert (listener : Listener) (key : Status) (once : Bool) (group : Option Nat) :
    (subscriptions.insert listener key once group).Numbered := by
  have filed := subscriptions.listing_insert_perm listener key once group
  refine ⟨numbered.keyed.insert .., ?_, fun entry member => ?_⟩
  · refine (filed.map _).nodup_iff.mpr (nodup_cons.mpr ⟨fun taken => ?_, numbered.distinct⟩)
    obtain ⟨entry, member, same⟩ := mem_map.mp taken
    exact absurd same (Nat.ne_of_lt (numbered.below entry member))
  · rcases mem_cons.mp (filed.mem_iff.mp member) with rfl | old
    · exact Nat.lt_succ_self _
    · exact Nat.lt_succ_of_lt (numbered.below entry old)

/-- New entries get new numbers. -/
theorem grown {grown : Subscriptions} (more : subscriptions.Grown grown) : grown.Numbered := by
  induction more with
  | refl => exact numbered
  | insert _ listener key once group ih => exact ih.insert listener key once group
  | spend _ ih => exact ⟨ih.keyed, ih.distinct, ih.below⟩

/-- Entries may be left out. -/
theorem restrict (keep : Status → Entry → Bool) : (subscriptions.restrict keep).Numbered := by
  refine ⟨numbered.keyed.restrict keep, ?_, fun entry member => ?_⟩
  · rw [listing_restrict]
    exact (filter_sublist.map _).nodup numbered.distinct
  · rw [listing_restrict] at member
    exact numbered.below entry (mem_of_mem_filter member)

/-- Entries for one call may be spent. -/
theorem settle (status : Status) : (subscriptions.settle status).Numbered := by
  unfold Subscriptions.settle
  exact numbered.restrict _

end

/-- All entries may go. -/
theorem clear (subscriptions : Subscriptions) : subscriptions.clear.Numbered :=
  ⟨nodup_nil, nodup_nil, forall_mem_nil _⟩

section

variable (numbered : subscriptions.Numbered)
include numbered

/-- What is due on a transition is called in the order of registration. -/
theorem due_pairwise (status : Status) :
    (subscriptions.due status).Pairwise
      fun earlier later => earlier.sequence < later.sequence := by
  have distinct : ((subscriptions.due status).map Entry.sequence).Nodup := by
    refine ((numbered.keyed.due_perm status).map Entry.sequence).nodup_iff.mpr ?_
    rw [map_map]
    exact (filter_sublist.map _).nodup numbered.distinct
  exact sortOrdered_pairwise_lt Entry.sequence distinct

/-- A number tells the entry. -/
theorem eq_of_sequence {left right : Status × Entry} (first : left ∈ subscriptions.listing)
    (second : right ∈ subscriptions.listing) (same : left.2.sequence = right.2.sequence) :
    left = right :=
  inj_on_of_nodup_map numbered.distinct first second same

/-- An entry is due on the transitions to its status, or on all of them. -/
theorem mem_due_iff {key : Status} (listed : (key, entry) ∈ subscriptions.listing) :
    entry ∈ subscriptions.due status ↔ key = .null ∨ key = status := by
  rw [(numbered.keyed.due_perm status).mem_iff, mem_map]
  constructor
  · rintro ⟨filed, found, rfl⟩
    obtain ⟨member, due⟩ := mem_filter.mp found
    have same : (key, filed.2) = filed := numbered.eq_of_sequence listed member rfl
    rw [← same] at due
    simpa using due
  · intro due
    exact ⟨(key, entry), mem_filter.mpr ⟨listed, by simpa using due⟩, rfl⟩

/-- No number is due where no entry has it. -/
theorem countP_due_eq_zero {n : Nat}
    (absent : ∀ filed ∈ subscriptions.listing, filed.2.sequence = n →
      filed.2 ∉ subscriptions.due status) :
    (subscriptions.due status).countP (·.sequence == n) = 0 := by
  rw [countP_eq_zero]
  intro entry due found
  obtain ⟨key, listed⟩ := numbered.keyed.mem_listing_of_mem_due due
  exact absent (key, entry) listed (by simpa using found) due

/-- An entry that is due has its number to itself. -/
theorem countP_due_eq_one (due : entry ∈ subscriptions.due status) :
    (subscriptions.due status).countP (·.sequence == entry.sequence) = 1 := by
  have distinct : ((subscriptions.due status).map Entry.sequence).Nodup :=
    pairwise_map.mpr ((numbered.due_pairwise _).imp Nat.ne_of_lt)
  have one := count_eq_one_of_mem distinct (mem_map_of_mem due)
  rwa [List.count, countP_map] at one

/-- An entry for one call is gone after the transition on which it was due. -/
theorem not_mem_settle {key : Status} (once : entry.once = true)
    (due : entry ∈ subscriptions.due status) :
    (key, entry) ∉ (subscriptions.settle status).listing := by
  intro left
  rw [Subscriptions.settle, listing_restrict] at left
  obtain ⟨listed, kept⟩ := mem_filter.mp left
  rcases (numbered.mem_due_iff listed).mp due with rfl | rfl
  · simp [once, Status.isNull] at kept
  · simp [once] at kept

end

end Numbered

end Subscriptions

end Readiness
