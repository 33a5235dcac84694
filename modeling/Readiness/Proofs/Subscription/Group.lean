import Mathlib.Data.List.Indexes
import Readiness.Proofs.Subscription.Numbered

/-! Groups: entries that are registered together, and gone together once one of them is called. -/

namespace Readiness

open List

namespace Subscriptions

variable {subscriptions : Subscriptions} {links : List (Listener × Status)} {filed : Status × Entry}

/-- The entries of listeners that are registered in a row, from a sequence number on. -/
def filings (links : List (Listener × Status)) (once : Bool) (first : Nat) (group : Option Nat) :
    List (Status × Entry) :=
  links.mapIdx fun place link => (link.2, ⟨link.1, once, first + place, group⟩)

/-- The first listener gets the first number. -/
theorem filings_cons (link : Listener × Status) (rest : List (Listener × Status)) (once : Bool)
    (first : Nat) (group : Option Nat) :
    filings (link :: rest) once first group =
      (link.2, ⟨link.1, once, first, group⟩) :: filings rest once (first + 1) group := by
  -- The places of the others are counted from one, which the first number makes up for.
  simp only [filings, mapIdx_cons, Nat.add_zero, List.cons.injEq, true_and]
  congr 1
  funext place link
  rw [Nat.add_assoc, Nat.add_comm 1]

/-- Whatever is filed belongs to one of the listeners. -/
theorem mem_filings {once : Bool} {first : Nat} {group : Option Nat}
    (member : filed ∈ filings links once first group) :
    (filed.2.listener, filed.1) ∈ links ∧ filed.2.once = once ∧ filed.2.group = group ∧
      first ≤ filed.2.sequence := by
  obtain ⟨place, within, rfl⟩ := mem_mapIdx.mp member
  exact ⟨getElem_mem within, rfl, rfl, Nat.le_add_right ..⟩

/-- Each link is filed. -/
theorem exists_mem_filings {link : Listener × Status} (listed : link ∈ links) (once : Bool)
    (first : Nat) (group : Option Nat) :
    ∃ filed ∈ filings links once first group, filed.2.listener = link.1 ∧ filed.1 = link.2 := by
  obtain ⟨place, within, rfl⟩ := mem_iff_getElem.mp listed
  exact ⟨_, mem_mapIdx.mpr ⟨place, within, rfl⟩, rfl, rfl⟩

/-- Links are filed under their statuses. -/
theorem countP_filings (links : List (Listener × Status)) (once : Bool) (first : Nat)
    (group : Option Nat) (status : Status) :
    (filings links once first group).countP (fun filed => decide (filed.1 = status)) =
      links.countP fun link => decide (link.2 = status) := by
  induction links generalizing first with
  | nil => rfl
  | cons link rest ih => simp only [filings_cons, countP_cons, ih]

section

variable (subscriptions : Subscriptions)

/-- Registering listeners in a row files one entry for each. -/
theorem listing_foldl_insert_perm (links : List (Listener × Status)) (once : Bool)
    (group : Option Nat) :
    (links.foldl (fun grown link => grown.insert link.1 link.2 once group)
      subscriptions).listing.Perm
        (filings links once subscriptions.nextSequence group ++ subscriptions.listing) := by
  -- Each registration puts one entry in front, whichever status it is filed under.
  induction links generalizing subscriptions with
  | nil => exact .refl _
  | cons link rest ih =>
    rw [filings_cons, cons_append, foldl_cons]
    refine (ih _).trans (((subscriptions.listing_insert_perm link.1 link.2 once group).append_left
      _).trans perm_middle)

/-- A group is added to what was listed. -/
theorem listing_addGroup_perm (links : List (Listener × Status)) :
    (subscriptions.addGroup links).listing.Perm
      (filings links true subscriptions.nextSequence (some subscriptions.nextGroup) ++
        subscriptions.listing) :=
  listing_foldl_insert_perm { subscriptions with nextGroup := subscriptions.nextGroup + 1 } links
    true (some subscriptions.nextGroup)

/-- Entries take no group number. -/
theorem nextGroup_foldl_insert (links : List (Listener × Status)) (once : Bool)
    (group : Option Nat) :
    (links.foldl (fun grown link => grown.insert link.1 link.2 once group)
      subscriptions).nextGroup = subscriptions.nextGroup := by
  induction links generalizing subscriptions with
  | nil => rfl
  | cons link rest ih => exact ih _

/-- A group takes one. -/
theorem nextGroup_addGroup (links : List (Listener × Status)) :
    (subscriptions.addGroup links).nextGroup = subscriptions.nextGroup + 1 :=
  nextGroup_foldl_insert ..

end

/-- An entry outlasts a transition unless it is spent, or its group is. -/
theorem mem_settle_iff {status : Status} :
    filed ∈ (subscriptions.settle status).listing ↔
      filed ∈ subscriptions.listing ∧
        ¬ (filed.2.once = true ∧ (filed.1 = .null ∨ filed.1 = status)) ∧
        ∀ g ∈ filed.2.group, ∀ other ∈ subscriptions.due status, other.group ≠ some g := by
  -- The filter asks whether the entry itself is spent, and then whether its group is.
  rw [settle, listing_restrict, mem_filter, Bool.and_eq_true]
  refine and_congr_right fun _ => and_congr ?_ ?_
  · rw [Bool.not_eq_true', ← Bool.not_eq_true, Bool.and_eq_true, Bool.or_eq_true,
      Status.isNull_eq, decide_eq_true_eq, decide_eq_true_eq]
  · simp only [Bool.not_eq_true', ← Bool.not_eq_true, Option.any_eq_true, contains_eq_mem,
      decide_eq_true_eq, mem_filterMap, not_exists, not_and, Option.mem_def, ne_eq]

/-- No group number is used before its time. -/
def Grouped (subscriptions : Subscriptions) : Prop :=
  ∀ filed ∈ subscriptions.listing, ∀ g ∈ filed.2.group, g < subscriptions.nextGroup

/-- Listeners of one kind may have been registered, one by one or as new groups. -/
inductive Enlisted (plain : Listener → Prop) (before : Subscriptions) : Subscriptions → Prop where
  | refl : Enlisted plain before before
  | add {grown : Subscriptions} (more : Enlisted plain before grown) {listener : Listener}
    (fits : plain listener) (status : Option Status) (once : Bool) :
    Enlisted plain before (grown.add listener status once)
  | addGroup {grown : Subscriptions} (more : Enlisted plain before grown)
    {links : List (Listener × Status)} (fits : ∀ link ∈ links, plain link.1) :
    Enlisted plain before (grown.addGroup links)

namespace Enlisted

variable {plain : Listener → Prop} {grown : Subscriptions}

variable (more : Enlisted plain subscriptions grown)
include more

/-- Listeners may be registered in a row. -/
theorem foldl_add {links : List (Listener × Status)} (fits : ∀ link ∈ links, plain link.1)
    (once : Bool) :
    Enlisted plain subscriptions
      (links.foldl (fun grown link => grown.add link.1 (some link.2) once) grown) := by
  induction links generalizing grown with
  | nil => exact more
  | cons link rest ih =>
    exact ih (more.add (fits link (mem_cons_self ..)) _ _)
      fun other member => fits other (mem_cons_of_mem _ member)

/-- Group numbers grow. -/
theorem nextGroup_le : subscriptions.nextGroup ≤ grown.nextGroup := by
  induction more with
  | refl => exact Nat.le_refl _
  | add more fits status once ih => exact ih
  | addGroup more fits ih =>
    rw [nextGroup_addGroup]
    exact Nat.le_succ_of_le ih

/-- Whatever was registered stays so, and the rest is of the kind admitted, in a new group if in
any. -/
theorem mem_listing {filed : Status × Entry} :
    (filed ∈ subscriptions.listing → filed ∈ grown.listing) ∧
      (filed ∈ grown.listing → filed ∈ subscriptions.listing ∨
        plain filed.2.listener ∧ ∀ g ∈ filed.2.group, subscriptions.nextGroup ≤ g) := by
  induction more with
  | refl => exact ⟨id, .inl⟩
  | @add grown more listener fits status once ih =>
    have listed := (grown.listing_insert_perm listener (status.getD .null) once none).mem_iff
      (a := filed)
    refine ⟨fun old => listed.mpr (mem_cons_of_mem _ (ih.1 old)), fun member => ?_⟩
    rcases mem_cons.mp (listed.mp member) with rfl | old
    · exact .inr ⟨fits, fun _ grouped => by cases grouped⟩
    · exact ih.2 old
  | @addGroup grown more links fits ih =>
    have listed := (grown.listing_addGroup_perm links).mem_iff (a := filed)
    refine ⟨fun old => listed.mpr (mem_append_right _ (ih.1 old)), fun member => ?_⟩
    rcases mem_append.mp (listed.mp member) with new | old
    · -- The group was numbered after those that were there at first.
      obtain ⟨among, _, grouped, _⟩ := mem_filings new
      refine .inr ⟨fits _ among, fun g own => ?_⟩
      rw [grouped] at own
      cases own
      exact more.nextGroup_le
    · exact ih.2 old

end Enlisted

namespace Grouped

theorem empty : ({} : Subscriptions).Grouped :=
  fun _ member => by cases member

/-- Registrations use group numbers in turn. -/
theorem enlisted {plain : Listener → Prop} {grown : Subscriptions}
    (grouped : subscriptions.Grouped) (more : Enlisted plain subscriptions grown) :
    grown.Grouped := by
  induction more with
  | refl => exact grouped
  | @add grown more listener fits status once ih =>
    intro filed member g own
    rcases mem_cons.mp ((grown.listing_insert_perm listener (status.getD .null) once
      none).mem_iff.mp member) with rfl | old
    · cases own
    · exact ih filed old g own
  | @addGroup grown more links fits ih =>
    -- The new group takes the number that was next.
    intro filed member g own
    rw [nextGroup_addGroup]
    rcases mem_append.mp ((grown.listing_addGroup_perm links).mem_iff.mp member) with new | old
    · obtain ⟨_, _, group, _⟩ := mem_filings new
      rw [group] at own
      cases own
      exact Nat.lt_succ_self _
    · exact Nat.lt_succ_of_lt (ih filed old g own)

theorem restrict (grouped : subscriptions.Grouped) (keep : Status → Entry → Bool) :
    (subscriptions.restrict keep).Grouped := by
  intro filed member
  rw [listing_restrict] at member
  exact grouped filed (mem_of_mem_filter member)

theorem settle (grouped : subscriptions.Grouped) (status : Status) :
    (subscriptions.settle status).Grouped := by
  unfold Subscriptions.settle
  exact grouped.restrict _

theorem clear (subscriptions : Subscriptions) : subscriptions.clear.Grouped :=
  fun _ member => by cases member

end Grouped

end Subscriptions

end Readiness
