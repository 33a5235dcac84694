import Mathlib.Data.Multiset.Filter
import Readiness.Subscription

/-! Subscriptions as one list of entries, whatever buckets they stand in. -/

namespace Readiness

open List

variable {subscriptions : Subscriptions}

/-- Whether an entry is listed for a status can be decided by comparing. -/
instance : LawfulBEq (Status × Entry) :=
  Prod.instLawfulBEq

namespace Subscriptions

/-- All entries, each with the status that it is registered for. -/
def listing (subscriptions : Subscriptions) : List (Status × Entry) :=
  subscriptions.buckets.flatMap fun bucket => bucket.2.map fun entry => (bucket.1, entry)

/-- No status has two buckets. -/
def Keyed (subscriptions : Subscriptions) : Prop :=
  (subscriptions.buckets.map Prod.fst).Nodup

/-- Filing an entry adds it to the list of its status and moves no other. -/
theorem fileUnder_listing_perm (key : Status) (entry : Entry)
    (buckets : List (Status × List Entry)) :
    ((fileUnder key entry buckets).flatMap fun bucket =>
        bucket.2.map fun entry => (bucket.1, entry)).Perm
      ((key, entry) :: buckets.flatMap fun bucket =>
        bucket.2.map fun entry => (bucket.1, entry)) := by
  induction buckets with
  | nil => exact .refl _
  | cons bucket rest ih =>
    rcases bucket with ⟨status, entries⟩
    unfold fileUnder
    split
    · -- The bucket is there already, and the entry goes behind what it holds.
      rename_i same
      subst same
      simp
    · -- The entry passes over this bucket.
      simp only [flatMap_cons]
      exact (List.Perm.append_left _ ih).trans perm_middle

theorem listing_insert_perm (subscriptions : Subscriptions) (listener : Listener) (key : Status)
    (once : Bool) (group : Option Nat) :
    (subscriptions.insert listener key once group).listing.Perm
      ((key, ⟨listener, once, subscriptions.nextSequence, group⟩) :: subscriptions.listing) :=
  fileUnder_listing_perm key _ subscriptions.buckets

/-- Restricting the entries of each bucket filters the list of all entries. -/
theorem listing_restrict (subscriptions : Subscriptions) (keep : Status → Entry → Bool) :
    (subscriptions.restrict keep).listing =
      subscriptions.listing.filter fun filed => keep filed.1 filed.2 := by
  unfold listing restrict
  simp only
  induction subscriptions.buckets with
  | nil => rfl
  | cons bucket rest ih =>
    rcases bucket with ⟨status, entries⟩
    -- A bucket that is dropped for being empty would not have contributed anything.
    have own : (entries.map fun entry => (status, entry)).filter
        (fun filed => keep filed.1 filed.2) =
          (entries.filter (keep status)).map fun entry => (status, entry) := by
      rw [filter_map]
      rfl
    simp only [map_cons, filter_cons, flatMap_cons, filter_append, own]
    cases kept : entries.filter (keep status) with
    | nil => simpa [kept] using ih
    | cons entry others => simpa [kept] using ih

/-- Filing an entry opens no second bucket for a status. -/
theorem fileUnder_keys (key : Status) (entry : Entry) (buckets : List (Status × List Entry)) :
    (fileUnder key entry buckets).map Prod.fst =
      if key ∈ buckets.map Prod.fst then buckets.map Prod.fst
      else buckets.map Prod.fst ++ [key] := by
  induction buckets with
  | nil => simp [fileUnder]
  | cons bucket rest ih =>
    rcases bucket with ⟨status, entries⟩
    unfold fileUnder
    by_cases same : status = key
    · simp [same]
    · have other : key ≠ status := fun equal => same equal.symm
      simp only [same, if_false, map_cons, ih, mem_cons, other, false_or]
      split <;> simp

section

variable (keyed : subscriptions.Keyed)
include keyed

/-- A registration keeps the buckets apart. -/
theorem Keyed.insert (listener : Listener) (key : Status) (once : Bool) (group : Option Nat) :
    (subscriptions.insert listener key once group).Keyed := by
  unfold Keyed Subscriptions.insert at *
  simp only [fileUnder_keys]
  split
  · exact keyed
  · rename_i absent
    -- The new key is none of the others.
    rw [nodup_append]
    refine ⟨keyed, by simp, ?_⟩
    intro status member other same
    simp only [mem_singleton] at same
    subst same
    exact fun equal => absent (equal ▸ member)

/-- A restriction keeps the buckets apart. -/
theorem Keyed.restrict (keep : Status → Entry → Bool) : (subscriptions.restrict keep).Keyed := by
  unfold Keyed Subscriptions.restrict at *
  -- The keys that are left are some of the keys there were, in the same order.
  have fewer : ((subscriptions.buckets.map fun bucket =>
      (bucket.1, bucket.2.filter (keep bucket.1))).filter (!·.2.isEmpty)).map Prod.fst
        |>.Sublist (subscriptions.buckets.map Prod.fst) := by
    have shorter := (filter_sublist (p := fun bucket : Status × List Entry =>
      !bucket.2.isEmpty) (l := subscriptions.buckets.map fun bucket =>
        (bucket.1, bucket.2.filter (keep bucket.1)))).map Prod.fst
    simpa [map_map, Function.comp_def] using shorter
  exact fewer.nodup keyed

/-- A bucket holds the entries of its status. -/
theorem Keyed.bucket_eq (key : Status) :
    subscriptions.bucket key =
      (subscriptions.listing.filter fun filed => decide (filed.1 = key)).map Prod.snd := by
  unfold Keyed at keyed
  unfold bucket listing
  generalize subscriptions.buckets = buckets at keyed ⊢
  induction buckets with
  | nil => rfl
  | cons bucket rest ih =>
    rcases bucket with ⟨status, entries⟩
    simp only [map_cons, nodup_cons] at keyed
    simp only [flatMap_cons, filter_append, map_append, lookup_cons]
    by_cases same : key = status
    · -- No later bucket has the key, so nothing is missed by stopping here.
      subst same
      have later : (rest.flatMap fun bucket => bucket.2.map fun entry => (bucket.1, entry)).filter
          (fun filed => decide (filed.1 = key)) = [] := by
        rw [filter_eq_nil_iff]
        intro filed member
        obtain ⟨bucket, among, within⟩ := mem_flatMap.mp member
        obtain ⟨entry, _, rfl⟩ := mem_map.mp within
        intro equal
        apply keyed.1
        simp only [decide_eq_true_eq] at equal
        exact equal ▸ mem_map_of_mem among
      simp [later, filter_map, Function.comp_def]
    · have passed : (key == status) = false := by simpa using same
      have none_here : (entries.map fun entry => (status, entry)).filter
          (fun filed => decide (filed.1 = key)) = [] := by
        rw [filter_eq_nil_iff]
        intro filed member
        obtain ⟨entry, _, rfl⟩ := mem_map.mp member
        simpa using fun equal => same equal.symm
      simpa [passed, none_here] using ih keyed.2

/-- What is due on a transition are the entries for its status and those for every transition. -/
theorem Keyed.due_perm (status : Status) :
    (subscriptions.due status).Perm
      ((subscriptions.listing.filter fun filed =>
        decide (filed.1 = .null) || decide (filed.1 = status)).map Prod.snd) := by
  unfold due
  refine (sortOrdered_perm _ _).trans ?_
  simp only [keyed.bucket_eq, Status.isNull_eq]
  by_cases real : status = .null
  · simp [real]
  simp only [real, decide_false, Bool.false_eq_true, if_false]
  rw [← map_append]
  apply List.Perm.map
  -- The two statuses differ, so no entry is counted under both.
  induction subscriptions.listing with
  | nil => exact .refl _
  | cons filed rest ih =>
    rcases filed with ⟨key, entry⟩
    by_cases every : key = .null
    · simpa [every, Ne.symm real] using ih
    · by_cases own : key = status
      · simpa [every, own, real] using (perm_middle.trans (ih.cons (key, entry)))
      · simpa [every, own] using ih

theorem Keyed.mem_listing_of_mem_due {status : Status} {entry : Entry}
    (due : entry ∈ subscriptions.due status) : ∃ key, (key, entry) ∈ subscriptions.listing := by
  obtain ⟨⟨key, _⟩, filed, rfl⟩ := mem_map.mp ((keyed.due_perm _).mem_iff.mp due)
  exact ⟨key, mem_of_mem_filter filed⟩

end

end Subscriptions

end Readiness
