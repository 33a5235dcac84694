import Readiness.Proofs.Subscription.Listing

/-! Watches: the entries by which one executable follows another.

A gate counts a dependency through such an entry, and a composite fails through one. They are never
registered for every transition, they are spent by their first call, and they belong to no group.
-/

namespace Readiness

open List

variable {subscriptions : Subscriptions}

/-- A listener by which the engine itself follows an executable on behalf of another. -/
def Listener.isWatcher : Listener → Bool
  | .countdown _ _ | .dependencyFailed _ => true
  | .client _ | .waitReady _ | .waitFailed _ => false

namespace Subscriptions

/-- The watches among the entries, each with the status that it waits for. -/
def watches (subscriptions : Subscriptions) : Multiset (Status × Listener) :=
  ((subscriptions.listing.filter fun filed => filed.2.listener.isWatcher).map
    fun filed => (filed.1, filed.2.listener) : List (Status × Listener))

/-- Every watch waits for one status and for one call, and has no group. -/
def Watchful (subscriptions : Subscriptions) : Prop :=
  ∀ filed ∈ subscriptions.listing, filed.2.listener.isWatcher = true →
    filed.1 ≠ .null ∧ filed.2.once = true ∧ filed.2.group = none

/-- A registration adds a watch if its listener is a watcher. -/
theorem watches_insert (subscriptions : Subscriptions) (listener : Listener) (key : Status)
    (once : Bool) (group : Option Nat) :
    (subscriptions.insert listener key once group).watches =
      (if listener.isWatcher then {(key, listener)} else 0) + subscriptions.watches := by
  unfold watches
  -- The order of the entries does not matter, so the new one may stand in front.
  rw [Multiset.coe_eq_coe.mpr (((subscriptions.listing_insert_perm listener key once
    group).filter _).map _)]
  cases watcher : listener.isWatcher <;> simp [watcher]

/-- Watches are counted one by one when a list of listeners is registered. -/
theorem watches_foldl_add (links : List (Listener × Status)) (once : Bool)
    (subscriptions : Subscriptions) :
    (links.foldl (fun grown link => grown.add link.1 (some link.2) once) subscriptions).watches =
      ((links.filter fun link => link.1.isWatcher).map fun link => (link.2, link.1) :
        List (Status × Listener)) + subscriptions.watches := by
  induction links generalizing subscriptions with
  | nil => simp
  | cons link rest ih =>
    rw [foldl_cons, ih, add, watches_insert, Option.getD_some]
    cases watcher : link.1.isWatcher
    · simp [watcher]
    · simp [watcher, ← Multiset.cons_coe]

/-- A group of listeners none of which is a watcher adds no watch. -/
theorem watches_addGroup {links : List (Listener × Status)}
    (foreign : ∀ link ∈ links, link.1.isWatcher = false) (subscriptions : Subscriptions) :
    (subscriptions.addGroup links).watches = subscriptions.watches := by
  unfold addGroup
  -- Spending the group number leaves the buckets alone.
  have start : ({ subscriptions with nextGroup := subscriptions.nextGroup + 1 } :
      Subscriptions).watches = subscriptions.watches := rfl
  rw [← start]
  generalize ({ subscriptions with nextGroup := subscriptions.nextGroup + 1 } :
    Subscriptions) = grown
  induction links generalizing grown with
  | nil => rfl
  | cons link rest ih =>
    rw [foldl_cons, ih (fun other member => foreign other (by simp [member])),
      watches_insert]
    simp [foreign link (by simp)]

/-- Entries that are kept or dropped without regard to the watches among them leave these alone. -/
theorem watches_restrict_of_keep {keep : Status → Entry → Bool}
    (kept : ∀ filed ∈ subscriptions.listing, filed.2.listener.isWatcher = true →
      keep filed.1 filed.2 = true) :
    (subscriptions.restrict keep).watches = subscriptions.watches := by
  unfold watches
  rw [listing_restrict, filter_filter]
  congr 2
  apply filter_congr
  intro filed member
  cases watcher : filed.2.listener.isWatcher
  · simp
  · simp [kept filed member watcher]

/-- Removing a listener of another kind leaves the watches alone. -/
theorem watches_remove {listener : Listener} (foreign : listener.isWatcher = false)
    (subscriptions : Subscriptions) (status : Option Status) :
    (subscriptions.remove listener status).watches = subscriptions.watches := by
  apply watches_restrict_of_keep
  intro filed _ watcher
  have different : filed.2.listener ≠ listener := by
    intro same
    rw [same, foreign] at watcher
    cases watcher
  simp [different]

section

variable (watchful : subscriptions.Watchful)
include watchful

/-- A transition spends the watches for its status, and only those. -/
theorem Watchful.watches_settle (status : Status) :
    (subscriptions.settle status).watches =
      subscriptions.watches.filter fun watch => watch.1 ≠ status := by
  unfold watches settle
  simp only [listing_restrict]
  rw [Multiset.filter_coe, filter_map, filter_filter, filter_filter]
  congr 2
  apply filter_congr
  intro filed member
  cases watcher : filed.2.listener.isWatcher
  · simp
  · -- A watch is one-shot and has no group, so its status alone decides.
    obtain ⟨keyed, once, alone⟩ := watchful filed member watcher
    simp [once, alone, Status.isNull_eq, keyed]

/-- The watches that are due on a transition are those for its status. -/
theorem Watchful.due_watches (keyed : subscriptions.Keyed) (status : Status) :
    (((subscriptions.due status).filter fun entry => entry.listener.isWatcher).map
        Entry.listener : Multiset Listener) =
      (subscriptions.watches.filter fun watch => watch.1 = status).map Prod.snd := by
  rw [Multiset.coe_eq_coe.mpr (((keyed.due_perm status).filter _).map _)]
  unfold watches
  rw [Multiset.filter_coe, Multiset.map_coe, filter_map, filter_filter, filter_map,
    filter_filter, map_map, map_map]
  congr 2
  apply filter_congr
  intro filed member
  cases watcher : filed.2.listener.isWatcher
  · simp [watcher]
  · simp [watcher, (watchful filed member watcher).1]

/-- A registration of another kind of listener keeps the watches in order. -/
theorem Watchful.insert {listener : Listener} {key : Status} {once : Bool} {group : Option Nat}
    (fits : listener.isWatcher = true → key ≠ .null ∧ once = true ∧ group = none) :
    (subscriptions.insert listener key once group).Watchful := by
  intro filed member watcher
  rcases mem_cons.mp ((subscriptions.listing_insert_perm listener key once
    group).mem_iff.mp member) with rfl | old
  · exact fits watcher
  · exact watchful filed old watcher

theorem Watchful.restrict (keep : Status → Entry → Bool) :
    (subscriptions.restrict keep).Watchful := by
  intro filed member watcher
  rw [listing_restrict] at member
  exact watchful filed (mem_of_mem_filter member) watcher

end

end Subscriptions

end Readiness
