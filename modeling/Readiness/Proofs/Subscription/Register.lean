import Readiness.Proofs.Subscription.Numbered

/-! The entries of an executable as one list in the order of registration.

Buckets only help to find what is due without going through everything. Main statement: whatever is
asked of the entries, in whatever order, they answer as the list would, and hold what the list
holds.
-/

namespace Readiness

open List

/-- One line of a register: who is called for which status, for one call only or not, and along with
which group. -/
structure Registration where
  /-- The listener to call. -/
  listener : Listener
  /-- The status to call it for, where the sentinel stands for every status. -/
  key : Status
  /-- Whether the first call is the last one. -/
  once : Bool
  /-- The group of registrations that are gone as soon as one of them is called. -/
  group : Option Nat
  deriving DecidableEq

/-- Whether a transition to a status calls the listener. -/
def Registration.isDue (line : Registration) (status : Status) : Bool :=
  decide (line.key = .null) || decide (line.key = status)

/-- Whether a listener is removed from one status, or from all of them, along with this line. -/
def Registration.isOf (line : Registration) (listener : Listener) (status : Option Status) : Bool :=
  decide (line.listener = listener) && (status.isNone || decide (status = some line.key))

/-- Registrations in the order in which they were made. -/
structure Register where
  /-- The registrations that are in force. -/
  lines : List Registration := []
  /-- How many groups have been registered. -/
  groups : Nat := 0
  deriving DecidableEq

/-- What can be asked of the entries of an executable. -/
inductive Demand where
  /-- To call a listener for a status, or for every transition. -/
  | add (listener : Listener) (status : Option Status) (once : Bool)
  /-- To call one of several listeners. -/
  | addGroup (linked : List (Listener × Status))
  /-- To call a listener for one status no longer, or for none. -/
  | remove (listener : Listener) (status : Option Status)
  /-- To tell who is to be called for a transition to a status. -/
  | take (status : Status)

/-- What is answered to a demand. -/
inductive Response where
  /-- Nothing but that it is done. -/
  | done
  /-- Whether anything was removed. -/
  | removed (any : Bool)
  /-- Who is to be called, in this order. -/
  | due (listeners : List Listener)
  deriving DecidableEq

/-- Meets one demand after another, and collects the answers. -/
def meetAll {State : Type} (meet : State → Demand → State × Response) :
    State → List Demand → State × List Response
  | state, [] => (state, [])
  | state, demand :: rest =>
    let (met, response) := meet state demand
    let (final, responses) := meetAll meet met rest
    (final, response :: responses)

/-- How a register meets a demand. -/
def Register.meet (register : Register) : Demand → Register × Response
  | .add listener status once =>
    ({ register with
      lines := register.lines ++ [⟨listener, status.getD .null, once, none⟩] }, .done)
  | .addGroup linked =>
    ({ lines := register.lines ++ linked.map fun link =>
        ⟨link.1, link.2, true, some register.groups⟩
       groups := register.groups + 1 }, .done)
  | .remove listener status =>
    ({ register with lines := register.lines.filter (!·.isOf listener status) },
      .removed (register.lines.any (·.isOf listener status)))
  | .take status =>
    let batch := register.lines.filter (·.isDue status)
    -- A line goes if it is called and was good for one call, or if one of its group is called.
    ({ register with
      lines := register.lines.filter fun line =>
        !(line.once && line.isDue status) && !line.group.any (batch.filterMap (·.group)).contains },
      .due (batch.map (·.listener)))

namespace Subscriptions

variable {subscriptions : Subscriptions} {bucket : Status × List Entry} {entry : Entry}

/-- How the entries of an executable meet a demand. -/
def meet (subscriptions : Subscriptions) : Demand → Subscriptions × Response
  | .add listener status once => (subscriptions.add listener status once, .done)
  | .addGroup linked => (subscriptions.addGroup linked, .done)
  | .remove listener status =>
    let left := subscriptions.remove listener status
    (left, .removed (left.size != subscriptions.size))
  | .take status =>
    (subscriptions.settle status, .due ((subscriptions.due status).map Entry.listener))

/-- All entries with their statuses, in the order of registration. -/
def ordered (subscriptions : Subscriptions) : List (Status × Entry) :=
  sortOrdered (fun left right => decide (left.2.sequence ≤ right.2.sequence)) subscriptions.listing

/-- An entry without its number. -/
def registration (filed : Status × Entry) : Registration :=
  ⟨filed.2.listener, filed.1, filed.2.once, filed.2.group⟩

/-- The register that the entries stand for. -/
def register (subscriptions : Subscriptions) : Register :=
  ⟨subscriptions.ordered.map registration, subscriptions.nextGroup⟩

/-- There is no bucket without entries, entries of one bucket stand in the order of their numbers,
no number is used twice or above the next one, and entries of a group are for one call. -/
structure Tidy (subscriptions : Subscriptions) : Prop where
  /-- No bucket is empty. -/
  filled : ∀ bucket ∈ subscriptions.buckets, bucket.2 ≠ []
  /-- The numbers within a bucket go up. -/
  ascending : ∀ bucket ∈ subscriptions.buckets,
    bucket.2.Pairwise fun earlier later => earlier.sequence < later.sequence
  /-- No status has two buckets, no two entries have one number, and the next one is above all. -/
  numbered : subscriptions.Numbered
  /-- An entry of a group is for one call, and the next group is above its own. -/
  grouped : ∀ filed ∈ subscriptions.listing, ∀ g ∈ filed.2.group,
    filed.2.once = true ∧ g < subscriptions.nextGroup

theorem mem_listing_of_mem_bucket (member : bucket ∈ subscriptions.buckets)
    (within : entry ∈ bucket.2) : (bucket.1, entry) ∈ subscriptions.listing :=
  mem_flatMap.mpr ⟨bucket, member, mem_map_of_mem within⟩

/-- Filing an entry adds it at the end of one bucket, and leaves the others alone. -/
theorem mem_fileUnder {key : Status} {buckets : List (Status × List Entry)}
    (member : bucket ∈ fileUnder key entry buckets) :
    bucket ∈ buckets ∨ bucket = (key, [entry]) ∨
      ∃ entries, (key, entries) ∈ buckets ∧ bucket = (key, entries ++ [entry]) := by
  induction buckets with
  | nil => exact .inr (.inl (mem_singleton.mp member))
  | cons head rest ih =>
    unfold fileUnder at member
    split at member
    · -- The bucket of the status is found here, and those after it stay as they are.
      rename_i same
      rcases mem_cons.mp member with rfl | later
      · subst same
        exact .inr (.inr ⟨_, mem_cons_self, rfl⟩)
      · exact .inl (mem_cons_of_mem _ later)
    · rcases mem_cons.mp member with rfl | later
      · exact .inl mem_cons_self
      · rcases ih later with old | new | ⟨entries, among, longer⟩
        · exact .inl (mem_cons_of_mem _ old)
        · exact .inr (.inl new)
        · exact .inr (.inr ⟨entries, mem_cons_of_mem _ among, longer⟩)

namespace Tidy

theorem empty : ({} : Subscriptions).Tidy :=
  ⟨forall_mem_nil _, forall_mem_nil _, .empty,
    forall_mem_nil _⟩

/-- A registration takes the next number, which is above all others of its bucket. -/
theorem insert (tidy : subscriptions.Tidy) (listener : Listener) (key : Status) (once : Bool)
    {group : Option Nat}
    (fits : ∀ g ∈ group, once = true ∧ g < subscriptions.nextGroup) :
    (subscriptions.insert listener key once group).Tidy where
  filled := by
    intro bucket member
    rcases mem_fileUnder member with old | rfl | ⟨entries, _, rfl⟩
    · exact tidy.filled bucket old
    · exact cons_ne_nil _ _
    · exact append_ne_nil_of_right_ne_nil _ (cons_ne_nil _ _)
  ascending := by
    intro bucket member
    rcases mem_fileUnder member with old | rfl | ⟨entries, among, rfl⟩
    · exact tidy.ascending bucket old
    · exact pairwise_singleton ..
    · refine pairwise_append.mpr ⟨tidy.ascending _ among, pairwise_singleton .., ?_⟩
      intro earlier within new last
      rw [mem_singleton.mp last]
      exact tidy.numbered.below _ (mem_listing_of_mem_bucket among within)
  numbered := tidy.numbered.insert listener key once group
  grouped := by
    intro filed member g own
    rcases mem_cons.mp
      ((subscriptions.listing_insert_perm listener key once group).mem_iff.mp member) with rfl | old
    · exact fits g own
    · exact tidy.grouped filed old g own

/-- Removing entries leaves no bucket empty, and the others in order. -/
theorem restrict (tidy : subscriptions.Tidy) (keep : Status → Entry → Bool) :
    (subscriptions.restrict keep).Tidy where
  filled := by
    intro bucket member
    have some_left := (mem_filter.mp member).2
    simpa using some_left
  ascending := by
    intro bucket member
    obtain ⟨old, among, rfl⟩ := mem_map.mp (mem_of_mem_filter member)
    exact (tidy.ascending old among).filter _
  numbered := tidy.numbered.restrict keep
  grouped := by
    intro filed member
    rw [listing_restrict] at member
    exact tidy.grouped filed (mem_of_mem_filter member)

end Tidy

theorem ordered_perm (subscriptions : Subscriptions) :
    subscriptions.ordered.Perm subscriptions.listing :=
  sortOrdered_perm _ _

namespace Numbered

variable (numbered : subscriptions.Numbered)
include numbered

theorem ordered_pairwise : subscriptions.ordered.Pairwise fun earlier later =>
    earlier.2.sequence < later.2.sequence := by
  have distinct : (subscriptions.ordered.map (·.2.sequence)).Nodup :=
    (subscriptions.ordered_perm.map _).nodup_iff.mpr numbered.distinct
  exact sortOrdered_pairwise_lt (fun filed : Status × Entry => filed.2.sequence) distinct

/-- There is only one list of the entries in the order of their numbers. -/
theorem ordered_eq {entries : List (Status × Entry)} (same : entries.Perm subscriptions.listing)
    (sorted : entries.Pairwise fun earlier later => earlier.2.sequence < later.2.sequence) :
    subscriptions.ordered = entries := by
  refine List.Perm.eq_of_pairwise (fun left right _ _ first second => ?_)
    numbered.ordered_pairwise sorted (subscriptions.ordered_perm.trans same.symm)
  exact absurd first (Nat.lt_asymm second)

/-- A new entry is the last one. -/
theorem ordered_insert (listener : Listener) (key : Status) (once : Bool) (group : Option Nat) :
    (subscriptions.insert listener key once group).ordered =
      subscriptions.ordered ++ [(key, ⟨listener, once, subscriptions.nextSequence, group⟩)] := by
  have perm := subscriptions.listing_insert_perm listener key once group
  refine (numbered.insert listener key once group).ordered_eq ?_ ?_
  · exact ((subscriptions.ordered_perm.append_right _).trans (perm_append_singleton ..)).trans
      perm.symm
  · refine pairwise_append.mpr ⟨numbered.ordered_pairwise, pairwise_singleton .., ?_⟩
    intro earlier member new last
    rw [mem_singleton.mp last]
    exact numbered.below earlier (subscriptions.ordered_perm.mem_iff.mp member)

theorem ordered_restrict (keep : Status → Entry → Bool) :
    (subscriptions.restrict keep).ordered =
      subscriptions.ordered.filter fun filed => keep filed.1 filed.2 := by
  refine (numbered.restrict keep).ordered_eq ?_ (numbered.ordered_pairwise.filter _)
  rw [listing_restrict]
  exact subscriptions.ordered_perm.filter _

/-- What is due are the entries for the status and those for every transition, in the order of
registration. -/
theorem due_eq (status : Status) : subscriptions.due status =
    (subscriptions.ordered.filter fun filed => (registration filed).isDue status).map Prod.snd := by
  -- Both are the same entries in the order of their numbers.
  have perm := (numbered.keyed.due_perm status).trans
    ((subscriptions.ordered_perm.symm.filter _).map _)
  refine List.Perm.eq_of_pairwise (fun left right _ _ first second => ?_)
    (numbered.due_pairwise status) ?_ perm
  · exact absurd first (Nat.lt_asymm second)
  · exact pairwise_map.mpr (numbered.ordered_pairwise.filter _)

end Numbered

theorem lines_register (subscriptions : Subscriptions) :
    subscriptions.register.lines = subscriptions.ordered.map registration := rfl

theorem length_lines_register (subscriptions : Subscriptions) :
    subscriptions.register.lines.length = subscriptions.size := by
  rw [lines_register, length_map, subscriptions.ordered_perm.length_eq,
    size_eq_length_entries]
  unfold listing entries
  simp

theorem register_insert (numbered : subscriptions.Numbered) (listener : Listener) (key : Status)
    (once : Bool) (group : Option Nat) :
    (subscriptions.insert listener key once group).register =
      ⟨subscriptions.register.lines ++ [⟨listener, key, once, group⟩],
        subscriptions.nextGroup⟩ := by
  unfold register
  rw [numbered.ordered_insert, map_append]
  rfl

/-- Removing entries removes their lines. -/
theorem register_restrict (numbered : subscriptions.Numbered)
    {keep : Status → Entry → Bool} {stays : Registration → Bool}
    (alike : ∀ filed, keep filed.1 filed.2 = stays (registration filed)) :
    (subscriptions.restrict keep).register =
      ⟨subscriptions.register.lines.filter stays, subscriptions.nextGroup⟩ := by
  have kept : subscriptions.ordered.filter (fun filed => keep filed.1 filed.2) =
      subscriptions.ordered.filter (stays ∘ registration) :=
    filter_congr fun filed _ => alike filed
  unfold register
  rw [numbered.ordered_restrict, filter_map, kept]
  rfl

/-- Registering listeners in a row adds a line for each of them. -/
theorem register_foldl_insert (tidy : subscriptions.Tidy) (linked : List (Listener × Status))
    {g : Nat} (spent : g < subscriptions.nextGroup) :
    let grown := linked.foldl (fun grown link => grown.insert link.1 link.2 true (some g))
      subscriptions
    grown.Tidy ∧ grown.register =
      ⟨subscriptions.register.lines ++ linked.map fun link => ⟨link.1, link.2, true, some g⟩,
        subscriptions.nextGroup⟩ := by
  induction linked generalizing subscriptions with
  | nil => exact ⟨tidy, by rw [map_nil, append_nil]; rfl⟩
  | cons link rest ih =>
    have one := register_insert tidy.numbered link.1 link.2 true (some g)
    have fits : ∀ number ∈ some g, true = true ∧ number < subscriptions.nextGroup := by
      rintro _ ⟨⟩
      exact ⟨rfl, spent⟩
    obtain ⟨ordered, added⟩ := ih (tidy.insert link.1 link.2 true fits) spent
    refine ⟨ordered, added.trans ?_⟩
    rw [one, append_assoc]
    rfl

section

variable (numbered : subscriptions.Numbered)
include numbered

/-- Something was removed exactly if there are fewer entries than before. -/
theorem size_remove_bne (listener : Listener) (status : Option Status) :
    ((subscriptions.remove listener status).size != subscriptions.size) =
      subscriptions.register.lines.any (·.isOf listener status) := by
  have left : (subscriptions.remove listener status).register.lines =
      subscriptions.register.lines.filter (!·.isOf listener status) :=
    congrArg Register.lines (register_restrict numbered fun _ => rfl)
  rw [← length_lines_register, ← length_lines_register, left, Bool.eq_iff_iff, bne_iff_ne, ne_eq,
    length_filter_eq_length_iff]
  simp

/-- The lines that are due are those of the entries that are. -/
theorem map_due_eq (status : Status) {α : Type} {ofEntry : Entry → α} {ofLine : Registration → α}
    (alike : ∀ filed, ofEntry filed.2 = ofLine (registration filed)) :
    (subscriptions.due status).map ofEntry =
      (subscriptions.register.lines.filter (·.isDue status)).map ofLine := by
  rw [numbered.due_eq, lines_register, filter_map, map_map, map_map]
  exact map_congr_left fun filed _ => alike filed

/-- A transition removes the lines that are called for the last time, and those of groups of which
one is called. -/
theorem register_settle (status : Status) :
    (subscriptions.settle status).register = (subscriptions.register.meet (.take status)).1 := by
  have groups : (subscriptions.due status).filterMap (·.group) =
      (subscriptions.register.lines.filter (·.isDue status)).filterMap (·.group) := by
    have alike : (subscriptions.due status).map Entry.group =
        (subscriptions.register.lines.filter (·.isDue status)).map Registration.group :=
      map_due_eq numbered status fun _ => rfl
    simpa [filterMap_map] using congrArg (List.filterMap id) alike
  rw [settle, groups]
  refine register_restrict numbered fun filed => ?_
  rw [Status.isNull_eq]
  rfl

end

/-- Entries that are in order meet a demand as their register does. -/
theorem Tidy.meet_eq (tidy : subscriptions.Tidy) (demand : Demand) :
    (subscriptions.meet demand).1.Tidy ∧
      subscriptions.register.meet demand =
        ((subscriptions.meet demand).1.register, (subscriptions.meet demand).2) := by
  cases demand with
  | add listener status once =>
    refine ⟨tidy.insert listener _ once fun g own => (by cases own), ?_⟩
    exact Prod.ext (register_insert tidy.numbered ..).symm rfl
  | addGroup linked =>
    -- The number of the group is spent before the first of its listeners is registered.
    have spent : ({ subscriptions with nextGroup := subscriptions.nextGroup + 1 } :
        Subscriptions).Tidy :=
      ⟨tidy.filled, tidy.ascending,
        ⟨tidy.numbered.keyed, tidy.numbered.distinct, tidy.numbered.below⟩,
        fun filed member g own => (tidy.grouped filed member g own).imp_right Nat.lt_succ_of_lt⟩
    obtain ⟨ordered, added⟩ := register_foldl_insert spent linked (Nat.lt_succ_self _)
    exact ⟨ordered, Prod.ext added.symm rfl⟩
  | remove listener status =>
    have left : (subscriptions.remove listener status).Tidy := tidy.restrict _
    refine ⟨left, Prod.ext (register_restrict tidy.numbered fun _ => rfl).symm ?_⟩
    exact congrArg Response.removed (size_remove_bne tidy.numbered listener status).symm
  | take status =>
    have left : (subscriptions.settle status).Tidy := by
      unfold settle
      exact tidy.restrict _
    refine ⟨left, Prod.ext (register_settle tidy.numbered status).symm ?_⟩
    exact congrArg Response.due (map_due_eq tidy.numbered status fun _ => rfl).symm

/-- Entries that are in order meet any demands as their register does. -/
theorem Tidy.meetAll_eq (tidy : subscriptions.Tidy) (demands : List Demand) :
    (meetAll meet subscriptions demands).1.Tidy ∧
      meetAll Register.meet subscriptions.register demands =
        ((meetAll meet subscriptions demands).1.register,
          (meetAll meet subscriptions demands).2) := by
  induction demands generalizing subscriptions with
  | nil => exact ⟨tidy, rfl⟩
  | cons demand rest ih =>
    obtain ⟨ordered, same⟩ := tidy.meet_eq demand
    obtain ⟨final, rest_same⟩ := ih ordered
    refine ⟨final, ?_⟩
    rw [meetAll, same]
    simp only [rest_same]
    rfl

/-- Whatever is asked of them, entries answer as the list of all registrations in their order does,
and hold what it holds. -/
theorem meetAll_eq_register (demands : List Demand) :
    let (subscriptions, responses) := meetAll meet {} demands
    let (register, answers) := meetAll Register.meet {} demands
    subscriptions.register = register ∧ responses = answers ∧
      subscriptions.size = register.lines.length ∧ subscriptions.Tidy := by
  obtain ⟨tidy, same⟩ := Tidy.empty.meetAll_eq demands
  have start : ({} : Subscriptions).register = {} := rfl
  rw [start] at same
  simp only [same]
  exact ⟨trivial, trivial, (length_lines_register _).symm, tidy⟩

-- A listener for every transition is called each time, one of two that are linked is called once
-- and takes the other along, and a listener that is removed is not called.
example : (meetAll meet {} [.add (.client 1) none false,
    .addGroup [(.client 2, .ready), (.client 3, .failed)], .add (.client 4) (some .ready) false,
    .remove (.client 4) (some .ready), .remove (.client 4) (some .ready), .take .ready,
    .take .failed]).2 =
    [.done, .done, .done, .removed true, .removed false, .due [.client 1, .client 2],
      .due [.client 1]] := by
  decide

end Subscriptions

end Readiness
