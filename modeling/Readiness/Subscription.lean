import Readiness.Reference
import Readiness.Ordered
import Readiness.Status

/-! Subscriptions: which listeners an executable calls when it reaches a status.

Entries stand in one bucket for each status. The bucket of the null status holds the entries that
every transition calls, since no transition ends there.
-/

namespace Readiness

/-- Whom a transition is told to; two listeners are the same exactly if they are equal. -/
inductive Listener where
  /-- A listener of the client. -/
  | client (code : CodeRef)
  /-- Counts one position of a gate down. -/
  | countdown (gate : GateRef) (position : Nat)
  /-- Fails a composite along with one of its dependencies. -/
  | dependencyFailed (composite : ExecutableRef)
  /-- Ends a wait because the executable became ready. -/
  | waitReady (wait : WaitRef)
  /-- Ends a wait because the executable failed. -/
  | waitFailed (wait : WaitRef)
  deriving DecidableEq, Inhabited

/-- One registration of a listener. -/
structure Entry where
  /-- The listener to call. -/
  listener : Listener
  /-- Whether the first call is the last one. -/
  once : Bool
  /-- The place of the entry in the order of registration. -/
  sequence : Nat
  /-- The group of entries that are gone as soon as one of them is called. -/
  group : Option Nat
  deriving DecidableEq, Inhabited

/-- The entries of one executable. -/
structure Subscriptions where
  /-- Non-empty buckets by status, each in the order of registration. -/
  buckets : List (Status × List Entry) := []
  /-- The sequence number of the next entry. -/
  nextSequence : Nat := 0
  /-- The number of the next group. -/
  nextGroup : Nat := 0
  deriving DecidableEq, Inhabited

namespace Subscriptions

/-- Puts an entry at the end of the bucket of a status, which is opened if need be. -/
def fileUnder (key : Status) (entry : Entry) :
    List (Status × List Entry) → List (Status × List Entry)
  | [] => [(key, [entry])]
  | (status, entries) :: rest =>
    if status = key then (status, entries ++ [entry]) :: rest
    else (status, entries) :: fileUnder key entry rest

/-- Registers a listener under a status, possibly as a member of a group. -/
def insert (subscriptions : Subscriptions) (listener : Listener) (key : Status) (once : Bool)
    (group : Option Nat) : Subscriptions :=
  { subscriptions with
    buckets := fileUnder key ⟨listener, once, subscriptions.nextSequence, group⟩
      subscriptions.buckets
    nextSequence := subscriptions.nextSequence + 1 }

/-- Registers a listener for a status, or for every transition. -/
def add (subscriptions : Subscriptions) (listener : Listener) (status : Option Status)
    (once : Bool) : Subscriptions :=
  subscriptions.insert listener (status.getD .null) once none

/-- Registers one-shot listeners that settle together: when one is called, all are gone. -/
def addGroup (subscriptions : Subscriptions) (linked : List (Listener × Status)) :
    Subscriptions :=
  -- The group number is spent first, so that no later group can share it.
  linked.foldl (fun grown link => grown.insert link.1 link.2 true (some subscriptions.nextGroup))
    { subscriptions with nextGroup := subscriptions.nextGroup + 1 }

/-- The entries of one bucket. -/
def bucket (subscriptions : Subscriptions) (key : Status) : List Entry :=
  (subscriptions.buckets.lookup key).getD []

/-- All entries, bucket by bucket. -/
def entries (subscriptions : Subscriptions) : List Entry :=
  subscriptions.buckets.flatMap (·.2)

/-- How many entries there are. -/
def size (subscriptions : Subscriptions) : Nat :=
  subscriptions.buckets.foldr (fun bucket total => bucket.2.length + total) 0

/-- The size counts every entry once. -/
theorem size_eq_length_entries (subscriptions : Subscriptions) :
    subscriptions.size = subscriptions.entries.length := by
  -- The entries are the buckets put together, so their lengths add up.
  unfold size entries
  induction subscriptions.buckets with
  | nil => rfl
  | cons bucket rest ih => simp only [List.foldr_cons, List.flatMap_cons, List.length_append, ih]

/-- Keeps some of the entries, and no bucket that they leave empty. -/
def restrict (subscriptions : Subscriptions) (keep : Status → Entry → Bool) : Subscriptions :=
  { subscriptions with
    buckets := (subscriptions.buckets.map fun (status, entries) =>
      (status, entries.filter (keep status))).filter (!·.2.isEmpty) }

/-- Removes a listener from one status, or from all of them. -/
def remove (subscriptions : Subscriptions) (listener : Listener) (status : Option Status) :
    Subscriptions :=
  subscriptions.restrict fun key entry =>
    !(decide (entry.listener = listener) && (status.isNone || decide (status = some key)))

/-- The entries that a transition to a status calls, in the order of registration. -/
def due (subscriptions : Subscriptions) (status : Status) : List Entry :=
  -- Two buckets take part, and the sequence numbers tell how they interleave.
  sortOrdered (fun left right => decide (left.sequence ≤ right.sequence))
    (subscriptions.bucket .null ++ if status.isNull then [] else subscriptions.bucket status)

/-- What is left after a transition to a status has called what is due. -/
def settle (subscriptions : Subscriptions) (status : Status) : Subscriptions :=
  -- One-shot entries that are due go, and so does every entry of a group with one of them.
  let groups := (subscriptions.due status).filterMap (·.group)
  subscriptions.restrict fun key entry =>
    !(entry.once && (key.isNull || decide (key = status))) &&
      !entry.group.any groups.contains

/-- No entries, with the numbers already used still spent. -/
def clear (subscriptions : Subscriptions) : Subscriptions :=
  { subscriptions with buckets := [] }

end Subscriptions

end Readiness
