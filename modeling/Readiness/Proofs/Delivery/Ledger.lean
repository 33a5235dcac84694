import Readiness.Proofs.Delivery.Stack

/-! The ledger of batches: which serial numbers have entered the queues of each host, and which have
left them.

Batches leave the dispatch queue in the order in which they entered it, and those that were put off
enter it in the order in which they were put off. No serial number is used twice.
-/

namespace Readiness

open List Function

namespace Occurrence

/-- The batch that enters the dispatch queue of this host. -/
def entered? (h : HostRef) : Occurrence → Option Nat
  | .queued other serial => if other = h then some serial else none
  | _ => none

/-- The batch that enters the deferred queue of this host. -/
def postponed? (h : HostRef) : Occurrence → Option Nat
  | .deferred other serial => if other = h then some serial else none
  | _ => none

/-- The batch that leaves the dispatch queue of this host to be delivered. -/
def opened? (h : HostRef) : Occurrence → Option Nat
  | .opened other serial => if other = h then some serial else none
  | _ => none

end Occurrence

/-- Where the batches of one host are, by their serial numbers. -/
@[ext] structure Account where
  /-- The batches in the dispatch queue. -/
  queue : List Nat
  /-- The batches in the deferred queue. -/
  deferred : List Nat
  /-- The batches that have entered the dispatch queue so far. -/
  entered : List Nat
  /-- The batches that have entered the deferred queue so far. -/
  postponed : List Nat
  /-- The batches that have left the dispatch queue so far. -/
  opened : List Nat

namespace Account

/-- The host has come to know a batch of this number. -/
def Mentions (account : Account) (serial : Nat) : Prop :=
  serial ∈ account.entered ∨ serial ∈ account.postponed

/-- A batch enters the dispatch queue. -/
def enter (account : Account) (serial : Nat) : Account :=
  { account with
    queue := account.queue ++ [serial]
    entered := account.entered ++ [serial] }

/-- A batch is put off. -/
def postpone (account : Account) (serial : Nat) : Account :=
  { account with
    deferred := account.deferred ++ [serial]
    postponed := account.postponed ++ [serial] }

/-- A batch goes from the deferred queue to the dispatch queue, or leaves that one. -/
inductive Forwards : Account → Account → Prop where
  | pump {account : Account} {serial : Nat} {others : List Nat}
    (first : account.deferred = serial :: others) :
    Forwards account { account.enter serial with deferred := others }
  | take {account : Account} {serial : Nat} {others : List Nat}
    (first : account.queue = serial :: others) :
    Forwards account { account with queue := others, opened := account.opened ++ [serial] }

/-- The books of one host balance. -/
structure Balanced (account : Account) : Prop where
  /-- Batches leave the dispatch queue in the order in which they entered it. -/
  queued : account.entered = account.opened ++ account.queue
  /-- Batches that were put off enter the dispatch queue in the order in which they were put off. -/
  deferred : account.postponed =
    account.entered.filter account.postponed.contains ++ account.deferred
  /-- No batch enters the dispatch queue twice. -/
  entered_nodup : account.entered.Nodup
  /-- No batch is put off twice. -/
  postponed_nodup : account.postponed.Nodup

variable {account after : Account} {serial : Nat}

section

variable (balanced : account.Balanced)
include balanced

/-- A new batch may enter the dispatch queue. -/
theorem Balanced.enter (unknown : ¬ account.Mentions serial) : (account.enter serial).Balanced where
  queued := by simp [Account.enter, balanced.queued]
  deferred := by
    have foreign : serial ∉ account.postponed := fun known => unknown (.inr known)
    have none_new : [serial].filter account.postponed.contains = [] := by simp [foreign]
    simp only [Account.enter, filter_append, none_new, append_nil]
    exact balanced.deferred
  entered_nodup := by
    simp only [Account.enter, ← concat_eq_append]
    exact balanced.entered_nodup.concat fun known => unknown (.inl known)
  postponed_nodup := balanced.postponed_nodup

/-- A new batch may be put off. -/
theorem Balanced.postpone (unknown : ¬ account.Mentions serial) :
    (account.postpone serial).Balanced where
  queued := balanced.queued
  deferred := by
    -- The batch has not entered the dispatch queue, so nothing else counts as put off.
    have same : account.entered.filter (account.postponed ++ [serial]).contains =
        account.entered.filter account.postponed.contains := by
      refine filter_congr fun other member => ?_
      have distinct : other ≠ serial := fun same => unknown (.inl (same ▸ member))
      simp [distinct]
    simp only [Account.postpone, same, ← append_assoc]
    rw [← balanced.deferred]
  entered_nodup := balanced.entered_nodup
  postponed_nodup := by
    simp only [Account.postpone, ← concat_eq_append]
    exact balanced.postponed_nodup.concat fun known => unknown (.inr known)

theorem Balanced.mem_postponed (waiting : serial ∈ account.deferred) :
    serial ∈ account.postponed := by
  rw [balanced.deferred]
  exact mem_append_right _ waiting

theorem Balanced.not_mem_entered (waiting : serial ∈ account.deferred) :
    serial ∉ account.entered := by
  intro entered
  have distinct := balanced.postponed_nodup
  rw [balanced.deferred] at distinct
  exact (nodup_append.mp distinct).2.2 serial
    (mem_filter.mpr ⟨entered, contains_iff_mem.mpr (balanced.mem_postponed waiting)⟩)
    serial waiting rfl

theorem Balanced.mentions_of_opened (opened : serial ∈ account.opened) : account.Mentions serial :=
  .inl (by rw [balanced.queued]; exact mem_append_left _ opened)

/-- A batch that waits in either queue was entered in the books, and has not been opened. -/
theorem Balanced.of_waiting (waiting : serial ∈ account.queue ++ account.deferred) :
    account.Mentions serial ∧ serial ∉ account.opened := by
  rcases mem_append.mp waiting with queued | deferred
  · have distinct := balanced.entered_nodup
    rw [balanced.queued] at distinct
    exact ⟨.inl (by rw [balanced.queued]; exact mem_append_right _ queued),
      fun opened => (nodup_append.mp distinct).2.2 serial opened serial queued rfl⟩
  · refine ⟨.inr (balanced.mem_postponed deferred), fun opened =>
      balanced.not_mem_entered deferred ?_⟩
    rw [balanced.queued]
    exact mem_append_left _ opened

/-- Batches may be forwarded. -/
theorem Balanced.forwards (step : Forwards account after) : after.Balanced := by
  cases step with
  | @pump serial others first =>
    have waiting : serial ∈ account.deferred := by rw [first]; exact mem_cons_self ..
    refine ⟨by simp [Account.enter, balanced.queued], ?_, ?_, balanced.postponed_nodup⟩
    · have moved : [serial].filter account.postponed.contains = [serial] := by
        simp [balanced.mem_postponed waiting]
      simp only [Account.enter, filter_append, moved, append_assoc, singleton_append]
      rw [← first]
      exact balanced.deferred
    · simp only [Account.enter, ← concat_eq_append]
      exact balanced.entered_nodup.concat (balanced.not_mem_entered waiting)
  | @take serial others first =>
    refine ⟨?_, balanced.deferred, balanced.entered_nodup, balanced.postponed_nodup⟩
    simp [balanced.queued, first]

end

/-- Forwarding makes no batch known. -/
theorem Forwards.mentions (step : Forwards account after) (balanced : account.Balanced)
    (known : after.Mentions serial) : account.Mentions serial := by
  cases step with
  | pump first =>
    simp only [Mentions, Account.enter, mem_append, mem_singleton] at known
    rcases known with (entered | rfl) | postponed
    · exact .inl entered
    · exact .inr (balanced.mem_postponed (by rw [first]; exact mem_cons_self ..))
    · exact .inr postponed
  | take first => exact known

end Account

/-- The books of all hosts, and the serial number of the next batch. -/
@[ext] structure Ledger where
  /-- The books of each host. -/
  account : HostRef → Account
  /-- The serial number of the next batch. -/
  next : Nat

namespace Ledger

/-- What can become of the ledger in one step. -/
inductive Step : Ledger → Ledger → Prop where
  | pass {ledger : Ledger} : Step ledger ledger
  | enter {ledger : Ledger} (h : HostRef) :
    Step ledger
      ⟨Function.update ledger.account h ((ledger.account h).enter ledger.next), ledger.next + 1⟩
  | postpone {ledger : Ledger} (h : HostRef) :
    Step ledger
      ⟨Function.update ledger.account h ((ledger.account h).postpone ledger.next),
        ledger.next + 1⟩
  | forward {ledger : Ledger} {h : HostRef} {after : Account}
    (goes : (ledger.account h).Forwards after) :
    Step ledger { ledger with account := Function.update ledger.account h after }

theorem Step.of_eq {ledger after same : Ledger} (step : Step ledger after) (equal : same = after) :
    Step ledger same :=
  equal ▸ step

/-- All books balance, and no batch is known to two hosts. -/
structure Balanced (ledger : Ledger) : Prop where
  account : ∀ h, (ledger.account h).Balanced
  below : ∀ h serial, (ledger.account h).Mentions serial → serial < ledger.next
  alone : ∀ h other serial, (ledger.account h).Mentions serial →
    (ledger.account other).Mentions serial → h = other

variable {ledger after : Ledger}

/-- A new batch, entered in the books of one host, keeps them balanced. -/
theorem Balanced.add (balanced : ledger.Balanced) {h : HostRef} {changed : Account}
    (own : changed.Balanced)
    (known : ∀ serial, changed.Mentions serial →
      (ledger.account h).Mentions serial ∨ serial = ledger.next) :
    Balanced ⟨Function.update ledger.account h changed, ledger.next + 1⟩ := by
  have mentions (other : HostRef) (serial : Nat)
      (found : (Function.update ledger.account h changed other).Mentions serial) :
      (ledger.account other).Mentions serial ∨ other = h ∧ serial = ledger.next := by
    by_cases here : other = h
    · subst here
      rw [update_self] at found
      exact (known serial found).imp_right fun new => ⟨rfl, new⟩
    · rw [update_of_ne here] at found
      exact .inl found
  refine ⟨forall_update_iff _ (p := fun _ (account : Account) => account.Balanced) |>.mpr
      ⟨own, fun other _ => balanced.account other⟩, fun other serial found => ?_,
    fun left right serial first second => ?_⟩
  · rcases mentions other serial found with old | ⟨_, rfl⟩
    · exact Nat.lt_succ_of_lt (balanced.below other serial old)
    · exact Nat.lt_succ_self _
  · -- The new number is known to nobody else, since it is above all others.
    rcases mentions left serial first with old | ⟨rfl, new⟩ <;>
      rcases mentions right serial second with older | ⟨rfl, newer⟩
    · exact balanced.alone left right serial old older
    · exact absurd (balanced.below left serial old) (newer ▸ Nat.lt_irrefl _)
    · exact absurd (balanced.below right serial older) (new ▸ Nat.lt_irrefl _)
    · rfl

/-- Every step keeps the books balanced. -/
theorem Balanced.step (balanced : ledger.Balanced) (step : Step ledger after) :
    after.Balanced := by
  have unknown (h : HostRef) : ¬ (ledger.account h).Mentions ledger.next :=
    fun known => Nat.lt_irrefl _ (balanced.below h _ known)
  cases step with
  | pass => exact balanced
  | enter h =>
    refine balanced.add ((balanced.account h).enter (unknown h)) fun serial known => ?_
    simp only [Account.Mentions, Account.enter, mem_append, mem_singleton] at known ⊢
    tauto
  | postpone h =>
    refine balanced.add ((balanced.account h).postpone (unknown h)) fun serial known => ?_
    simp only [Account.Mentions, Account.postpone, mem_append, mem_singleton] at known ⊢
    tauto
  | @forward h changed goes =>
    have fewer (other : HostRef) (serial : Nat)
        (found : (Function.update ledger.account h changed other).Mentions serial) :
        (ledger.account other).Mentions serial := by
      by_cases here : other = h
      · subst here
        rw [update_self] at found
        exact goes.mentions (balanced.account other) found
      · rwa [update_of_ne here] at found
    exact ⟨forall_update_iff _ (p := fun _ (account : Account) => account.Balanced) |>.mpr
        ⟨(balanced.account h).forwards goes, fun other _ => balanced.account other⟩,
      fun other serial found => balanced.below other serial (fewer other serial found),
      fun left right serial first second =>
        balanced.alone left right serial (fewer left serial first) (fewer right serial second)⟩

end Ledger

/-- The books of one host, as the traffic shows them. -/
def Traffic.account (traffic : Traffic) (h : HostRef) : Account where
  queue := (traffic.depot h).queue.map Batch.serial
  deferred := (traffic.depot h).deferred.map Batch.serial
  entered := traffic.journal.filterMap (Occurrence.entered? h)
  postponed := traffic.journal.filterMap (Occurrence.postponed? h)
  opened := traffic.journal.filterMap (Occurrence.opened? h)

/-- The books of all hosts, as the traffic shows them. -/
def Traffic.ledger (traffic : Traffic) : Ledger where
  account := traffic.account
  next := traffic.nextBatch

namespace Traffic

variable {traffic next : Traffic}

theorem account_congr (queue : ∀ h, (next.depot h).queue = (traffic.depot h).queue)
    (deferred : ∀ h, (next.depot h).deferred = (traffic.depot h).deferred)
    (journal : next.journal = traffic.journal) : next.account = traffic.account := by
  funext h
  simp only [account, queue, deferred, journal]

theorem account_note {occurrence : Occurrence} (depot : next.depot = traffic.depot)
    (journal : next.journal = traffic.journal ++ [occurrence])
    (other : ∀ h, occurrence.entered? h = none ∧ occurrence.postponed? h = none ∧
      occurrence.opened? h = none) : next.account = traffic.account := by
  funext h
  obtain ⟨entered, postponed, opened⟩ := other h
  simp [account, depot, journal, entered, postponed, opened]

theorem account_dispatch (traffic : Traffic) (h : HostRef) (batch : Batch) :
    (traffic.dispatch h batch).account =
      Function.update traffic.account h ((traffic.account h).enter batch.serial) := by
  funext other
  by_cases here : other = h
  · subst here
    simp [account, dispatch, Account.enter, Occurrence.entered?, Occurrence.postponed?,
      Occurrence.opened?]
  · simp [account, dispatch, here, Ne.symm here, Occurrence.entered?, Occurrence.postponed?,
      Occurrence.opened?]

theorem account_defer (traffic : Traffic) (h : HostRef) (batch : Batch) :
    (traffic.defer h batch).account =
      Function.update traffic.account h ((traffic.account h).postpone batch.serial) := by
  funext other
  by_cases here : other = h
  · subst here
    simp [account, defer, Account.postpone, Occurrence.entered?, Occurrence.postponed?,
      Occurrence.opened?]
  · simp [account, defer, here, Ne.symm here, Occurrence.entered?, Occurrence.postponed?,
      Occurrence.opened?]

/-- Every step of the traffic is a step of the ledger. -/
theorem ledger_step {given : Surroundings} (step : given.Step traffic next) :
    Ledger.Step traffic.ledger next.ledger := by
  have still {next : Traffic} (books : next.account = traffic.account)
      (number : next.nextBatch = traffic.nextBatch) : Ledger.Step traffic.ledger next.ledger :=
    Ledger.Step.pass.of_eq (Ledger.ext books number)
  cases step with
  | pass | subscribe | unsubscribe | tell | hear | hush | finish | destroy => exact .pass
  | openHost | close =>
    exact still (account_congr (fun h => Host.field_update Host.queue (by rfl) h)
      (fun h => Host.field_update Host.deferred (by rfl) h) rfl) rfl
  | move | invoke | settle => exact still (account_note rfl rfl fun h => ⟨rfl, rfl, rfl⟩) rfl
  | @post e => exact (Ledger.Step.enter (given.home e)).of_eq (Ledger.ext (account_dispatch ..) rfl)
  | @putOff e | @listen e =>
    exact (Ledger.Step.postpone (given.home e)).of_eq (Ledger.ext (account_defer ..) rfl)
  | @pump h batch others asked opened first calm free =>
    have goes : (traffic.account h).Forwards _ := .pump (show
      (traffic.account h).deferred = batch.serial :: others.map Batch.serial by
        simp [account, first])
    refine (Ledger.Step.forward goes).of_eq (Ledger.ext ((account_dispatch ..).trans ?_) rfl)
    funext other
    by_cases here : other = h
    · subst here
      simp [account, ledger, Account.enter]
    · simp [account, ledger, here]
  | @take h batch others calls top opened first =>
    have goes : (traffic.account h).Forwards _ := .take (show
      (traffic.account h).queue = batch.serial :: others.map Batch.serial by
        simp [account, first])
    refine (Ledger.Step.forward goes).of_eq (Ledger.ext ?_ rfl)
    funext other
    by_cases here : other = h
    · subst here
      simp [account, ledger, Occurrence.entered?, Occurrence.postponed?, Occurrence.opened?]
    · simp [account, ledger, here, Ne.symm here, Occurrence.entered?, Occurrence.postponed?,
        Occurrence.opened?]

end Traffic

/-- In every state of every run the books balance. -/
theorem Machine.Reachable.balanced {machine : Machine} (reachable : machine.Reachable) :
    machine.traffic.ledger.Balanced := by
  refine reachable.traffic_invariant (.refl _) (motive := fun traffic =>
    traffic.ledger.Balanced) ?_
    fun _ step balanced => balanced.step (Traffic.ledger_step step)
  refine ⟨fun h => ⟨rfl, rfl, nodup_nil, nodup_nil⟩, fun h serial known => ?_,
    fun h other serial known => ?_⟩
  · rcases known with known | known <;> cases known
  · rcases known with known | known <;> cases known

end Readiness
