import Readiness.Proofs.Delivery.Turns

/-! Batches hold their calls in the order of registration, as the policy of their host has it. -/

namespace Readiness

/-- One call is made for an entry that was registered before that of another. -/
def Delivery.Before (earlier later : Delivery) : Prop :=
  ∃ first second, earlier.entry = some first ∧ later.entry = some second ∧ first < second

/-- The calls of a batch in the order of registration, or with the first one last. -/
def Batch.InOrder (settings : Settings) (batch : Batch) : Prop :=
  ∃ registered : List Delivery, registered.Pairwise Delivery.Before ∧
    batch.deliveries =
      if settings.dispatch.firstLast then registered.rotate 1 else registered

theorem Host.arrange_eq_rotate (host : Host) (deliveries : List Delivery) :
    host.arrange deliveries =
      if host.settings.dispatch.firstLast then deliveries.rotate 1 else deliveries := by
  cases deliveries with
  | nil => simp [arrange]
  | cons first rest => simp [arrange]

theorem Entry.delivery_pairwise {entries : List Entry}
    (ordered : entries.Pairwise fun earlier later => earlier.sequence < later.sequence) :
    (entries.map Entry.delivery).Pairwise Delivery.Before :=
  List.pairwise_map.mpr (ordered.imp fun less => ⟨_, _, rfl, rfl, less⟩)

/-- Entries are numbered, and every batch holds its calls in the order of registration. -/
structure Filed (traffic : Traffic) : Prop where
  numbered : ∀ e, (traffic.subscriptions e).Numbered
  announced : ∀ e transition entries, .announce e transition entries ∈ traffic.calls →
    entries.Pairwise fun earlier later => earlier.sequence < later.sequence
  vacant : ∀ h, traffic.hosts ≤ h → (traffic.depot h).queue ++ (traffic.depot h).deferred = []
  ordered : ∀ h, ∀ batch ∈ (traffic.depot h).queue ++ (traffic.depot h).deferred,
    batch.InOrder (traffic.depot h).settings

namespace Filed

variable {given : Surroundings} {traffic next : Traffic}

variable (filed : Filed traffic)
include filed

theorem numbered_update {e : ExecutableRef} {changed : Subscriptions} (own : changed.Numbered)
    (other : ExecutableRef) : (Function.update traffic.subscriptions e changed other).Numbered := by
  by_cases here : other = e
  · subst here
    rw [Function.update_self]
    exact own
  · rw [Function.update_of_ne here]
    exact filed.numbered other

/-- Every step keeps the entries numbered. -/
theorem numbered_step (step : given.Step traffic next) (e : ExecutableRef) :
    (next.subscriptions e).Numbered := by
  cases step with
  | subscribe more | listen asked opened more =>
    exact filed.numbered_update ((filed.numbered _).grown more) e
  | unsubscribe keep => exact filed.numbered_update ((filed.numbered _).restrict keep) e
  | move => exact filed.numbered_update ((filed.numbered _).settle _) e
  | destroy => exact filed.numbered_update (.clear _) e
  | _ => exact filed.numbered e

/-- Every step keeps what is due on a transition in the order of registration. -/
theorem announced_step (step : given.Step traffic next) {e : ExecutableRef}
    {transition : Transition} {entries : List Entry}
    (member : .announce e transition entries ∈ next.calls) :
    entries.Pairwise fun earlier later => earlier.sequence < later.sequence := by
  rcases step.mem_announce member with old | ⟨real, rfl⟩
  · exact filed.announced e transition entries old
  · exact (filed.numbered e).due_pairwise _

/-- A host with which a batch waits after a step was open before it. -/
theorem lt_hosts_of_waiting (step : given.Step traffic next)
    (waits : batch ∈ (next.depot h).queue ++ (next.depot h).deferred) : h < traffic.hosts := by
  rcases step.mem_batches waits with old | ⟨_, _, _, _, _, _, opened, _⟩ | ⟨_, _, _, _, opened, _⟩
  · by_contra beyond
    rw [filed.vacant h (Nat.le_of_not_lt beyond)] at old
    cases old
  · exact opened
  · exact opened

/-- Every step keeps the batches in order. -/
theorem step (step : given.Step traffic next) : Filed next where
  numbered := filed.numbered_step step
  announced := fun _ _ _ member => filed.announced_step step member
  vacant := by
    intro h beyond
    have before := Nat.le_trans step.hosts_le beyond
    rw [List.eq_nil_iff_forall_not_mem]
    exact fun batch waits => Nat.not_lt_of_le before (filed.lt_hosts_of_waiting step waits)
  ordered := by
    intro h batch waits
    rw [step.settings_eq (filed.lt_hosts_of_waiting step waits)]
    rcases step.mem_batches waits with old | ⟨e, transition, entries, calls, top, rfl, _, rfl⟩ |
      ⟨e, listener, _, _, _, rfl⟩
    · exact filed.ordered h batch old
    · have ordered := filed.announced e transition entries
        (by rw [top]; exact List.mem_cons_self ..)
      exact ⟨entries.map Entry.delivery, Entry.delivery_pairwise ordered,
        Host.arrange_eq_rotate ..⟩
    · exact ⟨[⟨listener, none⟩], List.pairwise_singleton .., by simp⟩

end Filed

theorem Machine.Reachable.filed {machine : Machine} (reachable : machine.Reachable) :
    Filed machine.traffic := by
  refine reachable.traffic_invariant (.refl _) ⟨fun _ => .empty, ?_, fun _ _ => rfl, ?_⟩
    fun _ step filed => filed.step step
  · intro _ _ _ member
    cases member
  · intro _ _ waits
    cases waits

end Readiness
