import Readiness.Proofs.Machine.Change

/-! What the view mentions of gates: no gate is mentioned before it is set up, and only the gate
itself sees to it that it is counted.
-/

namespace Readiness

/-- A listener counts for no gate from a number on. -/
def Listener.Before (bound : Nat) (listener : Listener) : Prop :=
  ∀ g position, listener = .countdown g position → g < bound

/-- A listener counts for no gate at all. -/
def Listener.Uncounting (listener : Listener) : Prop :=
  ∀ g position, listener ≠ .countdown g position

/-- A frame goes through no gate from a number on, and does not count for any when one fails. -/
structure Frame.Before (bound : Nat) (frame : Frame) : Prop where
  gate : ∀ g ∈ frame.gate?, g < bound
  listeners : ∀ listener ∈ frame.listeners, listener.Uncounting

/-- The gate that an occurrence is about. -/
def Occurrence.gate? : Occurrence → Option GateRef
  | .examined g _ _ _ | .gateOpened g => some g
  | _ => none

/-- An occurrence is about no gate from a number on. -/
def Occurrence.Before (bound : Nat) (occurrence : Occurrence) : Prop :=
  ∀ g ∈ occurrence.gate?, g < bound

/-- A listener that is called when a dependency fails counts for no gate. -/
def Command.Uncounting (command : Command) : Prop :=
  ∀ e target dependencies listener, command = .synchronise e target dependencies (some listener) →
    listener.Uncounting

theorem Frame.before_of_plain {frame : Frame} (ungated : frame.gate? = none)
    (plain : frame.listeners = []) (bound : Nat) : frame.Before bound :=
  ⟨fun _ member => (by rw [ungated] at member; cases member),
    fun _ member => (by rw [plain] at member; cases member)⟩

namespace View

/-- Every gate that is mentioned has been set up. -/
structure Bounded (view : View) : Prop where
  watches : ∀ d, ∀ watch ∈ view.watches d, watch.2.Before view.gates.length
  alerts : ∀ call ∈ view.alerts, call.2.Before view.gates.length
  duties : ∀ duty ∈ view.duties, duty.Before view.gates.length
  journal : ∀ occurrence ∈ view.journal, occurrence.Before view.gates.length
  request : ∀ command ∈ view.errand, command.Uncounting

end View

variable {given : Circumstances} {view next : View}

/-- A watch that a gate puts on a dependency counts for that gate or for none. -/
theorem Circumstances.mem_links {g : GateRef} {position : Nat} {d : ExecutableRef}
    {onFailure : Option Listener} {watch : Status × Listener}
    (member : watch ∈ given.links g position d onFailure) :
    watch = ((given.work d).readyStatus, .countdown g position) ∨
      watch.2 ∈ onFailure ∧ watch.1 ∈ (given.work d).failedStatuses := by
  unfold links at member
  rcases Multiset.mem_cons.mp member with first | failure
  · exact .inl first
  · obtain ⟨listener, kept, member⟩ := List.mem_flatMap.mp (Multiset.mem_coe.mp failure)
    obtain ⟨status, failed, rfl⟩ := List.mem_map.mp member
    exact .inr ⟨by simpa using (List.mem_filter.mp kept).1, failed⟩

namespace Circumstances.Step

/-- What is noted of a gate is that it opens, or that one of its dependencies is gone through. -/
theorem mem_journal (step : given.Step view next) {occurrence : Occurrence}
    (member : occurrence ∈ next.journal) : occurrence ∈ view.journal ∨
      ∀ g ∈ occurrence.gate?,
        g < next.gates.length ∨ ∃ duty ∈ view.duties, duty.gate? = some g := by
  have noted {before : List Occurrence} {new : Occurrence} {known : GateRef → Prop}
      (member : occurrence ∈ before ++ [new]) (about : ∀ g ∈ new.gate?, known g) :
      occurrence ∈ before ∨ ∀ g ∈ occurrence.gate?, known g := by
    rcases List.mem_append.mp member with old | last
    · exact .inl old
    · exact .inr (List.mem_singleton.mp last ▸ about)
  have counted {mid : View} {g : GateRef} (made : mid.gates.length = next.gates.length)
      (member : occurrence ∈ (mid.countOrRelease g).journal) : occurrence ∈ mid.journal ∨
        ∀ g ∈ occurrence.gate?, g < next.gates.length ∨
          ∃ duty ∈ view.duties, duty.gate? = some g := by
    unfold View.countOrRelease at member
    split at member
    · refine noted member fun other about => ?_
      cases about
      exact .inl (made ▸ View.lt_of_remaining ‹_›)
    · exact .inl member
  cases step with
  | move => exact noted member fun _ about => by cases about
  | passThrough =>
    refine noted member fun g about => ?_
    cases about
    exact .inl (by simp)
  | count idle top =>
    rcases counted (by simp [View.count]) member with before | opened
    · refine noted before fun g about => ?_
      cases about
      rcases top with top | top <;> exact .inr ⟨_, top ▸ List.mem_cons_self .., rfl⟩
    · exact .inr opened
  | watch idle top =>
    refine noted member fun g about => ?_
    cases about
    exact .inr ⟨_, top ▸ List.mem_cons_self .., rfl⟩
  | tick => exact @counted { view with alerts := _, errand := none } _ (by simp [View.count]) member
  | _ => exact .inl member

/-- Gates are never taken back. -/
theorem gates_le (step : given.Step view next) : view.gates.length ≤ next.gates.length := by
  by_contra fewer
  exact Nat.lt_irrefl _ (step.gate_kept (Nat.not_le.mp fewer)).1

/-- A step of the protocol mentions no gate before it is set up. -/
theorem bounded (step : given.Step view next) (bounded : view.Bounded) : next.Bounded where
  watches d watch member g position about := by
    rcases step.watch_cases member with
      ⟨old, _⟩ | ⟨_, _, gate, place, rest, onFailure, examined, linked⟩
    · exact Nat.lt_of_lt_of_le (bounded.watches d watch old g position about) step.gates_le
    · have before := bounded.duties _ examined
      rcases mem_links linked with same | ⟨heard, _⟩
      · cases (congrArg Prod.snd same).symm.trans about
        exact Nat.lt_of_lt_of_le (before.gate g rfl) step.gates_le
      · exact absurd about (before.listeners watch.2 (Option.mem_toList.mpr heard) g position)
  alerts call member g position about := by
    refine Nat.lt_of_lt_of_le ?_ step.gates_le
    rcases step.alert_cases member with old | ⟨watched, _⟩
    · exact bounded.alerts call old g position about
    · exact bounded.watches _ _ watched g position about
  duties duty member := by
    -- A duty that carries on another one is for the same gate and the same listener.
    have kept {old : Frame} (listed : old ∈ view.duties) (gate : duty.gate? = old.gate?)
        (listeners : duty.listeners = old.listeners) : duty.Before next.gates.length := by
      have before := bounded.duties old listed
      exact ⟨fun g about => Nat.lt_of_lt_of_le (before.gate g (gate ▸ about)) step.gates_le,
        listeners ▸ before.listeners⟩
    rcases step.duty_cases member with old | new
    · exact kept old rfl rfl
    · cases new with
      | begin | gather | inspect | moves => exact Frame.before_of_plain rfl rfl _
      | enter asked gates =>
        refine ⟨fun g about => ?_, fun listener heard => ?_⟩
        · cases about
          simp [gates]
        · rw [Option.mem_toList.mp heard] at asked
          exact bounded.request _ asked _ _ _ listener rfl
      | examine armed => exact kept armed rfl rfl
      | proceed came => rcases came with came | came <;> exact kept came rfl rfl
  journal occurrence member g about := by
    rcases step.mem_journal member with old | noted
    · exact Nat.lt_of_lt_of_le (bounded.journal occurrence old g about) step.gates_le
    · rcases noted g about with made | ⟨duty, listed, gate⟩
      · exact made
      · exact Nat.lt_of_lt_of_le ((bounded.duties duty listed).gate g gate) step.gates_le
  request command asks e target dependencies listener same g position counts := by
    subst same counts
    rcases step.errand_synchronise asks with ⟨_, foreign⟩ | ⟨_, _, own, _⟩
    · have client := foreign _ rfl
      cases client
    · cases own

end Circumstances.Step

/-- A run mentions no gate before it is set up. -/
theorem Machine.Reachable.bounded {machine : Machine} (reachable : machine.Reachable) :
    machine.view.Bounded := by
  refine reachable.reachesWhile.view_induction sound_empty (fun e _ => rfl) ?_
    fun _ _ _ _ _ taken bounded => taken.step.bounded bounded
  refine ⟨?_, ?_, ?_, ?_, ?_⟩
  · intro d watch member
    cases member
  · intro call member
    cases member
  · intro duty member
    cases member
  · intro occurrence member
    cases member
  · rintro _ ⟨⟩

end Readiness
