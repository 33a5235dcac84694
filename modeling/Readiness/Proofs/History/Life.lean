import Mathlib.Data.List.DropRight
import Readiness.Proofs.Engine.Annals

/-! The life of one executable: when its executions began, and when it moved from where to where.

What is on file about an executable follows from its life alone. So the facts about its status, its
samples and whether it was ever settled are proved here by induction on a life, without a run.
-/

namespace Readiness

/-- One moment in the life of an executable. -/
inductive Moment where
  /-- An execution began. -/
  | began (time : Nat)
  /-- It moved from one status to another. -/
  | moved (time : Nat) (old new : Status)
  deriving DecidableEq

namespace Moment

/-- When it was. -/
def time : Moment → Nat
  | .began time | .moved time _ _ => time

/-- Whether it was a transition. -/
def isMove : Moment → Bool
  | .began _ => false
  | .moved _ _ _ => true

/-- The news of it, if it was a transition of that executable. -/
def event? (e : ExecutableRef) : Moment → Option Event
  | .began _ => none
  | .moved _ old new => some ⟨e, new, old⟩

/-- The status reached and when, if it was a transition. -/
def sample? : Moment → Option Sample
  | .began _ => none
  | .moved time _ new => some ⟨new, time⟩

end Moment

/-- The news of the transitions of a life. -/
def eventsOf (e : ExecutableRef) (life : List Moment) : List Event :=
  life.filterMap (Moment.event? e)

@[simp] theorem eventsOf_append_began (e : ExecutableRef) (life : List Moment) (time : Nat) :
    eventsOf e (life ++ [.began time]) = eventsOf e life := by
  simp [eventsOf, Moment.event?]

@[simp] theorem eventsOf_append_moved (e : ExecutableRef) (life : List Moment) (time : Nat)
    (old new : Status) :
    eventsOf e (life ++ [.moved time old new]) = eventsOf e life ++ [⟨e, new, old⟩] := by
  simp [eventsOf, Moment.event?]

/-- The transitions made since the last execution began, or all of them if there was none. -/
def recentSamples (life : List Moment) : List Sample :=
  -- The last execution ends the longest stretch of transitions, read from the back.
  (life.rtakeWhile Moment.isMove).filterMap Moment.sample?

/-- Transitions that lead from one status to another: each one starts where the one before it ended,
none keeps the status, and none goes to the sentinel. -/
def Leads : Status → List Event → Status → Prop
  | first, [], last => first = last
  | first, event :: rest, last =>
    event.previous = first ∧ event.status ≠ first ∧ event.status ≠ .null ∧
      Leads event.status rest last

/-- One more transition leads on from where the others ended. -/
theorem Leads.append {first middle : Status} {events : List Event}
    (leads : Leads first events middle) {event : Event} (starts : event.previous = middle)
    (changes : event.status ≠ middle) (real : event.status ≠ .null) :
    Leads first (events ++ [event]) event.status := by
  -- The others are followed one by one up to their end.
  induction events generalizing first with
  | nil =>
    have same : first = middle := leads
    subst same
    exact ⟨starts, changes, real, rfl⟩
  | cons head rest ih =>
    obtain ⟨begins, differs, sound, onward⟩ := leads
    exact ⟨begins, differs, sound, ih onward⟩

/-- What a life makes of an executable, whose host dates transitions or does not. -/
inductive Executable.Lived (timed : Bool) : List Moment → Executable → Prop where
  | fresh (id : String) (registered : Bool) (host : HostRef) (work : Work) :
    Lived timed [] { id, registered, host, work }
  | begin {life : List Moment} {executable : Executable} (lived : Lived timed life executable)
    {time : Nat} (late : ∀ moment ∈ life, moment.time ≤ time) :
    Lived timed (life ++ [.began time]) (executable.begin time)
  | move {life : List Moment} {executable : Executable} (lived : Lived timed life executable)
    {time : Nat} (late : ∀ moment ∈ life, moment.time ≤ time) {status : Status}
    (moves : executable.moves status = true) :
    Lived timed (life ++ [.moved time executable.status status])
      (executable.moveTo status (if timed then some time else none)).file
  | destroy {life : List Moment} {executable : Executable} (lived : Lived timed life executable) :
    Lived timed life { executable with destroyed := true }

namespace Executable.Lived

variable {timed : Bool} {life : List Moment} {executable : Executable}

section

variable (lived : Lived timed life executable)
include lived

/-- The transitions of a life lead from the sentinel to the current status. -/
theorem leads (e : ExecutableRef) : Leads .null (eventsOf e life) executable.status := by
  induction lived with
  | fresh id registered host work => rfl
  | begin _ _ ih =>
    rw [eventsOf_append_began]
    exact ih
  | @move _ executable _ time _ status moves ih =>
    obtain ⟨real, changes⟩ := (executable.moves_iff status).mp moves
    rw [eventsOf_append_moved]
    exact ih.append rfl changes real
  | destroy _ ih => exact ih

/-- It was settled before if some transition led to the ready status or to a failed one. -/
theorem settledBefore_iff (e : ExecutableRef) :
    executable.settledBefore = true ↔ ∃ event ∈ eventsOf e life,
      event.status = executable.readyStatus ∨ event.status ∈ executable.failedStatuses := by
  induction lived with
  | fresh id registered host work => simp [eventsOf]
  | begin _ _ ih =>
    rw [eventsOf_append_began]
    exact ih
  | @move life executable _ time _ status _ ih =>
    -- The flag is kept, or is set by the status that is reached.
    show (executable.settledBefore || decide (status = executable.readyStatus) ||
      executable.failedStatuses.contains status) = true ↔ ∃ event ∈ eventsOf e (life ++ _),
        event.status = executable.readyStatus ∨ event.status ∈ executable.failedStatuses
    rw [eventsOf_append_moved]
    simp [ih, or_and_right, exists_or, or_assoc]
  | destroy _ ih => exact ih

/-- Whoever is ready or has failed was settled before. -/
theorem settledBefore_of_settled (lawful : executable.work.fault? = none)
    (settled : executable.isReady = true ∨ executable.hasFailed = true) :
    executable.settledBefore = true := by
  induction lived with
  | fresh id registered host work =>
    -- Nobody starts out so, as the sentinel is none of those statuses.
    rcases settled with ready | failed
    · exact absurd (of_decide_eq_true ready).symm (work.readyStatus_ne_null lawful)
    · exact absurd rfl (Work.ne_null_of_mem_failedStatuses lawful (List.contains_iff_mem.mp failed))
  | begin _ _ ih => exact ih lawful settled
  | @move _ executable _ time _ status _ _ =>
    -- The status that is reached sets the flag itself.
    show (executable.settledBefore || decide (status = executable.readyStatus) ||
      executable.failedStatuses.contains status) = true
    rcases settled with ready | failed
    · have there : status = executable.readyStatus := of_decide_eq_true ready
      simp [there]
    · have among : executable.failedStatuses.contains status = true := failed
      rw [among, Bool.or_true]
  | destroy _ ih => exact ih lawful settled

end

theorem samples_eq (lived : Lived true life executable) :
    executable.samples = recentSamples life := by
  induction lived with
  | fresh id registered host work => rfl
  | begin _ _ _ => simp [Executable.begin, recentSamples, Moment.isMove]
  | @move _ executable _ time _ status _ ih =>
    simp [moveTo, file, ih, recentSamples, List.rtakeWhile_concat, Moment.isMove, Moment.sample?]
  | destroy _ ih => exact ih

/-- The moments of a life follow one another. -/
theorem pairwise (lived : Lived timed life executable) :
    life.Pairwise fun early late => early.time ≤ late.time := by
  induction lived with
  | fresh id registered host work => exact .nil
  | begin _ late ih | move _ late _ ih =>
    exact List.pairwise_append.mpr ⟨ih, List.pairwise_singleton _ _, fun moment member _ last =>
      List.mem_singleton.mp last ▸ late moment member⟩
  | destroy _ ih => exact ih

end Executable.Lived

/-- The samples of a life follow one another if its moments do. -/
theorem recentSamples_pairwise {life : List Moment}
    (ordered : life.Pairwise fun early late => early.time ≤ late.time) :
    (recentSamples life).Pairwise fun early late => early.time ≤ late.time := by
  refine List.Pairwise.filterMap _ (fun early late before first one second two => ?_)
    (ordered.sublist (List.rtakeWhile_suffix ..).sublist)
  -- A sample has the time of the transition that it stands for.
  have dated {moment : Moment} {sample : Sample} (taken : moment.sample? = some sample) :
      sample.time = moment.time := by
    cases moment with
    | began time => cases taken
    | moved time old new =>
      cases taken
      rfl
  rw [dated one, dated two]
  exact before

end Readiness
