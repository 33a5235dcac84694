import Readiness.Proofs.Roster.Entries
import Readiness.Script.Performance

/-! Executables that cannot be built.

The statuses of the work are looked at first, then the id. Main statement: which fault is reported
is settled by the first of four conditions, a refusal leaves everything as it was, and so builds
that are refused can be left out of any sequence without a difference to what the others get.
-/

namespace Readiness

/-- What is asked for when an executable is to be built. -/
structure Proposal where
  host : HostRef
  /-- The id to register it under, if any. -/
  id : Option String
  work : Work

/-- Why an executable cannot be built; of several reasons the first one counts. -/
inductive Proposal.Refused (proposal : Proposal) (machine : Machine) : Fault → Prop where
  /-- The sentinel stands for being ready. -/
  | nullReady (blank : proposal.work.readyStatus = .null) :
    Refused proposal machine (.nullReady proposal.work.name)
  /-- The sentinel stands for a failure. -/
  | nullFailed (named : proposal.work.readyStatus ≠ .null)
    (blank : .null ∈ proposal.work.failedStatuses) :
    Refused proposal machine (.nullFailed proposal.work.name)
  /-- Being ready is a failure. -/
  | readyIsFailed (named : proposal.work.readyStatus ≠ .null)
    (all_named : .null ∉ proposal.work.failedStatuses)
    (both : proposal.work.readyStatus ∈ proposal.work.failedStatuses) :
    Refused proposal machine (.readyIsFailed proposal.work.name proposal.work.readyStatus)
  /-- A living executable that was not destroyed has the id. -/
  | duplicateId (named : proposal.work.readyStatus ≠ .null)
    (all_named : .null ∉ proposal.work.failedStatuses)
    (apart : proposal.work.readyStatus ∉ proposal.work.failedStatuses)
    {id : String} (given : proposal.id = some id) {e : ExecutableRef} (kept : machine.Kept e)
    (bears : (machine.engine.executable e).Carries proposal.host id) :
    Refused proposal machine (.duplicateId id)

/-- What happens in a sequence of builds. -/
inductive Deed where
  | build (proposal : Proposal)
  | resolve (h : HostRef) (id : String)
  /-- Something else happens. -/
  | other (change : Machine → Machine)

/-- What comes of a deed. -/
inductive Upshot where
  /-- An executable with this id. -/
  | built (id : String)
  /-- Nothing, for this reason. -/
  | refused (fault : Fault)
  /-- The executable with the id that was looked up, if there is one. -/
  | resolved (found : Option ExecutableRef)
  /-- Nothing to speak of. -/
  | done
  deriving DecidableEq

/-- Whether nothing was built. -/
def Upshot.isRefusal : Upshot → Bool
  | .refused _ => true
  | .built _ | .resolved _ | .done => false

/-- The conditions that some work is tested for, in their order. -/
theorem Work.fault?_eq (work : Work) : work.fault? =
    if work.readyStatus = .null then some (.nullReady work.name)
    else if .null ∈ work.failedStatuses then some (.nullFailed work.name)
    else if work.readyStatus ∈ work.failedStatuses then
      some (.readyIsFailed work.name work.readyStatus)
    else none := by
  have blank : work.failedStatuses.any Status.isNull = decide (.null ∈ work.failedStatuses) := by
    rw [Bool.eq_iff_iff]
    simp [Status.isNull_eq]
  simp only [fault?, Status.isNull_eq, blank, List.contains_eq_mem, decide_eq_true_eq]

namespace Machine

variable {machine : Machine} {fault : Fault}

/-- Does one deed. -/
def carryOut (machine : Machine) : Deed → Machine × Upshot
  | .build proposal =>
    match machine.build proposal.host proposal.id proposal.work with
    | (after, .error fault) => (after, .refused fault)
    | (after, .ok e) => (after, .built (after.engine.executable e).id)
  | .resolve h id => (machine, .resolved (machine.resolve? h id))
  | .other change => (change machine, .done)

/-- Does one deed after the other. -/
def carryOutAll : Machine → List Deed → Machine × List Upshot
  | machine, [] => (machine, [])
  | machine, deed :: rest =>
    let (next, upshot) := machine.carryOut deed
    let (final, upshots) := next.carryOutAll rest
    (final, upshot :: upshots)

/-- The deeds that are left without the builds that are refused when it is their turn. -/
def unrefused : Machine → List Deed → List Deed
  | _, [] => []
  | machine, deed :: rest =>
    let (next, upshot) := machine.carryOut deed
    if upshot.isRefusal then next.unrefused rest else deed :: next.unrefused rest

/-- A build is refused for the first reason that there is. -/
theorem Reachable.build_eq_error_iff (reachable : machine.Reachable) (proposal : Proposal) :
    (machine.build proposal.host proposal.id proposal.work).2 = .error fault ↔
      proposal.Refused machine fault := by
  -- Whoever is found under an id is alive and carries it, whatever became of its entry.
  have taken (id : String) : (machine.resolve? proposal.host id).isSome = true ↔
      ∃ e, machine.Kept e ∧ (machine.engine.executable e).Carries proposal.host id := by
    simp only [Option.isSome_iff_exists, reachable.resolve?_eq_some_iff,
      reachable.sound.isAlive_iff_kept]
  have tests := proposal.work.fault?_eq
  constructor
  · intro refused
    cases unlawful : proposal.work.fault? with
    | some reason =>
      rw [build_of_fault unlawful] at refused
      obtain rfl : reason = fault := by simpa using refused
      rw [unlawful] at tests
      split_ifs at tests with ready failed both
      · cases tests
        exact .nullReady ready
      · cases tests
        exact .nullFailed ready failed
      · cases tests
        exact .readyIsFailed ready failed both
    | none =>
      rw [unlawful] at tests
      split_ifs at tests with ready failed both
      cases given : proposal.id with
      | none => simp [given, build_temporary unlawful] at refused
      | some id =>
        rw [given, build_registered unlawful] at refused
        split_ifs at refused with found
        obtain ⟨e, kept, bears⟩ := (taken id).mp found
        obtain rfl : .duplicateId id = fault := by simpa using refused
        exact .duplicateId ready failed both given kept bears
  · rintro (ready | ⟨ready, failed⟩ | ⟨ready, failed, both⟩ |
      ⟨ready, failed, both, given, kept, bears⟩)
    · rw [if_pos ready] at tests
      rw [build_of_fault tests]
    · rw [if_neg ready, if_pos failed] at tests
      rw [build_of_fault tests]
    · rw [if_neg ready, if_neg failed, if_pos both] at tests
      rw [build_of_fault tests]
    · rw [if_neg ready, if_neg failed, if_neg both] at tests
      rw [given, build_registered tests, if_pos ((taken _).mpr ⟨_, kept, bears⟩)]

/-- A build that is refused has used up no temporary id, has put nobody on the roster and has made
nothing: whichever test it fails, nothing has been done before. -/
theorem build_of_error {h : HostRef} {id : Option String} {work : Work} {after : Machine}
    (refused : machine.build h id work = (after, .error fault)) : after = machine := by
  cases lawful : work.fault? with
  | some reason =>
    rw [build_of_fault lawful] at refused
    cases refused
    rfl
  | none =>
    cases id with
    | none =>
      -- Here an id is used up, but nothing is left to go wrong.
      rw [build_temporary lawful] at refused
      cases refused
    | some name =>
      rw [build_registered lawful] at refused
      split_ifs at refused
      · cases refused
        rfl
      · cases refused

/-- A deed that is refused leaves the machine as it was. -/
theorem carryOut_of_isRefusal {deed : Deed} (refused : (machine.carryOut deed).2.isRefusal = true) :
    (machine.carryOut deed).1 = machine := by
  cases deed with
  | build proposal =>
    simp only [carryOut] at refused ⊢
    rcases build : machine.build proposal.host proposal.id proposal.work with ⟨after, fault | e⟩
    · exact build_of_error build
    · rw [build] at refused
      cases refused
  | resolve h id => rfl
  | other change => cases refused

/-- Without the builds that are refused the others get what they got. -/
theorem carryOutAll_unrefused (machine : Machine) (deeds : List Deed) :
    machine.carryOutAll (machine.unrefused deeds) =
      ((machine.carryOutAll deeds).1, (machine.carryOutAll deeds).2.filter (!·.isRefusal)) := by
  induction deeds generalizing machine with
  | nil => rfl
  | cons deed rest ih =>
    simp only [unrefused, carryOutAll]
    cases refused : (machine.carryOut deed).2.isRefusal with
    | true =>
      -- The machine that the next deed finds is the one from before.
      rw [if_pos rfl, List.filter_cons_of_neg (by simp [refused]),
        carryOut_of_isRefusal refused]
      exact ih machine
    | false =>
      rw [if_neg (by simp), List.filter_cons_of_pos (by simp [refused]), carryOutAll]
      simp only [ih]

end Machine

namespace Script.World

variable {world after : World} {context : Context} {plan : WorkPlan}

theorem exists_of_bind_eq_ok {α β ε : Type} {first : Except ε α} {next : α → Except ε β}
    {result : β} (run : first >>= next = .ok result) :
    ∃ value, first = .ok value ∧ next value = .ok result := by
  cases first with
  | error reason => cases run
  | ok value => exact ⟨value, rfl, run⟩

/-- Making work, and the code that goes with it, is no business of the machine. -/
theorem machine_planWork {work : Work} (planned : world.planWork context plan = .ok (after, work)) :
    after.machine = world.machine := by
  cases plan with
  | constant | manual completes | callback actions limit =>
    cases planned
    rfl
  | composite names =>
    obtain ⟨dependencies, _, written⟩ := exists_of_bind_eq_ok planned
    cases written
    rfl
  | script name success failures actions limit =>
    obtain ⟨success, _, planned⟩ := exists_of_bind_eq_ok planned
    obtain ⟨failures, _, coded⟩ := exists_of_bind_eq_ok planned
    cases coded
    rfl
  | unknown name => cases planned

/-- A script that asks for a build which is refused is left with the machine that it had. -/
theorem machine_of_refused {slot host : Argument} {id : Option String} {fault : Fault}
    (refused : world.operateExecutable context (.build slot host id plan) =
      .ok (after, .ended (.fault fault))) : after.machine = world.machine := by
  obtain ⟨name, _, refused⟩ := exists_of_bind_eq_ok refused
  obtain ⟨h, _, refused⟩ := exists_of_bind_eq_ok refused
  obtain ⟨⟨planned, work⟩, plans, refused⟩ := exists_of_bind_eq_ok refused
  rcases build : planned.machine.build h id work with ⟨built, reason | e⟩
  · simp only [build] at refused
    cases refused
    exact (Machine.build_of_error build).trans (machine_planWork plans)
  · -- An executable that was built answers with its id, which is no fault.
    simp only [build] at refused
    cases refused

end Script.World

namespace Machine

variable {machine : Machine}

/-- A build is refused exactly if the work declares the sentinel as ready or as failed, or one
status as both, or if its id belongs to a living executable, for the first of these reasons;
everything is left as it was, and in any sequence the others get the ids and find the executables
that they would get and find without it. -/
theorem refused_builds_change_nothing (reachable : machine.Reachable) :
    (∀ (proposal : Proposal) (fault : Fault),
      (machine.build proposal.host proposal.id proposal.work).2 = .error fault ↔
        proposal.Refused machine fault) ∧
    (∀ (proposal : Proposal) (after : Machine) (fault : Fault),
      machine.build proposal.host proposal.id proposal.work = (after, .error fault) →
        after = machine) ∧
    (∀ (world after : Script.World) context slot host id plan fault, world.machine = machine →
      world.operateExecutable context (.build slot host id plan) =
        .ok (after, .ended (.fault fault)) → after.machine = machine) ∧
    ∀ deeds, machine.carryOutAll (machine.unrefused deeds) =
      ((machine.carryOutAll deeds).1, (machine.carryOutAll deeds).2.filter (!·.isRefusal)) := by
  refine ⟨fun proposal fault => reachable.build_eq_error_iff proposal,
    fun _ _ _ => build_of_error, ?_, machine.carryOutAll_unrefused⟩
  intro world after context slot host id plan fault same refused
  exact (Script.World.machine_of_refused refused).trans same

/-- Four builds are refused between two that are not, which get the numbers in a row. -/
theorem refused_builds_change_nothing_between : ∃ machine : Machine, machine.Reachable ∧
    machine.resolve? 0 "a" = some 0 ∧
    (machine.build 0 (some "a") .constant).2 = .error (.duplicateId "a") ∧
    ∃ deeds : List Deed,
      (machine.carryOutAll deeds).2 = [.built "__exe_1", .refused (.nullReady "w"),
        .refused (.nullFailed "w"), .refused (.readyIsFailed "w" .ready),
        .refused (.duplicateId "a"), .built "__exe_2", .resolved (some 0)] ∧
      (machine.carryOutAll (machine.unrefused deeds)).2 =
        [.built "__exe_1", .built "__exe_2", .resolved (some 0)] := by
  let machine := ({} : Machine).after [.openHost {} .silent, .register 0 "a" (.manual true)]
  let deeds : List Deed := [.build ⟨0, none, .manual false⟩,
    .build ⟨0, none, .custom "w" .null [.null] 0⟩, .build ⟨0, none, .custom "w" .ready [.null] 0⟩,
    .build ⟨0, some "a", .custom "w" .ready [.failed, .ready] 0⟩, .build ⟨0, some "a", .constant⟩,
    .build ⟨0, none, .constant⟩, .resolve 0 "a"]
  have reachable : machine.Reachable := reaches_after _ _
  have upshots : (machine.carryOutAll deeds).2 = [.built "__exe_1", .refused (.nullReady "w"),
      .refused (.nullFailed "w"), .refused (.readyIsFailed "w" .ready),
      .refused (.duplicateId "a"), .built "__exe_2", .resolved (some 0)] := by decide
  obtain ⟨decides, _, _, erased⟩ := refused_builds_change_nothing reachable
  refine ⟨machine, reachable, by decide, ?_, deeds, upshots, ?_⟩
  · exact (decides ⟨0, some "a", .constant⟩ _).mpr (.duplicateId (by decide) (by decide) (by decide)
      rfl (.held (by decide : 0 < (machine.engine.executable 0).handles)) (by decide))
  · rw [erased, upshots]
    rfl

end Machine

end Readiness
