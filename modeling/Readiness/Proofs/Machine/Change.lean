import Readiness.Proofs.Machine.Course

/-! What one step of the protocol can change, one part of the view at a time: statuses, duties,
errands, watches, calls on their way and gates.

Whatever is kept by every step is proved from these lemmas, so that the steps themselves are gone
through once for each part of the view.
-/

namespace Readiness

open List Function

variable {duty : Frame} {e : ExecutableRef} {g : GateRef} {status : Status} {view : View}

theorem View.of_errand_countOrRelease {command : Command}
    (asks : (view.countOrRelease g).errand = some command) (idle : view.errand = none) :
    ∃ e status, command = .setStatus e status := by
  unfold View.countOrRelease at asks
  split at asks
  · exact ⟨_, _, (Option.some.inj asks).symm⟩
  · rw [show (view.count g).errand = none from idle] at asks
    cases asks

theorem View.lt_of_remaining (last : (view.gate g).remaining = 1) : g < view.gates.length := by
  by_contra beyond
  rw [View.gate, getD_eq_getElem?_getD, getElem?_eq_none (Nat.not_lt.mp beyond)] at last
  cases last

/-- Counting changes neither whom a gate moves nor where to. -/
theorem View.mem_gates_count {gate : Gate} (member : gate ∈ (view.count g).gates) :
    ∃ old ∈ view.gates, old.dependent = gate.dependent ∧ old.target = gate.target := by
  obtain ⟨place, at_⟩ := mem_iff_getElem?.mp member
  simp only [View.count, getElem?_modify] at at_
  obtain ⟨old, found, rfl⟩ := Option.map_eq_some_iff.mp at_
  refine ⟨old, mem_of_getElem? found, ?_⟩
  split <;> exact ⟨rfl, rfl⟩

theorem Machine.mem_stack_of_mem_duties {machine : Machine}
    (member : duty ∈ machine.view.duties) : duty ∈ machine.stack := by
  obtain ⟨frame, standing, own⟩ := mem_flatMap.mp member
  rw [Frame.eq_of_mem_duty own]
  exact standing

namespace Circumstances

variable {given : Circumstances} {next : View}

/-- How a duty comes about. -/
inductive NewDuty (given : Circumstances) (view next : View) : Frame → Prop where
  | begin {e : ExecutableRef} {refresh : Refresh}
    (asked : view.errand = some (.execute e refresh)) :
    NewDuty given view next (.begin e (view.status e))
  | gather {e : ExecutableRef} {status : Status} (begun : .begin e status ∈ view.duties)
    (again : next.runs e = view.runs e + 1) : NewDuty given view next (.gather e)
  | inspect {e : ExecutableRef} (gathered : .gather e ∈ view.duties) :
    NewDuty given view next (.inspect e)
  | moves {e : ExecutableRef} {statuses : List Status} :
    NewDuty given view next (.moves e statuses)
  | enter {e : ExecutableRef} {target : Status} {dependencies : List ExecutableRef}
    {onFailure : Option Listener}
    (asked : view.errand = some (.synchronise e target dependencies onFailure))
    (gates : next.gates = view.gates ++ [⟨e, target, dependencies.length⟩]) :
    NewDuty given view next (.arm view.gates.length 0 dependencies onFailure)
  | examine {g : GateRef} {position : Nat} {d : ExecutableRef} {rest : List ExecutableRef}
    {onFailure : Option Listener} (armed : .arm g position (d :: rest) onFailure ∈ view.duties)
    (sends : next.errand = some (.execute d .always)) :
    NewDuty given view next (.examine g position d rest onFailure)
  | proceed {g : GateRef} {position : Nat} {d : ExecutableRef} {rest : List ExecutableRef}
    {onFailure : Option Listener} (came : .arm g position (d :: rest) onFailure ∈ view.duties ∨
      .examine g position d rest onFailure ∈ view.duties) :
    NewDuty given view next (.arm g (position + 1) rest onFailure)

/-- What becomes of a duty that is done. -/
inductive SpentDuty (given : Circumstances) (view next : View) : Frame → Prop where
  | compose {e : ExecutableRef} {status : Status} (gathers : .gather e ∈ next.duties)
    (asks : next.errand = some (.setStatus e .waiting)) :
    SpentDuty given view next (.begin e status)
  | work {e : ExecutableRef} {status : Status}
    (other : ∀ dependencies, given.work e ≠ .composite dependencies) :
    SpentDuty given view next (.begin e status)
  | moves {e : ExecutableRef} {statuses : List Status} :
    SpentDuty given view next (.moves e statuses)
  | gather {e : ExecutableRef} (inspects : .inspect e ∈ next.duties)
    (asks : next.errand = some (.synchronise e .ready (given.work e).dependencies
      (some (.dependencyFailed e)))) : SpentDuty given view next (.gather e)
  | clear {e : ExecutableRef} (fine : ∀ d ∈ (given.work e).dependencies, ¬ given.Failed view d)
    (same : next.status = view.status) : SpentDuty given view next (.inspect e)
  | fault {e : ExecutableRef} (asks : next.errand = some (.setStatus e .failed)) :
    SpentDuty given view next (.inspect e)
  | finish {g : GateRef} {position : Nat} {onFailure : Option Listener} :
    SpentDuty given view next (.arm g position [] onFailure)
  | send {g : GateRef} {position : Nat} {d : ExecutableRef} {rest : List ExecutableRef}
    {onFailure : Option Listener}
    (examines : .examine g position d rest onFailure ∈ next.duties) :
    SpentDuty given view next (.arm g position (d :: rest) onFailure)
  | pass {g : GateRef} {position : Nat} {d : ExecutableRef} {rest : List ExecutableRef}
    {onFailure : Option Listener} (ready : given.Ready view d)
    (proceeds : .arm g (position + 1) rest onFailure ∈ next.duties) :
    SpentDuty given view next (.arm g position (d :: rest) onFailure)
  | count {g : GateRef} {position : Nat} {d : ExecutableRef} {rest : List ExecutableRef}
    {onFailure : Option Listener} (ready : given.Ready view d)
    (proceeds : .arm g (position + 1) rest onFailure ∈ next.duties) :
    SpentDuty given view next (.examine g position d rest onFailure)
  | watch {g : GateRef} {position : Nat} {d : ExecutableRef} {rest : List ExecutableRef}
    {onFailure : Option Listener} {duties : List Frame} (idle : view.errand = none)
    (top : view.duties = .examine g position d rest onFailure :: duties)
    (proceeds : .arm g (position + 1) rest onFailure ∈ next.duties)
    (watches : given.links g position d onFailure ≤ next.watches d)
    (same : next.status = view.status) :
    SpentDuty given view next (.examine g position d rest onFailure)
  | lost {duty : Frame} (lost : given.loses duty) : SpentDuty given view next duty

namespace Step

variable {target : Status} {dependencies : List ExecutableRef} {onFailure : Option Listener}
  {refresh : Refresh} {listener : Listener}

variable (step : given.Step view next)
include step

/-- Every duty was there before, or has come about. -/
theorem duty_cases (member : duty ∈ next.duties) :
    duty ∈ view.duties ∨ given.NewDuty view next duty := by
  -- Only the duty on top gives way to others.
  have below {top new : Frame} {rest : List Frame} (stands : view.duties = top :: rest)
      (present : duty ∈ new :: rest) (added : given.NewDuty view next new) :
      duty ∈ view.duties ∨ given.NewDuty view next duty := by
    rcases mem_cons.mp present with rfl | old
    · exact .inr added
    · exact .inl (stands ▸ mem_cons_of_mem _ old)
  cases step with
  | execute asked =>
    rcases mem_cons.mp member with rfl | old
    · exact .inr (.begin asked)
    · exact .inl old
  | report | build =>
    rcases mem_cons.mp member with rfl | old
    · exact .inr .moves
    · exact .inl old
  | close asked =>
    rcases mem_cons.mp member with rfl | old
    · exact .inr (.enter asked rfl)
    · exact .inl old
  | compose idle top =>
    exact below top member (.gather (top ▸ mem_cons_self ..) (update_self ..))
  | work idle top other moves =>
    rcases mem_append.mp member with own | old
    · obtain ⟨_, rfl⟩ := moves _ own
      exact .inr .moves
    · exact .inl (top ▸ mem_cons_of_mem _ old)
  | prompt idle top =>
    rcases mem_append.mp member with own | old
    · rw [Frame.eq_of_mem_duty own]
      exact .inr .moves
    · exact .inl (top ▸ mem_cons_of_mem _ old)
  | gather idle top => exact below top member (.inspect (top ▸ mem_cons_self ..))
  | clear idle top | fault idle top | finish idle top =>
    exact .inl (top ▸ mem_cons_of_mem _ member)
  | send idle top =>
    exact below top member (.examine (top ▸ mem_cons_self ..) rfl)
  | count idle top =>
    rw [View.duties_countOrRelease] at member
    rcases top with top | top
    · exact below top member (.proceed (.inl (top ▸ mem_cons_self ..)))
    · exact below top member (.proceed (.inr (top ▸ mem_cons_self ..)))
  | watch idle top =>
    exact below top member (.proceed (.inr (top ▸ mem_cons_self ..)))
  | tick =>
    rw [View.duties_countOrRelease] at member
    exact .inl member
  | lose idle lost calls stands => exact .inl (stands ▸ mem_append_right _ member)
  | _ => exact .inl member

/-- A duty that goes through a gate stands where one did before, or the gate has just been set
up. -/
theorem gate_suffix {rest : List Frame} (suffix : (duty :: rest) <:+ next.duties)
    (gate : duty.gate? = some g) :
    (∃ old, old.gate? = some g ∧ (old :: rest) <:+ view.duties) ∨ rest = view.duties ∧
      ∃ e target dependencies onFailure,
        view.errand = some (.synchronise e target dependencies onFailure) ∧
          (next.gate g).dependent = e := by
  -- What stands under the duty on top stays where it is.
  have kept (same : (duty :: rest) <:+ view.duties) : ∃ old, old.gate? = some g ∧
      (old :: rest) <:+ view.duties := ⟨duty, gate, same⟩
  have below {top : Frame} {duties : List Frame} (stands : view.duties = top :: duties)
      (same : (duty :: rest) <:+ duties) : ∃ old, old.gate? = some g ∧
        (old :: rest) <:+ view.duties :=
    kept (stands ▸ same.trans (suffix_cons ..))
  have replaced {top new : Frame} {duties : List Frame} (stands : view.duties = top :: duties)
      (same : (duty :: rest) <:+ new :: duties) (through : top.gate? = new.gate?) :
      ∃ old, old.gate? = some g ∧ (old :: rest) <:+ view.duties := by
    rcases suffix_cons_iff.mp same with equal | later
    · cases equal
      exact ⟨top, through.trans gate, stands ▸ suffix_rfl⟩
    · exact below stands later
  have pushed {own duties : List Frame} (same : (duty :: rest) <:+ own ++ duties)
      (ungated : ∀ new ∈ own, new.gate? = none) : (duty :: rest) <:+ duties := by
    induction own with
    | nil => exact same
    | cons new others ih =>
      rcases suffix_cons_iff.mp same with equal | later
      · cases equal
        rw [ungated _ (mem_cons_self ..)] at gate
        cases gate
      · exact ih later fun other member => ungated other (mem_cons_of_mem _ member)
  cases step with
  | execute | report | build => exact .inl (kept (@pushed [_] _ suffix (by simp [Frame.gate?])))
  | compose idle top | gather idle top =>
    exact .inl (below top (@pushed [_] _ suffix (by simp [Frame.gate?])))
  | work idle top other moves =>
    refine .inl (below top (pushed suffix fun new member => ?_))
    obtain ⟨_, rfl⟩ := moves new member
    rfl
  | prompt idle top =>
    refine .inl (below top (pushed suffix fun new member => ?_))
    rw [Frame.eq_of_mem_duty member]
    rfl
  | clear idle top | fault idle top | finish idle top => exact .inl (below top suffix)
  | close asked =>
    rcases suffix_cons_iff.mp suffix with equal | later
    · cases equal
      cases gate
      exact .inr ⟨rfl, _, _, _, _, asked, by simp [View.gate]⟩
    · exact .inl (kept later)
  | send idle top => exact .inl (replaced top suffix rfl)
  | count idle top =>
    rw [View.duties_countOrRelease] at suffix
    rcases top with top | top <;> exact .inl (replaced top suffix rfl)
  | watch idle top => exact .inl (replaced top suffix rfl)
  | tick =>
    rw [View.duties_countOrRelease] at suffix
    exact .inl (kept suffix)
  | lose idle lost calls stands =>
    exact .inl (kept (stands ▸ suffix.trans (suffix_append ..)))
  | _ => exact .inl (kept suffix)

/-- Every duty stays, or is done. -/
theorem duty_kept (member : duty ∈ view.duties) :
    duty ∈ next.duties ∨ given.SpentDuty view next duty := by
  -- Only the duty on top can be done.
  have below {top : Frame} {rest : List Frame} (stands : view.duties = top :: rest)
      (kept : ∀ old ∈ rest, old ∈ next.duties) (spent : given.SpentDuty view next top) :
      duty ∈ next.duties ∨ given.SpentDuty view next duty := by
    rw [stands] at member
    rcases mem_cons.mp member with rfl | old
    · exact .inr spent
    · exact .inl (kept duty old)
  cases step with
  | execute | report | build | close => exact .inl (mem_cons_of_mem _ member)
  | compose idle top =>
    exact below top (fun _ => mem_cons_of_mem _) (.compose (mem_cons_self ..) rfl)
  | work idle top other =>
    exact below top (fun _ => mem_append_right _) (.work other)
  | prompt idle top => exact below top (fun _ => mem_append_right _) .moves
  | gather idle top =>
    exact below top (fun _ => mem_cons_of_mem _) (.gather (mem_cons_self ..) rfl)
  | clear idle top fine => exact below top (fun _ => id) (.clear fine rfl)
  | fault idle top => exact below top (fun _ => id) (.fault rfl)
  | finish idle top => exact below top (fun _ => id) .finish
  | send idle top =>
    exact below top (fun _ => mem_cons_of_mem _) (.send (mem_cons_self ..))
  | count idle top ready =>
    rcases top with top | top
    · exact below top (fun _ later => by simp [later]) (.pass ready (by simp))
    · exact below top (fun _ later => by simp [later]) (.count ready (by simp))
  | watch idle top =>
    refine below top (fun _ => mem_cons_of_mem _)
      (.watch idle top (mem_cons_self ..) ?_ rfl)
    simp only [update_self]
    exact Multiset.le_add_right _ _
  | tick =>
    rw [View.duties_countOrRelease]
    exact .inl member
  | lose idle lost calls stands =>
    rw [stands] at member
    rcases mem_append.mp member with gone | old
    · rw [Frame.eq_of_mem_duty gone]
      exact .inr (.lost lost)
    · exact .inl old
  | _ => exact .inl member

/-- Moves are under way because the client reports, because an executable of another kind does its
work, or because others of the same executable were. -/
theorem moves_cases {statuses : List Status} (member : .moves e statuses ∈ next.duties) :
    .moves e statuses ∈ view.duties ∨ (∃ status, .moves e (status :: statuses) ∈ view.duties) ∨
      (∀ dependencies, given.work e ≠ .composite dependencies) ∨
      (∃ status, given.asks (.report e status)) ∨ ∃ reason, given.asks (.fail e reason) := by
  cases step with
  | work idle top other moves =>
    rcases mem_append.mp member with own | old
    · obtain ⟨_, same⟩ := moves _ own
      cases same
      exact .inr (.inr (.inl other))
    · exact .inl (top ▸ mem_cons_of_mem _ old)
  | prompt idle top =>
    rcases mem_append.mp member with own | old
    · cases Frame.eq_of_mem_duty own
      exact .inr (.inl ⟨_, top ▸ mem_cons_self ..⟩)
    · exact .inl (top ▸ mem_cons_of_mem _ old)
  | report idle asked =>
    rcases mem_cons.mp member with same | old
    · cases same
      exact .inr (.inr (.inr (asked.imp_left fun asked => ⟨_, asked⟩)))
    · exact .inl old
  | build idle work =>
    rcases mem_cons.mp member with same | old
    · cases same
      exact .inr (.inr (.inl fun _ composite => by rw [work] at composite; cases composite))
    · exact .inl old
  | count idle top => rcases top with top | top <;> simp_all
  | lose idle lost calls stands => exact .inl (stands ▸ mem_append_right _ member)
  | _ => simp_all [View.move, View.count]

/-- An executable keeps its status unless it was asked to move elsewhere. -/
theorem status_eq (e : ExecutableRef) :
    next.status e = view.status e ∨ view.errand = some (.setStatus e (next.status e)) ∧
      next.status e ≠ .null ∧ next.status e ≠ view.status e := by
  cases step with
  | @move other status asked real new =>
    by_cases same : e = other
    · subst same
      refine .inr ?_
      simp only [View.move, update_self]
      exact ⟨asked, real, new⟩
    · exact .inl (update_of_ne same ..)
  | count | tick =>
    rw [View.status_countOrRelease]
    exact .inl rfl
  | _ => exact .inl rfl

theorem status_of_idle (idle : ∀ e status, view.errand ≠ some (.setStatus e status)) :
    next.status = view.status :=
  funext fun e => (step.status_eq e).resolve_right fun moved => idle e _ moved.1

/-- Only the client destroys. -/
theorem destroyed_cases (gone : next.destroyed e = true) :
    view.destroyed e = true ∨ given.asks (.destroy e) := by
  cases step with
  | @destroy other idle asked =>
    by_cases same : e = other
    · subst same
      exact .inr asked
    · simp only [update_of_ne same] at gone
      exact .inl gone
  | count | tick =>
    rw [View.destroyed_countOrRelease] at gone
    exact .inl gone
  | _ => exact .inl gone

/-- Work is never taken back. -/
theorem runs_le (e : ExecutableRef) : view.runs e ≤ next.runs e := by
  have grown (other : ExecutableRef) :
      view.runs e ≤ Function.update view.runs other (view.runs other + 1) e := by
    by_cases same : e = other
    · subst same
      rw [update_self]
      exact Nat.le_succ _
    · rw [update_of_ne same]
  cases step with
  | compose | work => exact grown _
  | count | tick => rw [View.runs_countOrRelease]
  | _ => exact Nat.le_refl _

/-- A request to move is carried out at once. -/
theorem of_asked (asked : view.errand = some (.setStatus e status)) :
    next = { view with errand := none } ∧ (status = .null ∨ status = view.status e) ∨
      next = view.move e status := by
  cases step with
  | stay wanted same =>
    rw [asked] at wanted
    cases wanted
    exact .inl ⟨rfl, same⟩
  | move wanted =>
    rw [asked] at wanted
    cases wanted
    exact .inr rfl
  | _ => simp_all

/-- A request to synchronise sets up a gate at once, which opens if nobody is to be waited for. -/
theorem of_synchronise (asked : view.errand = some (.synchronise e target dependencies onFailure)) :
    (∀ d ∈ dependencies, given.Ready view d) ∧ next =
      { view with
        gates := view.gates ++ [⟨e, target, 0⟩]
        journal := view.journal ++ [.gateOpened view.gates.length]
        errand := some (.setStatus e target) } ∨
    (∃ d ∈ dependencies, ¬ given.Ready view d) ∧ next =
      { view with
        gates := view.gates ++ [⟨e, target, dependencies.length⟩]
        duties := .arm view.gates.length 0 dependencies onFailure :: view.duties
        errand := none } := by
  cases step with
  | passThrough wanted ready =>
    rw [asked] at wanted
    cases wanted
    exact .inl ⟨ready, rfl⟩
  | close wanted pending =>
    rw [asked] at wanted
    cases wanted
    exact .inr ⟨pending, rfl⟩
  | _ => simp_all

theorem status_of_asked (asked : view.errand = some (.setStatus e status)) (real : status ≠ .null) :
    next.status e = status ∧ next.errand = none := by
  rcases step.of_asked asked with ⟨rfl, same⟩ | rfl
  · exact ⟨(same.resolve_left real).symm, rfl⟩
  · exact ⟨update_self .., rfl⟩

theorem duties_of_asked (asked : view.errand = some (.setStatus e status)) :
    next.duties = view.duties := by
  rcases step.of_asked asked with ⟨rfl, _⟩ | rfl
  · rfl
  · rfl

/-- A request to execute finds the executable ready, or announces the execution. -/
theorem of_execute (asked : view.errand = some (.execute e refresh)) :
    given.Ready view e ∨ .begin e (view.status e) ∈ next.duties := by
  cases step with
  | leave wanted ready =>
    rw [asked] at wanted
    cases wanted
    exact .inl ready
  | execute wanted =>
    rw [asked] at wanted
    cases wanted
    exact .inr (mem_cons_self ..)
  | _ => simp_all

/-- What is asked for after a step other than a call or a change of status comes from the client,
from a gate or from a composite. -/
theorem errand_cases {command : Command} (asks : next.errand = some command)
    (other : ∀ e status, command ≠ .setStatus e status)
    (uncalled : ∀ listener event, command ≠ .invoke listener event) :
    next.status = view.status ∧
      ((given.asks command ∧ ∀ listener ∈ command.listeners, listener.isWatcher = false) ∨
        (∃ d, command = .execute d .always ∧ ¬ given.Ready view d) ∨
        ∃ e, command = .synchronise e .ready (given.work e).dependencies
            (some (.dependencyFailed e)) ∧ .gather e ∈ view.duties ∧ .inspect e ∈ next.duties) := by
  cases step with
  | ask idle errand asked foreign =>
    cases asks
    exact ⟨rfl, .inl ⟨asked, foreign⟩⟩
  | send idle top pending =>
    cases asks
    exact ⟨rfl, .inr (.inl ⟨_, rfl, pending⟩)⟩
  | gather idle top =>
    cases asks
    exact ⟨rfl, .inr (.inr ⟨_, rfl, top ▸ mem_cons_self .., mem_cons_self ..⟩)⟩
  | work idle top composite moves own =>
    obtain ⟨_, same⟩ := own _ asks
    exact absurd same (other _ _)
  | count idle =>
    obtain ⟨_, _, same⟩ := View.of_errand_countOrRelease asks idle
    exact absurd same (other _ _)
  | tick =>
    obtain ⟨_, _, same⟩ := View.of_errand_countOrRelease asks rfl
    exact absurd same (other _ _)
  | compose | prompt | fault | passThrough | alarm =>
    exact absurd (Option.some.inj asks).symm (other _ _)
  | call => exact absurd (Option.some.inj asks).symm (uncalled _ _)
  | _ => simp_all [View.move, View.count]

/-- A request to execute comes from the client, or from a gate whose dependency is not ready. -/
theorem errand_execute (asks : next.errand = some (.execute e refresh)) :
    next.status = view.status ∧
      (given.asks (.execute e refresh) ∨ ¬ given.Ready view e) := by
  obtain ⟨same, ⟨asked, _⟩ | ⟨d, own, pending⟩ | ⟨_, own, _⟩⟩ :=
    step.errand_cases asks (fun _ _ => Command.noConfusion) fun _ _ => Command.noConfusion
  · exact ⟨same, .inl asked⟩
  · cases own
    exact ⟨same, .inr pending⟩
  · cases own

/-- A request to synchronise comes from the client, or from a composite. -/
theorem errand_synchronise
    (asks : next.errand = some (.synchronise e target dependencies onFailure)) :
    (given.asks (.synchronise e target dependencies onFailure) ∧
      ∀ listener ∈ onFailure, listener.isWatcher = false) ∨
    target = .ready ∧ dependencies = (given.work e).dependencies ∧
      onFailure = some (.dependencyFailed e) ∧ .gather e ∈ view.duties ∧
        .inspect e ∈ next.duties := by
  obtain ⟨_, ⟨asked, foreign⟩ | ⟨_, own, _⟩ | ⟨_, own, gathers, inspects⟩⟩ :=
    step.errand_cases asks (fun _ _ => Command.noConfusion) fun _ _ => Command.noConfusion
  · exact .inl ⟨asked, fun listener member => foreign listener (Option.mem_toList.mpr member)⟩
  · cases own
  · cases own
    exact .inr ⟨rfl, rfl, rfl, gathers, inspects⟩

/-- A watch was there before and not called, or a gate has just put it there. -/
theorem watch_cases {d : ExecutableRef} (member : (status, listener) ∈ next.watches d) :
    (status, listener) ∈ view.watches d ∧
        (next.status d = view.status d ∨ next.status d ≠ status) ∨
      next.status = view.status ∧ ¬ given.Ready view d ∧ ∃ g position rest onFailure,
        .examine g position d rest onFailure ∈ view.duties ∧
          (status, listener) ∈ given.links g position d onFailure := by
  cases step with
  | @move e reached =>
    -- The watches for the status that is reached are spent.
    refine .inl ?_
    by_cases same : d = e
    · subst same
      simp only [View.move, update_self] at member ⊢
      obtain ⟨old, kept⟩ := Multiset.mem_filter.mp member
      exact ⟨old, .inr fun equal => kept equal.symm⟩
    · simp only [View.move, update_of_ne same] at member ⊢
      exact ⟨member, .inl trivial⟩
  | @watch g position e rest onFailure duties idle top pending =>
    by_cases same : d = e
    · subst same
      simp only [update_self] at member
      rcases Multiset.mem_add.mp member with new | old
      · exact .inr ⟨rfl, pending, g, position, rest, onFailure, top ▸ mem_cons_self .., new⟩
      · exact .inl ⟨old, .inl rfl⟩
    · simp only [update_of_ne same] at member
      exact .inl ⟨member, .inl rfl⟩
  | @destroy e =>
    by_cases same : d = e
    · subst same
      simp only [update_self] at member
      cases member
    · simp only [update_of_ne same] at member
      exact .inl ⟨member, .inl rfl⟩
  | count | tick =>
    rw [View.watches_countOrRelease] at member
    rw [View.status_countOrRelease]
    exact .inl ⟨member, .inl rfl⟩
  | _ => exact .inl ⟨member, .inl rfl⟩

/-- A call on its way was so before, or a move has just set it on its way. -/
theorem alert_cases {event : Event} (member : (event, listener) ∈ next.alerts) :
    (event, listener) ∈ view.alerts ∨ (event.status, listener) ∈ view.watches event.source ∧
      next.status event.source = event.status := by
  cases step with
  | move =>
    rcases Multiset.mem_add.mp member with new | old
    · obtain ⟨⟨status, listener⟩, due, same⟩ := Multiset.mem_map.mp new
      obtain ⟨watched, reached⟩ := Multiset.mem_filter.mp due
      cases same
      cases reached
      exact .inr ⟨watched, update_self ..⟩
    · exact .inl old
  | count =>
    rw [View.alerts_countOrRelease] at member
    exact .inl member
  | tick asked sent =>
    rw [View.alerts_countOrRelease] at member
    exact .inl (sent ▸ Multiset.mem_cons_of_mem member)
  | spare asked sent | skip asked sent | alarm asked sent =>
    exact .inl (sent ▸ Multiset.mem_cons_of_mem member)
  | drop idle destroyed split | lose idle lost split =>
    exact .inl (split ▸ Multiset.mem_add.mpr (.inr member))
  | _ => exact .inl member

/-- A gate had opened before, or asks its dependent to move. -/
theorem opened_cases (opened : .gateOpened g ∈ next.journal) :
    .gateOpened g ∈ view.journal ∨
      next.errand = some (.setStatus (next.gate g).dependent (next.gate g).target) := by
  have counted (mid : View) (other : GateRef)
      (member : .gateOpened g ∈ (mid.countOrRelease other).journal) :
      .gateOpened g ∈ mid.journal ∨ (mid.countOrRelease other).errand =
        some (.setStatus ((mid.countOrRelease other).gate g).dependent
          ((mid.countOrRelease other).gate g).target) := by
    unfold View.countOrRelease at member ⊢
    split
    · rename_i last
      rw [if_pos last] at member
      rcases mem_append.mp member with old | new
      · exact .inl old
      · cases mem_singleton.mp new
        exact .inr rfl
    · rename_i more
      rw [if_neg more] at member
      exact .inl member
  -- Other occurrences are no openings.
  have noted {occurrence : Occurrence} (other : occurrence ≠ .gateOpened g)
      (member : .gateOpened g ∈ view.journal ++ [occurrence]) : .gateOpened g ∈ view.journal := by
    rcases mem_append.mp member with old | new
    · exact old
    · exact absurd (mem_singleton.mp new).symm other
  cases step with
  | move | watch => exact .inl (noted (by rintro ⟨⟩) opened)
  | passThrough asked ready =>
    rcases mem_append.mp opened with old | new
    · exact .inl old
    · cases mem_singleton.mp new
      exact .inr (by simp [View.gate])
  | count => exact (counted _ _ opened).imp_left (noted (by rintro ⟨⟩))
  | tick => exact counted _ _ opened
  | _ => exact .inl opened

/-- A gate stays what it was set up for. -/
theorem gate_kept (made : g < view.gates.length) :
    g < next.gates.length ∧ (next.gate g).dependent = (view.gate g).dependent := by
  have counted (mid : View) (other : GateRef) (same : mid.gates = view.gates) :
      g < (mid.count other).gates.length ∧
        ((mid.count other).gate g).dependent = (view.gate g).dependent := by
    rw [View.dependent_gate_count, View.gate, same]
    refine ⟨?_, rfl⟩
    rw [View.count, length_modify, same]
    exact made
  cases step with
  | passThrough | close =>
    refine ⟨?_, by rw [View.gate_append made rfl]⟩
    rw [length_append]
    exact Nat.lt_add_right _ made
  | count | tick =>
    rw [View.gate, View.gates_countOrRelease]
    exact counted _ _ rfl
  | skip => exact counted _ _ rfl
  | _ => exact ⟨made, rfl⟩

/-- A gate was there before, or has just been set up. -/
theorem gate_cases (made : g < next.gates.length) :
    g < view.gates.length ∨ g = view.gates.length ∧ ∃ target dependencies onFailure,
      view.errand = some (.synchronise (next.gate g).dependent target dependencies onFailure) := by
  have added {gate : Gate} (gates : next.gates = view.gates ++ [gate]) :
      g < view.gates.length ∨ g = view.gates.length ∧ next.gate g = gate := by
    rw [gates, length_append] at made
    rcases Nat.lt_or_eq_of_le (Nat.le_of_lt_succ made) with old | rfl
    · exact .inl old
    · exact .inr ⟨rfl, by simp [View.gate, gates]⟩
  cases step with
  | passThrough asked =>
    rcases added rfl with old | ⟨new, same⟩
    · exact .inl old
    · exact .inr ⟨new, _, _, _, by rw [same]; exact asked⟩
  | close asked =>
    rcases added rfl with old | ⟨new, same⟩
    · exact .inl old
    · exact .inr ⟨new, _, _, _, by rw [same]; exact asked⟩
  | count | tick =>
    rw [View.gates_countOrRelease, View.count, length_modify] at made
    exact .inl made
  | skip =>
    rw [View.count, length_modify] at made
    exact .inl made
  | _ => exact .inl made

/-- A gate leads where the one that was there did, or has just been asked for. -/
theorem mem_gates {gate : Gate} (member : gate ∈ next.gates) :
    (∃ old ∈ view.gates, old.dependent = gate.dependent ∧ old.target = gate.target) ∨
      ∃ dependencies onFailure, view.errand =
        some (.synchronise gate.dependent gate.target dependencies onFailure) := by
  cases step with
  | passThrough asked | close asked =>
    rcases mem_append.mp member with old | new
    · exact .inl ⟨gate, old, rfl, rfl⟩
    · cases mem_singleton.mp new
      exact .inr ⟨_, _, asked⟩
  | count | tick =>
    rw [View.gates_countOrRelease] at member
    exact .inl (View.mem_gates_count member)
  | skip => exact .inl (View.mem_gates_count member)
  | _ => exact .inl ⟨gate, member, rfl, rfl⟩

end Step

end Circumstances

end Readiness
