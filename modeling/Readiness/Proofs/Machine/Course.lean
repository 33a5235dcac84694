import Readiness.Proofs.Machine.Simulation

/-! Runs under a condition, and what they keep.

A panic of an observer takes the calls along that the observer was told of before. As long as no
observer panics, no call of a listener gets lost.
-/

namespace Readiness

variable {frame : Frame} {next : Machine} {rest : List Frame}

namespace Machine

/-- A later state of a run all of whose states satisfy a condition. -/
inductive ReachesWhile (condition : Machine → Prop) (start : Machine) : Machine → Prop where
  /-- A run can end where it starts. -/
  | refl (holds : condition start) : ReachesWhile condition start start
  /-- A run can go on to a state that satisfies the condition. -/
  | step {machine next : Machine} (reached : ReachesWhile condition start machine)
    (step : Next machine next) (holds : condition next) : ReachesWhile condition start next

variable {condition : Machine → Prop} {start machine : Machine} {work : ExecutableRef → Work}
  {motive : View → Prop}

namespace ReachesWhile

section

variable (run : start.ReachesWhile condition machine)
include run

/-- The condition holds at the end. -/
theorem holds : condition machine := by
  cases run with
  | refl holds => exact holds
  | step _ _ holds => exact holds

/-- The condition holds at the start. -/
theorem start_holds : condition start := by
  induction run with
  | refl holds => exact holds
  | step _ _ _ ih => exact ih

/-- Such a run is a run. -/
theorem reaches : start.Reaches machine := by
  induction run with
  | refl => exact .refl
  | step _ step _ ih => exact .step ih step

end

/-- Runs follow one another. -/
theorem trans {last : Machine} (early : start.ReachesWhile condition machine)
    (late : machine.ReachesWhile condition last) : start.ReachesWhile condition last := by
  induction late with
  | refl => exact early
  | step _ step holds ih => exact .step ih step holds

/-- The condition may be weakened. -/
theorem mono {weaker : Machine → Prop} (weaken : ∀ machine, condition machine → weaker machine)
    (run : start.ReachesWhile condition machine) : start.ReachesWhile weaker machine := by
  induction run with
  | refl holds => exact .refl (weaken _ holds)
  | step _ step holds ih => exact .step ih step (weaken _ holds)

/-- What holds in every run may be added. -/
theorem and_of_reaches {more : Machine → Prop} (run : start.ReachesWhile condition machine)
    (holds : ∀ state, start.Reaches state → more state) :
    start.ReachesWhile (fun state => condition state ∧ more state) machine := by
  induction run with
  | refl now => exact .refl ⟨now, holds _ .refl⟩
  | step run step now ih => exact .step ih step ⟨now, holds _ (.step run.reaches step)⟩

/-- Either a run avoids an event, or it comes to it somewhere. -/
theorem avoids_or_passes (run : start.ReachesWhile condition machine) (event : Machine → Prop) :
    start.ReachesWhile (fun state => condition state ∧ ¬ event state) machine ∨
      ∃ state, start.ReachesWhile condition state ∧ event state ∧
        state.ReachesWhile condition machine := by
  induction run with
  | refl holds =>
    by_cases now : event start
    · exact .inr ⟨start, .refl holds, now, .refl holds⟩
    · exact .inl (.refl ⟨holds, now⟩)
  | @step before next run step holds ih =>
    rcases ih with avoids | ⟨state, early, happens, late⟩
    · by_cases now : event next
      · exact .inr ⟨next, .step run step holds, now, .refl holds⟩
      · exact .inl (.step avoids step ⟨holds, now⟩)
    · exact .inr ⟨state, early, happens, .step late step holds⟩

end ReachesWhile

/-- While the engine has the turn, nothing but its step can come next. -/
theorem Next.eq_step (step : Next machine next) (busy : machine.clientTurn = false) :
    next = machine.step := by
  cases step with
  | engine => rfl
  | accept called => rw [clientTurn, called] at busy; cases busy
  | advance turn | openHost turn | build turn | retain turn | release turn | subscribe turn
  | unsubscribe turn | beginWait turn | openSession turn | closeSession turn | call turn
  | finish turn | panic turn =>
    rw [busy] at turn
    cases turn

/-- Runs follow one another. -/
theorem Reaches.trans {last : Machine} (early : start.Reaches machine)
    (late : machine.Reaches last) : start.Reaches last := by
  induction late with
  | refl => exact early
  | step _ step ih => exact .step ih step

/-- Unless it is the turn of the client, a run begins with the step of the engine. -/
theorem Reaches.of_busy (run : start.Reaches machine) (busy : start.clientTurn = false) :
    machine = start ∨ start.step.Reaches machine := by
  induction run with
  | refl => exact .inl rfl
  | step run step ih =>
    rcases ih with rfl | later
    · rw [step.eq_step busy]
      exact .inr .refl
    · exact .inr (.step later step)

/-- A run need not meet any condition. -/
theorem Reaches.reachesWhile (run : start.Reaches machine) :
    start.ReachesWhile (fun _ => True) machine := by
  induction run with
  | refl => exact .refl trivial
  | step _ step ih => exact .step ih step trivial

/-- No panic escapes from an observer. -/
def ObserverSteady (machine : Machine) : Prop :=
  ∀ payload frame rest, machine.control = .unwind payload → machine.stack = frame :: rest →
    frame.isObserver = false

/-- No panic ends a frame that waits until the observer or a listener has been told. -/
def TellingKept (machine : Machine) : Prop :=
  ∀ payload frame rest, machine.control = .unwind payload → machine.stack = frame :: rest →
    frame.isTelling = false

/-- A panic is ending the frame on top. -/
def Unwinds (machine : Machine) (frame : Frame) (rest : List Frame) : Prop :=
  (∃ payload, machine.control = .unwind payload) ∧ machine.stack = frame :: rest

/-- A panic has got out of the observer. -/
def UnwindsObserver (machine : Machine) (rest : List Frame) : Prop :=
  ∃ observer, observer.isObserver = true ∧ machine.Unwinds observer rest

/-- Without a panic nothing is unwound. -/
theorem not_unwinds_of_steady (steady : ∀ payload, machine.control ≠ .unwind payload) :
    ¬ machine.Unwinds frame rest :=
  fun ⟨⟨payload, unwinding⟩, _⟩ => steady payload unwinding

/-- The client has no turn during a panic. -/
theorem not_unwinds_of_clientTurn (turn : machine.clientTurn = true) :
    ¬ machine.Unwinds frame rest :=
  not_unwinds_of_steady fun payload unwinding => by
    rw [clientTurn, unwinding] at turn
    cases turn

/-- A panic comes to the frame on top out of the one above it, which is no guard of a listener. -/
def UnwoundOnto (machine : Machine) (frame : Frame) (rest : List Frame) : Prop :=
  ∃ top, machine.Unwinds top (frame :: rest) ∧ top.StandsOn frame ∧
    ∀ serial event delivery, top ≠ .guard serial event delivery

/-- The engine itself does not panic. -/
theorem Sound.unwound_step (sound : machine.Sound) (unwinds : machine.step.Unwinds frame rest) :
    machine.UnwoundOnto frame rest := by
  revert unwinds
  unfold step
  split
  · rename_i command turn
    exact (not_unwinds_of_steady (sound.onward_start (machine.admits_all machine) turn).steady).elim
  · split
    · exact (not_unwinds_of_clientTurn rfl).elim
    · rename_i stands
      exact (not_unwinds_of_steady (sound.onward_receive stands _).steady).elim
  · rename_i payload turn
    split
    · exact (not_unwinds_of_clientTurn rfl).elim
    · rename_i top others stands
      -- A guard catches the panic, and every other frame lets it pass.
      have passed (unguarded : ∀ serial event delivery, top ≠ .guard serial event delivery)
          (under : others = frame :: rest) : machine.UnwoundOnto frame rest :=
        ⟨top, ⟨⟨payload, turn⟩, under ▸ stands⟩, sound.standsOn stands (by rw [under]; rfl),
          unguarded⟩
      cases top with
      | guard serial event delivery =>
        rw [unwind_guard (sound.quiet turn)]
        have caught := (sound.based_tail stands).listenerReturned (sound.free_tail stands rfl)
          serial event delivery (some (.panicked payload.report))
        exact (not_unwinds_of_steady caught.steady).elim
      | _ => exact fun unwinds => passed (by simp) unwinds.2
  · rename_i turn
    exact (not_unwinds_of_steady fun _ unwinding => by rw [turn] at unwinding; cases unwinding).elim
  · rename_i turn
    exact (not_unwinds_of_steady fun _ unwinding => by rw [turn] at unwinding; cases unwinding).elim

/-- A build leaves stack and control. -/
theorem kept_of_build {h : HostRef} {id : Option String} {work : Work} {built : Machine}
    {e : ExecutableRef} (success : machine.build h id work = (built, .ok e)) :
    built.stack = machine.stack ∧ built.control = machine.control := by
  obtain ⟨-, rfl | ⟨name, -, rfl⟩⟩ := build_cases success
  · exact ⟨rfl, rfl⟩
  · exact ⟨rfl, rfl⟩

/-- So does a wait. -/
theorem kept_of_beginWait (machine : Machine) (e : ExecutableRef) :
    (machine.beginWait e).1.stack = machine.stack ∧
      (machine.beginWait e).1.control = machine.control := by
  simp only [beginWait]
  split <;> exact ⟨rfl, rfl⟩

/-- A panic comes to a frame on which only certain others can stand out of the one above it. -/
theorem Sound.unwound_next (sound : machine.Sound) (step : Next machine next)
    (unwinds : next.Unwinds frame rest) (busy : frame.isBusy = true) :
    machine.UnwoundOnto frame rest := by
  cases step with
  | engine => exact sound.unwound_step unwinds
  | panic turn payload =>
    have plain := (sound.calm_of_clientTurn turn).top frame (by
      rw [show machine.stack = frame :: rest from unwinds.2]; rfl)
    rw [busy] at plain
    cases plain
  | accept called => exact absurd unwinds (not_unwinds_of_clientTurn rfl)
  | call | finish => exact absurd unwinds (not_unwinds_of_steady fun _ same => by cases same)
  | build turn opened alive success =>
    refine absurd unwinds (not_unwinds_of_clientTurn ?_)
    rw [clientTurn, (kept_of_build success).2]
    exact turn
  | beginWait turn alive =>
    refine absurd unwinds (not_unwinds_of_clientTurn ?_)
    rw [clientTurn, (machine.kept_of_beginWait _).2]
    exact turn
  | advance turn | openHost turn | retain turn | release turn | subscribe turn | unsubscribe turn
  | openSession turn | closeSession turn =>
    exact absurd unwinds (not_unwinds_of_clientTurn turn)

/-- A frame that waits for the observer or for a listener is unwound only after the observer. -/
theorem UnwoundOnto.observer (unwound : machine.UnwoundOnto frame rest)
    (telling : frame.isTelling = true) : machine.UnwindsObserver (frame :: rest) := by
  obtain ⟨top, unwinds, on, unguarded⟩ := unwound
  rcases on.told telling with observer | ⟨_, serial, event, delivery, guard⟩
  · exact ⟨top, observer, unwinds⟩
  · exact absurd guard (unguarded serial event delivery)

/-- Only a panic of the observer ends its being told. -/
theorem Sound.unwound_telling (sound : machine.Sound) (step : Next machine next)
    (unwinds : next.Unwinds frame rest) (telling : frame.isTelling = true) :
    machine.UnwindsObserver (frame :: rest) :=
  (sound.unwound_next step unwinds (by rw [Frame.isBusy, telling]; rfl)).observer telling

/-- While no observer panics, no frame that is unwound only after the observer is. -/
theorem ObserverSteady.tellingKept (steady : machine.ObserverSteady)
    (unwound : ∀ frame rest, next.Unwinds frame rest → frame.isTelling = true →
      machine.UnwindsObserver (frame :: rest)) : next.TellingKept := by
  intro payload frame rest unwinding stands
  cases telling : frame.isTelling with
  | false => rfl
  | true =>
    obtain ⟨observer, told, ⟨before, turn⟩, under⟩ :=
      unwound frame rest ⟨⟨payload, unwinding⟩, stands⟩ telling
    rw [steady before observer _ turn under] at told
    cases told

/-- With a steady observer the engine keeps telling. -/
theorem Sound.tellingKept_step (sound : machine.Sound) (steady : machine.ObserverSteady) :
    machine.step.TellingKept :=
  steady.tellingKept fun _ _ unwinds telling => (sound.unwound_step unwinds).observer telling

/-- With a steady observer a step keeps telling. -/
theorem Sound.tellingKept_next (sound : machine.Sound) (steady : machine.ObserverSteady)
    (step : Next machine next) : next.TellingKept :=
  steady.tellingKept fun _ _ => sound.unwound_telling step

/-- With a steady observer a run keeps telling. -/
theorem ReachesWhile.tellingKept (run : start.ReachesWhile condition machine)
    (sound : start.Sound) (steady : ∀ machine, condition machine → machine.ObserverSteady)
    (kept : start.TellingKept) : machine.TellingKept := by
  induction run with
  | refl => exact kept
  | step run step _ _ =>
    exact (sound.later_reaches run.reaches).sound.tellingKept_next (steady _ run.holds) step

/-- The circumstances of one step of a run. -/
def circumstances (work : ExecutableRef → Work) (before after : Machine) : Circumstances where
  work := work
  alive := before.isAlive
  asks := fun command => (if command.isErrand then after else before).Asks command
  loses := fun frame =>
    ∃ payload rest, before.control = .unwind payload ∧ before.stack = frame :: rest

/-- Every step of a run follows the protocol. -/
theorem Sound.follows (sound : machine.Sound) (step : Next machine next)
    (reads : Reads work next.engine) :
    (circumstances work machine next).Follows machine.view next.view :=
  sound.follows_next step
    ⟨reads, fun _ => rfl, fun _ asked => asked, fun payload _ rest unwinding stands =>
      ⟨payload, rest, unwinding, stands⟩⟩

/-- A step of the protocol that a step of a run takes. -/
structure Taken (work : ExecutableRef → Work) (before after : Machine) (view next : View) :
    Prop where
  step : (circumstances work before after).Step view next
  begins : view = before.view ∨ view.errand = none ∧ before.view.Synchronises ∧
    (circumstances work before after).Step before.view view
  ends : next = after.view ∨ next.errand = none

/-- What every step of the protocol keeps, a step of a run keeps. -/
theorem Sound.view_next (sound : machine.Sound) (step : Next machine next)
    (reads : Reads work next.engine)
    (kept : ∀ {view after : View}, Taken work machine next view after → motive view → motive after)
    (base : motive machine.view) : motive next.view := by
  rcases sound.follows step reads with one | ⟨between, setting, first, _, idle, second⟩
  · exact kept ⟨one, .inl rfl, .inl rfl⟩ base
  · exact kept ⟨second, .inr ⟨idle, setting, first⟩, .inl rfl⟩
      (kept ⟨first, .inl rfl, .inr idle⟩ base)

/-- What every step of the protocol keeps, a run keeps. -/
theorem ReachesWhile.view_induction (run : start.ReachesWhile condition machine)
    (sound : start.Sound) (reads : Reads work machine.engine) (base : motive start.view)
    (kept : ∀ {before after : Machine}, start.ReachesWhile condition before → condition after →
      Reads work before.engine → ∀ {view next : View}, Taken work before after view next →
        motive view → motive next) : motive machine.view := by
  induction run with
  | refl => exact base
  | step run step holds ih =>
    have later := sound.later_reaches run.reaches
    have before := reads.of_extends (later.sound.later_next step).grown
    exact later.sound.view_next step reads (kept run holds before) (ih before)

end Machine

end Readiness
