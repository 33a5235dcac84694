import Mathlib.Algebra.Order.BigOperators.Group.List
import Mathlib.Data.Multiset.OrderedMonoid
import Readiness.Proofs.Machine.Change
import Readiness.Proofs.Machine.Mortality
import Readiness.Proofs.Policy.Shadow

/-! Machines in which nothing is given up, synchronised or observed by client code, and in which
listeners do not call the engine.

Main statements: whatever the engine does next there shows in the gist as its next step, or not at
all.
-/

namespace Readiness

open List

/-- None of the engine's own listeners for synchronisation is registered or about to be called. -/
structure View.Unwatched (view : View) : Prop where
  watches : ∀ d, view.watches d = 0
  alerts : view.alerts = 0

/-- Such listeners are registered by gates only. -/
theorem Circumstances.Step.unwatched {given : Circumstances} {view next : View}
    (step : given.Step view next) (unwatched : view.Unwatched)
    (ungated : ∀ duty ∈ view.duties, duty.gate? = none) : next.Unwatched := by
  refine ⟨fun d => Multiset.eq_zero_of_forall_notMem ?_, Multiset.eq_zero_of_forall_notMem ?_⟩
  · rintro ⟨status, listener⟩ member
    rcases step.watch_cases member with ⟨old, _⟩ | ⟨_, _, _, _, _, _, examined, _⟩
    · rw [unwatched.watches d] at old
      cases old
    · cases ungated _ examined
  · rintro ⟨event, listener⟩ member
    rcases step.alert_cases member with old | ⟨watched, _⟩
    · rw [unwatched.alerts] at old
      cases old
    · rw [unwatched.watches] at watched
      cases watched

namespace Machine

/-- Nothing is given up, synchronised or observed by client code. -/
structure Ungated (machine : Machine) : Prop where
  reachable : machine.Reachable
  posed : machine.Posed
  allKept : machine.gist.AllKept
  unwatched : machine.view.Unwatched

/-- The next step of the engine is one of what executables do. -/
def acts (machine : Machine) : Bool :=
  match machine.control, machine.stack with
  | .perform command, _ => command.isDeed
  | .resume _, frame :: _ => frame.isDeed && !frame.isClient
  | _, _ => false

variable {machine next : Machine}

theorem falls_of_control {control : Control} (turn : machine.control = control)
    (steady : ∀ payload, control ≠ .unwind payload) : machine.falls = false := by
  cases control with
  | unwind payload => exact absurd rfl (steady payload)
  | _ => simp only [falls, turn]

namespace Ungated

variable (ungated : machine.Ungated)
include ungated

theorem spared (e : ExecutableRef) : (machine.engine.executable e).destroyed = false :=
  ungated.allKept.spared e

theorem passive : machine.engine.Passive :=
  Engine.passive_still.mp ungated.allKept.passive

/-- No step has anybody listen in order to synchronise. -/
theorem unwatched_next (step : Next machine next) : next.view.Unwatched := by
  refine ungated.reachable.sound.view_next step (fun _ _ => rfl) (fun taken unwatched => ?_)
    ungated.unwatched
  rcases taken.begins with rfl | ⟨_, ⟨e, target, dependencies, onFailure, asked⟩, _⟩
  · refine taken.step.unwatched unwatched fun duty member => ?_
    have plain := ungated.posed.ordered.plain duty (mem_stack_of_mem_duties member)
    cases duty <;> first | rfl | exact absurd rfl plain
  · have asked : machine.control.errand = _ := asked
    cases turn : machine.control with
    | perform command =>
      simp only [turn, Control.errand, Option.ite_none_right_eq_some, Option.some.injEq] at asked
      obtain ⟨_, _, _, suits⟩ := ungated.posed.command command turn
      rw [asked.2] at suits
      cases suits
    | _ =>
      rw [turn] at asked
      cases asked

/-- Whoever is in the store is alive. -/
theorem isAlive_iff (e : ExecutableRef) :
    machine.isAlive e = true ↔ e < machine.engine.executables.length := by
  refine ⟨ungated.reachable.sound.lt_of_isAlive, fun built => isAlive_of_mem_roots ?_⟩
  simp only [roots, mem_append]
  rcases ungated.allKept.manned e built with held | handed
  · refine .inl (.inl (.inl (mem_filter.mpr ⟨mem_range.mpr built, ?_⟩)))
    exact decide_eq_true held
  · -- Whoever is being handed out is kept by the call that hands it out.
    have stands : .hand e ∈ machine.stack := by
      simp only [gist] at handed
      split at handed
      · cases handed
      · exact mem_of_mem_filter handed
    exact .inl (.inr (mem_flatMap.mpr ⟨_, stands, mem_singleton_self e⟩))

/-- What listeners are told of is told to others than the engine's own for synchronisation. -/
theorem foreign_of_deliver {batch : Batch} (stands : .deliver batch ∈ machine.stack) :
    ∀ delivery ∈ batch.deliveries, delivery.listener.isWatcher = false := by
  intro delivery member
  by_contra watcher
  have part : Frame.alerts (.deliver batch) ≤ (machine.stack.map Frame.alerts).sum :=
    le_sum_of_mem (mem_map_of_mem stands)
  have sent : (batch.event, delivery.listener) ∈ machine.view.alerts := by
    refine Multiset.mem_add.mpr (.inr (Multiset.mem_add.mpr (.inl (Multiset.mem_of_le part ?_))))
    exact Multiset.mem_coe.mpr (mem_map_of_mem (mem_filter.mpr
      ⟨mem_map_of_mem member, by simpa using watcher⟩))
  rw [ungated.unwatched.alerts] at sent
  cases sent

/-- A step of what executables do shows as such; nobody synchronises. -/
theorem gist_step_of_acts (acts : machine.acts = true)
    (apart : ∀ e target dependencies onFailure, machine.step.control ≠
      .perform (.synchronise e target dependencies onFailure)) :
    machine.step.gist = machine.gist.turn := by
  have sound := ungated.reachable.sound
  cases turn : machine.control with
  | perform command =>
    have deed : command.isDeed = true := by simpa only [Machine.acts, turn] using acts
    have fits := sound.control
    rw [turn] at fits
    obtain ⟨top, rest, stands, suits⟩ := ungated.posed.command command turn
    rw [step_of_perform turn, gist_start deed fits.1 sound.store ungated.passive
      ungated.isAlive_iff (by rintro e target dependencies onFailure rfl; cases suits)
      (by rintro e rfl; cases suits), gist_eq_shadow (falls_of_control turn (by simp)), turn]
    simp only [Control.deed?, deed, if_true, Gist.turn]
    -- What is about to be done plays no part in how it is done.
    cases command <;> first | rfl | cases suits | cases deed
  | resume answer =>
    cases stands : machine.stack with
    | nil => simp [Machine.acts, turn, stands] at acts
    | cons frame rest =>
      have both : (frame.isDeed && !frame.isClient) = true := by
        simpa only [Machine.acts, turn, stands] using acts
      obtain ⟨deed, ours⟩ := Bool.and_eq_true_iff.mp both
      have member : frame ∈ machine.stack := by rw [stands]; exact mem_cons_self
      have before : machine.shadow =
          { Machine.shadow { machine with stack := rest } with
            news := (Machine.shadow { machine with stack := rest }).news + frame.news
            duties := frame :: (Machine.shadow { machine with stack := rest }).duties } := by
        rw [shadow, stands]
        exact machine.engine.gist.under_cons_deed deed rest
      have known : frame.Known ({ machine with stack := rest } : Machine).engine :=
        sound.frames frame member
      rw [step_of_resume turn stands] at apart ⊢
      rw [gist_receive deed (by simpa using ours) (ungated.posed.ordered.plain frame member) known
        sound.store answer apart, gist_eq_shadow (falls_of_control turn (by simp)), turn, before]
      rfl
  | unwind payload | called | returned answer => simp [Machine.acts, turn] at acts

/-- A panic does not show once it is there: it ends all calls, or only that of a listener. -/
theorem gist_step_of_unwind {payload : Payload} (turn : machine.control = .unwind payload) :
    machine.step.gist = machine.gist := by
  cases stands : machine.stack with
  | nil =>
    have ends : machine.step = { machine with control := .returned (.panicked payload) } := by
      rw [Machine.step, turn, stands]
    refine Gist.ext (by rw [ends]; rfl) (by rw [ends]; rfl) ?_ (by rw [ends, gist, gist, turn]; rfl)
    simp only [ends, gist, falls, turn, stands]
    rfl
  | cons frame rest =>
    have ordered := ungated.posed.ordered
    rw [stands] at ordered
    have passes (other : ∀ h, frame ≠ .drain h) (free : frame.isGuard = false) :
        ∃ store, store.gist = machine.engine.gist ∧
          machine.step = ⟨store, rest, machine.control⟩ := by
      rw [step_of_unwind turn stands]
      cases frame with
      | drain h => exact absurd rfl (other h)
      | guard serial event delivery => cases free
      | pumped k | asked k => exact ⟨_, machine.engine.gist_endSession k, rfl⟩
      | _ => exact ⟨machine.engine, rfl, rfl⟩
    cases falling : machine.falls with
    | true =>
      -- Nobody catches it, and it passes nothing that has to do with telling listeners.
      have plain := ungated.posed.falling falling frame (by rw [stands]; exact mem_cons_self)
      have free : frame.isGuard = false := by cases frame <;> first | rfl | cases plain
      obtain ⟨store, same, next⟩ := passes (by rintro h rfl; cases plain) free
      have onward : Machine.falls ⟨store, rest, machine.control⟩ = true := by
        simpa only [falls, turn, stands, any_cons, free, Bool.false_or] using falling
      rw [next]
      refine Gist.ext (by simp only [gist, same]) ?_ ?_ rfl
      · simp only [gist, same, stands, map_cons, sum_cons, Frame.news_of_unshielded plain, zero_add]
      · simp only [gist, falling, onward, if_true]
    | false =>
      have guarded : (frame :: rest).any Frame.isGuard = true := by
        simpa only [falls, turn, stands, Bool.not_eq_false'] using falling
      have still : machine.gist = machine.shadow := by
        rw [gist_eq_shadow falling, turn]
        rfl
      have before (minor : frame.isDeed = false) (mute : frame.news = 0) :
          machine.shadow = Machine.shadow { machine with stack := rest } := by
        rw [shadow, stands, Gist.under_cons_minor _ minor, mute, add_zero]
        rfl
      rw [still]
      rcases ordered.guard_or_guarded guarded with guard | guarded
      · obtain ⟨serial, event, delivery, rfl⟩ : ∃ serial event delivery,
            frame = .guard serial event delivery := by
          cases frame <;> first | exact ⟨_, _, _, rfl⟩ | cases guard
        have passive : ({ machine with stack := rest } : Machine).engine.Passive :=
          ungated.passive
        rw [step_of_unwind turn stands, unwind_guard (ungated.reachable.sound.quiet turn),
          gist_listenerReturned passive, before rfl rfl]
      · obtain ⟨listener, below⟩ := ordered.listener_of_guarded guarded
        have minor : frame.isDeed = false := by
          cases frame with
          | client callback => cases callback <;> first | rfl | cases listener
          | _ => cases listener
        have mute : frame.news = 0 := by cases frame <;> first | rfl | cases listener
        obtain ⟨store, same, next⟩ := passes (by rintro h rfl; cases listener)
          (by cases frame <;> first | rfl | cases listener)
        have onward : Machine.falls ⟨store, rest, machine.control⟩ = false := by
          simp only [falls, turn, below, Bool.not_true]
        rw [next, gist_eq_shadow onward, turn, before minor mute, shadow, shadow, same]
        rfl

/-- Any other step of the engine does not show. -/
theorem gist_step_of_rests (rests : machine.acts = false) : machine.step.gist = machine.gist := by
  cases turn : machine.control with
  | perform command =>
    have minor : command.isDeed = false := by simpa only [Machine.acts, turn] using rests
    obtain ⟨top, rest, stands, suits⟩ := ungated.posed.command command turn
    have still : machine.gist = machine.shadow := by
      rw [gist_eq_shadow (falls_of_control turn (by simp)), turn]
      simp only [Control.deed?, minor]
      rfl
    rw [step_of_perform turn, still]
    cases command with
    | invoke listener event =>
      have foreign := (Bool.and_eq_true_iff.mp suits).1
      exact gist_callListener (by simpa using foreign) event
    | pump h =>
      rw [start, gist_resume]
      exact shadow_push_minor rfl rfl
    | poll k =>
      simp only [start]
      split
      · exact gist_runSession machine k
      · exact gist_askFuture machine k
      · exact gist_askFuture machine k
      · exact gist_resume machine _
    | _ => cases minor
  | resume answer =>
    have still : machine.gist = machine.shadow := by
      rw [gist_eq_shadow (falls_of_control turn (by simp)), turn]
      rfl
    cases stands : machine.stack with
    | nil =>
      have ends : machine.step = { machine with control := .returned answer } := by
        rw [Machine.step, turn, stands]
      rw [ends, still]
      exact gist_eq_shadow rfl
    | cons frame rest =>
      rw [step_of_resume turn stands, still]
      cases deed : frame.isDeed with
      | false =>
        have passive : ({ machine with stack := rest } : Machine).engine.Passive := ungated.passive
        rw [gist_receive_minor deed (by exact ungated.spared) passive, shadow, shadow, stands,
          Gist.under_cons_minor _ deed]
      | true =>
        -- The call is the client's, which has the turn again.
        have client : frame.isClient = true := by
          simpa [Machine.acts, turn, stands, deed] using rests
        obtain ⟨callback, rfl⟩ : ∃ callback, frame = .client callback := by
          cases frame <;> first | exact ⟨_, rfl⟩ | cases client
        have back : (Machine.receive { machine with stack := rest } answer
            (.client callback)).gist =
            (Machine.push { machine with stack := rest } (.client callback)).shadow :=
          gist_eq_shadow rfl
        rw [back, push, ← stands]
  | unwind payload => exact ungated.gist_step_of_unwind turn
  | called | returned answer =>
    have same : machine.step = machine := by rw [Machine.step, turn]
    rw [same]

/-- A step of the engine keeps the machine ungated, unless it leads to synchronisation. -/
theorem step (busy : machine.clientTurn = false)
    (apart : ∀ e target dependencies onFailure, machine.step.control ≠
      .perform (.synchronise e target dependencies onFailure)) : machine.step.Ungated where
  reachable := ungated.reachable.step (.engine busy)
  posed := ungated.posed.step ungated.passive (fun _ => ungated.reachable.sound.quiet)
    (fun _ => ungated.foreign_of_deliver) apart
  allKept := by
    cases acts : machine.acts with
    | true =>
      rw [ungated.gist_step_of_acts acts apart]
      exact ungated.allKept.turn
    | false =>
      rw [ungated.gist_step_of_rests acts]
      exact ungated.allKept
  unwatched := ungated.unwatched_next (.engine busy)

end Ungated

end Machine

end Readiness
