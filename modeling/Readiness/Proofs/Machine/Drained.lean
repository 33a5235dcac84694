import Readiness.Proofs.Machine.Course

/-! Drained hosts: none of their batches is waiting or being delivered, so no call of a watcher that
concerns one of their executables is on its way.
-/

namespace Readiness

variable {call : Event × Listener}

/-- The executable whose listeners a frame is about to tell. -/
def Frame.source? : Frame → Option ExecutableRef
  | .announce e _ _ => some e
  | .deliver batch => some batch.event.source
  | .guard _ event _ => some event.source
  | _ => none

theorem mem_sum_map {α : Type} {parts : List α} {calls : α → Multiset (Event × Listener)} :
    call ∈ (parts.map calls).sum ↔ ∃ part ∈ parts, call ∈ calls part := by
  induction parts with
  | nil => simp
  | cons first rest ih => simp [ih]

/-- A call that waits does so in a batch of some host. -/
theorem Engine.mem_alerts {engine : Engine} :
    call ∈ engine.alerts ↔
      ∃ h, ∃ batch ∈ (engine.host h).queue ++ (engine.host h).deferred, call ∈ batch.alerts := by
  rw [Engine.alerts, mem_sum_map]
  constructor
  · rintro ⟨host, member, held⟩
    obtain ⟨h, bound, rfl⟩ := List.getElem_of_mem member
    have same : engine.host h = engine.hosts[h] := by
      simp [Engine.host, List.getD_eq_getElem?_getD, bound]
    rw [← same] at held
    exact ⟨h, mem_sum_map.mp held⟩
  · rintro ⟨h, batch, listed, held⟩
    have opened := host_lt_of_waiting listed
    refine ⟨engine.host h, ?_, mem_sum_map.mpr ⟨batch, listed, held⟩⟩
    rw [Engine.host, List.getD_eq_getElem?_getD, List.getElem?_eq_getElem opened]
    exact List.getElem_mem opened

theorem event_of_mem_watcherCalls {event : Event} {listeners : List Listener}
    (sent : call ∈ watcherCalls event listeners) : call.1 = event := by
  obtain ⟨_, _, rfl⟩ := List.mem_map.mp (Multiset.mem_coe.mp sent)
  rfl

/-- The calls of a frame are about the executable that it tells of. -/
theorem Frame.source?_of_mem_alerts {frame : Frame} (sent : call ∈ frame.alerts) :
    frame.source? = some call.1.source := by
  cases frame with
  | announce e transition entries =>
    rw [event_of_mem_watcherCalls (show call ∈ watcherCalls _ _ from sent)]
    rfl
  | deliver batch =>
    rw [event_of_mem_watcherCalls (show call ∈ watcherCalls _ _ from sent)]
    rfl
  | _ => cases sent

namespace Machine

/-- No batch of a host is waiting, and none is being delivered. -/
structure Drained (machine : Machine) (h : HostRef) : Prop where
  queue : (machine.engine.host h).queue = []
  deferred : (machine.engine.host h).deferred = []
  /-- No listener of one of its executables is being told. -/
  stack : ∀ frame ∈ machine.stack, ∀ e ∈ frame.source?, (machine.engine.executable e).host ≠ h

/-- No call of a watcher that concerns an executable of a drained host is on its way. -/
theorem Sound.host_ne_of_drained {machine : Machine} (sound : machine.Sound) {h : HostRef}
    (drained : machine.Drained h) {call : Event × Listener} (sent : call ∈ machine.view.alerts) :
    (machine.engine.executable call.1.source).host ≠ h := by
  rcases Multiset.mem_add.mp sent with now | later
  · -- The call that is being made has its guard on top.
    cases turn : machine.control with
    | perform command =>
      rw [turn] at now
      cases command with
      | invoke listener event =>
        have about := event_of_mem_watcherCalls (show call ∈ watcherCalls _ _ from now)
        have watcher : listener.isWatcher = true := by
          by_contra foreign
          rw [show Control.alerts (.perform (.invoke listener event)) =
              watcherCalls event [listener]
            from rfl, watcherCalls_of_foreign (by simpa using foreign)] at now
          cases now
        have engine : listener.isClient = false := by cases listener <;> first | rfl | cases watcher
        have fits := sound.control
        rw [turn] at fits
        obtain ⟨serial, entry, rest, stands⟩ := fits.2.2.2.1 listener event rfl engine
        refine drained.stack (.guard serial event ⟨listener, entry⟩) (by rw [stands]; simp) _ ?_
        rw [about]
        rfl
      | _ => cases now
    | _ =>
      rw [turn] at now
      cases now
  · rcases Multiset.mem_add.mp later with stacked | waiting
    · obtain ⟨frame, member, held⟩ := mem_sum_map.mp stacked
      exact drained.stack frame member _ (Frame.source?_of_mem_alerts held)
    · -- A batch that waits with a host is about one of its executables.
      obtain ⟨other, batch, listed, within⟩ := Engine.mem_alerts.mp waiting
      have home := (sound.store.batches other batch listed).home
      rw [event_of_mem_watcherCalls (show call ∈ watcherCalls _ _ from within), home]
      rintro rfl
      rw [drained.queue, drained.deferred] at listed
      cases listed

end Machine

end Readiness
