import Readiness.Proofs.Delivery.Stack
import Readiness.Proofs.Machine.Sequel

/-! Calls return to where they were made, and the delivery of deferred batches ends with none left.

Main statement: when the client has had the deferred batches of a host delivered, and nobody has
panicked meanwhile, no batch waits there that did not wait before.
-/

namespace Readiness

namespace Machine

variable {machine next final start : Machine} {base upper : List Frame} {frame : Frame}
  {h : HostRef} {condition : Machine → Prop}

/-- The machine works above these frames, or returns an answer to them. -/
def Above (machine : Machine) (base : List Frame) : Prop :=
  ∃ pushed, machine.stack = pushed ++ base ∧
    (pushed = [] → ∃ answer, machine.control = .resume answer)

namespace Above

theorem append (works : machine.Above (upper ++ base)) : machine.Above base := by
  obtain ⟨pushed, stands, answers⟩ := works
  refine ⟨pushed ++ upper, by rw [stands, List.append_assoc], fun empty => ?_⟩
  exact answers (List.append_eq_nil_iff.mp empty).1

theorem of_cons (stands : machine.stack = upper ++ frame :: base) : machine.Above base :=
  ⟨upper ++ [frame], by rw [stands, List.append_assoc]; rfl, fun empty => by simp at empty⟩

end Above

/-- A frame that gets an answer goes on above the frames under it. -/
theorem above_receive (machine : Machine) (answer : Answer) (frame : Frame) :
    (machine.receive answer frame).Above machine.stack := by
  obtain ⟨pushed, stands, sequel⟩ := machine.sequel_receive answer frame
  refine ⟨pushed, stands, fun empty => ?_⟩
  subst empty
  generalize (machine.receive answer frame).control = control at sequel
  cases sequel with
  | ends answer => exact ⟨answer, rfl⟩

/-- As long as nobody panics, a step touches no frame under the one on top. -/
theorem Next.above (step : Next machine next) (stands : machine.stack = frame :: base)
    (steady : ∀ payload, machine.control ≠ .unwind payload) : next.Above base := by
  -- Whatever the client does leaves the frame on top in place, unless it returns from it.
  have kept (same : next.stack = machine.stack) : next.Above base :=
    @Above.of_cons _ _ [] _ (same.trans stands)
  cases step with
  | engine busy =>
    unfold step
    split
    · rename_i command turn
      obtain ⟨pushed, under⟩ := (machine.sequel_start command).suffix
      exact Above.of_cons (by rw [← under, stands])
    · rename_i answer turn
      simp only [stands]
      exact above_receive { machine with stack := base } answer frame
    · rename_i payload turn
      exact absurd turn (steady payload)
    · rename_i turn
      rw [clientTurn, turn] at busy
      cases busy
    · rename_i turn
      rw [clientTurn, turn] at busy
      cases busy
  | call turn permitted => exact @Above.of_cons _ _ [_] _ (by rw [← stands]; rfl)
  | finish turn top reply =>
    exact ⟨[], by rw [Machine.finish, stands]; rfl, fun _ => ⟨_, rfl⟩⟩
  | build turn opened alive success => exact kept (kept_of_build success).1
  | beginWait turn alive => exact kept (machine.kept_of_beginWait _).1
  | accept | advance | openHost | retain | release | subscribe | unsubscribe | openSession
  | closeSession | panic => exact kept rfl

/-- A step touches no frame under the one on top. -/
theorem Next.suffix (step : Next machine next) (stands : machine.stack = frame :: base) :
    base <:+ next.stack := by
  by_cases unwinds : ∃ payload, machine.control = .unwind payload
  · -- A panic takes the frame on top along, and only a guard does anything more.
    obtain ⟨payload, turn⟩ := unwinds
    rw [step.eq_step (by rw [clientTurn, turn])]
    simp only [Machine.step, turn, stands]
    cases frame with
    | guard =>
      simp only [unwind]
      split
      · exact (sequel_listenerReturned ⟨_, base, _⟩ _ _ _ _ (.hold [])).suffix
      · exact List.suffix_rfl
    | _ => exact List.suffix_rfl
  · obtain ⟨pushed, stack, _⟩ := step.above stands fun payload turn => unwinds ⟨payload, turn⟩
    exact ⟨pushed, stack.symm⟩

/-- The client has the turn, and no call has yet to return. -/
def AtRest (machine : Machine) : Prop :=
  machine.clientTurn = true ∧ machine.stack = []

/-- A call of the client's has returned, and nothing was done since. -/
def ReturnsWhile (condition : Machine → Prop) (called final : Machine) : Prop :=
  (final.AtRest ∧ condition final) ∧ ∃ last,
    called.ReachesWhile (fun state => condition state ∧ ¬ state.AtRest) last ∧ Next last final

/-- The call that has the deferred batches of a host delivered has not returned. -/
inductive Pumping (h : HostRef) (machine : Machine) : Prop where
  | begins (asked : machine.control = .perform (.pump h)) (stands : machine.stack = [.hold []])
  | goesOn {taken : Nat} (works : machine.Above [.pump h taken, .hold []])
  | ends {answer : Answer} (answers : machine.control = .resume answer)
    (stands : machine.stack = [.hold []] ∨ machine.stack = [])
    (empty : (machine.engine.host h).deferred = [])

namespace Pumping

theorem not_atRest (pumping : machine.Pumping h) : ¬ machine.AtRest := by
  rintro ⟨turn, none_left⟩
  cases pumping with
  | begins _ stands =>
    rw [stands] at none_left
    cases none_left
  | goesOn works =>
    obtain ⟨pushed, stands, _⟩ := works
    rw [stands] at none_left
    simp at none_left
  | ends answers =>
    rw [clientTurn, answers] at turn
    cases turn

theorem receive {answer : Answer} {taken : Nat} (answers : machine.control = .resume answer)
    (stands : machine.stack = [.pump h taken, .hold []]) : machine.step.Pumping h := by
  simp only [step, answers, stands, Machine.receive]
  split
  · rename_i empty
    exact .ends rfl (.inl rfl) empty
  · obtain ⟨control, stack | stack⟩ := dispatch_cases (push (update _ _) _) h _
    · exact .goesOn ⟨[], stack, fun _ => ⟨_, control⟩⟩
    · exact .goesOn ⟨[_], stack, fun none_pushed => (by cases none_pushed)⟩

/-- The call goes on in every step as long as nobody panics, and ends with no batch left. -/
theorem onward (pumping : machine.Pumping h) (step : Next machine next)
    (steady : ∀ payload, machine.control ≠ .unwind payload) :
    next.Pumping h ∨ next.AtRest ∧ (next.engine.host h).deferred = [] := by
  cases pumping with
  | begins asked stands =>
    rw [step.eq_step (by rw [clientTurn, asked])]
    simp only [Machine.step, asked, start]
    exact .inl (.goesOn ⟨[], by rw [← stands]; rfl, fun _ => ⟨.done, rfl⟩⟩)
  | @goesOn taken works =>
    obtain ⟨pushed, stands, answers⟩ := works
    cases pushed with
    | nil =>
      obtain ⟨answer, answers⟩ := answers rfl
      rw [step.eq_step (by rw [clientTurn, answers])]
      exact .inl (receive answers stands)
    | cons top others => exact .inl (.goesOn (step.above stands steady).append)
  | ends answers stands empty =>
    rw [step.eq_step (by rw [clientTurn, answers])]
    simp only [Machine.step, answers]
    rcases stands with stands | stands
    · simp only [stands]
      exact .inl (.ends rfl (.inr rfl) empty)
    · simp only [stands]
      exact .inr ⟨⟨rfl, rfl⟩, empty⟩

end Pumping

theorem ReturnsWhile.reachesWhile {called : Machine}
    (returns : called.ReturnsWhile condition final) : called.ReachesWhile condition final := by
  obtain ⟨⟨_, holds⟩, last, run, step⟩ := returns
  exact .step (run.mono fun _ holds => holds.1) step holds

/-- Until it returns, a call that has deferred batches delivered goes on. -/
theorem pumping_of_call {last : Machine} (rest : machine.stack = [])
    (run : (machine.call (.pump h)).ReachesWhile
      (fun state => condition state ∧ ¬ state.AtRest) last)
    (steady : ∀ state, condition state → ∀ payload, state.control ≠ .unwind payload) :
    last.Pumping h := by
  induction run with
  | refl => exact .begins rfl (by rw [call, perform, push, rest]; rfl)
  | step run step holds ih =>
    exact (ih.onward step (steady _ run.holds.1)).resolve_right fun ended => holds.2 ended.1

/-- Once the deferred batches of a host have been delivered, none is left. -/
theorem ReturnsWhile.deferred_eq_nil
    (returns : (machine.call (.pump h)).ReturnsWhile condition final) (rest : machine.stack = [])
    (steady : ∀ state, condition state → ∀ payload, state.control ≠ .unwind payload) :
    (final.engine.host h).deferred = [] := by
  obtain ⟨⟨atRest, _⟩, last, run, step⟩ := returns
  have pumping := pumping_of_call rest run steady
  rcases pumping.onward step (steady last run.holds.1) with still | ended
  · exact absurd atRest still.not_atRest
  · exact ended.2

/-- As long as nobody panics, batches enter the dispatch queue of a host only while its delivery
loop is at work. -/
theorem ReachesWhile.draining_or_queued (reachable : start.Reachable)
    (run : start.ReachesWhile condition machine)
    (steady : ∀ state, condition state → ∀ payload, state.control ≠ .unwind payload) (h : HostRef) :
    (machine.engine.host h).draining = true ∨ ∀ batch ∈ (machine.engine.host h).queue,
      batch ∈ (start.engine.host h).queue := by
  refine run.rules_induction (Reachable.sound reachable) (.refl _) (motive := fun state =>
    (state.engine.host h).draining = true ∨ ∀ batch ∈ (state.engine.host h).queue,
      batch ∈ (start.engine.host h).queue) (.inr fun _ => id) ?_
  intro before after run sound step holds grown rules queued
  have layered := Reachable.layered (reachable.trans run.reaches)
    ((sound.later_next step).grown.trans grown)
  rcases rules.queue_cases h with draining | empty | ⟨payload, rest, turn, _⟩ | ⟨same, busy | still⟩
  · exact .inl draining
  · refine .inr fun batch member => ?_
    rw [show (after.engine.host h).queue = [] from empty] at member
    cases member
  · exact absurd turn (steady _ run.holds payload)
  · exact .inl (same.trans (layered.draining_iff.mpr busy))
  · rw [show (after.engine.host h).queue = (before.engine.host h).queue from still,
      show (after.engine.host h).draining = (before.engine.host h).draining from same]
    exact queued

/-- Once the deferred batches of a host have been delivered and nobody has panicked, no batch waits
there that was not in the dispatch queue when the run began. -/
theorem ReturnsWhile.mem_queue (reachable : start.Reachable)
    (run : start.ReachesWhile condition machine) (rest : machine.stack = [])
    (permitted : Next machine (machine.call (.pump h)))
    (returns : (machine.call (.pump h)).ReturnsWhile condition final)
    (steady : ∀ state, condition state → ∀ payload, state.control ≠ .unwind payload) {batch : Batch}
    (waits : batch ∈ (final.engine.host h).queue ++ (final.engine.host h).deferred) :
    batch ∈ (start.engine.host h).queue := by
  have pumped := returns.reachesWhile
  have whole := (run.step permitted pumped.start_holds).trans pumped
  rw [returns.deferred_eq_nil rest steady, List.append_nil] at waits
  rcases whole.draining_or_queued reachable steady h with draining | queued
  · -- At rest no delivery loop is at work.
    have layered := Reachable.layered (reachable.trans whole.reaches) (.refl _)
    have loop : .drain h ∈ final.traffic.calls := layered.draining_iff.mp draining
    rw [traffic, returns.1.1.2] at loop
    cases loop
  · exact queued batch waits

end Machine

end Readiness
