import Readiness.Proofs.Delivery.Rules
import Readiness.Proofs.Machine.Course

/-! The machine follows the rules of delivery: whatever one step of a run does to the traffic, they
allow it.
-/

namespace Readiness

open List Engine

variable {e : ExecutableRef} {rest : List Frame} {store : Engine}

/-- The frame neither calls or listens to anybody nor delivers anything. -/
def Frame.isClerical : Frame → Bool
  | .client _ | .arm .. | .examine .. | .announce .. | .drain _ | .deliver _ | .guard .. |
    .pump .. => false
  | _ => true

namespace Machine

variable {machine : Machine} {given : Surroundings} {h : HostRef} {frame : Frame}

/-- What the rules leave open about the step that a machine takes next. -/
def surroundings (machine : Machine) (store : Engine) : Surroundings where
  store := store
  loses := fun frame =>
    ∃ payload rest, machine.control = .unwind payload ∧ machine.stack = frame :: rest
  reenters := fun notice => ∃ above code below, above ≠ [] ∧
    machine.stack = above ++ .client (.observer code notice) :: below
  listens := fun e listener => listener.isClient = false ∨
    ∃ request, machine.control = .perform (.onReady e request) ∧ request.success = listener
  pumps := fun h => ∃ answer taken rest,
    machine.control = .resume answer ∧ machine.stack = .pump h taken :: rest

/-- On top of an observer that is being told stands whoever it has called. -/
theorem free_of_top (store : Engine) {top : Frame} (stands : machine.stack = top :: rest)
    (ours : top.isClient = false) : (machine.surroundings store).Free machine.traffic := by
  intro code notice others told
  obtain ⟨above, below, split, _⟩ := filter_eq_cons_iff.mp told
  refine ⟨above, code, below, fun nobody => ?_, split⟩
  rw [nobody, stands] at split
  cases split
  cases ours

/-- If nobody on top of the stack waits for a call to end, nobody on top of the calls does. -/
theorem Calm.traffic {start : Engine} (calm : machine.Calm start) : machine.traffic.Calm := by
  intro frame member
  obtain ⟨others, calls⟩ := head?_eq_some_iff.mp member
  obtain ⟨above, below, split, plain, _⟩ := filter_eq_cons_iff.mp calls
  cases telling : frame.isTelling with
  | false => rfl
  | true =>
    rcases eq_nil_or_concat above with rfl | ⟨higher, last, rfl⟩
    · have idle := calm.top frame (by rw [split]; rfl)
      rw [Frame.isBusy, telling] at idle
      cases idle
    · -- Whoever stands on such a frame has to do with delivery, so nothing lies between.
      have layered := calm.layered
      rw [split, concat_eq_append, append_assoc] at layered
      have on : last.StandsOn frame := (isChain_append.mp layered).2.1 |> fun chain =>
        (isChain_cons.mp chain).1 frame rfl
      have hidden := plain last (by simp)
      rcases on.told telling with observer | ⟨_, serial, event, delivery, rfl⟩
      · cases last with
        | client callback =>
          cases callback with
          | observer code notice => exact absurd rfl hidden
          | _ => cases observer
        | _ => cases observer
      · exact absurd rfl hidden

/-- What does not show may change. -/
theorem rules_update_of_same {change : Engine → Engine}
    (same : (change machine.engine).traffic = machine.engine.traffic) :
    given.Step machine.traffic (machine.update change).traffic := by
  rw [machine.traffic_update_of_same same]
  exact .pass

/-- Listeners may be added. -/
theorem rules_grow (built : e < machine.engine.executables.length)
    {change : Subscriptions → Subscriptions}
    (more : (machine.traffic.subscriptions e).Grown (change (machine.traffic.subscriptions e))) :
    given.Step machine.traffic (machine.update (·.modifySubscriptions e change)).traffic := by
  rw [traffic_update, traffic_modifySubscriptions _ built]
  exact .subscribe more

section

variable (machine : Machine)

/-- A new gate does not show. -/
theorem traffic_addGate (gate : Gate) :
    (machine.update (·.addGate gate)).traffic = machine.traffic :=
  rfl

/-- Counting does not show. -/
theorem traffic_countGate (g : GateRef) : (machine.countGate g).1.traffic = machine.traffic :=
  rfl

/-- That a gate opens does not show. -/
theorem traffic_openGate (g : GateRef) : (machine.openGate g).traffic = machine.traffic :=
  (traffic_perform _ _).trans (machine.traffic_note rfl)

/-- A gate may listen to a dependency. -/
theorem rules_examine (g : GateRef) (position : Nat) {d : ExecutableRef} (rest : List ExecutableRef)
    (onFailure : Option Listener) (built : d < machine.engine.executables.length) :
    given.Step machine.traffic (machine.examine g position d rest onFailure).traffic := by
  have seen : (machine.note
      (.examined g position d (machine.engine.executable d).isReady)).traffic = machine.traffic :=
    machine.traffic_note rfl
  simp only [examine]
  split
  · split
    · rw [traffic_openGate, traffic_push_plain _ rfl, traffic_countGate, seen]
      exact .pass
    · rw [traffic_resume, traffic_push_plain _ rfl, traffic_countGate, seen]
      exact .pass
  · rw [traffic_resume, traffic_push_plain _ rfl, ← seen]
    refine rules_grow (by exact built) ?_
    exact Subscriptions.grown_foldl_add ..

/-- A gate may go on. -/
theorem rules_arm (g : GateRef) (position : Nat) {rest : List ExecutableRef}
    (onFailure : Option Listener) (built : ∀ d ∈ rest, d < machine.engine.executables.length) :
    given.Step machine.traffic (machine.arm g position rest onFailure).traffic := by
  unfold arm
  split
  · exact .pass
  · split
    · exact rules_examine _ _ _ _ _ (built _ (mem_cons_self ..))
    · rw [traffic_perform, traffic_push_plain _ rfl]
      exact .pass

/-- Who is called does not show. -/
theorem traffic_callListener (listener : Listener) (event : Event) :
    (machine.callListener listener event).traffic = machine.traffic := by
  cases listener with
  | client code => exact machine.traffic_callClient rfl
  | countdown g position =>
    simp only [callListener]
    split
    · split
      · rfl
      · split
        · exact (traffic_resume _ _).trans ((traffic_note _ rfl).trans rfl)
        · rw [traffic_openGate, traffic_push_plain _ rfl, traffic_countGate]
    · rfl
  | dependencyFailed composite =>
    simp only [callListener]
    split
    · rw [traffic_perform, traffic_push_plain _ rfl, traffic_note _ rfl]
    · rfl
  | waitReady w | waitFailed w => rfl

/-- Polling a future does not show. -/
theorem traffic_askFuture (k : SessionRef) : (machine.askFuture k).traffic = machine.traffic := by
  simp only [askFuture]
  split
  · rw [traffic_callClient _ rfl, traffic_push_plain _ rfl]
  · rw [traffic_resume, traffic_push_plain _ rfl]

/-- A session does not show. -/
theorem traffic_runSession (k : SessionRef) : (machine.runSession k).traffic = machine.traffic := by
  unfold runSession
  rw [traffic_perform, traffic_push_plain _ rfl]

/-- The end of a poll does not show. -/
theorem traffic_concludePoll (k : SessionRef) (finished : Bool) :
    (machine.concludePoll k finished).traffic = machine.traffic := by
  simp only [concludePoll]
  split
  · rw [traffic_resume, traffic_update_of_same _ (traffic_endSession ..)]
  · split
    · exact traffic_runSession ..
    · rfl
    · rfl
    · split
      · rw [traffic_runSession, traffic_update_of_same _
          (traffic_modifyHost_of_same _ _ rfl)]
      · refine (traffic_resume _ _).trans (traffic_update_of_same _ ?_)
        exact traffic_modifyHost_of_same _ _ rfl

/-- Starting work does not show. -/
theorem traffic_startWork (e : ExecutableRef) :
    (machine.startWork e).traffic = machine.traffic := by
  simp only [startWork]
  split
  · rw [traffic_resume, traffic_push_plain _ rfl]
  · rw [traffic_resume, traffic_push_plain _ rfl]
  · rw [traffic_perform, traffic_push_plain _ rfl]
  · rw [traffic_perform, traffic_push_plain _ rfl]
  · rw [traffic_callClient _ rfl, traffic_push_plain _ rfl]

/-- A batch enters the queue. -/
theorem traffic_dispatch (opened : h < machine.engine.hosts.length) (batch : Batch) :
    (machine.dispatch h batch).traffic = machine.traffic.dispatch h batch := by
  have entered := machine.engine.traffic_enqueue opened batch
  unfold dispatch Traffic.dispatch
  cases busy : (machine.engine.host h).draining with
  | true =>
    have draining : (machine.traffic.depot h).draining = true := busy
    simp only [if_true, traffic_resume, draining]
    rw [traffic_update, entered, ← draining]
    rfl
  | false =>
    have idle : (machine.traffic.depot h).draining = false := busy
    have still : h < (machine.update (·.enqueue h batch)).engine.hosts.length := by
      simpa [update, Engine.enqueue, Engine.note, Engine.modifyHost] using opened
    simp only [Bool.false_eq_true, if_false, traffic_resume, idle]
    rw [traffic_push _ rfl, traffic_update, traffic_modifyHost _ still]
    -- The queue has grown by then, and the claim on it is the only other change.
    have here : ((machine.engine.enqueue h batch).host h).depot =
        { machine.traffic.depot h with queue := (machine.traffic.depot h).queue ++ [batch] } :=
      (congrFun (congrArg Traffic.depot entered) h).trans (Function.update_self ..)
    refine Traffic.ext rfl rfl ?_ ?_ rfl ?_ rfl
    · show (machine.engine.enqueue h batch).traffic.hosts = machine.traffic.hosts
      rw [entered]
      rfl
    · show Function.update (machine.engine.enqueue h batch).traffic.depot h
        { ((machine.engine.enqueue h batch).host h).depot with draining := true } = _
      rw [here, entered, Function.update_idem]
      rfl
    · show (machine.engine.enqueue h batch).traffic.journal = _
      rw [entered]
      rfl

end

/-- A request for readiness may be filed, and granted. -/
theorem rules_listenReady (sound : machine.engine.Sound)
    (grown : machine.engine.Extends given.store) (built : e < machine.engine.executables.length)
    (request : ReadyRequest) (asked : given.listens e request.success) :
    given.Step machine.traffic (machine.update (·.listenReady e request)).traffic := by
  have opened := sound.hosted e built
  have home : given.home e = (machine.engine.executable e).host := grown.home e built
  have ready : (given.store.executable e).readyStatus =
      (machine.engine.executable e).readyStatus := by
    simp only [Executable.readyStatus, grown.work e built]
  -- Whatever is registered, entries are only added.
  have more (links : List (Listener × Status)) (immediate : Bool) (subscriptions : Subscriptions) :
      subscriptions.Grown
        (if !request.once then
          links.foldl (fun grown link => grown.add link.1 (some link.2) false) subscriptions
        else if immediate then subscriptions else subscriptions.addGroup links) := by
    split
    · exact Subscriptions.grown_foldl_add ..
    · split
      · exact .refl
      · exact Subscriptions.grown_addGroup ..
  rw [traffic_update]
  unfold Engine.listenReady
  simp only
  generalize (request.success, (machine.engine.executable e).readyStatus) ::
    request.failure.toList.flatMap _ = links
  cases immediate : (machine.engine.executable e).isReady && !request.onlyFuture with
  | false =>
    simp only [Bool.false_eq_true, if_false]
    exact rules_grow built (more links false _)
  | true =>
    simp only [if_true]
    have deferred := machine.engine.spendBatch.traffic_defer opened
      (machine.engine.batch ⟨e, (machine.engine.executable e).readyStatus,
        (machine.engine.executable e).readyStatus⟩ [⟨request.success, none⟩])
    rw [traffic_modifySubscriptions _ (Nat.lt_of_lt_of_le built
      ((Engine.Extends.spendBatch _).trans (.defer ..)).executables), deferred]
    have told : given.Step machine.traffic _ :=
      .listen asked (home ▸ opened) (more links true _)
    rw [home, ready] at told
    exact told

/-- A request to move that has an effect shows as a transition, of which the observer is told. -/
theorem traffic_setStatus (machine : Machine) {status : Status}
    (built : e < machine.engine.executables.length)
    (moves : (machine.engine.executable e).moves status = true) :
    ∃ told, (Notice.transitioned e (machine.engine.executable e).status status).Told told ∧
      (machine.start (.setStatus e status)).traffic =
        machine.traffic.move told e ⟨(machine.engine.executable e).status, status⟩ := by
  simp only [start, moves, if_true]
  obtain ⟨told, telling, notified⟩ := traffic_notify
    ((machine.update (·.transition e status)).push
      (.announce e ⟨(machine.engine.executable e).status, status⟩
        ((machine.engine.executable e).subscriptions.due status)))
    (machine.engine.executable e).host
    (.transitioned e (machine.engine.executable e).status status)
  refine ⟨told, telling, notified.trans ?_⟩
  rw [traffic_push _ rfl, traffic_update, traffic_transition _ built]
  rfl

/-- Of an execution only what the observer is told shows. -/
theorem rules_execute (calm : machine.traffic.Calm) (free : given.Free machine.traffic)
    (e : ExecutableRef) (refresh : Refresh) :
    given.Step machine.traffic (machine.start (.execute e refresh)).traffic := by
  simp only [start]
  split
  · exact .pass
  · generalize (machine.engine.executable e).host = h
    have counted : ((machine.update fun engine =>
        (engine.modifyExecutable e (·.begin engine.clock)).modifyTally h
          Tally.countExecution).push
            (.begin e (machine.engine.executable e).status)).traffic = machine.traffic := by
      rw [traffic_push_plain _ rfl]
      refine machine.traffic_update_of_same ((traffic_modifyHost_of_same _ _ rfl).trans ?_)
      exact traffic_modifyExecutable_of_same _ e rfl rfl
    obtain ⟨told, telling, notified⟩ := traffic_notify ((machine.update fun engine =>
        (engine.modifyExecutable e (·.begin engine.clock)).modifyTally h
          Tally.countExecution).push (.begin e (machine.engine.executable e).status)) h
            (.executed e (machine.engine.executable e).status)
    rw [notified, counted]
    exact .tell calm free telling

/-- A poll does not show. -/
theorem traffic_start_poll (machine : Machine) (k : SessionRef) :
    (machine.start (.poll k)).traffic = machine.traffic := by
  simp only [start]
  split
  · exact traffic_runSession ..
  · exact traffic_askFuture ..
  · exact traffic_askFuture ..
  · rfl

/-- Beginning a command follows the rules. -/
theorem Sound.rules_start (sound : machine.Sound) {command : Command}
    (turn : machine.control = .perform command) (grown : machine.engine.Extends store) :
    (machine.surroundings store).Step machine.traffic (machine.start command).traffic := by
  have calm := (sound.calm_of_perform turn).traffic
  have fits := sound.control
  rw [turn] at fits
  obtain ⟨known, ⟨top, rest, stands, _, ours⟩, _, _⟩ := fits
  have free := free_of_top store stands ours
  cases command with
  | execute e refresh => exact rules_execute calm free e refresh
  | setStatus e status =>
    have built : e < machine.engine.executables.length :=
      known.executables e (mem_singleton_self e)
    cases moves : (machine.engine.executable e).moves status with
    | false =>
      simp only [start, moves, Bool.false_eq_true, if_false]
      exact .pass
    | true =>
      obtain ⟨told, telling, moved⟩ := machine.traffic_setStatus built moves
      rw [moved]
      exact .move ((Executable.moves_iff _ _).mp moves).1 calm free telling
  | report e status =>
    simp only [start]
    split
    · rw [traffic_resume, traffic_push_plain _ rfl]
      exact .pass
    · exact .pass
  | fail e reason =>
    simp only [start]
    split
    · rw [traffic_resume, traffic_push_plain _ rfl, traffic_note _ rfl]
      exact .pass
    · exact .pass
  | synchronise e target dependencies onFailure =>
    simp only [start]
    generalize (if (dependencies.all fun d => (machine.engine.executable d).isReady) = true then 0
      else dependencies.length) = remaining
    split
    · rw [traffic_openGate, traffic_push_plain _ rfl, traffic_addGate]
      exact .pass
    · exact rules_arm (machine.update (·.addGate ⟨e, target, remaining⟩)) _ _ _
        fun d member => known.executables d (mem_cons_of_mem _ member)
  | onReady e request =>
    have built : e < machine.engine.executables.length :=
      known.executables e (mem_singleton_self e)
    have listening : (machine.surroundings store).Step machine.traffic
        (machine.update (·.listenReady e request)).traffic :=
      rules_listenReady sound.store grown built request (.inr ⟨request, turn, rfl⟩)
    simp only [start]
    split <;> exact listening
  | invoke listener event =>
    simp only [start]
    rw [traffic_callListener]
    exact .pass
  | destroy e =>
    have built : e < machine.engine.executables.length :=
      known.executables e (mem_singleton_self e)
    simp only [start]
    split
    · exact .pass
    · obtain ⟨told, telling, notified⟩ := traffic_notify
        ((machine.update (·.destroy e)).push (.farewell e)) (machine.engine.executable e).host
        (.destroyed e)
      rw [notified, traffic_push_plain _ rfl, traffic_update, traffic_destroy _ built]
      exact .destroy calm free telling
  | buildConstant h =>
    simp only [start]
    rw [traffic_resume, traffic_push_plain _ rfl, traffic_push_plain _ rfl,
      traffic_update_of_same _ (traffic_addTemporary ..)]
    exact .pass
  | pump h =>
    simp only [start]
    rw [traffic_resume, traffic_push_plain _ rfl]
    exact .pass
  | poll k => exact machine.traffic_start_poll k ▸ .pass

/-- A transition is posted or put off. -/
theorem traffic_fire (given : Surroundings) (machine : Machine) (sound : machine.engine.Sound)
    (grown : machine.engine.Extends given.store) (built : e < machine.engine.executables.length)
    (transition : Transition) (entries : List Entry) :
    (machine.fire e transition entries).traffic =
      let spent := { machine.traffic with nextBatch := machine.traffic.nextBatch + 1 }
      let batch := given.batch machine.traffic e transition entries
      if given.defers machine.traffic e transition entries then spent.defer (given.home e) batch
      else spent.dispatch (given.home e) batch := by
  have opened := sound.hosted e built
  have home : given.home e = (machine.engine.executable e).host := grown.home e built
  have ready : (given.store.executable e).readyStatus =
      (machine.engine.executable e).readyStatus := by
    simp only [Executable.readyStatus, grown.work e built]
  have deferring : given.defers machine.traffic e transition entries =
      (machine.engine.host (machine.engine.executable e).host).defers
        (entries.map Entry.delivery)
        (decide (transition.new = (machine.engine.executable e).readyStatus)) := by
    unfold Surroundings.defers
    rw [home, ready]
    rfl
  have batch : given.batch machine.traffic e transition entries =
      machine.engine.batch (transition.event e)
        ((machine.engine.host (machine.engine.executable e).host).arrange
          (entries.map Entry.delivery)) := by
    unfold Surroundings.batch
    rw [home]
    rfl
  simp only [deferring, batch, home]
  unfold fire
  simp only
  split
  · rename_i later
    rw [if_pos (by exact later), traffic_resume, traffic_update,
      traffic_defer _ (by exact opened)]
    rfl
  · rename_i prompt
    rw [if_neg (by exact prompt), traffic_dispatch _ (by exact opened)]
    rfl

/-- A transition that the observer has been told of goes on by the rules. -/
theorem rules_announce (given : Surroundings) (machine : Machine) (sound : machine.engine.Sound)
    (grown : machine.engine.Extends given.store) (built : e < machine.engine.executables.length)
    (answer : Answer) (transition : Transition) (entries : List Entry) : given.Step
      { machine.traffic with calls := .announce e transition entries :: machine.traffic.calls }
      (receive machine answer (.announce e transition entries)).traffic := by
  have opened : given.home e < machine.engine.hosts.length := by
    have home : given.home e = (machine.engine.executable e).host := grown.home e built
    rw [home]
    exact sound.hosted e built
  have concluding : (machine.push (.conclude e transition)).traffic = machine.traffic :=
    machine.traffic_push_plain rfl
  simp only [receive]
  cases entries with
  | nil =>
    simp only [isEmpty_nil, if_true, traffic_resume, concluding]
    exact .hush rfl (.inl rfl)
  | cons entry others =>
    rw [if_neg (by simp), traffic_fire given _ (by exact sound) (by exact grown) (by exact built),
      concluding]
    simp only
    split
    · rename_i later
      exact .putOff rfl (by simp) opened later
    · rename_i prompt
      exact .post rfl (by simp) opened (Bool.eq_false_iff.mpr prompt)

/-- A delivery loop goes on by the rules. -/
theorem rules_drain (machine : Machine) (answer : Answer) (h : HostRef) :
    given.Step { machine.traffic with calls := .drain h :: machine.traffic.calls }
      (receive machine answer (.drain h)).traffic := by
  simp only [receive]
  split
  · rename_i empty
    rw [traffic_resume, traffic_modifyDraining]
    exact .close rfl (.inl empty)
  · rename_i batch others queue
    have opened := host_lt_of_queue queue
    rw [traffic_resume, traffic_push _ rfl, traffic_push _ rfl, traffic_note_major _ rfl,
      traffic_update, traffic_modifyHost _ opened]
    exact .take rfl opened queue

/-- A batch that is being delivered goes on by the rules. -/
theorem rules_deliver (machine : Machine) (answer : Answer) (batch : Batch) :
    given.Step { machine.traffic with calls := .deliver batch :: machine.traffic.calls }
      (receive machine answer (.deliver batch)).traffic := by
  simp only [receive]
  split
  · rename_i done
    exact .finish rfl (.inl done)
  · rename_i delivery others deliveries
    split
    · rename_i destroyed
      exact .finish rfl (.inr (.inl destroyed))
    · rename_i there
      rw [traffic_perform, traffic_note_major _ rfl, traffic_push _ rfl, traffic_push _ rfl]
      exact .invoke rfl deliveries (Bool.eq_false_iff.mpr there)

/-- The end of a call is noted. -/
theorem rules_listenerReturned (machine : Machine) (serial : Nat) (event : Event)
    (delivery : Delivery) (fault : Option ListenerFault) :
    given.Step
      { machine.traffic with calls := .guard serial event delivery :: machine.traffic.calls }
      (machine.listenerReturned serial event delivery fault).traffic := by
  generalize home : (machine.engine.executable event.source).host = h
  have counted : ((machine.update (·.modifyTally h (·.countInvocation fault.isNone))).note
      (.returned serial event delivery fault)).traffic =
      { machine.traffic with
        journal := machine.traffic.journal ++ [.returned serial event delivery fault] } := by
    rw [traffic_note_major _ rfl, traffic_update_of_same _
      (traffic_modifyHost_of_same _ _ rfl)]
  simp only [listenerReturned, home]
  cases fault with
  | none =>
    simp only [traffic_resume]
    rw [counted]
    exact .settle rfl (.inl rfl)
  | some fault =>
    obtain ⟨told, telling, notified⟩ := traffic_notify
      ((machine.update (·.modifyTally h (·.countInvocation (some fault).isNone))).note
        (.returned serial event delivery (some fault))) h
      (.listenerFailed event.source event.status fault)
    rw [notified, counted]
    exact .settle rfl (.inr ⟨fault, telling⟩)

/-- A clerical frame leaves the traffic as it is when it takes an answer. -/
theorem traffic_receive_of_clerical (machine : Machine) (answer : Answer)
    (clerical : frame.isClerical = true) :
    (receive machine answer frame).traffic = machine.traffic := by
  cases frame with
  | hold | conclude | relay => rfl
  | begin e status =>
    simp only [receive]
    rw [traffic_startWork, traffic_update_of_same _
      (traffic_modifyExecutable_of_same _ e rfl rfl), traffic_note _ rfl]
  | moves e todo =>
    cases todo with
    | nil => rfl
    | cons status others =>
      simp only [receive]
      rw [traffic_perform, traffic_push_plain _ rfl]
  | callBack e code =>
    simp only [receive]
    rw [traffic_callClient _ rfl, traffic_push_plain _ rfl]
  | gather e =>
    simp only [receive]
    rw [traffic_perform, traffic_push_plain _ rfl]
  | inspect e =>
    simp only [receive]
    split
    · rfl
    · rw [traffic_perform, traffic_push_plain _ rfl, traffic_note _ rfl]
  | farewell e =>
    simp only [receive]
    rw [traffic_resume, traffic_note _ rfl]
  | hand e =>
    simp only [receive]
    rw [traffic_resume, traffic_update_of_same _
      (traffic_modifyExecutable_of_same _ e rfl rfl)]
  | pumped k => exact traffic_askFuture ..
  | asked k => exact traffic_concludePoll ..
  | client | arm | examine | announce | drain | deliver | guard | pump => cases clerical

section

variable (sound : machine.Sound)
include sound

/-- The loop over the deferred batches takes the first one, if there is any. -/
theorem Sound.rules_pump {answer : Answer} {h : HostRef} {taken : Nat}
    (turn : machine.control = .resume answer) (stands : machine.stack = .pump h taken :: rest)
    (store : Engine) :
    (machine.surroundings store).Step machine.traffic
      (receive { machine with stack := rest } answer (.pump h taken)).traffic := by
  have calm := (sound.calm_tail stands rfl rfl (by simp)).traffic
  have free := free_of_top store stands rfl
  rw [traffic_of_stack_plain stands rfl] at free ⊢
  simp only [receive]
  split
  · exact .pass
  · rename_i batch others deferred
    have opened : h < machine.engine.hosts.length := host_lt_of_deferred deferred
    rw [traffic_dispatch _ (by simpa [update, push, Engine.modifyHost] using opened),
      traffic_push_plain _ rfl, traffic_update, traffic_modifyHost _ (by exact opened)]
    exact .pump ⟨answer, taken, rest, turn, stands⟩ opened deferred calm free

/-- Passing an answer to the frame on top follows the rules. -/
theorem Sound.rules_receive {answer : Answer} (turn : machine.control = .resume answer)
    (stands : machine.stack = frame :: rest) (grown : machine.engine.Extends store) :
    (machine.surroundings store).Step machine.traffic
      (receive { machine with stack := rest } answer frame).traffic := by
  have known : frame.Known machine.engine :=
    sound.frames frame (by rw [stands]; exact mem_cons_self ..)
  have plain := traffic_of_stack_plain stands
  have major := traffic_of_stack stands
  cases frame with
  | client callback =>
    have back : (receive { machine with stack := rest } answer (.client callback)).traffic =
        machine.traffic := by
      simp only [receive, push, traffic, stands]
    rw [back]
    exact .pass
  | arm g position rest onFailure =>
    rw [plain rfl]
    exact rules_arm _ _ _ _ known.executables
  | examine g position dependency rest onFailure =>
    rw [plain rfl]
    exact rules_examine _ _ _ _ _ (known.executables dependency (mem_cons_self ..))
  | announce e transition entries =>
    rw [major rfl]
    exact rules_announce (machine.surroundings store) { machine with stack := rest } sound.store
      grown (known.executables e (mem_singleton_self e)) _ _ _
  | drain h =>
    rw [major rfl]
    exact rules_drain ..
  | deliver batch =>
    rw [major rfl]
    exact rules_deliver ..
  | guard serial event delivery =>
    rw [major rfl]
    simp only [receive]
    split <;> exact rules_listenerReturned ..
  | pump h taken => exact sound.rules_pump turn stands store
  | _ =>
    rw [plain rfl, traffic_receive_of_clerical _ _ rfl]
    exact .pass

/-- Taking a panic past the frame on top follows the rules. -/
theorem Sound.rules_unwind {payload : Payload} (turn : machine.control = .unwind payload)
    (stands : machine.stack = frame :: rest) (store : Engine) :
    (machine.surroundings store).Step machine.traffic
      (unwind { machine with stack := rest } payload frame).traffic := by
  have plain := traffic_of_stack_plain stands
  have major := traffic_of_stack stands
  have lost : (machine.surroundings store).loses frame := ⟨payload, rest, turn, stands⟩
  cases frame with
  | client callback =>
    cases callback with
    | observer code notice =>
      rw [major rfl]
      exact .hear rfl
    | _ =>
      rw [plain rfl]
      exact .pass
  | announce e transition entries =>
    rw [major rfl]
    exact .hush rfl (.inr lost)
  | drain h =>
    rw [major rfl]
    simp only [unwind]
    rw [traffic_modifyDraining]
    exact .close rfl (.inr lost)
  | deliver batch =>
    rw [major rfl]
    exact .finish rfl (.inr (.inr lost))
  | guard serial event delivery =>
    rw [major rfl, unwind_guard (sound.quiet turn)]
    exact rules_listenerReturned ..
  | pumped k | asked k =>
    rw [plain rfl]
    exact rules_update_of_same (traffic_endSession ..)
  | _ =>
    rw [plain rfl]
    exact .pass

/-- A step of the engine follows the rules. -/
theorem Sound.rules_step (grown : machine.engine.Extends store) :
    (machine.surroundings store).Step machine.traffic machine.step.traffic := by
  unfold step
  split
  · rename_i command turn
    exact sound.rules_start turn grown
  · rename_i answer turn
    split
    · exact .pass
    · rename_i stands
      exact sound.rules_receive turn stands grown
  · rename_i payload turn
    split
    · exact .pass
    · rename_i stands
      exact sound.rules_unwind turn stands store
  · exact .pass
  · exact .pass

end

/-- A build does not show. -/
theorem rules_build {id : Option String} {work : Work} {built : Machine}
    (success : machine.build h id work = (built, .ok e)) :
    given.Step machine.traffic built.traffic := by
  obtain ⟨-, rfl | ⟨name, -, rfl⟩⟩ := build_cases success
  · exact rules_update_of_same (traffic_addTemporary ..)
  · refine rules_update_of_same ?_
    rw [Engine.addRegistered, Engine.traffic_note _ rfl, Engine.traffic_modifyHost_of_same _ _ rfl,
      traffic_addExecutable _ rfl rfl]

/-- Every step of a run follows the rules. -/
theorem Sound.rules_next (sound : machine.Sound) {next : Machine} (step : Next machine next)
    (grown : machine.engine.Extends store) :
    (machine.surroundings store).Step machine.traffic next.traffic := by
  cases step with
  | engine busy => exact sound.rules_step grown
  | accept called => exact .pass
  | advance turn elapsed => exact .pass
  | openHost turn settings observer =>
    have shown := machine.engine.traffic_addHost settings observer
    simp only [openHost]
    rw [traffic_update, shown]
    exact .openHost settings
  | build turn opened alive success => exact rules_build success
  | retain turn alive =>
    exact rules_update_of_same (traffic_modifyExecutable_of_same _ _ rfl rfl)
  | release turn held =>
    exact rules_update_of_same (traffic_modifyExecutable_of_same _ _ rfl rfl)
  | subscribe turn alive code status once =>
    exact rules_grow (sound.lt_of_isAlive alive) (.insert .refl ..)
  | unsubscribe turn alive code status =>
    simp only [unsubscribe]
    rw [traffic_update, traffic_modifySubscriptions _ (sound.lt_of_isAlive alive)]
    exact .unsubscribe _
  | @beginWait turn e alive =>
    simp only [beginWait]
    split
    · exact .pass
    · have waiting : (machine.engine.addWait ⟨e, none⟩).Sound := sound.store.of_same rfl rfl rfl
      have built : e < (machine.engine.addWait ⟨e, none⟩).executables.length :=
        sound.lt_of_isAlive alive
      have later : (machine.engine.addWait ⟨e, none⟩).Extends store :=
        ⟨grown.executables, grown.gates, grown.hosts, grown.work, grown.home, grown.dependent⟩
      exact @rules_listenReady e (machine.update (·.addWait ⟨e, none⟩)) (machine.surroundings store)
        waiting later built _ (.inl rfl)
  | openSession turn future opened => exact .pass
  | closeSession turn shut => exact rules_update_of_same (traffic_endSession ..)
  | call turn permitted =>
    simp only [call]
    rw [traffic_perform, traffic_push_plain _ rfl]
    exact .pass
  | @finish turn callback rest top reply =>
    have left : (machine.finish reply).traffic = ({ machine with stack := rest } :
        Machine).traffic := by
      simp only [finish, top, tail_cons]
      rfl
    rw [left]
    cases callback with
    | observer code notice =>
      rw [traffic_of_stack top rfl]
      exact .hear rfl
    | _ =>
      rw [traffic_of_stack_plain top rfl]
      exact .pass
  | panic turn payload => exact .pass

/-- What every step by the rules keeps, a run keeps. -/
theorem ReachesWhile.rules_induction {condition : Machine → Prop} {start : Machine}
    (run : start.ReachesWhile condition machine) (sound : start.Sound)
    (grown : machine.engine.Extends store) {motive : Machine → Prop} (base : motive start)
    (kept : ∀ {before after : Machine}, start.ReachesWhile condition before → before.Sound →
      Next before after → condition after → after.engine.Extends store →
        (before.surroundings store).Step before.traffic after.traffic →
          motive before → motive after) : motive machine := by
  induction run with
  | refl => exact base
  | step run step holds ih =>
    have later := (sound.later_reaches run.reaches).sound
    have before := (later.later_next step).grown.trans grown
    exact kept run later step holds grown (later.rules_next step before) (ih before)

/-- What every step by the rules keeps, holds in every state of every run if it holds at first. -/
theorem Reachable.traffic_invariant (reachable : machine.Reachable)
    (grown : machine.engine.Extends store) {motive : Traffic → Prop}
    (base : motive ({} : Machine).traffic)
    (kept : ∀ {given : Surroundings} {before after : Traffic}, given.store = store →
      given.Step before after → motive before → motive after) : motive machine.traffic :=
  reachable.reachesWhile.rules_induction sound_empty grown
    (motive := fun machine => motive machine.traffic) base fun _ _ _ _ _ => kept rfl

end Machine

end Readiness
