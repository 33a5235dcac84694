import Readiness.Proofs.Policy.Uncalled

/-! How deliveries come to an end.

Main statements: whatever the policies of the hosts are, the client can do what it has done under
other ones, and when it has, run the hosts until no batch is put off.
-/

namespace Readiness

open List Engine

variable {batch : Batch} {delivery : Delivery}

/-- The calls that a batch makes, and that it has to be taken from its queue. -/
def Batch.load (batch : Batch) : Nat :=
  batch.deliveries.length + 2

/-- The load of the batches that wait with a host; one that is put off has to be asked for first. -/
def Host.load (host : Host) : Nat :=
  (host.queue.map Batch.load).sum + (host.deferred.map fun batch => batch.load + 6).sum

/-- The load of a call that is under way. -/
def Frame.load : Frame → Nat
  | .deliver batch => batch.deliveries.length + 1
  | .drain _ => 2
  | _ => 1

/-- The load of what is about to happen. -/
def Control.load : Control → Nat
  | .perform _ => 3
  | .resume _ | .unwind _ => 1
  | .called | .returned _ => 0

namespace Engine

/-- The load of the batches that wait with any host. -/
def load (engine : Engine) : Nat :=
  (engine.hosts.map Host.load).sum

variable {engine : Engine} {h : HostRef}

theorem load_modifyHost (opened : h < engine.hosts.length) (change : Host → Host) :
    (engine.modifyHost h change).load + (engine.host h).load =
      engine.load + (change (engine.host h)).load :=
  sum_map_modify Host.load change opened default

theorem load_modifyHost_of_same (engine : Engine) (h : HostRef) (change : Host → Host)
    (same : (change (engine.host h)).load = (engine.host h).load) :
    (engine.modifyHost h change).load = engine.load := by
  rcases Nat.lt_or_ge h engine.hosts.length with opened | beyond
  · have sums := load_modifyHost opened change
    omega
  · simp only [load, modifyHost, modify_eq_self beyond]

theorem load_enqueue (opened : h < engine.hosts.length) (batch : Batch) :
    (engine.enqueue h batch).load = engine.load + batch.load := by
  have sums := load_modifyHost opened fun host => { host with queue := host.queue ++ [batch] }
  simp only [Host.load, map_append, sum_append, map_singleton,
    sum_singleton] at sums
  show (engine.modifyHost h _).load = _
  omega

/-- A batch that leaves the dispatch queue takes its load along. -/
theorem load_take {rest : List Batch} (first : (engine.host h).queue = batch :: rest) :
    (engine.modifyHost h ({ · with queue := rest })).load + batch.load = engine.load := by
  have opened := host_lt_of_queue first
  have sums := load_modifyHost opened ({ · with queue := rest })
  simp only [Host.load, first, map_cons, sum_cons] at sums
  omega

/-- A batch that leaves the deferred queue takes its load along. -/
theorem load_recall {rest : List Batch} (first : (engine.host h).deferred = batch :: rest) :
    (engine.modifyHost h ({ · with deferred := rest })).load + batch.load + 6 = engine.load := by
  have opened := host_lt_of_deferred first
  have sums := load_modifyHost opened ({ · with deferred := rest })
  simp only [Host.load, first, map_cons, sum_cons] at sums
  omega

/-- The calls of listeners that have ended did so badly or well as the verdict on them is; the
engine's own listeners do not fail. -/
def Abides (engine : Engine) (verdict : Event × Delivery → Bool) : Prop :=
  ∀ call ∈ engine.receipts.ended, call.2 = (call.1.2.listener.isClient && verdict call.1)

end Engine

namespace Machine

variable {machine next : Machine} {moves : List Move} {owed : Multiset (Event × Delivery)}
  {verdict : Event × Delivery → Bool}

/-- What is to be done before the next step is the client's or an executable's, apart from the
deferred batches. -/
def load (machine : Machine) : Nat :=
  machine.engine.load + (machine.stack.map Frame.load).sum + machine.control.load

/-- A batch that is handed to the delivery loop is to be delivered by it. -/
theorem load_dispatch_le (machine : Machine) {h : HostRef}
    (opened : h < machine.engine.hosts.length) (batch : Batch) :
    (machine.dispatch h batch).load ≤
      machine.engine.load + (machine.stack.map Frame.load).sum + batch.load + 3 := by
  have queued := load_enqueue opened batch
  simp only [dispatch]
  split
  · simp only [load, resume, update, Control.load]
    omega
  · have same := (machine.engine.enqueue h batch).load_modifyHost_of_same h
      ({ · with draining := true }) rfl
    simp only [load, resume, push, update, Control.load, map_cons, sum_cons, Frame.load]
    omega

/-- A deferred batch that is recalled and handed to the delivery loop leaves less to be done. -/
theorem load_pump_le (machine : Machine) {h : HostRef} (taken : Nat) (answer : Answer)
    (waits : (machine.engine.host h).deferred ≠ []) :
    (machine.receive answer (.pump h taken)).load + 2 ≤
      machine.engine.load + (machine.stack.map Frame.load).sum := by
  simp only [receive]
  split
  · exact absurd ‹_› waits
  · rename_i batch others first
    have recalled := load_recall first
    have opened : h < (machine.engine.modifyHost h
      ({ · with deferred := others })).hosts.length := by
      rw [show (machine.engine.modifyHost h _).hosts.length = _ from length_modify ..]
      exact host_lt_of_deferred first
    have handed := load_dispatch_le
      ((machine.update (·.modifyHost h ({ · with deferred := others }))).push
        (.pump h (taken + 1))) opened batch
    simp only [push, update, map_cons, sum_cons, Frame.load] at handed
    simp only [push, update]
    omega

/-- A call that goes on, unless it is part of what executables do or calls a listener, leaves less
to be done. -/
theorem load_receive_lt {answer : Answer} {frame : Frame} {rest : List Frame}
    (turn : machine.control = .resume answer) (stands : machine.stack = frame :: rest)
    (uncalled : frame.isUncalled = true) (rests : (frame.isDeed && !frame.isClient) = false)
    (told : ∀ batch, frame = .deliver batch → batch.deliveries = []) :
    (Machine.receive { machine with stack := rest } answer frame).load < machine.load := by
  have whole : machine.load =
      machine.engine.load + (frame.load + (rest.map Frame.load).sum) + 1 := by
    rw [load, turn, stands]
    rfl
  rw [whole]
  cases frame with
  | client callback =>
    simp only [receive, load, push, map_cons, sum_cons, Control.load]
    omega
  | hold executables =>
    simp only [receive, load, resume, Frame.load, Control.load]
    omega
  | drain h =>
    simp only [receive]
    split
    · have same := machine.engine.load_modifyHost_of_same h ({ · with draining := false }) rfl
      simp only [load, resume, update, Frame.load, Control.load]
      omega
    · rename_i batch others first
      have taken := load_take first
      simp only [load, resume, push, note, update, map_cons, sum_cons, Frame.load,
        Control.load]
      simp only [Batch.load] at taken
      show (machine.engine.modifyHost h ({ · with queue := others })).load + _ + _ < _
      omega
  | deliver batch =>
    -- Nobody is left to be called for the batch.
    simp only [receive, told batch rfl, load, resume, Frame.load, Control.load]
    omega
  | pump h taken =>
    by_cases none : (machine.engine.host h).deferred = []
    · simp only [receive, none, load, resume, Frame.load, Control.load]
      omega
    · have recalled := load_pump_le { machine with stack := rest } taken answer none
      simp only [Frame.load]
      simp only at recalled
      omega
  | guard | pumped | asked | inspect | arm | examine | relay | farewell => cases uncalled
  | _ => cases rests

/-- Whatever the engine does next, unless it is part of what executables do or calls a listener,
leaves less to be done. -/
theorem Uncalled.load_step_lt (uncalled : machine.Uncalled) (rests : machine.acts = false)
    (busy : machine.clientTurn = false)
    (told : ∀ answer batch rest, machine.control = .resume answer →
      machine.stack = .deliver batch :: rest → batch.deliveries = []) :
    machine.step.load < machine.load := by
  cases turn : machine.control with
  | perform command =>
    have minor : command.isDeed = false := by simpa only [acts, turn] using rests
    have fits := uncalled.command turn
    rw [step_of_perform turn]
    cases command with
    | pump h =>
      rw [show machine.load = machine.engine.load + (machine.stack.map Frame.load).sum + 3 by
        rw [load, turn]; rfl]
      simp only [Machine.start, load, Machine.resume, Machine.push, map_cons, sum_cons,
        Frame.load, Control.load]
      omega
    | invoke | poll => cases fits
    | _ => cases minor
  | resume answer =>
    cases stands : machine.stack with
    | nil =>
      rw [Machine.step, turn, stands, load, load, turn, stands]
      exact Nat.lt_succ_self _
    | cons frame rest =>
      rw [step_of_resume turn stands]
      refine load_receive_lt turn stands ?_ ?_ ?_
      · exact uncalled.frames frame (by rw [stands]; exact mem_cons_self)
      · simpa only [acts, turn, stands] using rests
      · rintro batch rfl
        exact told answer batch rest turn stands
  | unwind payload =>
    cases stands : machine.stack with
    | nil =>
      rw [Machine.step, turn, stands, load, load, turn, stands]
      exact Nat.lt_succ_self _
    | cons frame rest =>
      have fits := uncalled.frames frame (by rw [stands]; exact mem_cons_self)
      have whole : machine.load =
          machine.engine.load + (frame.load + (rest.map Frame.load).sum) + 1 := by
        rw [load, turn, stands]
        rfl
      -- Whatever the panic passes was part of the load.
      have some : 0 < frame.load := by cases frame <;> exact Nat.succ_pos _
      have popped : Machine.load { machine with stack := rest } < machine.load := by
        rw [whole]
        simp only [load, turn, Control.load]
        omega
      rw [step_of_unwind turn stands]
      cases frame with
      | drain h =>
        have same := machine.engine.load_modifyHost_of_same h ({ · with draining := false }) rfl
        simp only [Machine.unwind, load, update, same]
        exact popped
      | guard | pumped | asked => cases fits
      | _ => exact popped
  | called | returned answer => simp [clientTurn, turn] at busy

/-- No call is under way, and no batch is put off. -/
def Idle (machine : Machine) : Prop :=
  machine.AtRest ∧ ∀ h, (machine.engine.host h).deferred = []

/-- A run in which neither listeners nor futures are being called, and in which the calls of
listeners have ended as they were to. -/
structure Abiding (verdict : Event × Delivery → Bool) (moves : List Move)
    (owed : Multiset (Event × Delivery)) (machine : Machine) : Prop where
  /-- It is a run in which nothing is given up, and so on. -/
  performed : Performed moves owed machine
  uncalled : machine.Uncalled
  abides : machine.engine.Abides verdict

theorem deed?_of_rests (rests : machine.acts = false) : machine.control.deed? = none := by
  cases turn : machine.control with
  | perform command =>
    have minor : command.isDeed = false := by simpa only [acts, turn] using rests
    simp [Control.deed?, minor]
  | _ => rfl

/-- A step that is not done by executables does not show. -/
theorem Performed.rest (performed : Performed moves owed machine) (rests : machine.acts = false)
    (busy : machine.clientTurn = false) :
    Performed moves owed machine.step ∧ machine.step.gist = machine.gist := by
  have same := performed.ungated.gist_step_of_rests rests
  have apart : machine.step.synchronises = false := by
    have errand : machine.step.control.deed? = machine.control.deed? := congrArg Gist.errand same
    rw [deed?_of_rests rests] at errand
    unfold synchronises
    split
    · rename_i turn
      rw [turn] at errand
      cases errand
    · rfl
  have onward := performed.engine busy apart
  rw [owes_of_rests rests, add_zero] at onward
  exact ⟨onward, same⟩

/-- The end of the call of a listener goes back to the batch, whoever observes. -/
theorem listenerReturned_of_passive (machine : Machine) (passive : machine.engine.Passive)
    (serial : Nat) (event : Event) (delivery : Delivery) (fault : Option ListenerFault) :
    (machine.listenerReturned serial event delivery fault).stack = machine.stack ∧
      (machine.listenerReturned serial event delivery fault).control = .resume .done ∧
      (machine.listenerReturned serial event delivery fault).engine.load = machine.engine.load := by
  have same := machine.engine.load_modifyHost_of_same (machine.engine.executable event.source).host
    (fun host => { host with tally := host.tally.countInvocation fault.isNone }) rfl
  simp only [listenerReturned]
  split
  · exact ⟨rfl, rfl, same⟩
  · rw [notify_of_passive]
    · exact ⟨rfl, rfl, same⟩
    · exact passive.modifyHost _ fun _ => rfl

/-- What a listener that replies reports, if it fails. -/
def fault? : Reply → Option ListenerFault
  | .failed reason => some (.failed reason)
  | _ => none

theorem receive_guard (machine : Machine) (reply : Reply) (serial : Nat) (event : Event)
    (delivery : Delivery) : machine.receive (.replied reply) (.guard serial event delivery) =
      machine.listenerReturned serial event delivery (fault? reply) := by
  cases reply <;> rfl

/-- A listener that was called for a batch has replied, as it was to. -/
theorem Performed.settle (performed : Performed moves owed machine) {reply : Reply} {serial : Nat}
    {event : Event} {rest : List Frame} (turn : machine.control = .resume (.replied reply))
    (stands : machine.stack = .guard serial event delivery :: rest)
    (uncalled : ∀ frame ∈ rest, frame.isUncalled = true) (abides : machine.engine.Abides verdict)
    (fair : (fault? reply).isSome = (delivery.listener.isClient && verdict (event, delivery))) :
    Abiding verdict moves owed machine.step ∧ machine.step.gist = machine.gist ∧
      machine.step.load = machine.engine.load + (rest.map Frame.load).sum + 1 := by
  have rests : machine.acts = false := by simp [acts, turn, stands, Frame.isDeed]
  obtain ⟨onward, same⟩ := performed.rest rests (by simp [clientTurn, turn])
  have sound := performed.ungated.reachable.sound
  have known := sound.frames _ (by rw [stands]; exact mem_cons_self)
  have built := known.executables event.source (mem_singleton_self _)
  have step : machine.step = listenerReturned { machine with stack := rest } serial event delivery
      (fault? reply) := by
    rw [step_of_resume turn stands, receive_guard]
  obtain ⟨below, back, still⟩ := listenerReturned_of_passive { machine with stack := rest }
    performed.ungated.passive serial event delivery (fault? reply)
  have counted := receipts_listenerReturned { machine with stack := rest }
    (sound.store.hosted _ built) serial delivery (fault? reply)
  rw [← step] at below back still counted
  refine ⟨⟨onward, ⟨?_, by rw [back]; rfl⟩, ?_⟩, same, ?_⟩
  · rw [below]
    exact uncalled
  · intro call ended
    rw [counted] at ended
    rcases mem_append.mp ended with before | now
    · exact abides call before
    · rw [mem_singleton.mp now]
      exact fair
  · rw [load, below, back, still]
    rfl

/-- A listener that is being called for a batch replies as it is to, and nothing else happens. -/
theorem Performed.hear (performed : Performed moves owed machine)
    (verdict : Event × Delivery → Bool) {event : Event}
    (turn : machine.control = .perform (.invoke delivery.listener event)) :
    ∃ (next : Machine) (reply : Reply), Performed moves owed next ∧ next.gist = machine.gist ∧
      next.control = .resume (.replied reply) ∧ next.stack = machine.stack ∧
      next.engine.receipts = machine.engine.receipts ∧ next.engine.load = machine.engine.load ∧
      (fault? reply).isSome = (delivery.listener.isClient && verdict (event, delivery)) := by
  have rests : machine.acts = false := by simp [acts, turn, Command.isDeed]
  obtain ⟨begun, same⟩ := performed.rest rests (by simp [clientTurn, turn])
  have step : machine.step = machine.callListener delivery.listener event := step_of_perform turn
  obtain ⟨_, _, _, suits⟩ := performed.ungated.posed.command _ turn
  have foreign : delivery.listener.isWatcher = false := by
    simpa using (Bool.and_eq_true_iff.mp suits).1
  cases listener : delivery.listener with
  | client code =>
    -- Client code is called, and returns as the verdict on the call is.
    rw [listener] at step
    let reply : Reply := if verdict (event, delivery) then .failed "" else .done
    have able : machine.step.Able (.finish reply) := ⟨_, _, by rw [step]; rfl⟩
    have turn' : machine.step.clientTurn = true := by rw [step]; rfl
    have hides : machine.step.hides (.finish reply) = true := by rw [step]; rfl
    have moved := move?_eq_some_iff.mpr ⟨turn', able, rfl⟩
    refine ⟨_, reply, begun.hidden moved rfl hides, ?_, rfl, ?_, ?_, ?_, ?_⟩
    · rw [gist_made_of_hides turn' able hides, same]
    · rw [step]
      rfl
    · rw [step]
      rfl
    · rw [step]
      rfl
    · cases told : verdict (event, delivery) <;> simp [reply, told, fault?, Listener.isClient]
  | waitReady w | waitFailed w =>
    -- The engine's own listeners reply at once.
    rw [listener] at step
    refine ⟨machine.step, .done, begun, same, ?_, ?_, ?_, ?_, rfl⟩
    all_goals
      rw [step]
      rfl
  | countdown g position | dependencyFailed composite =>
    rw [listener] at foreign
    cases foreign

namespace Abiding

variable (abiding : Abiding verdict moves owed machine)
include abiding

theorem receipts_step (busy : machine.clientTurn = false) :
    machine.step.engine.receipts = machine.engine.receipts :=
  abiding.uncalled.receipts_step abiding.performed.ungated.reachable.sound busy

/-- A step that is not done by executables and calls no listener does not show, and leaves less to
be done. -/
theorem rest (rests : machine.acts = false) (busy : machine.clientTurn = false)
    (told : ∀ answer batch rest, machine.control = .resume answer →
      machine.stack = .deliver batch :: rest → batch.deliveries = []) :
    Abiding verdict moves owed machine.step ∧ machine.step.gist = machine.gist ∧
      machine.step.load < machine.load := by
  obtain ⟨onward, same⟩ := abiding.performed.rest rests busy
  refine ⟨⟨onward, ?_, ?_⟩, same, abiding.uncalled.load_step_lt rests busy told⟩
  · refine abiding.uncalled.step abiding.performed.ungated.passive told
      fun answer e rest turn stands => ?_
    simp [acts, turn, stands, Frame.isDeed, Frame.isClient] at rests
  · rw [Engine.Abides, abiding.receipts_step busy]
    exact abiding.abides

/-- The call of the next listener of a batch is over before anything else happens. -/
theorem tell {answer : Answer} {rest : List Frame} (turn : machine.control = .resume answer)
    (stands : machine.stack = .deliver batch :: rest) {others : List Delivery}
    (first : batch.deliveries = delivery :: others) :
    ∃ next, Abiding verdict moves owed next ∧ next.gist = machine.gist ∧
      next.load < machine.load := by
  have ungated := abiding.performed.ungated
  have rests : machine.acts = false := by simp [acts, turn, stands, Frame.isDeed]
  obtain ⟨begun, same⟩ := abiding.performed.rest rests (by simp [clientTurn, turn])
  have step : machine.step =
      ⟨machine.engine.note (.invoked batch.serial batch.event delivery),
        .guard batch.serial batch.event delivery ::
          .deliver { batch with deliveries := others } :: rest,
        .perform (.invoke delivery.listener batch.event)⟩ := by
    rw [step_of_resume turn stands]
    simp [receive, first, ungated.spared batch.event.source, push, note, update,
      Machine.perform]
  have below : ∀ frame ∈ .deliver { batch with deliveries := others } :: rest,
      frame.isUncalled = true := by
    have uncalled := abiding.uncalled.frames
    rw [stands] at uncalled
    exact forall_mem_cons.mpr ⟨rfl, (forall_mem_cons.mp uncalled).2⟩
  have kept := abiding.receipts_step (by simp [clientTurn, turn])
  have still : machine.step.engine.load = machine.engine.load := by
    rw [step]
    rfl
  -- The listener is heard out, and its guard is taken down after that.
  obtain ⟨heard, reply, onward, quiet, control, stack, receipts, load, fair⟩ :=
    begun.hear verdict (by rw [step])
  have abides : heard.engine.Abides verdict := by
    rw [Engine.Abides, receipts, kept]
    exact abiding.abides
  rw [step] at stack
  obtain ⟨ends, silent, lighter⟩ := onward.settle control stack below abides fair
  refine ⟨heard.step, ends, silent.trans (quiet.trans same), ?_⟩
  rw [lighter, load, still, Machine.load, turn, stands]
  simp only [map_cons, sum_cons, Frame.load, Control.load, first, length_cons]
  omega

/-- At its turn the client is at work for an executable, if it was called at all. -/
theorem isDeed_of_clientTurn (turn : machine.clientTurn = true) {top : Frame}
    (first : top ∈ machine.stack.head?) : top.isDeed = true := by
  have uncalled := abiding.uncalled.frames top (mem_of_mem_head? first)
  have kind := abiding.performed.ungated.client_on_top turn first
  cases top with
  | client callback => cases callback <;> first | rfl | cases uncalled
  | _ => rcases kind with kind | kind | kind <;> cases kind

theorem any_isGuard : machine.stack.any Frame.isGuard = false := by
  refine any_eq_false.mpr fun frame member guard => ?_
  have uncalled := abiding.uncalled.frames frame member
  cases frame with
  | guard => cases uncalled
  | _ => cases guard

/-- Without anything for executables to do, the client has the turn only if no call is under way. -/
theorem atRest (turn : machine.clientTurn = true) (done : machine.gist.duties = []) :
    machine.AtRest := by
  refine ⟨turn, ?_⟩
  rw [gist_of_clientTurn turn] at done
  cases stands : machine.stack with
  | nil => rfl
  | cons top rest =>
    have first : top ∈ machine.stack.head? := by rw [stands]; rfl
    have deed := abiding.isDeed_of_clientTurn turn first
    have none : machine.stack.filter Frame.isDeed = [] := done
    rw [stands, filter_cons_of_pos deed] at none
    cases none

/-- In time the next step is the client's, or one of what executables do. -/
theorem settles :
    ∃ next, Abiding verdict moves owed next ∧ next.gist = machine.gist ∧ next.load ≤ machine.load ∧
      (next.acts = true ∨ next.clientTurn = true) := by
  induction size : machine.load using Nat.strong_induction_on generalizing machine with
  | _ bound ih =>
    subst size
    by_cases idle : machine.acts = true ∨ machine.clientTurn = true
    · exact ⟨machine, abiding, rfl, Nat.le_refl _, idle⟩
    · obtain ⟨rests, busy⟩ := not_or.mp idle
      have less : ∃ next, Abiding verdict moves owed next ∧ next.gist = machine.gist ∧
          next.load < machine.load := by
        by_cases telling : ∃ answer batch rest delivery others, machine.control = .resume answer ∧
            machine.stack = .deliver batch :: rest ∧ batch.deliveries = delivery :: others
        · obtain ⟨answer, batch, rest, delivery, others, turn, stands, first⟩ := telling
          exact abiding.tell turn stands first
        · refine ⟨machine.step, abiding.rest (by simpa using rests) (by simpa using busy) ?_⟩
          intro answer batch rest turn stands
          cases first : batch.deliveries with
          | nil => rfl
          | cons delivery others =>
            exact absurd ⟨answer, batch, rest, delivery, others, turn, stands, first⟩ telling
      obtain ⟨next, onward, same, smaller⟩ := less
      obtain ⟨final, ends, still, light, idle⟩ := ih next.load smaller onward rfl
      exact ⟨final, ends, still.trans same, light.trans smaller.le, idle⟩

/-- The next step of what executables do can be taken. -/
theorem turn (acts : machine.acts = true) (apart : machine.gist.gathers = false) :
    Abiding verdict moves (owed + machine.owes) machine.step ∧
      machine.step.gist = machine.gist.turn := by
  have ungated := abiding.performed.ungated
  have calm : machine.step.synchronises = false := by rw [← ungated.gathers_eq acts, apart]
  have busy : machine.clientTurn = false := by
    cases turn : machine.clientTurn with
    | false => rfl
    | true =>
      have idle := ungated.isIdle turn abiding.any_isGuard
      rw [isIdle_of_acts acts] at idle
      cases idle
  refine ⟨⟨abiding.performed.engine busy calm, ?_, ?_⟩,
    ungated.gist_step_of_acts acts (apart_of_synchronises calm)⟩
  · refine abiding.uncalled.step ungated.passive ?_ ?_
    · intro answer batch rest turn stands
      simp [Machine.acts, turn, stands, Frame.isDeed] at acts
    · intro answer e rest turn stands
      rw [step_of_resume turn stands] at calm
      cases calm
  · rw [Engine.Abides, abiding.receipts_step busy]
    exact abiding.abides

/-- What the client may do, as far as executables and hosts show, it is able and allowed to do. -/
theorem able (turn : machine.clientTurn = true) {move : Move} (able : machine.gist.Able move) :
    machine.Able move ∧ machine.allows move = true ∧ machine.hides move = false := by
  have ungated := abiding.performed.ungated
  have hosts : machine.gist.store.hosts.length = machine.engine.hosts.length := length_map ..
  have alive (e : ExecutableRef) (built : e < machine.gist.store.executables.length) :
    machine.isAlive e = true := (ungated.isAlive_iff e).mpr built
  -- No listener is being called, so that every kind of move is open to the client.
  have free : isGuarded machine.stack = false := by
    refine Bool.eq_false_iff.mpr fun guarded => ?_
    obtain ⟨_, serial, event, delivery, rest, stands⟩ := isGuarded_iff.mp guarded
    have none := abiding.any_isGuard
    rw [stands] at none
    cases none
  cases move with
  | openHost settings observer =>
    refine ⟨trivial, ?_, rfl⟩
    cases observer with
    | client code => exact absurd rfl (able code)
    | silent | tracing => simp [allows, free]
  | build h work =>
    exact ⟨⟨hosts ▸ able.1, fun d member => alive d (able.2.1 d member), able.2.2⟩,
      by simp [allows, free], rfl⟩
  | register h id work =>
    exact ⟨⟨hosts ▸ able.1, fun d member => alive d (able.2.1 d member), able.2.2.1,
      (ungated.resolve?_eq_none_iff h id).mpr able.2.2.2⟩, by simp [allows, free], rfl⟩
  | retain e | subscribe e code status once | unsubscribe e code status | beginWait e =>
    exact ⟨alive e able, by simp [allows, free], rfl⟩
  | call command =>
    obtain ⟨⟨deed, suits⟩, built, own, opened⟩ := able
    refine ⟨⟨fun e member => alive e (built e member), own, ?_, ?_, ?_⟩, ?_, by simp [hides, deed]⟩
    · rintro h (rfl | rfl)
      · cases deed
      · exact hosts ▸ opened h rfl
    · rintro listener event rfl
      cases deed
    · rintro k rfl
      cases deed
    · cases command with
      | synchronise | destroy => cases suits
      | _ => simp [allows, free]
  | finish reply =>
    obtain ⟨callback, rest, first⟩ := able
    rw [gist_of_clientTurn turn] at first
    cases stands : machine.stack with
    | nil =>
      have none : machine.stack.filter Frame.isDeed = .client callback :: rest := first
      rw [stands] at none
      cases none
    | cons top others =>
      -- The call on top shows in the gist, so that it is the one that the gist ends.
      have top_first : top ∈ machine.stack.head? := by rw [stands]; rfl
      have deed := abiding.isDeed_of_clientTurn turn top_first
      have same : machine.stack.filter Frame.isDeed = .client callback :: rest := first
      rw [stands, filter_cons_of_pos deed] at same
      cases same
      exact ⟨⟨callback, others, stands⟩, rfl, by simp [hides, stands, deed]⟩
  | advance elapsed => exact ⟨trivial, by simp [allows, free], rfl⟩
  | panic payload => exact ⟨able, rfl, abiding.any_isGuard⟩
  | release | accept | openSession | closeSession => exact absurd able id

/-- What the client is able to do calls neither a listener nor a future. -/
theorem uncalled_made {move : Move} (able : machine.gist.Able move) :
    (machine.made move).Uncalled := by
  obtain ⟨frames, control⟩ := abiding.uncalled
  cases move with
  | call command =>
    obtain ⟨⟨deed, suits⟩, _⟩ := able
    refine .perform frames rfl ?_
    cases command with
    | synchronise | destroy => cases suits
    | invoke | poll => cases deed
    | _ => rfl
  | finish reply => exact ⟨fun frame member => frames frame (mem_of_mem_tail member), rfl⟩
  | panic payload => exact ⟨frames, rfl⟩
  | beginWait e =>
    simp only [made, beginWait]
    split <;> exact ⟨frames, control⟩
  | release | accept | openSession | closeSession => exact absurd able id
  | _ => exact ⟨frames, control⟩

/-- What the client may do, as far as executables and hosts show, it can do. -/
theorem move (turn : machine.clientTurn = true) {move : Move} (able : machine.gist.Able move) :
    ∃ next, Abiding verdict (moves ++ [move]) owed next ∧ next.gist = machine.gist.act move := by
  obtain ⟨can, allowed, shows⟩ := abiding.able turn able
  have moved := move?_eq_some_iff.mpr ⟨turn, can, rfl⟩
  refine ⟨machine.made move,
    ⟨abiding.performed.shown moved allowed shows, abiding.uncalled_made able, ?_⟩,
    abiding.performed.ungated.gist_made turn can allowed shows⟩
  have sound := abiding.performed.ungated.reachable.sound
  rw [Engine.Abides, sound.receipts_of_clientTurn turn (next_of_move moved)]
  exact abiding.abides

/-- A host that is run has its first deferred batch recalled, which leaves less to be done. -/
theorem takeUp (rests : machine.AtRest) {h : HostRef}
    (waits : (machine.engine.host h).deferred ≠ []) :
    ∃ next, Abiding verdict moves owed next ∧ next.gist = machine.gist ∧
      next.load < machine.load := by
  obtain ⟨turn, empty⟩ := rests
  obtain ⟨batch, later⟩ := exists_mem_of_ne_nil _ waits
  have opened : h < machine.engine.hosts.length :=
    host_lt_of_waiting (mem_append_right _ later)
  have permitted : machine.Permitted (.pump h) := by
    refine ⟨forall_mem_nil _, forall_mem_nil _, ?_,
      fun _ _ same => (by cases same), fun _ same => (by cases same)⟩
    rintro other (same | same)
    · cases same
      exact opened
    · cases same
  -- The client asks for the deferred batches of the host.
  have asked : Abiding verdict moves owed (machine.call (.pump h)) := by
    have moved := move?_eq_some_iff.mpr
      ⟨turn, show machine.Able (.call (.pump h)) from permitted, rfl⟩
    refine ⟨abiding.performed.hidden moved ?_ rfl, .perform abiding.uncalled.frames rfl rfl,
      abiding.abides⟩
    simp [allows, empty, isGuarded]
  have still : (machine.call (.pump h)).gist = machine.gist :=
    gist_made_of_hides turn (show machine.Able (.call (.pump h)) from permitted) rfl
  -- The engine begins to recall them, and recalls the first one.
  obtain ⟨begun, same, _⟩ := asked.rest rfl rfl fun _ _ _ asks => (by cases asks)
  obtain ⟨recalled, quiet, _⟩ := begun.rest rfl rfl fun _ _ _ _ stands => (by cases stands)
  refine ⟨_, recalled, quiet.trans (same.trans still), ?_⟩
  have lighter : (machine.call (.pump h)).step.step.load + 2 ≤ _ :=
    load_pump_le ⟨machine.engine, .hold [] :: machine.stack, .resume .done⟩ 0 .done waits
  simp only [empty, map_cons, map_nil, sum_cons, sum_nil, Frame.load] at lighter
  have part : machine.engine.load ≤ machine.load := by
    rw [load, Nat.add_assoc]
    exact Nat.le_add_right _ _
  omega

/-- The hosts can be run until no batch is put off. -/
theorem exists_idle (rests : machine.AtRest) :
    ∃ final, Abiding verdict moves owed final ∧ final.Idle := by
  induction size : machine.load using Nat.strong_induction_on generalizing machine with
  | _ bound ih =>
    subst size
    by_cases idle : ∀ h, (machine.engine.host h).deferred = []
    · exact ⟨machine, abiding, rests, idle⟩
    · obtain ⟨h, waits⟩ := not_forall.mp idle
      obtain ⟨began, recalled, same, smaller⟩ := abiding.takeUp rests waits
      obtain ⟨next, onward, still, light, turn⟩ := recalled.settles
      -- Nothing was left for executables to do, and nothing came up.
      have quiet : next.gist = machine.gist := still.trans same
      have back : next.clientTurn = true := by
        refine turn.resolve_left fun acts => ?_
        have busy := isIdle_of_acts acts
        rw [quiet, rests.isIdle] at busy
        cases busy
      exact ih next.load (light.trans_lt smaller) onward (onward.atRest back (quiet ▸ rests.duties))
        rfl

end Abiding

/-- What has become of executables and hosts by what the client did can become of them by the same
under other policies. -/
theorem exists_abiding {moves others : List Move} {gist : Gist} (story : Story moves gist)
    (verdict : Event × Delivery → Bool) (same : others.map (Move.under default) = moves) :
    ∃ owed machine, Abiding verdict others owed machine ∧ machine.gist = gist ∧
      (machine.acts = true ∨ machine.clientTurn = true) := by
  induction story generalizing others with
  | start =>
    obtain rfl := map_eq_nil_iff.mp same
    refine ⟨0, {}, ⟨.start, ⟨forall_mem_nil _, rfl⟩,
      fun _ ended => (by cases ended)⟩, gist_empty, .inr rfl⟩
  | @turn moves gist before busy apart ih =>
    obtain ⟨owed, machine, abiding, rfl, ready⟩ := ih same
    have acts : machine.acts = true := by
      refine ready.resolve_right fun turn => ?_
      rw [abiding.performed.ungated.isIdle turn abiding.any_isGuard] at busy
      cases busy
    obtain ⟨onward, turned⟩ := abiding.turn acts apart
    obtain ⟨next, settled, still, _, ready⟩ := onward.settles
    exact ⟨_, next, settled, still.trans turned, ready⟩
  | @act moves gist before idle move able ih =>
    obtain ⟨early, last, rfl, first, final⟩ := map_eq_append_iff.mp same
    obtain ⟨other, rfl, is⟩ := map_eq_singleton_iff.mp final
    obtain ⟨owed, machine, abiding, rfl, ready⟩ := ih first
    have turn : machine.clientTurn = true := by
      refine ready.resolve_left fun acts => ?_
      rw [isIdle_of_acts acts] at idle
      cases idle
    rw [← is, Gist.able_under] at able
    obtain ⟨next, onward, moved⟩ := abiding.move turn able
    obtain ⟨later, settled, still, _, ready⟩ := onward.settles
    refine ⟨_, later, settled, still.trans (moved.trans ?_), ready⟩
    rw [← is, Gist.act_under]

end Machine

end Readiness
