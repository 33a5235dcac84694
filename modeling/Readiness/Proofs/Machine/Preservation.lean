import Readiness.Proofs.Machine.Sound

/-! Every step of a run keeps the machine sound, and takes nothing out of its store.

A step brings up no executable that is not alive, unless it is new, and sends no call of a listener
that was not on its way, unless a transition or a request for readiness issues it. So it stays
within every scope that admits what is new and what is issued.
-/

namespace Readiness

open List

variable {batch : Batch} {command : Command} {e : ExecutableRef} {frame : Frame} {g : GateRef}
  {h : HostRef} {rest : List Frame} {scope : Scope}

/-- A policy changes no more than the order. -/
theorem Host.arrange_perm (host : Host) (deliveries : List Delivery) :
    (host.arrange deliveries).Perm deliveries := by
  unfold Host.arrange
  split
  · split
    · exact perm_append_singleton ..
    · exact .refl _
  · exact .refl _

namespace Machine

/-- The calls of listeners that a step from one machine to the next may issue. -/
inductive Issues (machine next : Machine) : Event → Delivery → Prop where
  | due {e : ExecutableRef} {status : Status} {entry : Entry}
    (asked : machine.control = .perform (.setStatus e status))
    (moves : (machine.engine.executable e).moves status = true)
    (listed : entry ∈ (machine.engine.executable e).subscriptions.due status) :
    Issues machine next ⟨e, status, (machine.engine.executable e).status⟩ entry.delivery
  | request {e : ExecutableRef} {request : ReadyRequest}
    (asked : machine.control = .perform (.onReady e request))
    (immediate : ((machine.engine.executable e).isReady && !request.onlyFuture) = true) :
    Issues machine next
      ⟨e, (machine.engine.executable e).readyStatus, (machine.engine.executable e).readyStatus⟩
      ⟨request.success, none⟩
  | wait {e : ExecutableRef} (turn : machine.clientTurn = true)
    (begun : next.engine.waits = machine.engine.waits ++ [⟨e, none⟩])
    (ready : (machine.engine.executable e).isReady = true) :
    Issues machine next
      ⟨e, (machine.engine.executable e).readyStatus, (machine.engine.executable e).readyStatus⟩
      ⟨.waitReady machine.engine.waits.length, none⟩

/-- A scope admits everything that a step from one machine to the next may bring up. -/
structure Admits (machine next : Machine) (scope : Scope) : Prop where
  new : scope.bears machine.engine.executables.length
  issued : ∀ event delivery, machine.Issues next event delivery → scope.sends event delivery

variable {start engine : Engine} {machine later : Machine} {work : Work} {id : Option String}

/-- Any scope is wide enough. -/
theorem admits_all (machine later : Machine) : machine.Admits later .all :=
  ⟨trivial, fun _ _ _ => trivial⟩

/-- The walk over the dependencies stays among those whose dependencies are among them. -/
theorem mem_reach_of_closed {among : ExecutableRef → Prop}
    (closed : ∀ e, among e → ∀ d ∈ (engine.executable e).work.dependencies, among d) {bound : Nat}
    {reached : List ExecutableRef} (start : ∀ e ∈ reached, among e)
    (found : e ∈ reach engine bound reached) : among e := by
  induction bound generalizing reached with
  | zero => exact start e found
  | succ top ih =>
    refine ih (fun other member => ?_) found
    split at member
    · rename_i here
      rcases mem_append.mp member with listed | old
      · exact closed top (start top (by simpa using here)) other listed
      · exact start other old
    · exact start other member

/-- What is alive is in the store and within the scope. -/
theorem Sound.has_of_isAlive (sound : machine.Sound scope) (alive : machine.isAlive e = true) :
    machine.engine.Has scope e := by
  simp only [isAlive, living, contains_eq_mem, decide_eq_true_eq] at alive
  refine mem_reach_of_closed (fun above has d listed => ?_) (fun other root => ?_) alive
  · exact ⟨Nat.lt_trans (sound.store.older above d listed) has.built,
      sound.store.closed above has.borne d listed⟩
  simp only [roots, mem_append, mem_filter, mem_range] at root
  rcases root with ((⟨built, held⟩ | source) | kept) | control
  · exact ⟨built, sound.store.held other (of_decide_eq_true held)⟩
  · obtain ⟨batch, waits, rfl⟩ := mem_map.mp source
    obtain ⟨h, member⟩ := mem_waitingBatches waits
    exact (sound.store.batches h batch member).toHas
  · obtain ⟨frame, member, among⟩ := mem_flatMap.mp kept
    exact (sound.frames frame member).has other among
  · have fits := sound.control
    simp only [controlExecutables] at control
    split at control
    · rename_i command turn
      rw [turn] at fits
      exact fits.1.has other control
    · cases control

/-- Who is alive has been built. -/
theorem Sound.lt_of_isAlive (sound : machine.Sound scope) (alive : machine.isAlive e = true) :
    e < machine.engine.executables.length :=
  (sound.has_of_isAlive alive).built

/-- Whoever is moved by a gate that is gone through is there. -/
theorem Intact.has_of_backs {stack : List Frame} (intact : Intact engine stack scope)
    (backs : engine.Backs stack g) : engine.Has scope (engine.gate g).dependent := by
  obtain ⟨frame, member, among⟩ := mem_flatMap.mp backs.2
  exact (intact.frames frame member).has _ among

namespace Calm

variable {onFailure : Option Listener} {position : Nat}

section

variable (calm : machine.Calm start scope)
include calm

/-- A gate may count. -/
theorem countGate (g : GateRef) : (machine.countGate g).1.Calm start scope := by
  have counted : (machine.update (·.modifyGate g
      ({ · with remaining := (machine.engine.gate g).remaining - 1 }))).Calm start scope :=
    calm.update (.modifyGate g rfl) (calm.store.modifyGate g rfl)
  exact counted

/-- Moving an executable that is there can be asked for. -/
theorem performMove (top : machine.stack = frame :: rest) (ours : frame.isClient = false)
    (has : machine.engine.Has scope e) (status : Status) :
    (machine.perform (.setStatus e status)).Onward start scope :=
  calm.perform top ours rfl has.only

/-- A gate may open. -/
theorem openGate (top : machine.stack = frame :: rest) (ours : frame.isClient = false)
    (has : machine.engine.Has scope (machine.engine.gate g).dependent) :
    (machine.openGate g).Onward start scope :=
  (calm.note (.gateOpened g)).performMove top ours (has.mono (.note ..)) _

/-- A gate may look at a dependency. -/
theorem examine {dependency : ExecutableRef} {rest : List ExecutableRef}
    (known : (Frame.examine g position dependency rest onFailure).Known machine.engine scope)
    (backs : machine.engine.Backs machine.stack g) :
    (machine.examine g position dependency rest onFailure).Onward start scope := by
  have built := known.executables dependency (mem_cons_self ..)
  -- The frame that goes on with the others refers to less than the one that examines.
  have next : (Frame.arm g (position + 1) rest onFailure).Known machine.engine scope :=
    ⟨fun e member => known.has e (mem_cons_of_mem _ member), known.listeners,
      forall_mem_nil _, known.plain⟩
  simp only [Machine.examine]
  generalize seen : machine.note (.examined g position dependency
    (machine.engine.executable dependency).isReady) = noted
  have calm' : noted.Calm start scope := seen ▸ calm.note _
  have next : (Frame.arm g (position + 1) rest onFailure).Known noted.engine scope :=
    seen ▸ next.mono (.note _ _)
  have backs : noted.engine.Backs noted.stack g := seen ▸ backs.mono (.note _ _)
  split
  · -- A dependency that is ready is counted, and the last one opens the gate.
    have counted := calm'.countGate g
    have backs : (noted.countGate g).1.engine.Backs (noted.countGate g).1.stack g :=
      backs.mono (.modifyGate g rfl)
    have pushed := counted.pushGated (next.mono (.modifyGate g rfl)) rfl backs
    split
    · exact pushed.openGate rfl rfl (counted.has_of_backs backs)
    · exact pushed.resume .done
  · -- One that is not is listened to, for real statuses and one call each.
    have sensible := calm.store.lawful dependency built
    generalize listed : (Listener.countdown g position,
      (machine.engine.executable dependency).readyStatus) :: _ = links
    have fits : ∀ link ∈ links, link.1.Known noted.engine ∧
        (link.1.isWatcher = true → link.2 ≠ .null ∧ true = true) := by
      subst listed
      intro link member
      rcases mem_cons.mp member with rfl | failure
      · exact ⟨backs.1, fun _ => ⟨Work.readyStatus_ne_null sensible, rfl⟩⟩
      · obtain ⟨listener, among, within⟩ := mem_flatMap.mp failure
        obtain ⟨status, failed, rfl⟩ := mem_map.mp within
        exact ⟨next.listeners listener among,
          fun _ => ⟨Work.ne_null_of_mem_failedStatuses sensible failed, rfl⟩⟩
    have listening : (noted.update (·.modifySubscriptions dependency fun subscriptions =>
        links.foldl (fun grown link => grown.add link.1 (some link.2) true)
          subscriptions)).Calm start scope :=
      calm'.update (.modifyExecutable dependency rfl rfl)
        (calm'.store.modifyExecutable dependency rfl rfl
          ((calm'.store.entries dependency).foldl_add fits) (calm'.store.held dependency))
    exact (listening.pushGated (next.mono (.modifyExecutable dependency rfl rfl)) rfl
      (backs.mono (.modifyExecutable dependency rfl rfl))).resume .done

/-- A gate may go on to its next dependency. -/
theorem arm {rest : List ExecutableRef}
    (known : (Frame.arm g position rest onFailure).Known machine.engine scope)
    (backs : machine.engine.Backs machine.stack g) :
    (machine.arm g position rest onFailure).Onward start scope := by
  cases rest with
  | nil => exact calm.resume .done
  | cons dependency others =>
    have frame : (Frame.examine g position dependency others onFailure).Known
        machine.engine scope :=
      ⟨known.has, known.listeners, forall_mem_nil _, known.plain⟩
    simp only [Machine.arm]
    split
    · exact calm.examine frame backs
    · exact (calm.pushGated frame rfl backs).perform rfl rfl rfl
        (known.has dependency (mem_cons_self ..)).only

/-- A batch may be handed to the delivery loop. -/
theorem dispatch (fits : batch.Sound machine.engine h scope) :
    (machine.dispatch h batch).Onward start scope := by
  have queued : (machine.update (·.enqueue h batch)).Calm start scope :=
    calm.update (.enqueue ..) (calm.store.enqueue fits)
  unfold Machine.dispatch
  simp only
  split
  · exact queued.resume .done
  · have draining : ((machine.update (·.enqueue h batch)).update
        (·.modifyHost h ({ · with draining := true }))).Calm start scope :=
      queued.update (.modifyHost ..)
        (queued.store.modifyHost h fun batch member => queued.store.batches h batch member)
    exact (draining.pushAny (Frame.known_of_executables rfl (forall_mem_nil _)) rfl
      rfl).resume .done

/-- An announced transition may be posted. -/
theorem fire {transition : Transition} {entries : List Entry}
    (known : (Frame.announce e transition entries).Known machine.engine scope) :
    (machine.fire e transition entries).Onward start scope := by
  have spent : (machine.update Engine.spendBatch).Calm start scope :=
    calm.update (.spendBatch _) (calm.store.of_same rfl rfl rfl)
  simp only [Machine.fire]
  generalize made : machine.engine.batch _ _ = batch
  have fits : batch.Sound machine.engine (machine.engine.executable e).host scope := by
    -- The calls of the batch are those of the announcement, in another order perhaps.
    have among {deliveries : List Delivery} {delivery : Delivery} (host : Host)
        (member : delivery ∈ host.arrange deliveries) : delivery ∈ deliveries :=
      (Host.arrange_perm _ _).mem_iff.mp member
    subst made
    refine ⟨known.has e (mem_singleton_self e), rfl, fun delivery member => ?_,
      fun delivery member => ?_⟩
    · obtain ⟨entry, among, rfl⟩ := mem_map.mp (among _ member)
      exact known.listeners entry.listener (mem_map_of_mem among)
    · obtain ⟨entry, among, rfl⟩ := mem_map.mp (among _ member)
      exact known.sends (transition.event e, entry.delivery) (mem_map_of_mem among)
  split
  · have deferred : ((machine.update Engine.spendBatch).update
        (·.defer (machine.engine.executable e).host batch)).Calm start scope :=
      spent.update (.defer ..) (spent.store.defer (fits.mono (.spendBatch _)))
    exact deferred.resume .done
  · exact spent.dispatch (fits.mono (.spendBatch _))

/-- A listener may be called. -/
theorem callListener (alive : ∀ e, machine.isAlive e = true → machine.engine.Has scope e)
    {listener : Listener} {event : Event} (known : listener.Known machine.engine)
    (has : machine.engine.Has scope event.source) :
    (machine.callListener listener event).Onward start scope := by
  cases listener with
  | client code => exact calm.callClient has.only
  | countdown g position =>
    have counted := calm.countGate g
    have grown : machine.engine.Extends (machine.countGate g).1.engine := .modifyGate g rfl
    simp only [Machine.callListener]
    split
    · -- The gate moves its dependent only while that is alive.
      rename_i living
      have has := (alive _ living).mono grown
      split
      · exact counted.resume _
      · split
        · exact (counted.note _).resume _
        · refine (counted.pushOne _ has rfl rfl rfl rfl).openGate rfl rfl ?_
          rw [← grown.dependent g known] at has
          exact has
    · exact calm.resume _
  | dependencyFailed composite =>
    simp only [Machine.callListener]
    split
    · rename_i living
      exact ((calm.note _).pushOne _ ((alive _ living).mono (.note ..)) rfl rfl rfl
        rfl).performMove rfl rfl ((alive _ living).mono (.note ..)) .failed
    · exact calm.resume _
  | waitReady w | waitFailed w =>
    have settled : ∀ settlement, (machine.update (·.settleWait w settlement)).Calm start scope :=
      fun _ => calm.update (.of_same rfl rfl (Nat.le_refl _)) (calm.store.of_same rfl rfl rfl)
    exact (settled _).resume _

/-- The future of a session may be polled. -/
theorem askFuture (k : SessionRef) : (machine.askFuture k).Onward start scope := by
  have asking := calm.push (.asked k) (forall_mem_nil _) rfl rfl rfl
  simp only [Machine.askFuture]
  split
  · exact asking.callClient (forall_mem_nil _)
  · exact asking.resume _

/-- A session may deliver what was put off. -/
theorem runSession (k : SessionRef) : (machine.runSession k).Onward start scope :=
  (calm.push (.pumped k) (forall_mem_nil _) rfl rfl rfl).perform rfl rfl rfl
    (forall_mem_nil _)

/-- A poll may end. -/
theorem concludePoll (k : SessionRef) (finished : Bool) :
    (machine.concludePoll k finished).Onward start scope := by
  simp only [Machine.concludePoll]
  split
  · have ended : (machine.update (·.endSession k)).Calm start scope :=
      calm.update (.endSession ..) (calm.store.endSession k)
    exact ended.resume _
  · split
    · have fresh : (machine.update
          (·.modifySession k ({ · with phase := .fresh }))).Calm start scope :=
        calm.update (.of_same rfl rfl (Nat.le_refl _)) (calm.store.of_same rfl rfl rfl)
      exact fresh.runSession k
    · exact calm.resume _
    · exact calm.resume _
    · generalize (machine.engine.session k).host = h
      split
      · have used : (machine.update
            (·.modifyHost h ({ · with permit := false }))).Calm start scope :=
          calm.update (.modifyHost ..)
            (calm.store.modifyHost h fun batch member => calm.store.batches h batch member)
        exact used.runSession k
      · have parked : (machine.engine.modifySession k ({ · with phase := .parked })).Sound scope :=
          calm.store.of_same rfl rfl rfl
        have grown : machine.engine.Extends
            (machine.engine.modifySession k ({ · with phase := .parked })) :=
          .of_same rfl rfl (Nat.le_refl _)
        have listed : (machine.update fun engine =>
            (engine.modifySession k ({ · with phase := .parked })).modifyHost h
              fun host => { host with waiters := host.waiters ++ [k] }).Calm start scope :=
          calm.update (grown.trans (.modifyHost ..))
            (parked.modifyHost h fun batch member => parked.batches h batch member)
        exact listed.resume _

/-- Work may be started. -/
theorem startWork (has : machine.engine.Has scope e) :
    (machine.startWork e).Onward start scope := by
  simp only [Machine.startWork]
  split
  · exact (calm.pushOne _ has rfl rfl rfl rfl).resume _
  · exact (calm.pushOne _ has rfl rfl rfl rfl).resume _
  · exact (calm.pushOne _ has rfl rfl rfl rfl).performMove rfl rfl has _
  · exact (calm.pushOne _ has rfl rfl rfl rfl).performMove rfl rfl has _
  · exact (calm.pushOne _ has rfl rfl rfl rfl).callClient has.only

end

/-- A request to synchronise can be started: it sets up a gate, and comes to the first dependency
unless all are ready. -/
theorem synchronise (calm : machine.Calm machine.engine scope) {target : Status}
    {dependencies : List ExecutableRef}
    (known : (Command.synchronise e target dependencies onFailure).Known machine.engine scope)
    (kept : e ∈ machine.stack.flatMap Frame.executables) :
    (machine.start (.synchronise e target dependencies onFailure)).Onward
      machine.engine scope := by
  have own := known.has e (mem_cons_self ..)
  simp only [Machine.start]
  generalize (if (dependencies.all fun d => (machine.engine.executable d).isReady) = true then 0
    else dependencies.length) = remaining
  have set : (machine.update (·.addGate ⟨e, target, remaining⟩)).Calm machine.engine scope :=
    calm.update (.addGate ..) (calm.store.addGate own.built)
  have gate : ((machine.update (·.addGate ⟨e, target, remaining⟩)).engine.gate
      machine.engine.gates.length).dependent = e := by
    simp only [Machine.update]
    rw [Engine.gate_addGate _ _ (Nat.le_refl _), if_pos rfl]
  split
  · exact (set.pushOne _ (own.mono set.grown) rfl rfl rfl rfl).openGate rfl rfl
      (gate.symm ▸ own.mono set.grown)
  · -- The dependent of the new gate is kept alive by whoever asks for it.
    refine set.arm ⟨fun d member => ?_, fun listener member => ?_,
      forall_mem_nil _,
      fun listener member => ?_⟩ ⟨by simp [Machine.update, Engine.addGate], ?_⟩
    · exact (known.has d (mem_cons_of_mem _ member)).mono set.grown
    · exact (known.listeners listener member).mono set.grown
    · exact known.plain listener (Option.mem_toList.mpr member) fun _ same => by cases same
    · rw [gate]
      exact kept

end Calm

/-- The call of a listener may end. -/
theorem Based.listenerReturned (based : machine.Based start scope)
    (free : ∀ below ∈ machine.stack.head?, below.isDrain = false) (serial : Nat) (event : Event)
    (delivery : Delivery) (fault : Option ListenerFault) :
    (machine.listenerReturned serial event delivery fault).Onward start scope := by
  have counted : ((machine.update (·.modifyTally (machine.engine.executable event.source).host
      (·.countInvocation fault.isNone))).note
        (.returned serial event delivery fault)).Based start scope :=
    (based.update (.modifyHost ..) (based.store.modifyTally _ _)).note _
  simp only [Machine.listenerReturned]
  split
  · exact counted.resume .done
  · exact counted.notify free _ _

/-- A delivery loop may end. -/
theorem Based.idle (based : machine.Based start scope) (h : HostRef) :
    (machine.update (·.modifyHost h ({ · with draining := false }))).Based start scope :=
  based.update (.modifyHost ..) (based.store.modifyHost h (based.store.batches h))

/-- Work that cannot be done is refused before anything else. -/
theorem build_of_fault {fault : Fault} (unlawful : work.fault? = some fault) :
    machine.build h id work = (machine, .error fault) := by
  rw [build, unlawful]

/-- Without an id an executable gets a temporary one. -/
theorem build_temporary (lawful : work.fault? = none) :
    machine.build h none work =
      (machine.update (·.addTemporary h work 1), .ok machine.engine.executables.length) := by
  rw [build, lawful]
  rfl

/-- With an id an executable is put on the roster, unless a living one stands there. -/
theorem build_registered {name : String} (lawful : work.fault? = none) :
    machine.build h (some name) work =
      if (machine.resolve? h name).isSome then (machine, .error (.duplicateId name))
      else (machine.update (·.addRegistered h name work),
        .ok machine.engine.executables.length) := by
  rw [build, lawful]
  rfl

/-- An executable that is built has a temporary id, or is on the roster under one that was free. -/
theorem build_cases {built : Machine} (success : machine.build h id work = (built, .ok e)) :
    work.fault? = none ∧
      (built = machine.update (·.addTemporary h work 1) ∨
        ∃ name, machine.resolve? h name = none ∧
          built = machine.update (·.addRegistered h name work)) := by
  cases lawful : work.fault? with
  | some fault =>
    rw [build_of_fault lawful] at success
    cases success
  | none =>
    cases id with
    | none =>
      rw [build_temporary lawful] at success
      cases success
      exact ⟨rfl, .inl rfl⟩
    | some name =>
      rw [build_registered lawful] at success
      by_cases taken : (machine.resolve? h name).isSome = true
      · rw [if_pos taken] at success
        cases success
      · rw [if_neg taken] at success
        cases success
        exact ⟨rfl, .inr ⟨name, by simpa using taken, rfl⟩⟩

/-- A guard catches a panic whose payload is dropped quietly. -/
theorem unwind_guard {payload : Payload} (quiet : payload.onDrop? = none) {serial : Nat}
    {event : Event} {delivery : Delivery} :
    machine.unwind payload (.guard serial event delivery) =
      machine.listenerReturned serial event delivery (some (.panicked payload.report)) := by
  rw [unwind, quiet]

namespace Sound

variable {payload : Payload} {change : Engine → Engine} {next : Machine}

section

variable (sound : machine.Sound scope)
include sound

/-- A sound machine can be built upon. -/
theorem based : machine.Based machine.engine scope :=
  ⟨sound.toIntact, .refl _⟩

/-- A sound machine whose client has the turn can go on with anything. -/
theorem calm_of_clientTurn (turn : machine.clientTurn = true) :
    machine.Calm machine.engine scope := by
  refine ⟨sound.based, fun frame member => ?_⟩
  have fits := sound.control
  have client : frame.isClient = true := by
    unfold clientTurn at turn
    split at turn
    · rename_i here; rw [here] at fits; exact fits frame member
    · rename_i here; rw [here] at fits; exact fits frame member
    all_goals cases turn
  cases frame <;> first | rfl | cases client

/-- While a command is begun, nobody is being told. -/
theorem calm_of_perform (turn : machine.control = .perform command) :
    machine.Calm machine.engine scope := by
  refine ⟨sound.based, fun frame member => ?_⟩
  have fits := sound.control
  rw [turn] at fits
  obtain ⟨top, rest, stands, calm, _⟩ := fits.2.1
  rw [stands] at member
  cases member
  exact calm

/-- A move of an executable can be started: this is where a transition issues calls. -/
theorem onward_setStatus (admits : machine.Admits later scope) {status : Status}
    (turn : machine.control = .perform (.setStatus e status)) (has : machine.engine.Has scope e) :
    (machine.start (.setStatus e status)).Onward machine.engine scope := by
  have calm := sound.calm_of_perform turn
  simp only [Machine.start]
  split
  · rename_i moves
    have moved : (machine.update (·.transition e status)).Calm machine.engine scope :=
      calm.update (.transition ..) (calm.store.transition e status)
    have frame : (Frame.announce e ⟨(machine.engine.executable e).status, status⟩
        ((machine.engine.executable e).subscriptions.due status)).Known machine.engine scope := by
      refine ⟨has.only, fun listener member => ?_, fun call member => ?_,
        fun _ member => (by cases member)⟩
      · obtain ⟨entry, due, rfl⟩ := mem_map.mp member
        obtain ⟨key, filed⟩ := (sound.store.entries e).keyed.mem_listing_of_mem_due due
        exact (sound.store.entries e).known (key, entry) filed
      · obtain ⟨entry, due, rfl⟩ := mem_map.mp member
        exact admits.issued _ _ (.due turn moves due)
    exact (moved.pushAny (frame.mono moved.grown) rfl rfl).notify
      (fun _ first => by cases first; rfl) _ _
  · exact calm.resume _

/-- A command can be begun. -/
theorem onward_start (admits : machine.Admits later scope)
    (turn : machine.control = .perform command) :
    (machine.start command).Onward machine.engine scope := by
  have calm := sound.calm_of_perform turn
  have fits := sound.control
  rw [turn] at fits
  obtain ⟨known, ⟨top, rest, stands, _, ours⟩, _, _, moved⟩ := fits
  have has := known.has
  cases command with
  | execute e refresh =>
    -- The frame that begins the work stands below what the observer is told.
    simp only [Machine.start]
    split
    · exact calm.resume .done
    · have begun : (machine.engine.modifyExecutable e (·.begin machine.engine.clock)).Sound scope :=
        calm.store.modifyExecutable e rfl rfl (calm.store.entries e) (calm.store.held e)
      have grown : machine.engine.Extends
          (machine.engine.modifyExecutable e (·.begin machine.engine.clock)) :=
        .modifyExecutable e rfl rfl
      have counted : (machine.update fun engine =>
          (engine.modifyExecutable e (·.begin engine.clock)).modifyTally
            (machine.engine.executable e).host Tally.countExecution).Calm machine.engine scope :=
        calm.update (grown.trans (.modifyHost ..)) (begun.modifyTally _ _)
      exact (counted.pushAny (Frame.known_of_executables rfl (by
        exact fun other member => (has other member).mono counted.grown)) rfl rfl).notify
          (fun _ first => by cases first; rfl) _ _
  | setStatus e status => exact sound.onward_setStatus admits turn (has e (mem_singleton_self e))
  | report e status =>
    simp only [Machine.start]
    split
    · rename_i alive
      exact (calm.pushOne _ (sound.has_of_isAlive alive) rfl rfl rfl rfl).resume _
    · exact calm.resume _
  | fail e reason =>
    simp only [Machine.start]
    split
    · rename_i alive
      exact ((calm.note _).pushOne _ ((sound.has_of_isAlive alive).mono (.note ..)) rfl rfl rfl
        rfl).resume _
    · exact calm.resume _
  | synchronise e target dependencies onFailure =>
    exact calm.synchronise known (moved e target dependencies onFailure rfl)
  | onReady e request =>
    have own := has e (mem_singleton_self e)
    have listening : (machine.update (·.listenReady e request)).Calm machine.engine scope :=
      calm.update (.listenReady ..) (calm.store.listenReady own (known.foreign e request rfl)
        fun immediate => admits.issued _ _ (.request turn immediate))
    simp only [Machine.start]
    split
    · exact listening.perform stands ours rfl (own.mono listening.grown).only
    · exact listening.resume _
  | invoke listener event =>
    exact calm.callListener (fun _ => sound.has_of_isAlive)
      (known.listeners listener (mem_singleton_self _))
      (has event.source (mem_singleton_self _))
  | destroy e =>
    simp only [Machine.start]
    split
    · exact calm.resume _
    · have struck : (machine.update (·.destroy e)).Calm machine.engine scope :=
        calm.update (.destroy ..) (calm.store.destroy e)
      exact (struck.pushAny (Frame.known_of_executables rfl (by
        exact fun other member => (has other member).mono struck.grown)) rfl rfl).notify
          (fun _ first => by cases first; rfl) _ _
  | buildConstant h =>
    have added : (machine.update (·.addTemporary h .constant 0)).Calm machine.engine scope :=
      calm.update (.addTemporary ..) (calm.store.addTemporary (known.opened h rfl) rfl
        (fun _ member => by cases member) admits.new 0)
    have last : (machine.update (·.addTemporary h .constant 0)).engine.Has scope
        machine.engine.executables.length :=
      ⟨by simp [update, Engine.addTemporary, Engine.addExecutable, Engine.modifyHost], admits.new⟩
    exact ((added.pushOne _ last rfl rfl rfl rfl).pushOne _ last rfl rfl rfl rfl).resume _
  | pump h => exact (calm.push (.pump h 0) (forall_mem_nil _) rfl rfl rfl).resume _
  | poll k =>
    simp only [Machine.start]
    split
    · exact calm.runSession k
    · exact calm.askFuture k
    · exact calm.askFuture k
    · exact calm.resume _

section

variable (stands : machine.stack = frame :: rest)
include stands

/-- The frame on top may be taken off. -/
theorem based_tail : Based machine.engine { machine with stack := rest } scope := by
  obtain ⟨store, frames, backed, layered⟩ := sound.toIntact
  rw [stands] at frames backed layered
  exact ⟨⟨store, fun other member => frames other (mem_cons_of_mem _ member), backed.2,
    layered.tail⟩, .refl _⟩

/-- The frames stand on one another as they should. -/
theorem standsOn {below : Frame} (first : below ∈ rest.head?) : frame.StandsOn below := by
  have layered := sound.layered
  rw [stands] at layered
  exact (isChain_cons.mp layered).1 below first

/-- Under a frame that is not a batch, there is no delivery loop. -/
theorem free_tail (plain : frame.isDeliver = false) : ∀ below ∈ rest.head?, below.isDrain = false :=
  fun _ first => (sound.standsOn stands first).loop.symm.trans plain

/-- Nobody waits for a call to end under a frame that is neither the observer's nor a guard nor a
batch. -/
theorem calm_tail (observed : frame.isObserver = false) (plain : frame.isDeliver = false)
    (unguarded : ∀ serial event delivery, frame ≠ .guard serial event delivery) :
    Calm machine.engine { machine with stack := rest } scope := by
  refine ⟨sound.based_tail stands, fun below member => ?_⟩
  refine Bool.or_eq_false_iff.mpr ⟨?_, sound.free_tail stands plain below member⟩
  cases telling : below.isTelling with
  | false => rfl
  | true =>
    rcases (sound.standsOn stands member).told telling with observer | ⟨_, _, _, _, guard⟩
    · rw [observed] at observer
      cases observer
    · exact absurd guard (unguarded _ _ _)

end

/-- A composite can ask for its dependencies to be synchronised. -/
theorem onward_gather (stands : machine.stack = .gather e :: rest)
    (own : machine.engine.Has scope e) (answer : Answer) :
    (receive { machine with stack := rest } answer (.gather e)).Onward machine.engine scope := by
  have inspecting := (sound.calm_tail stands rfl rfl (by simp)).push
    (.inspect e) own.only rfl rfl rfl
  refine ⟨⟨inspecting.grown, inspecting.toIntact, ⟨?_, ?_, ?_, ?_, ?_⟩, ⟨_, _, rfl, rfl, rfl⟩,
    ?_, ?_, ?_⟩, fun _ same => (by cases same)⟩
  · intro d member
    rcases mem_cons.mp member with rfl | listed
    · exact own
    · exact ⟨Nat.lt_trans (sound.store.older e d listed) own.built,
        sound.store.closed e own.borne d listed⟩
  · intro listener member
    rw [mem_singleton.mp member]
    exact own.built
  · exact fun h same => by cases same
  · exact fun d request same => by cases same
  · intro listener member _
    rw [mem_singleton.mp member]
    rfl
  · exact fun outer => by cases outer
  · exact fun listener event same => by cases same
  · -- The frame that inspects the composite keeps it alive for the gate.
    intro other target dependencies onFailure same
    cases same
    exact mem_flatMap.mpr ⟨_, mem_cons_self .., mem_singleton_self e⟩

/-- A delivery loop can go on to the next batch. -/
theorem onward_drain (stands : machine.stack = .drain h :: rest) (answer : Answer) :
    (receive { machine with stack := rest } answer (.drain h)).Onward machine.engine scope := by
  have based := sound.based_tail stands
  simp only [receive]
  split
  · exact (based.idle h).resume _
  · rename_i batch others queue
    have fits := sound.store.batches h
    rw [show (machine.engine.host h).queue = batch :: others from queue] at fits
    have taken : (Machine.update { machine with stack := rest }
        (·.modifyHost h ({ · with queue := others }))).Calm machine.engine scope :=
      (sound.calm_tail stands rfl rfl (by simp)).update (.modifyHost ..)
        (based.store.modifyHost h fun other member => fits other (mem_cons_of_mem _ member))
    have opened := (taken.note (.opened h batch.serial)).pushAny
      (Frame.known_of_executables rfl (forall_mem_nil _) : (Frame.drain h).Known _ scope)
      rfl rfl
    -- The frame refers to what the batch referred to while it was waiting.
    have first := fits batch (mem_cons_self ..)
    have deliver : (Frame.deliver batch).Known machine.engine scope :=
      Frame.known_deliver.mpr ⟨first.toHas, fun delivery among =>
        ⟨first.known delivery among, first.sends delivery among⟩⟩
    refine (opened.push (deliver.mono opened.grown) rfl fun below first => ?_).resume _
    cases first
    exact ⟨rfl, fun telling => by cases telling⟩

/-- A batch can be delivered further: a guard stands on what is left of it while the next listener
is called. -/
theorem onward_deliver (stands : machine.stack = .deliver batch :: rest) (answer : Answer) :
    (receive { machine with stack := rest } answer (.deliver batch)).Onward
      machine.engine scope := by
  have known : (Frame.deliver batch).Known machine.engine scope :=
    sound.frames _ (by rw [stands]; exact mem_cons_self ..)
  obtain ⟨has, acts⟩ := Frame.known_deliver.mp known
  have based := sound.based_tail stands
  simp only [receive]
  split
  · exact based.resume _
  · rename_i delivery others deliveries
    split
    · exact based.resume _
    · -- The guard stands on what is left of the batch, and the listener acts on known things.
      rw [deliveries] at acts
      have called := acts delivery (mem_cons_self ..)
      have later : (Frame.deliver { batch with deliveries := others }).Known machine.engine scope :=
        Frame.known_deliver.mpr ⟨has, fun other among => acts other (mem_cons_of_mem _ among)⟩
      have guard : (Frame.guard batch.serial batch.event delivery).Known machine.engine scope :=
        ⟨has.only, forall_mem_singleton.mpr called.1, forall_mem_singleton.mpr called.2,
          fun _ member => (by cases member)⟩
      have back := based.push later rfl fun below member =>
        ⟨(sound.standsOn stands member).loop, fun telling => by
          rcases (sound.standsOn stands member).told telling with told | ⟨_, _, _, _, guard⟩
          · cases told
          · cases guard⟩
      have guarded := (back.push guard rfl fun below member => by
        cases member; exact ⟨rfl, fun _ => .inr ⟨⟨_, rfl⟩, _, _, _, rfl⟩⟩).note
          (.invoked batch.serial batch.event delivery)
      refine ⟨⟨guarded.grown, guarded.toIntact, ⟨?_, ?_, ?_, ?_, ?_⟩, ⟨_, _, rfl, rfl, rfl⟩,
        fun outer => (by cases outer), ?_, ?_⟩, fun _ same => (by cases same)⟩
      · exact (has.mono guarded.grown).only
      · exact forall_mem_singleton.mpr (called.1.mono guarded.grown)
      · exact fun h same => by cases same
      · exact fun e request same => by cases same
      · intro listener member called
        rw [mem_singleton.mp member] at called
        exact absurd rfl (called batch.event)
      · rintro listener event same _
        cases same
        exact ⟨_, _, _, rfl⟩
      · exact fun e target dependencies onFailure same => by cases same

/-- An answer can be passed to the frame on top. -/
theorem onward_receive (stands : machine.stack = frame :: rest) (answer : Answer) :
    (receive { machine with stack := rest } answer frame).Onward machine.engine scope := by
  have known : frame.Known machine.engine scope :=
    sound.frames frame (by rw [stands]; exact mem_cons_self ..)
  have has := known.has
  have based := sound.based_tail stands
  have calm := sound.calm_tail stands
  -- The dependent of a gate is kept alive by a frame further down.
  have gated : ∀ g ∈ frame.gate?, machine.engine.Backs rest g := by
    have backed := sound.backed
    rw [stands] at backed
    exact backed.1
  cases frame with
  | client callback =>
    have intact := sound.toIntact
    rw [stands] at intact
    exact ⟨⟨.refl _, intact, fun top member => (by cases member; rfl)⟩,
      fun _ same => (by cases same)⟩
  | hold held | conclude e transition | relay e => exact based.resume _
  | begin e status =>
    have noted := (calm rfl rfl (by simp)).note (.started e status)
    have counted : ((Machine.note { machine with stack := rest } (.started e status)).update
        (·.modifyExecutable e fun working => { working with runs := working.runs + 1 })).Calm
          machine.engine scope :=
      noted.update (.modifyExecutable e rfl rfl)
        (noted.store.modifyExecutable e rfl rfl (noted.store.entries e) (noted.store.held e))
    exact counted.startWork ((has e (mem_singleton_self e)).mono counted.grown)
  | moves e todo =>
    have own := has e (mem_singleton_self e)
    cases todo with
    | nil => exact based.resume _
    | cons status others =>
      exact ((calm rfl rfl (by simp)).pushOne _ own rfl rfl rfl rfl).performMove rfl rfl own _
  | callBack e code =>
    have own := has e (mem_singleton_self e)
    exact ((calm rfl rfl (by simp)).pushOne _ own rfl rfl rfl rfl).callClient own.only
  | gather e =>
    exact sound.onward_gather stands (has e (mem_singleton_self e)) answer
  | inspect e =>
    have own := has e (mem_singleton_self e)
    simp only [receive]
    split
    · exact based.resume _
    · exact (((calm rfl rfl (by simp)).note _).pushOne _ (own.mono (.note ..)) rfl rfl rfl
        rfl).performMove rfl rfl (own.mono (.note ..)) _
  | arm g position todo onFailure => exact (calm rfl rfl (by simp)).arm known (gated g rfl)
  | examine g position dependency todo onFailure =>
    exact (calm rfl rfl (by simp)).examine known (gated g rfl)
  | announce e transition entries =>
    have concluding := (calm rfl rfl (by simp)).push (.conclude e transition) has rfl rfl rfl
    simp only [receive]
    split
    · exact concluding.resume _
    · exact concluding.fire known
  | drain h => exact sound.onward_drain stands answer
  | deliver batch => exact sound.onward_deliver stands answer
  | guard serial event delivery =>
    simp only [receive]
    split <;> exact based.listenerReturned (sound.free_tail stands rfl) _ _ _ _
  | farewell e => exact (based.note _).resume _
  | hand e =>
    have handed : (Machine.update { machine with stack := rest } (·.retain e)).Based
        machine.engine scope :=
      based.update (.modifyExecutable e rfl rfl) (based.store.modifyExecutable e rfl rfl
        (based.store.entries e) fun _ => (has e (mem_singleton_self e)).borne)
    exact handed.resume _
  | pump h taken =>
    simp only [receive]
    split
    · exact based.resume _
    · rename_i batch others deferred
      have fits := sound.store.batches h
      rw [show (machine.engine.host h).deferred = batch :: others from deferred] at fits
      have popped : (Machine.update { machine with stack := rest }
          (·.modifyHost h ({ · with deferred := others }))).Calm machine.engine scope :=
        (calm rfl rfl (by simp)).update (.modifyHost ..)
          (based.store.modifyHost h fun other member => fits other (by
            rcases mem_append.mp member with queued | later
            · exact mem_append_left _ queued
            · exact mem_append_right _ (mem_cons_of_mem _ later)))
      have next := popped.push (.pump h (taken + 1)) (forall_mem_nil _) rfl rfl rfl
      exact next.dispatch ((fits batch (by simp)).mono next.grown)
  | pumped k => exact (calm rfl rfl (by simp)).askFuture k
  | asked k => exact (calm rfl rfl (by simp)).concludePoll k _

/-- A panic in a run carries what can be dropped quietly. -/
theorem quiet (turn : machine.control = .unwind payload) : payload.onDrop? = none := by
  have fits := sound.control
  rw [turn] at fits
  exact fits

/-- A panic can be taken past the frame on top. -/
theorem later_unwind (turn : machine.control = .unwind payload)
    (stands : machine.stack = frame :: rest) :
    (unwind { machine with stack := rest } payload frame).Later machine.engine scope := by
  have based := sound.based_tail stands
  have passed : Later machine.engine { machine with stack := rest } scope :=
    ⟨.refl _, based.toIntact, by rw [turn]; exact sound.quiet turn⟩
  cases frame with
  | drain h =>
    have idle := based.idle h
    exact ⟨idle.grown, idle.toIntact, by rw [unwind, update, turn]; exact sound.quiet turn⟩
  | pumped k | asked k =>
    have ended : Based machine.engine (Machine.update { machine with stack := rest }
        (·.endSession k)) scope :=
      based.update (.endSession ..) (based.store.endSession k)
    exact ⟨ended.grown, ended.toIntact, by rw [unwind, update, turn]; exact sound.quiet turn⟩
  | guard serial event delivery =>
    rw [unwind_guard (sound.quiet turn)]
    exact (based.listenerReturned (sound.free_tail stands rfl) serial event delivery
      (some (.panicked payload.report))).toLater
  | _ => exact passed

/-- A step of the engine keeps the machine sound. -/
theorem later_step (admits : machine.Admits later scope) :
    machine.step.Later machine.engine scope := by
  unfold step
  split
  · exact (sound.onward_start admits ‹_›).toLater
  · split
    · rename_i stands
      exact ⟨.refl _, sound.toIntact, by rw [stands]; exact fun _ member => by cases member⟩
    · exact (sound.onward_receive ‹_› _).toLater
  · split
    · rename_i stands
      exact ⟨.refl _, sound.toIntact, by rw [stands]; exact fun _ member => by cases member⟩
    · exact sound.later_unwind ‹_› ‹_›
  · exact ⟨.refl _, sound⟩
  · exact ⟨.refl _, sound⟩

/-- The client may have the store changed. -/
theorem later_update (turn : machine.clientTurn = true)
    (grown : machine.engine.Extends (change machine.engine))
    (store : (change machine.engine).Sound scope) :
    (machine.update change).Later machine.engine scope := by
  refine ⟨grown, (sound.based.update grown store).toIntact, ?_⟩
  have fits := sound.control
  show machine.control.Fits (change machine.engine) machine.stack scope
  unfold clientTurn at turn
  split at turn
  · rename_i here; rw [here] at fits ⊢; exact fits
  · rename_i here; rw [here] at fits ⊢; exact fits
  all_goals cases turn

/-- What refers to nothing may change. -/
theorem later_update_of_same (turn : machine.clientTurn = true)
    (executables : (change machine.engine).executables = machine.engine.executables)
    (gates : (change machine.engine).gates = machine.engine.gates)
    (hosts : (change machine.engine).hosts = machine.engine.hosts) :
    (machine.update change).Later machine.engine scope :=
  sound.later_update turn (.of_same executables gates (Nat.le_of_eq (by rw [hosts])))
    (sound.store.of_same executables gates hosts)

/-- The client may build an executable. -/
theorem later_build (admits : machine.Admits later scope) (turn : machine.clientTurn = true)
    {id : Option String} {work : Work} (opened : h < machine.engine.hosts.length)
    (alive : ∀ d ∈ work.dependencies, machine.isAlive d) {built : Machine}
    (success : machine.build h id work = (built, .ok e)) : built.Later machine.engine scope := by
  have older : ∀ d ∈ work.dependencies, machine.engine.Has scope d :=
    fun d member => sound.has_of_isAlive (alive d member)
  obtain ⟨sensible, rfl | ⟨name, -, rfl⟩⟩ := build_cases success
  · exact sound.later_update turn (.addTemporary ..)
      (sound.store.addTemporary opened sensible older admits.new 1)
  · have added : (machine.engine.addExecutable
        { id := name, registered := true, host := h, work, handles := 1 }).Sound scope :=
      sound.store.addExecutable opened sensible older rfl admits.new
    have registered : (machine.engine.addRegistered h name work).Sound scope :=
      (added.modifyHost h (added.batches h)).of_same rfl rfl rfl
    exact sound.later_update turn
      (((Engine.Extends.addExecutable ..).trans (.modifyHost ..)).trans (.note ..)) registered

/-- A call that the client may make keeps the machine sound. -/
theorem later_call (turn : machine.clientTurn = true) (permitted : machine.Permitted command) :
    (machine.call command).Later machine.engine scope := by
  have has : ∀ e ∈ command.executables, machine.engine.Has scope e :=
    fun e member => sound.has_of_isAlive (permitted.alive e member)
  have own : ∀ listener ∈ command.listeners, ∃ code, listener = .client code := by
    intro listener member
    have client := permitted.own listener member
    cases listener with
    | client code => exact ⟨code, rfl⟩
    | _ => cases client
  -- Whatever the client calls, a frame holds the executables that it mentions.
  have held := (sound.calm_of_clientTurn turn).push (.hold command.executables) has rfl rfl rfl
  refine ⟨held.grown, held.toIntact, ⟨has, ?_, ?_, ?_, ?_⟩, ⟨_, _, rfl, rfl, rfl⟩,
    fun _ => ⟨_, _, rfl⟩, ?_, ?_⟩
  · intro listener member
    obtain ⟨code, rfl⟩ := own listener member
    trivial
  · exact fun h same => permitted.opened h (.inr same)
  · rintro e request rfl listener member
    obtain ⟨code, rfl⟩ := own listener member
    rfl
  · intro listener member _
    obtain ⟨code, rfl⟩ := own listener member
    rfl
  · rintro listener event rfl foreign
    obtain ⟨code, rfl⟩ := own listener (mem_singleton_self _)
    cases foreign
  · rintro e target dependencies onFailure rfl
    exact mem_flatMap.mpr ⟨_, mem_cons_self .., mem_cons_self ..⟩

/-- Every step of a run keeps the machine sound, within a scope that admits what it may bring up. -/
theorem later_within (admits : machine.Admits next scope) (step : Next machine next) :
    next.Later machine.engine scope := by
  have changed {e : ExecutableRef} {change : Executable → Executable} (turn : machine.clientTurn)
      (stays : (change (machine.engine.executable e)).host = (machine.engine.executable e).host)
      (works : (change (machine.engine.executable e)).work = (machine.engine.executable e).work)
      (entries : (change (machine.engine.executable e)).subscriptions.Sound machine.engine)
      (held : 0 < (change (machine.engine.executable e)).handles → scope.bears e) :
      (machine.update (·.modifyExecutable e change)).Later machine.engine scope :=
    sound.later_update turn (.modifyExecutable _ works stays)
      (sound.store.modifyExecutable _ stays works entries held)
  cases step with
  | engine busy => exact sound.later_step admits
  | accept called =>
    have fits := sound.control
    rw [called] at fits
    exact ⟨.refl _, sound.toIntact, fits⟩
  | advance turn elapsed => exact sound.later_update_of_same turn rfl rfl rfl
  | openHost turn settings observer =>
    show (machine.update (·.addHost settings observer)).Later machine.engine scope
    exact sound.later_update turn (.of_same rfl rfl (by simp [Engine.addHost]))
      (sound.store.addHost settings observer)
  | build turn opened alive success => exact sound.later_build admits turn opened alive success
  | retain turn alive =>
    exact changed turn rfl rfl (sound.store.entries _) fun _ => (sound.has_of_isAlive alive).borne
  | release turn held =>
    exact changed turn rfl rfl (sound.store.entries _) fun _ => sound.store.held _ held
  | subscribe turn alive code status once =>
    exact changed turn rfl rfl
      ((sound.store.entries _).insert (fun watcher => by cases watcher) trivial)
      (sound.store.held _)
  | @unsubscribe turn e alive code status =>
    exact changed turn rfl rfl ((sound.store.entries e).remove (.client code) status)
      (sound.store.held e)
  | @beginWait turn e alive =>
    simp only [beginWait]
    split
    · show (machine.update (·.addWait _)).Later machine.engine scope
      exact sound.later_update_of_same turn rfl rfl rfl
    · have waited : (machine.engine.addWait ⟨e, none⟩).Sound scope :=
        sound.store.of_same rfl rfl rfl
      have grown : machine.engine.Extends (machine.engine.addWait ⟨e, none⟩) :=
        .of_same rfl rfl (Nat.le_refl _)
      show (machine.update fun engine => (engine.addWait ⟨e, none⟩).listenReady e _).Later
        machine.engine scope
      refine sound.later_update turn (grown.trans (.listenReady ..))
        (waited.listenReady ((sound.has_of_isAlive alive).mono grown) (fun listener member => ?_)
          fun immediate => ?_)
      · simp only [Option.toList_some, mem_cons, not_mem_nil, or_false] at member
        rcases member with rfl | rfl <;> rfl
      · -- This is where a wait issues a call.
        rename_i unfailed
        rw [Bool.not_false, Bool.and_true] at immediate
        refine admits.issued _ _ (.wait turn ?_ immediate)
        simp only [beginWait, unfailed, if_false, Machine.update, Bool.false_eq_true]
        exact Engine.waits_listenReady _ _ _
  | openSession turn future opened =>
    show (machine.update (·.addSession _ future)).Later machine.engine scope
    exact sound.later_update_of_same turn rfl rfl rfl
  | closeSession turn idle =>
    exact sound.later_update turn (.endSession ..) (sound.store.endSession _)
  | call turn permitted => exact sound.later_call turn permitted
  | finish turn top reply =>
    have popped : machine.finish reply = Machine.resume { machine with stack := machine.stack.tail }
      (.replied reply) := rfl
    rw [popped, top]
    exact ((sound.based_tail top).resume _).toLater
  | panic turn quiet => exact ⟨.refl _, sound.toIntact, quiet⟩

end

/-- Every step keeps machines sound. -/
theorem later_next (sound : machine.Sound) (step : Next machine next) : next.Later machine.engine :=
  sound.later_within (machine.admits_all next) step

/-- Every run keeps machines sound. -/
theorem later_reaches {before after : Machine} (sound : before.Sound)
    (reached : Reaches before after) : after.Later before.engine := by
  induction reached with
  | refl => exact ⟨.refl _, sound⟩
  | step _ step ih =>
    have next := ih.sound.later_next step
    exact ⟨ih.grown.trans next.grown, next.sound⟩

end Sound

/-- The empty machine is sound. -/
theorem sound_empty (scope : Scope := .all) : ({} : Machine).Sound scope :=
  ⟨⟨Engine.sound_empty scope, fun _ member => (by cases member), trivial, .nil⟩,
    fun _ member => (by cases member)⟩

/-- So is every machine that can be reached. -/
theorem Reachable.sound (reachable : machine.Reachable) : machine.Sound :=
  (sound_empty.later_reaches reachable).sound

end Machine

end Readiness
