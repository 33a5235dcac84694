import Readiness.Proofs.Engine.Record
import Readiness.Proofs.Machine.Preservation
import Readiness.Proofs.Subscription.Group

/-! What one step of a run does to the store.

Time passes, hosts are opened, executables are built, begin their work, move, are listened to and
are destroyed, waits begin and end, and calls of listeners end. Whatever else a step does only stirs
the store: batches, gates, sessions, runs and handles come and go, and that is noted in the journal.
-/

namespace Readiness

open List

/-- The wait that the call of a listener ends, and how. -/
def Listener.verdict? (event : Event) : Listener → Option (WaitRef × Settlement)
  | .waitReady w => some (w, .ready)
  | .waitFailed w => some (w, .failed event.status)
  | .client _ | .countdown _ _ | .dependencyFailed _ => none

/-- The request that a wait makes. -/
def waitRequest (w : WaitRef) : ReadyRequest :=
  { success := .waitReady w, failure := some (.waitFailed w), once := true }

/-- How the call of a listener has ended, if it has. -/
def Control.ending? : Control → Option (Option ListenerFault)
  | .resume (.replied (.failed reason)) => some (some (.failed reason))
  | .resume _ => some none
  -- A guard does not hold what panics once more when it is dropped.
  | .unwind payload =>
    if payload.onDrop? = none then some (some (.panicked payload.report)) else none
  | .perform _ | .called | .returned _ => none

/-- What the observer of a host is told of the end of a call. -/
def Event.report (event : Event) (h : HostRef) (fault : Option ListenerFault) : List Occurrence :=
  (fault.map fun why => .observed h (.listenerFailed event.source event.status why)).toList

/-- An executable without its runs and its handles. -/
def Executable.matter (executable : Executable) : Executable :=
  { executable with runs := 0, handles := 0 }

/-- A host without the batches that wait with it and what it keeps for sessions. -/
def Host.books (host : Host) : Host :=
  { host with queue := [], draining := false, deferred := [], permit := false, waiters := [] }

/-- Whether nothing comes with an occurrence but that batches, gates or runs go on. -/
def Occurrence.isMinor : Occurrence → Bool
  | .registered _ | .deregistered _ | .transitioned _ _ _ | .observed _ _
  | .returned _ _ _ _ => false
  | _ => true

/-- A request registers no listeners but its own. -/
theorem Executable.enlisted_requested (executable : Executable) {request : ReadyRequest}
    {plain : Listener → Prop} (fits : ∀ link ∈ executable.links request, plain link.1) :
    executable.subscriptions.Enlisted plain (executable.requested request) := by
  unfold Executable.requested
  split
  · exact Subscriptions.Enlisted.refl.foldl_add fits _
  · split
    · exact .refl
    · exact .addGroup .refl fits

namespace Engine

/-- A call that ends is counted, entered in the journal and reported if it ended badly. -/
def settle (engine : Engine) (h : HostRef) (serial : Nat) (event : Event) (delivery : Delivery)
    (fault : Option ListenerFault) : Engine :=
  (event.report h fault).foldl note
    ((engine.modifyTally h (·.countInvocation fault.isNone)).note
      (.returned serial event delivery fault))

/-- Only batches, gates, sessions, runs and handles have changed, and what the journal tells of
them. -/
structure Stirs (before after : Engine) : Prop where
  clock : after.clock = before.clock
  size : after.executables.length = before.executables.length
  hosts : after.hosts.length = before.hosts.length
  matter : ∀ e, (after.executable e).matter = (before.executable e).matter
  books : ∀ h, (after.host h).books = (before.host h).books
  waits : after.waits = before.waits
  journal : ∃ news, (∀ occurrence ∈ news, occurrence.isMinor = true) ∧
    after.journal.toList = before.journal.toList ++ news

namespace Stirs

variable {before mid after engine : Engine} {h : HostRef}

/-- Of the store only these parts matter. -/
theorem of_same (clock : after.clock = before.clock)
    (executables : after.executables = before.executables) (hosts : after.hosts = before.hosts)
    (waits : after.waits = before.waits) (journal : after.journal = before.journal) :
    before.Stirs after where
  clock := clock
  size := congrArg List.length executables
  hosts := congrArg List.length hosts
  matter := fun e => by rw [executable, executable, executables]
  books := fun h => by rw [host, host, hosts]
  waits := waits
  journal := ⟨[], forall_mem_nil _, by rw [journal, append_nil]⟩

/-- Nothing need happen. -/
theorem refl (engine : Engine) : engine.Stirs engine :=
  .of_same rfl rfl rfl rfl rfl

/-- Small changes add up to a small one. -/
theorem trans (early : before.Stirs mid) (late : mid.Stirs after) : before.Stirs after where
  clock := late.clock.trans early.clock
  size := late.size.trans early.size
  hosts := late.hosts.trans early.hosts
  matter := fun e => (late.matter e).trans (early.matter e)
  books := fun h => (late.books h).trans (early.books h)
  waits := late.waits.trans early.waits
  journal := by
    obtain ⟨news, minor, grown⟩ := early.journal
    obtain ⟨more, lesser, longer⟩ := late.journal
    refine ⟨news ++ more, fun occurrence member => ?_, by rw [longer, grown, append_assoc]⟩
    exact (mem_append.mp member).elim (minor occurrence) (lesser occurrence)

section

variable (engine : Engine)

/-- Something minor may be noted. -/
theorem note {occurrence : Occurrence} (minor : occurrence.isMinor = true) :
    engine.Stirs (engine.note occurrence) := by
  refine ⟨rfl, rfl, rfl, fun _ => rfl, fun _ => rfl, rfl, [occurrence], fun other member => ?_,
    Array.toList_push⟩
  rw [mem_singleton.mp member]
  exact minor

/-- A host may change outside its books. -/
theorem modifyHost (h : HostRef) {change : Host → Host}
    (same : (change (engine.host h)).books = (engine.host h).books) :
    engine.Stirs (engine.modifyHost h change) :=
  ⟨rfl, rfl, length_modify .., fun _ => rfl, read_modifyHost_of_same Host.books same, rfl, [],
    forall_mem_nil _, (append_nil _).symm⟩

/-- An executable may change in what does not matter. -/
theorem modifyExecutable (e : ExecutableRef) {change : Executable → Executable}
    (same : (change (engine.executable e)).matter = (engine.executable e).matter) :
    engine.Stirs (engine.modifyExecutable e change) :=
  ⟨rfl, length_modify .., rfl, read_modifyExecutable_of_same Executable.matter same,
    fun _ => rfl, rfl, [], forall_mem_nil _, (append_nil _).symm⟩

/-- Sessions may be woken. -/
theorem wake (h : HostRef) : engine.Stirs (engine.wake h) := by
  unfold Engine.wake
  split
  · exact (modifyHost engine h rfl).trans (.of_same rfl rfl rfl rfl rfl)
  · exact modifyHost engine h rfl

/-- A session may end. -/
theorem endSession (k : SessionRef) : engine.Stirs (engine.endSession k) := by
  have closed : engine.Stirs (engine.modifySession k ({ · with phase := .finished })) :=
    .of_same rfl rfl rfl rfl rfl
  simp only [Engine.endSession]
  split
  · exact closed.trans (modifyHost _ _ rfl)
  · exact closed.trans (wake _ _)
  · exact closed

/-- A batch may be queued. -/
theorem enqueue (h : HostRef) (batch : Batch) : engine.Stirs (engine.enqueue h batch) :=
  (modifyHost engine h rfl).trans (note _ rfl)

/-- A batch may be put off. -/
theorem defer (h : HostRef) (batch : Batch) : engine.Stirs (engine.defer h batch) :=
  ((modifyHost engine h rfl).trans (note _ rfl)).trans (wake _ h)

end

end Stirs

/-- A request for readiness registers its listeners, once the call is put off that it grants at
once. -/
theorem exists_listenReady (engine : Engine) (e : ExecutableRef) (request : ReadyRequest) :
    ∃ told change, engine.Stirs told ∧
      engine.listenReady e request = told.modifySubscriptions e change ∧
      change (engine.executable e).subscriptions = (engine.executable e).requested request := by
  simp only [listenReady]
  refine ⟨_, _, ?_, rfl, rfl⟩
  split
  · have spent : engine.Stirs engine.spendBatch := .of_same rfl rfl rfl rfl rfl
    exact spent.trans (.defer _ _ _)
  · exact .refl engine

/-- The store is only stirred, but for listeners of one executable that end no wait. -/
def Enlists (before after : Engine) : Prop :=
  before.Stirs after ∨ ∃ told d change, before.Stirs told ∧ d < before.executables.length ∧
    (before.executable d).subscriptions.Enlisted (fun listener => listener.wait? = none)
      (change (before.executable d).subscriptions) ∧ after = told.modifySubscriptions d change

/-- Listeners may be enlisted after that. -/
theorem Stirs.enlists {before mid after : Engine} (stirs : before.Stirs mid)
    (enlists : mid.Enlists after) : before.Enlists after := by
  rcases enlists with more | ⟨told, d, change, more, built, enlisted, rfl⟩
  · exact .inl (stirs.trans more)
  · have same : (mid.executable d).subscriptions = (before.executable d).subscriptions :=
      congrArg (·.subscriptions) (stirs.matter d)
    exact .inr ⟨told, d, change, stirs.trans more, stirs.size ▸ built, same ▸ enlisted, rfl⟩

end Engine

namespace Machine

open Engine (Stirs)

/-- What the store can be after one step. -/
inductive Effect (machine : Machine) : Engine → Prop where
  | stir {after : Engine} (stirs : machine.engine.Stirs after) : Effect machine after
  | advance (elapsed : Nat) :
    Effect machine { machine.engine with clock := machine.engine.clock + elapsed }
  | openHost (settings : Settings) (observer : Observer) :
    Effect machine (machine.engine.addHost settings observer)
  | temporary {h : HostRef} {work : Work} (handles : Nat) (opened : h < machine.engine.hosts.length)
    (lawful : work.fault? = none) : Effect machine (machine.engine.addTemporary h work handles)
  | register {h : HostRef} {id : String} {work : Work} (opened : h < machine.engine.hosts.length)
    (lawful : work.fault? = none) (vacant : machine.resolve? h id = none) :
    Effect machine (machine.engine.addRegistered h id work)
  | execute {e : ExecutableRef} {refresh : Refresh}
    (asked : machine.control = .perform (.execute e refresh))
    (built : e < machine.engine.executables.length)
    (runs : (refresh = .ifNotReady && (machine.engine.executable e).isReady) = false) :
    Effect machine
      (((machine.engine.modifyExecutable e (·.begin machine.engine.clock)).modifyTally
        (machine.engine.executable e).host Tally.countExecution).note
          (.observed (machine.engine.executable e).host
            (.executed e (machine.engine.executable e).status)))
  | move {e : ExecutableRef} {status : Status}
    (asked : machine.control = .perform (.setStatus e status))
    (built : e < machine.engine.executables.length)
    (moves : (machine.engine.executable e).moves status = true) :
    Effect machine
      ((machine.engine.transition e status).note (.observed (machine.engine.executable e).host
        (.transitioned e (machine.engine.executable e).status status)))
  | destroy {e : ExecutableRef} (asked : machine.control = .perform (.destroy e))
    (built : e < machine.engine.executables.length)
    (there : (machine.engine.executable e).destroyed = false) :
    Effect machine
      ((machine.engine.destroy e).note
        (.observed (machine.engine.executable e).host (.destroyed e)))
  | enlist {told : Engine} {d : ExecutableRef} {change : Subscriptions → Subscriptions}
    (stirs : machine.engine.Stirs told) (built : d < machine.engine.executables.length)
    (more : (machine.engine.executable d).subscriptions.Enlisted
      (fun listener => listener.wait? = none)
      (change (machine.engine.executable d).subscriptions)) :
    Effect machine (told.modifySubscriptions d change)
  | remove {d : ExecutableRef} (built : d < machine.engine.executables.length) (code : CodeRef)
    (status : Option Status) :
    Effect machine (machine.engine.modifySubscriptions d (·.remove (.client code) status))
  | settle {listener : Listener} {event : Event} {w : WaitRef} {settlement : Settlement}
    (asked : machine.control = .perform (.invoke listener event))
    (verdict : listener.verdict? event = some (w, settlement)) :
    Effect machine (machine.engine.settleWait w settlement)
  | waitOver {e : ExecutableRef} (turn : machine.clientTurn = true)
    (alive : machine.isAlive e = true) (failed : (machine.engine.executable e).hasFailed = true) :
    Effect machine
      (machine.engine.addWait ⟨e, some (.failed (machine.engine.executable e).status)⟩)
  | wait {e : ExecutableRef} (turn : machine.clientTurn = true) (alive : machine.isAlive e = true)
    (unfailed : (machine.engine.executable e).hasFailed = false) :
    Effect machine ((machine.engine.addWait ⟨e, none⟩).listenReady e
      (waitRequest machine.engine.waits.length))
  | ended {serial : Nat} {event : Event} {delivery : Delivery} {rest : List Frame}
    {fault : Option ListenerFault} (stands : machine.stack = .guard serial event delivery :: rest)
    (built : event.source < machine.engine.executables.length)
    (ends : machine.control.ending? = some fault) :
    Effect machine (machine.engine.settle (machine.engine.executable event.source).host serial event
      delivery fault)

variable {machine next : Machine} {onFailure : Option Listener} {frame : Frame} {rest : List Frame}

section

variable (machine : Machine)

/-- That the observer is told is noted. -/
theorem engine_notify (h : HostRef) (notice : Notice) :
    (machine.notify h notice).engine = machine.engine.note (.observed h notice) := by
  unfold notify
  split <;> rfl

/-- The call of a listener is settled. -/
theorem engine_listenerReturned (serial : Nat) (event : Event) (delivery : Delivery)
    (fault : Option ListenerFault) :
    (machine.listenerReturned serial event delivery fault).engine =
      machine.engine.settle (machine.engine.executable event.source).host serial event delivery
        fault := by
  cases fault with
  | none => rfl
  | some why => exact engine_notify _ _ _

/-- Polling a future changes nothing in the store. -/
theorem engine_askFuture (k : SessionRef) : (machine.askFuture k).engine = machine.engine := by
  simp only [askFuture]
  split <;> rfl

/-- Starting work changes nothing in the store. -/
theorem engine_startWork (e : ExecutableRef) : (machine.startWork e).engine = machine.engine := by
  simp only [startWork]
  split <;> rfl

/-- The delivery loop only stirs the store. -/
theorem stirs_dispatch (h : HostRef) (batch : Batch) :
    machine.engine.Stirs (machine.dispatch h batch).engine := by
  unfold dispatch
  split
  · exact .enqueue machine.engine h batch
  · exact (Stirs.enqueue machine.engine h batch).trans (.modifyHost _ h rfl)

/-- Posting a batch only stirs the store. -/
theorem stirs_fire (e : ExecutableRef) (transition : Transition) (entries : List Entry) :
    machine.engine.Stirs (machine.fire e transition entries).engine := by
  have spent : machine.engine.Stirs machine.engine.spendBatch := .of_same rfl rfl rfl rfl rfl
  simp only [fire]
  split
  · exact spent.trans (.defer _ _ _)
  · exact spent.trans (stirs_dispatch (machine.update Engine.spendBatch) _ _)

/-- The end of a poll only stirs the store. -/
theorem stirs_concludePoll (k : SessionRef) (finished : Bool) :
    machine.engine.Stirs (machine.concludePoll k finished).engine := by
  simp only [concludePoll]
  split
  · exact .endSession machine.engine k
  · split
    · exact .of_same rfl rfl rfl rfl rfl
    · exact .refl _
    · exact .refl _
    · split
      · exact .modifyHost machine.engine _ rfl
      · have parked : machine.engine.Stirs
            (machine.engine.modifySession k ({ · with phase := .parked })) :=
          .of_same rfl rfl rfl rfl rfl
        exact parked.trans (.modifyHost _ _ rfl)

/-- A gate that opens is only noted, and so is one that counts. -/
theorem stirs_openGate (g : GateRef) : machine.engine.Stirs (machine.openGate g).engine :=
  .note machine.engine rfl

/-- Counting only stirs the store. -/
theorem stirs_countGate (g : GateRef) : machine.engine.Stirs (machine.countGate g).1.engine :=
  .of_same rfl rfl rfl rfl rfl

/-- A gate that looks at a dependency enlists listeners. -/
theorem enlists_examine (g : GateRef) (position : Nat) {d : ExecutableRef}
    (rest : List ExecutableRef) (built : d < machine.engine.executables.length)
    (plain : ∀ listener ∈ onFailure, listener.wait? = none) :
    machine.engine.Enlists (machine.examine g position d rest onFailure).engine := by
  have seen : machine.engine.Stirs (machine.engine.note
      (.examined g position d (machine.engine.executable d).isReady)) := .note _ rfl
  simp only [examine]
  split
  · have counted := seen.trans (stirs_countGate (machine.note _) g)
    refine .inl ?_
    split
    · refine .trans ?_ (stirs_openGate _ g)
      exact counted
    · exact counted
  · generalize listed : (Listener.countdown g position,
      (machine.engine.executable d).readyStatus) :: _ = links
    refine .inr ⟨_, d, fun entries =>
      links.foldl (fun grown link => grown.add link.1 (some link.2) true) entries, seen, built,
      Subscriptions.Enlisted.refl.foldl_add (fun link member => ?_) true, rfl⟩
    -- The gate's own listener counts down, and the other one was asked for as one that ends no
    -- wait.
    subst listed
    rcases mem_cons.mp member with rfl | failure
    · rfl
    · obtain ⟨listener, among, within⟩ := mem_flatMap.mp failure
      obtain ⟨status, _, rfl⟩ := mem_map.mp within
      exact plain listener (Option.mem_toList.mp among)

/-- A gate that goes on enlists listeners. -/
theorem enlists_arm (g : GateRef) (position : Nat) {rest : List ExecutableRef}
    (built : ∀ d ∈ rest, d < machine.engine.executables.length)
    (plain : ∀ listener ∈ onFailure, listener.wait? = none) :
    machine.engine.Enlists (machine.arm g position rest onFailure).engine := by
  unfold arm
  split
  · exact .inl (.refl _)
  · split
    · exact enlists_examine _ _ _ _ (built _ (mem_cons_self ..)) plain
    · exact .inl (.refl _)

end

namespace Effect

/-- The store may stay as it is. -/
theorem of_same (same : next.engine = machine.engine) : machine.Effect next.engine := by
  rw [same]
  exact .stir (.refl _)

/-- Listeners may be enlisted. -/
theorem of_enlists {after : Engine} (enlists : machine.engine.Enlists after) :
    machine.Effect after := by
  rcases enlists with stirs | ⟨told, d, change, stirs, built, more, rfl⟩
  · exact .stir stirs
  · exact .enlist stirs built more

/-- A listener of the engine may settle a wait, or count. -/
theorem callListener {listener : Listener} {event : Event}
    (asked : machine.control = .perform (.invoke listener event)) :
    machine.Effect (machine.callListener listener event).engine := by
  cases listener with
  | client code => exact .of_same rfl
  | countdown g position =>
    have counted := machine.stirs_countGate g
    simp only [Machine.callListener]
    split
    · split
      · exact .stir counted
      · split
        · exact .stir (counted.trans (.note _ rfl))
        · exact .stir (counted.trans (stirs_openGate _ g))
    · exact .of_same rfl
  | dependencyFailed composite =>
    simp only [Machine.callListener]
    split
    · exact .stir (.note machine.engine rfl)
    · exact .of_same rfl
  | waitReady w | waitFailed w => exact .settle asked rfl

end Effect

/-- What beginning a command does. -/
theorem Sound.effect_start (sound : machine.Sound) {command : Command}
    (turn : machine.control = .perform command) :
    machine.Effect (machine.start command).engine := by
  have fits := sound.control
  rw [turn] at fits
  have known := fits.1
  cases command with
  | execute e refresh =>
    simp only [start]
    split
    · exact .of_same rfl
    · rename_i runs
      rw [engine_notify]
      exact .execute turn (known.executables e (mem_singleton_self e)) (by simpa using runs)
  | setStatus e status =>
    simp only [start]
    split
    · rename_i moves
      rw [engine_notify]
      exact .move turn (known.executables e (mem_singleton_self e)) moves
    · exact .of_same rfl
  | report e status =>
    simp only [start]
    split <;> exact .of_same rfl
  | fail e reason =>
    simp only [start]
    split
    · exact .stir (.note machine.engine rfl)
    · exact .of_same rfl
  | synchronise e target dependencies onFailure =>
    have made (added : Gate) : machine.engine.Stirs (machine.engine.addGate added) :=
      .of_same rfl rfl rfl rfl rfl
    simp only [start]
    split
    · refine .stir (.trans ?_ (stirs_openGate _ _))
      exact made _
    · refine .of_enlists ((made _).enlists (enlists_arm (machine.update (·.addGate _)) _ _ ?_ ?_))
      · exact fun d member => known.executables d (mem_cons_of_mem _ member)
      · exact fun listener member =>
          known.plain listener (Option.mem_toList.mpr member) fun _ same => by cases same
  | onReady e request =>
    have fits : ∀ link ∈ (machine.engine.executable e).links request, link.1.wait? = none := by
      intro link member
      rcases mem_cons.mp member with rfl | failure
      · exact known.plain _ (mem_cons_self ..) fun _ same => by cases same
      · obtain ⟨listener, among, within⟩ := mem_flatMap.mp failure
        obtain ⟨status, _, rfl⟩ := mem_map.mp within
        exact known.plain listener (mem_cons_of_mem _ among) fun _ same => by cases same
    have listening : machine.Effect (machine.engine.listenReady e request) := by
      obtain ⟨told, change, stirs, same, grown⟩ := machine.engine.exists_listenReady e request
      rw [same]
      exact .enlist stirs (known.executables e (mem_singleton_self e))
        (grown ▸ Executable.enlisted_requested _ fits)
    simp only [start]
    split <;> exact listening
  | invoke listener event => exact .callListener turn
  | destroy e =>
    simp only [start]
    split
    · exact .of_same rfl
    · rename_i there
      rw [engine_notify]
      exact .destroy turn (known.executables e (mem_singleton_self e)) (by simpa using there)
  | buildConstant h => exact .temporary 0 (known.opened h rfl) rfl
  | pump h => exact .of_same rfl
  | poll k =>
    simp only [start]
    split
    · exact .of_same rfl
    · exact .of_same (engine_askFuture _ k)
    · exact .of_same (engine_askFuture _ k)
    · exact .of_same rfl

/-- What passing an answer to the frame on top does. -/
theorem Sound.effect_receive (sound : machine.Sound) {answer : Answer}
    (turn : machine.control = .resume answer) (stands : machine.stack = frame :: rest) :
    machine.Effect (receive { machine with stack := rest } answer frame).engine := by
  have known : frame.Known machine.engine :=
    sound.frames frame (by rw [stands]; exact mem_cons_self ..)
  cases frame with
  | client callback | hold held | conclude e transition | relay e | callBack e code | gather e =>
    exact .of_same rfl
  | begin e status =>
    have begun : machine.engine.Stirs (machine.engine.note (.started e status)) := .note _ rfl
    simp only [receive, engine_startWork]
    exact .stir (begun.trans (.modifyExecutable _ e rfl))
  | moves e todo => cases todo <;> exact .of_same rfl
  | inspect e =>
    simp only [receive]
    split
    · exact .of_same rfl
    · exact .stir (.note machine.engine rfl)
  | arm g position todo onFailure =>
    exact .of_enlists (enlists_arm { machine with stack := rest } g position known.executables
      known.plain)
  | examine g position dependency todo onFailure =>
    exact .of_enlists (enlists_examine { machine with stack := rest } g position todo
      (known.executables dependency (mem_cons_self ..)) known.plain)
  | announce e transition entries =>
    simp only [receive]
    split
    · exact .of_same rfl
    · exact .stir (stirs_fire (push { machine with stack := rest } _) _ _ _)
  | drain h =>
    simp only [receive]
    split
    · exact .stir (.modifyHost machine.engine h rfl)
    · exact .stir ((Stirs.modifyHost machine.engine h rfl).trans (.note _ rfl))
  | deliver batch =>
    simp only [receive]
    split
    · exact .of_same rfl
    · split
      · exact .of_same rfl
      · exact .stir (.note machine.engine rfl)
  | guard serial event delivery =>
    have built := known.executables event.source (mem_singleton_self _)
    simp only [receive]
    split
    · rw [engine_listenerReturned]
      exact .ended stands built (by rw [turn]; rfl)
    · rw [engine_listenerReturned]
      refine .ended stands built ?_
      rw [turn, Control.ending?.eq_def]
      split <;> simp_all
  | farewell e => exact .stir (.note machine.engine rfl)
  | hand e => exact .stir (.modifyExecutable machine.engine e rfl)
  | pump h taken =>
    simp only [receive]
    split
    · exact .of_same rfl
    · refine .stir (.trans ?_ (stirs_dispatch _ h _))
      exact .modifyHost machine.engine h rfl
  | pumped k => exact .of_same (engine_askFuture _ k)
  | asked k => exact .stir (stirs_concludePoll { machine with stack := rest } k _)

/-- What taking a panic past the frame on top does. -/
theorem Sound.effect_unwind (sound : machine.Sound) {payload : Payload}
    (turn : machine.control = .unwind payload) (stands : machine.stack = frame :: rest) :
    machine.Effect (unwind { machine with stack := rest } payload frame).engine := by
  cases frame with
  | drain h => exact .stir (.modifyHost machine.engine h rfl)
  | pumped k | asked k => exact .stir (.endSession machine.engine k)
  | guard serial event delivery =>
    have known := sound.frames _ (by rw [stands]; exact mem_cons_self ..)
    rw [unwind_guard (sound.quiet turn), engine_listenerReturned]
    exact .ended stands (known.executables event.source (mem_singleton_self _))
      (by rw [turn]; exact if_pos (sound.quiet turn))
  | _ => exact .of_same rfl

/-- A build adds an executable. -/
theorem effect_build {h : HostRef} {id : Option String} {work : Work} {built : Machine}
    {e : ExecutableRef} (opened : h < machine.engine.hosts.length)
    (success : machine.build h id work = (built, .ok e)) : machine.Effect built.engine := by
  obtain ⟨lawful, rfl | ⟨name, vacant, rfl⟩⟩ := build_cases success
  · exact .temporary 1 opened lawful
  · exact .register opened lawful vacant

/-- What a step of a run does to the store. -/
theorem Sound.effect_next (sound : machine.Sound) (step : Next machine next) :
    machine.Effect next.engine := by
  cases step with
  | engine busy =>
    unfold step
    split
    · exact sound.effect_start ‹_›
    · split
      · exact .of_same rfl
      · exact sound.effect_receive ‹_› ‹_›
    · split
      · exact .of_same rfl
      · exact sound.effect_unwind ‹_› ‹_›
    · exact .of_same rfl
    · exact .of_same rfl
  | accept | call | finish | panic => exact .of_same rfl
  | advance turn elapsed => exact .advance elapsed
  | openHost turn settings observer => exact .openHost settings observer
  | build turn opened alive success => exact effect_build opened success
  | retain turn alive | release turn held => exact .stir (.modifyExecutable machine.engine _ rfl)
  | @subscribe turn e alive code status once =>
    show machine.Effect (machine.engine.modifySubscriptions e (·.add (.client code) status once))
    exact .enlist (.refl _) (sound.lt_of_isAlive alive)
      (.add .refl (show Listener.wait? (.client code) = none from rfl) status once)
  | unsubscribe turn alive code status => exact .remove (sound.lt_of_isAlive alive) code status
  | @beginWait turn e alive =>
    simp only [beginWait]
    split
    · exact .waitOver turn alive ‹_›
    · rename_i unfailed
      exact .wait turn alive (by simpa using unfailed)
  | openSession => exact .stir (.of_same rfl rfl rfl rfl rfl)
  | closeSession turn idle => exact .stir (.endSession machine.engine _)

end Machine

end Readiness
