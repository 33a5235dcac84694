import Readiness.Proofs.Delivery.Pump
import Readiness.Proofs.Session.Attended

/-! Every step of a run is a step of the lobby.

A poll puts one frame on the stack, and on that frame there is nothing but the delivery of deferred
batches or the future. So the future is asked only after no deferred batch was left.
-/

namespace Readiness

open List Engine

variable {command : Command} {e : ExecutableRef}

/-- The poll that a frame belongs to. -/
def Frame.poll? : Frame → Option Poll
  | .pumped k => some ⟨k, .delivering⟩
  | .asked k => some ⟨k, .asking⟩
  | _ => none

/-- The poll that has been asked for, if it is the engine's turn to begin it. -/
def Control.poll? : Control → Option Poll
  | .perform (.poll k) => some ⟨k, .begun⟩
  | _ => none

/-- What the frame of a poll bears: the delivery of deferred batches, or the future. -/
def Frame.Bears (engine : Engine) (above below : Frame) : Prop :=
  match below with
  | .pumped k =>
    k < engine.sessions.length ∧ ∃ taken, above = .pump (engine.session k).host taken
  | .asked k =>
    k < engine.sessions.length ∧
      ∃ code, (engine.session k).future = .client code ∧ above = .client (.future code)
  | _ => True

/-- Whose turn it is while the frame of a poll is on top. -/
def Frame.Awaits (engine : Engine) (control : Control) (top : Frame) : Prop :=
  match top with
  | .pumped k =>
    k < engine.sessions.length ∧
      (control = .perform (.pump (engine.session k).host) ∨
        (∃ answer, control = .resume answer) ∧
          (engine.host (engine.session k).host).deferred = [] ∨
        ∃ payload, control = .unwind payload)
  | .asked k =>
    k < engine.sessions.length ∧
      ((∃ reply, control = .resume (.replied reply)) ∨ ∃ payload, control = .unwind payload)
  | _ => True

namespace Machine

/-- The polls that the frames on the stack belong to, innermost first. -/
def seats (stack : List Frame) : List Poll :=
  stack.filterMap Frame.poll?

/-- The polls that have not returned, innermost first. -/
def polls (machine : Machine) : List Poll :=
  machine.control.poll?.toList ++ seats machine.stack

/-- What the machine shows of the lobby. -/
def lobby (machine : Machine) : Lobby :=
  machine.engine.lobby machine.polls

/-- What the machine shows of the lobby, whoever has the turn. -/
def foyer (machine : Machine) : Lobby :=
  machine.engine.lobby (seats machine.stack)

/-- Polls stand on the stack as they should. -/
structure Seated (machine : Machine) : Prop where
  chain : machine.stack.IsChain (Frame.Bears machine.engine)
  top : ∀ frame ∈ machine.stack.head?, frame.Awaits machine.engine machine.control

/-- A step keeps polls in order, and is a step of the lobby. -/
structure Ushers (machine next : Machine) : Prop where
  seated : next.Seated
  step : machine.lobby.Step next.lobby

/-- No frame of a poll is on top. -/
def Vacant (stack : List Frame) : Prop :=
  ∀ frame ∈ stack.head?, frame.poll? = none

/-- Sessions stay, with their hosts and their futures. -/
def Retains (before after : Engine) : Prop :=
  ∀ k < before.sessions.length, k < after.sessions.length ∧
    (after.session k).host = (before.session k).host ∧
      (after.session k).future = (before.session k).future

end Machine

namespace Frame

variable {engine after : Engine} {above frame : Frame} {control : Control}

/-- Whoever polls nothing may stand anywhere. -/
theorem Bears.of_plain (plain : frame.poll? = none) : above.Bears engine frame := by
  cases frame with
  | pumped | asked => cases plain
  | _ => trivial

/-- Whoever polls nothing awaits nothing. -/
theorem Awaits.of_plain (plain : frame.poll? = none) : frame.Awaits engine control := by
  cases frame with
  | pumped | asked => cases plain
  | _ => trivial

/-- Sessions that are kept can be polled still. -/
theorem Bears.mono (retains : Machine.Retains engine after) (bears : above.Bears engine frame) :
    above.Bears after frame := by
  cases frame with
  | pumped k =>
    obtain ⟨opened, taken, same⟩ := bears
    obtain ⟨still, home, _⟩ := retains k opened
    exact ⟨still, taken, by rw [home]; exact same⟩
  | asked k =>
    obtain ⟨opened, code, future, same⟩ := bears
    obtain ⟨still, _, kept⟩ := retains k opened
    exact ⟨still, code, kept.trans future, same⟩
  | _ => trivial

end Frame

/-- Receiving batches changes no poll. -/
theorem Lobby.Receives.polls_eq {before after : Lobby} (receives : before.Receives after) :
    after.polls = before.polls := by
  rcases receives with rfl | ⟨h, batch, _, rfl⟩
  · rfl
  · unfold defer wake
    split <;> rfl

namespace Machine

variable {machine next : Machine} {base pushed : List Frame} {frame : Frame} {h : HostRef}
  {k : SessionRef}

/-- Steps keep the hosts of sessions. -/
theorem retains_of_step (step : machine.lobby.Step next.lobby) :
    Retains machine.engine next.engine :=
  fun _ opened => step.origin opened

/-- Unless a future answers, the stack shows all polls. -/
theorem lobby_eq_foyer (other : machine.control.poll? = none) : machine.lobby = machine.foyer := by
  rw [lobby, polls, other]
  rfl

/-- Frames that belong to no poll may be put on any others but those that wait for something. -/
theorem chain_append {engine : Engine} (chain : base.IsChain (Frame.Bears engine))
    (vacant : Vacant base) (plain : ∀ frame ∈ pushed, frame.poll? = none) :
    (pushed ++ base).IsChain (Frame.Bears engine) ∧ Vacant (pushed ++ base) := by
  induction pushed with
  | nil => exact ⟨chain, vacant⟩
  | cons top rest ih =>
    obtain ⟨under, free⟩ := ih fun frame member => plain frame (mem_cons_of_mem _ member)
    refine ⟨isChain_cons.mpr ⟨fun below member => .of_plain (free below member), under⟩, ?_⟩
    intro first member
    cases member
    exact plain top mem_cons_self

/-- Without polls there is nobody to seat. -/
theorem Seated.of_vacant (chain : next.stack.IsChain (Frame.Bears next.engine))
    (vacant : Vacant next.stack) : next.Seated :=
  ⟨chain, fun frame member => .of_plain (vacant frame member)⟩

/-- Polls stand as they should if as many are going on as under frames that wait for nothing. -/
theorem Seated.of_suffix (chain : base.IsChain (Frame.Bears next.engine)) (vacant : Vacant base)
    (under : base <:+ next.stack) (same : next.polls = seats base) : next.Seated := by
  obtain ⟨pushed, stands⟩ := under
  -- None of the frames above belongs to a poll, or else there would be more of them.
  rw [polls, ← stands, seats, filterMap_append, ← append_assoc] at same
  have none_new := (append_eq_nil_iff.mp (append_left_eq_self.mp same)).2
  obtain ⟨whole, free⟩ := chain_append chain vacant (filterMap_eq_nil_iff.mp none_new)
  rw [stands] at whole free
  exact .of_vacant whole free

/-- What is done on top of other frames without beginning or ending a poll keeps polls in order. -/
theorem Ushers.aside (chain : base.IsChain (Frame.Bears machine.engine)) (vacant : Vacant base)
    (under : base <:+ next.stack) (quiet : machine.lobby = machine.engine.lobby (seats base))
    (receives : (machine.engine.lobby (seats base)).Receives next.lobby) : machine.Ushers next := by
  have step : machine.lobby.Step next.lobby := .receive (quiet ▸ receives)
  refine ⟨.of_suffix (chain.imp fun _ _ => ?_) vacant under receives.polls_eq, step⟩
  exact .mono (retains_of_step step)

section Functions

variable (machine)

/-- Telling the observer does not show. -/
theorem lobby_notify (h : HostRef) (notice : Notice) :
    (machine.notify h notice).lobby = machine.foyer := by
  unfold notify
  split <;> rfl

/-- The delivery loop does not show. -/
theorem lobby_dispatch (h : HostRef) (batch : Batch) :
    (machine.dispatch h batch).lobby = machine.foyer := by
  have queued := machine.engine.lobby_enqueue (seats machine.stack) h batch
  unfold dispatch
  split
  · exact queued
  · exact (lobby_modifyHost_of_same _ _ h rfl).trans queued

/-- A transition may leave a batch to be delivered later. -/
theorem receives_fire (opened : (machine.engine.executable e).host < machine.engine.hosts.length)
    (transition : Transition) (entries : List Entry) :
    machine.foyer.Receives (machine.fire e transition entries).lobby := by
  simp only [fire]
  split
  · exact .inr ⟨_, _, opened, lobby_defer machine.engine.spendBatch _ opened _⟩
  · exact .inl (lobby_dispatch (machine.update Engine.spendBatch) _ _)

/-- The end of a call does not show. -/
theorem lobby_listenerReturned (batch : Nat) (event : Event) (delivery : Delivery)
    (fault : Option ListenerFault) :
    (machine.listenerReturned batch event delivery fault).lobby = machine.foyer := by
  simp only [listenerReturned]
  split
  · exact lobby_modifyTally ..
  · exact (lobby_notify ..).trans (lobby_modifyTally ..)

/-- What gates do does not show. -/
theorem lobby_examine (g : GateRef) (position : Nat) (d : ExecutableRef)
    (rest : List ExecutableRef) (onFailure : Option Listener) :
    (machine.examine g position d rest onFailure).lobby = machine.foyer := by
  simp only [examine]
  split
  · split <;> rfl
  · rfl

/-- What gates do does not show. -/
theorem lobby_arm (g : GateRef) (position : Nat) (rest : List ExecutableRef)
    (onFailure : Option Listener) :
    (machine.arm g position rest onFailure).lobby = machine.foyer := by
  unfold arm
  split
  · rfl
  · split
    · exact lobby_examine ..
    · rfl

/-- The call of a listener does not show. -/
theorem lobby_callListener (listener : Listener) (event : Event) :
    (machine.callListener listener event).lobby = machine.foyer := by
  cases listener with
  | client | waitReady | waitFailed => rfl
  | countdown g position =>
    simp only [callListener]
    split
    · split
      · rfl
      · split <;> rfl
    · rfl
  | dependencyFailed composite =>
    simp only [callListener]
    split <;> rfl

/-- Starting work does not show. -/
theorem lobby_startWork (e : ExecutableRef) : (machine.startWork e).lobby = machine.foyer := by
  unfold startWork
  split <;> rfl

end Functions

/-- A command that has nothing to do with sessions shows at most in that a batch is put off. -/
theorem Sound.receives_start (sound : machine.Sound) (turn : machine.control = .perform command)
    (free : ∀ h, command ≠ .pump h) (unpolled : ∀ k, command ≠ .poll k) :
    machine.foyer.Receives (machine.start command).lobby := by
  have fits := sound.control
  rw [turn] at fits
  have known := fits.1
  cases command with
  | execute e refresh =>
    refine .inl ?_
    simp only [start]
    split
    · rfl
    · rw [lobby_notify]
      exact lobby_modifyTally ..
  | setStatus e status =>
    refine .inl ?_
    simp only [start]
    split
    · rw [lobby_notify]
      exact lobby_transition ..
    · rfl
  | report e status =>
    refine .inl ?_
    simp only [start]
    split <;> rfl
  | fail e reason =>
    refine .inl ?_
    simp only [start]
    split <;> rfl
  | synchronise e target dependencies onFailure =>
    refine .inl ?_
    simp only [start]
    split
    · rfl
    · exact lobby_arm (machine.update (·.addGate _)) ..
  | onReady e request =>
    -- Only a request for readiness can put off a batch here.
    have built := known.executables e (mem_singleton_self e)
    have receives := machine.engine.receives_listenReady (seats machine.stack)
      (sound.store.hosted e built) request
    simp only [start]
    split <;> exact receives
  | invoke listener event => exact .inl (lobby_callListener ..)
  | destroy e =>
    refine .inl ?_
    simp only [start]
    split
    · rfl
    · rw [lobby_notify]
      exact lobby_destroy ..
  | buildConstant h => exact .inl (lobby_addTemporary ..)
  | pump h => exact absurd rfl (free h)
  | poll k => exact absurd rfl (unpolled k)

/-- An answer to a frame that has nothing to do with sessions shows at most in that a batch is put
off. -/
theorem Sound.receives_receive (sound : machine.Sound) (stands : machine.stack = frame :: base)
    (answer : Answer) (plain : frame.poll? = none) (free : ∀ h taken, frame ≠ .pump h taken) :
    (machine.engine.lobby (seats base)).Receives
      (Machine.receive { machine with stack := base } answer frame).lobby := by
  have known := sound.frames frame (stands ▸ mem_cons_self)
  -- Whatever the frame does, it does with the other frames under it.
  generalize rested : ({ machine with stack := base } : Machine) = under
  have foyer : machine.engine.lobby (seats base) = under.foyer := by rw [← rested]; rfl
  have engine : machine.engine = under.engine := by rw [← rested]
  rw [foyer]
  cases frame with
  | client | hold | callBack | gather | conclude | relay | farewell => exact .inl rfl
  | begin e status => exact .inl (lobby_startWork ..)
  | moves e rest =>
    cases rest with
    | nil => exact .inl rfl
    | cons => exact .inl rfl
  | inspect =>
    simp only [receive]
    split <;> exact .inl rfl
  | arm => exact .inl (lobby_arm ..)
  | examine => exact .inl (lobby_examine ..)
  | announce e transition entries =>
    have built := known.executables e (mem_singleton_self e)
    simp only [receive]
    split
    · exact .inl rfl
    · exact receives_fire (under.push _) (engine ▸ sound.store.hosted e built) transition entries
  | drain h =>
    refine .inl ?_
    simp only [receive]
    split <;> exact lobby_modifyHost_of_same _ _ h rfl
  | deliver =>
    simp only [receive]
    split
    · exact .inl rfl
    · split <;> exact .inl rfl
  | guard =>
    simp only [receive]
    split <;> exact .inl (lobby_listenerReturned ..)
  | hand e => exact .inl rfl
  | pump h taken => exact absurd rfl (free h taken)
  | pumped | asked => cases plain

/-- While the client has the turn, no frame of a poll is on top. -/
theorem Sound.vacant (sound : machine.Sound) (turn : machine.clientTurn = true) :
    Vacant machine.stack := by
  intro top member
  have fits := sound.control
  have client : top.isClient = true := by
    cases control : machine.control with
    | called | returned =>
      rw [control] at fits
      exact fits top member
    | perform | resume | unwind =>
      rw [clientTurn, control] at turn
      cases turn
  cases top with
  | client => rfl
  | _ => cases client

/-- In its turn the client has not answered for a future. -/
theorem poll?_of_clientTurn (turn : machine.clientTurn = true) : machine.control.poll? = none := by
  cases control : machine.control with
  | perform =>
    rw [clientTurn, control] at turn
    cases turn
  | _ => rfl

/-- A session that can be polled is idle in the lobby too. -/
theorem idle_of_sessionIdle (turn : machine.clientTurn = true) (idle : machine.sessionIdle k) :
    machine.lobby.Idle k := by
  obtain ⟨opened, going, free⟩ := idle
  -- No poll has been asked for, so the frames tell of all polls.
  rw [lobby_eq_foyer (poll?_of_clientTurn turn)]
  refine ⟨opened, going, ?_⟩
  rintro poll member rfl
  obtain ⟨frame, stands, belongs⟩ := mem_filterMap.mp member
  refine free frame stands ?_
  cases frame with
  | pumped | asked =>
    cases belongs
    rfl
  | _ => cases belongs

/-- A build does not show. -/
theorem lobby_of_build {id : Option String} {work : Work} {built : Machine}
    (success : machine.build h id work = (built, .ok e)) : built.lobby = machine.lobby := by
  obtain ⟨-, rfl | ⟨name, -, rfl⟩⟩ := build_cases success
  · exact lobby_addTemporary ..
  · exact lobby_modifyHost_of_same _ _ h rfl

/-- A wait may leave a batch to be delivered later. -/
theorem Sound.receives_beginWait (sound : machine.Sound) (alive : machine.isAlive e = true) :
    machine.lobby.Receives (machine.beginWait e).1.lobby := by
  have opened := sound.store.hosted e (sound.lt_of_isAlive alive)
  simp only [beginWait]
  split
  · exact .inl rfl
  · exact (machine.engine.addWait _).receives_listenReady machine.polls opened _

namespace Seated

/-- No poll waits under a frame other than those it waits for. -/
theorem vacant_under (seated : machine.Seated) (stands : machine.stack = frame :: base)
    (free : ∀ h taken, frame ≠ .pump h taken) (own : ∀ code, frame ≠ .client (.future code)) :
    Vacant base := by
  intro below member
  have chain := seated.chain
  rw [stands] at chain
  have bears := (isChain_cons.mp chain).1 below member
  cases below with
  | pumped k =>
    obtain ⟨_, taken, same⟩ := bears
    exact absurd same (free _ taken)
  | asked k =>
    obtain ⟨_, code, _, same⟩ := bears
    exact absurd same (own code)
  | _ => rfl

/-- Commands other than to deliver are not asked for by polls. -/
theorem vacant_of_perform (seated : machine.Seated) (turn : machine.control = .perform command)
    (free : ∀ h, command ≠ .pump h) : Vacant machine.stack := by
  intro top member
  have awaits := seated.top top member
  rw [turn] at awaits
  cases top with
  | pumped k =>
    rcases awaits.2 with same | ⟨⟨_, same⟩, _⟩ | ⟨_, same⟩
    · cases same
      exact absurd rfl (free _)
    · cases same
    · cases same
  | asked k =>
    rcases awaits.2 with ⟨_, same⟩ | ⟨_, same⟩
    · cases same
    · cases same
  | _ => rfl

/-- The frames below the first are seated as well. -/
theorem chain_under (seated : machine.Seated) (stands : machine.stack = frame :: base) :
    base.IsChain (Frame.Bears machine.engine) := by
  have chain := seated.chain
  rw [stands] at chain
  exact chain.of_cons

/-- A poll may come to its future. -/
theorem askFuture (chain : machine.stack.IsChain (Frame.Bears machine.engine))
    (vacant : Vacant machine.stack) (opened : k < machine.engine.sessions.length) :
    (machine.askFuture k).Seated ∧
      (machine.askFuture k).lobby = machine.engine.lobby (⟨k, .asking⟩ :: seats machine.stack) := by
  have asking : (.asked k :: machine.stack).IsChain (Frame.Bears machine.engine) :=
    isChain_cons.mpr ⟨fun below member => .of_plain (vacant below member), chain⟩
  unfold Machine.askFuture
  split
  · rename_i code future
    refine ⟨⟨?_, fun top member => ?_⟩, rfl⟩
    · exact isChain_cons_cons.mpr ⟨⟨opened, code, future, rfl⟩, asking⟩
    · cases member
      exact .of_plain rfl
  · refine ⟨⟨asking, fun top member => ?_⟩, rfl⟩
    cases member
    exact ⟨opened, .inl ⟨_, rfl⟩⟩

/-- A poll may come to the deferred batches. -/
theorem runSession (chain : machine.stack.IsChain (Frame.Bears machine.engine))
    (vacant : Vacant machine.stack) (opened : k < machine.engine.sessions.length) :
    (machine.runSession k).Seated := by
  refine ⟨?_, fun top member => ?_⟩
  · exact isChain_cons.mpr ⟨fun below member => .of_plain (vacant below member), chain⟩
  · cases member
    exact ⟨opened, .inl rfl⟩

/-- Beginning a command keeps polls in order. -/
theorem start (seated : machine.Seated) (attended : machine.lobby.Attended) (sound : machine.Sound)
    (turn : machine.control = .perform command) : machine.Ushers (machine.start command) := by
  by_cases pumps : ∃ h, command = .pump h
  · obtain ⟨h, rfl⟩ := pumps
    have quiet : machine.lobby = machine.foyer := lobby_eq_foyer (by rw [turn]; rfl)
    refine ⟨⟨isChain_cons.mpr ⟨fun below member => ?_, seated.chain⟩, ?_⟩,
      .receive (.inl quiet.symm)⟩
    · -- A poll that is on top has asked for just these batches.
      have awaits := seated.top below member
      rw [turn] at awaits
      cases below with
      | pumped k =>
        rcases awaits.2 with same | ⟨⟨_, same⟩, _⟩ | ⟨_, same⟩
        · cases same
          exact ⟨awaits.1, 0, rfl⟩
        · cases same
        · cases same
      | asked k =>
        rcases awaits.2 with ⟨_, same⟩ | ⟨_, same⟩
        · cases same
        · cases same
      | _ => trivial
    · intro top member
      cases member
      exact .of_plain rfl
  · have free : ∀ h, command ≠ .pump h := fun h same => pumps ⟨h, same⟩
    have vacant := seated.vacant_of_perform turn free
    by_cases polled : ∃ k, command = .poll k
    · obtain ⟨k, rfl⟩ := polled
      have begun : machine.lobby.polls = ⟨k, .begun⟩ :: seats machine.stack := by
        rw [Machine.lobby, Engine.lobby, polls, turn]
        rfl
      obtain ⟨opened, going⟩ := attended.polled _ (begun ▸ mem_cons_self)
      obtain ⟨asks, shown⟩ := askFuture seated.chain vacant opened
      simp only [Machine.start]
      split
      · rename_i fresh
        exact ⟨runSession seated.chain vacant opened, .deliver begun fresh⟩
      · rename_i parked
        exact ⟨asks, shown ▸ .ask begun (.inl parked)⟩
      · rename_i woken
        exact ⟨asks, shown ▸ .ask begun (.inr woken)⟩
      · rename_i over_
        exact absurd over_ going
    · have unpolled : ∀ k, command ≠ .poll k := fun k same => polled ⟨k, same⟩
      refine .aside seated.chain vacant (machine.sequel_start command).suffix ?_
        (sound.receives_start turn free unpolled)
      refine lobby_eq_foyer ?_
      rw [turn]
      cases command with
      | poll k => exact absurd rfl (unpolled k)
      | _ => rfl

/-- A poll may end with what the future answers. -/
theorem concludePoll (chain : machine.stack.IsChain (Frame.Bears machine.engine))
    (vacant : Vacant machine.stack) {lobby : Lobby}
    (shown : lobby = machine.engine.lobby (⟨k, .asking⟩ :: seats machine.stack))
    (attended : lobby.Attended) (finished : Bool) :
    (machine.concludePoll k finished).Seated ∧
      lobby.Step (machine.concludePoll k finished).lobby := by
  subst shown
  obtain ⟨opened, going⟩ := attended.polled ⟨k, .asking⟩ mem_cons_self
  have housed : (machine.engine.session k).host < machine.engine.hosts.length :=
    attended.housed k opened
  -- Whatever becomes of the session, the other frames stay in order.
  have rest (engine : Engine) (retains : Retains machine.engine engine) :
      machine.stack.IsChain (Frame.Bears engine) := chain.imp fun _ _ => .mono retains
  simp only [Machine.concludePoll]
  split
  · have step : Lobby.Step (machine.engine.lobby (⟨k, .asking⟩ :: seats machine.stack))
        ((machine.engine.endSession k).lobby (seats machine.stack)) := by
      rw [lobby_endSession _ _ housed]
      exact .finish rfl
    exact ⟨.of_vacant (rest _ fun _ there => step.origin there) vacant, step⟩
  · split
    · rename_i woken
      have step := @Lobby.Step.renew (machine.engine.lobby (⟨k, .asking⟩ :: seats machine.stack)) k
        (seats machine.stack) rfl woken
      refine ⟨@runSession (machine.update _) k ?_ vacant ?_, step⟩
      · exact rest _ fun _ there => step.origin there
      · exact (step.origin opened).1
    · rename_i parked
      exact ⟨.of_vacant chain vacant, .stay rfl parked⟩
    · rename_i over_
      exact absurd over_ going
    · rename_i fresh
      split
      · rename_i stored
        have step : Lobby.Step (machine.engine.lobby (⟨k, .asking⟩ :: seats machine.stack))
            ((machine.engine.modifyHost (machine.engine.session k).host
              ({ · with permit := false })).lobby (⟨k, .delivering⟩ :: seats machine.stack)) := by
          rw [lobby_modifyHost _ _ housed]
          exact .spend rfl fresh stored
        refine ⟨@runSession (machine.update _) k ?_ vacant ?_, step⟩
        · exact rest _ fun _ there => step.origin there
        · exact (step.origin opened).1
      · rename_i missing
        have step : Lobby.Step (machine.engine.lobby (⟨k, .asking⟩ :: seats machine.stack))
            (((machine.engine.modifySession k ({ · with phase := .parked })).modifyHost
              (machine.engine.session k).host fun host =>
                { host with waiters := host.waiters ++ [k] }).lobby (seats machine.stack)) := by
          rw [lobby_modifyHost (machine.engine.modifySession k _) _ housed]
          exact .park rfl fresh (Bool.eq_false_of_not_eq_true missing)
        exact ⟨.of_vacant (rest _ fun _ there => step.origin there) vacant, step⟩

section

variable (seated : machine.Seated)
include seated

/-- The delivery of deferred batches takes the next one, or ends with none left. -/
theorem receivePump {taken : Nat} (stands : machine.stack = .pump h taken :: base)
    (quiet : machine.lobby = machine.engine.lobby (seats base)) (answer : Answer) :
    machine.Ushers (Machine.receive { machine with stack := base } answer (.pump h taken)) := by
  have chain := seated.chain
  rw [stands] at chain
  obtain ⟨bears, under⟩ := isChain_cons.mp chain
  simp only [Machine.receive]
  split
  · rename_i empty
    refine ⟨⟨under, fun below member => ?_⟩, .receive (.inl quiet.symm)⟩
    -- A poll that waits for the end of it finds no batch left.
    have bears := bears below member
    cases below with
    | pumped k =>
      obtain ⟨opened, _, same⟩ := bears
      cases same
      exact ⟨opened, .inr (.inl ⟨⟨_, rfl⟩, empty⟩)⟩
    | asked k =>
      obtain ⟨_, _, _, same⟩ := bears
      cases same
    | _ => trivial
  · rename_i batch rest waits
    have opened : h < machine.engine.hosts.length := host_lt_of_deferred waits
    let carrier := (({ machine with stack := base } : Machine).update
      (·.modifyHost h ({ · with deferred := rest }))).push (.pump h (taken + 1))
    have shown : (carrier.dispatch h batch).lobby = (machine.engine.lobby (seats base)).place h
        { (machine.engine.host h).desk with deferred := rest } :=
      (lobby_dispatch carrier h batch).trans (lobby_modifyHost _ _ opened _)
    have step : machine.lobby.Step (carrier.dispatch h batch).lobby := by
      rw [shown, quiet]
      exact .take waits
    -- The frame that goes on is for the same poll as before.
    have again : carrier.stack.IsChain (Frame.Bears machine.engine) := by
      refine isChain_cons.mpr ⟨fun below member => ?_, under⟩
      have bears := bears below member
      cases below with
      | pumped k =>
        obtain ⟨there, _, same⟩ := bears
        cases same
        exact ⟨there, _, rfl⟩
      | asked k =>
        obtain ⟨_, _, _, same⟩ := bears
        cases same
      | _ => trivial
    have under : carrier.stack <:+ (carrier.dispatch h batch).stack := by
      rcases (carrier.dispatch_cases h batch).2 with stack | stack <;> rw [stack]
      exact suffix_cons ..
    refine ⟨.of_suffix (again.imp fun _ _ => .mono (retains_of_step step)) ?_ under
      (congrArg Lobby.polls shown), step⟩
    intro top member
    cases member
    rfl

/-- Passing an answer to the frame on top keeps polls in order. -/
theorem receive (attended : machine.lobby.Attended) (sound : machine.Sound) {answer : Answer}
    (turn : machine.control = .resume answer) (stands : machine.stack = frame :: base) :
    machine.Ushers (Machine.receive { machine with stack := base } answer frame) := by
  have quiet : machine.lobby = machine.foyer := lobby_eq_foyer (by rw [turn]; rfl)
  rw [foyer, stands] at quiet
  have chain := seated.chain_under stands
  have awaits := seated.top frame (by rw [stands]; rfl)
  rw [turn] at awaits
  cases frame with
  | pump h taken => exact seated.receivePump stands quiet answer
  | pumped k =>
    have vacant := seated.vacant_under stands nofun nofun
    obtain ⟨asks, shown⟩ := @askFuture { machine with stack := base } k chain vacant awaits.1
    refine ⟨asks, ?_⟩
    show machine.lobby.Step (Machine.askFuture { machine with stack := base } k).lobby
    rw [shown, quiet]
    -- The delivery that it waited for has just ended.
    rcases awaits.2 with same | ⟨_, empty⟩ | ⟨_, same⟩
    · cases same
    · exact .delivered rfl empty
    · cases same
  | asked k =>
    have vacant := seated.vacant_under stands nofun nofun
    rw [quiet] at attended
    obtain ⟨seated, step⟩ := @concludePoll { machine with stack := base } k chain vacant _ rfl
      attended (decide (answer ≠ .replied .pending))
    exact ⟨seated, quiet ▸ step⟩
  | client callback =>
    -- The client has the answer, and its frame stays.
    refine ⟨.of_vacant ?_ ?_, .receive (.inl quiet.symm)⟩
    · show (.client callback :: base).IsChain _
      rw [← stands]
      exact seated.chain
    · intro top member
      cases member
      rfl
  | _ =>
    exact .aside chain (seated.vacant_under stands nofun nofun)
      (sequel_receive { machine with stack := base } answer _).suffix quiet
      (sound.receives_receive stands answer rfl nofun)

/-- Taking a panic past the frame on top keeps polls in order. -/
theorem unwind (attended : machine.lobby.Attended) (sound : machine.Sound) {payload : Payload}
    (turn : machine.control = .unwind payload) (stands : machine.stack = frame :: base) :
    machine.Ushers (Machine.unwind { machine with stack := base } payload frame) := by
  have quiet : machine.lobby = machine.foyer := lobby_eq_foyer (by rw [turn]; rfl)
  rw [foyer, stands] at quiet
  have chain := seated.chain_under stands
  have under := seated.chain
  rw [stands] at under
  -- A frame that only disappears leaves the panic to the one under it.
  have passed {after : Machine} (stack : after.stack = base)
      (same : after.control = .unwind payload)
      (retains : Retains machine.engine after.engine) : after.Seated := by
    refine ⟨?_, fun below member => ?_⟩
    · rw [stack]
      exact chain.imp fun _ _ => .mono retains
    · rw [stack] at member
      have bears := (isChain_cons.mp under).1 below member
      cases below with
      | pumped k => exact ⟨(retains k bears.1).1, .inr (.inr ⟨payload, same⟩)⟩
      | asked k => exact ⟨(retains k bears.1).1, .inr ⟨payload, same⟩⟩
      | _ => trivial
  have still : Retains machine.engine machine.engine := fun _ opened => ⟨opened, rfl, rfl⟩
  have awaits := seated.top frame (by rw [stands]; rfl)
  cases frame with
  | drain h =>
    refine ⟨passed rfl turn still, .receive (.inl ?_)⟩
    rw [quiet, lobby_eq_foyer (by exact congrArg Control.poll? turn)]
    exact lobby_modifyHost_of_same _ _ h rfl
  | guard serial event delivery =>
    rw [unwind_guard (sound.quiet turn)]
    exact .aside chain (seated.vacant_under stands nofun nofun)
      (sequel_listenerReturned { machine with stack := base } _ _ _ _ (.hold [])).suffix quiet
      (.inl (lobby_listenerReturned ..))
  | pumped k | asked k =>
    -- The session that was polled is over.
    have housed := attended.housed k awaits.1
    have step : machine.lobby.Step
        (Machine.update { machine with stack := base } (·.endSession k)).lobby := by
      rw [quiet, lobby_eq_foyer (by exact congrArg Control.poll? turn), foyer, update,
        lobby_endSession _ _ housed]
      exact .finish rfl
    exact ⟨passed rfl turn (retains_of_step step), step⟩
  | _ =>
    refine ⟨passed rfl turn still, .receive (.inl ?_)⟩
    rw [quiet, lobby_eq_foyer (by exact congrArg Control.poll? turn)]
    rfl

/-- A turn of the client that leaves the stack is a step of the lobby. -/
theorem kept (sound : machine.Sound) (turn : machine.clientTurn = true)
    (stack : next.stack = machine.stack) (step : machine.lobby.Step next.lobby) :
    machine.Ushers next := by
  refine ⟨.of_vacant ?_ ?_, step⟩
  · rw [stack]
    exact seated.chain.imp fun _ _ => .mono (retains_of_step step)
  · rw [stack]
    exact sound.vacant turn

/-- The engine's own step keeps polls in order. -/
theorem engineStep (attended : machine.lobby.Attended) (sound : machine.Sound)
    (busy : machine.clientTurn = false) : machine.Ushers machine.step := by
  have idle (stack : machine.stack = []) (quiet : machine.control.poll? = none) (answer : Answer) :
      machine.Ushers { machine with control := .returned answer } := by
    refine ⟨⟨seated.chain, fun top member => ?_⟩, .receive (.inl (lobby_eq_foyer quiet).symm)⟩
    rw [show Machine.stack _ = [] from stack] at member
    cases member
  unfold Machine.step
  split
  · rename_i command turn
    exact seated.start attended sound turn
  · rename_i answer turn
    split
    · rename_i stack
      exact idle stack (by rw [turn]; rfl) answer
    · rename_i frame base stands
      exact seated.receive attended sound turn stands
  · rename_i payload turn
    split
    · rename_i stack
      exact idle stack (by rw [turn]; rfl) _
    · rename_i frame base stands
      exact seated.unwind attended sound turn stands
  · rename_i turn
    rw [clientTurn, turn] at busy
    cases busy
  · rename_i turn
    rw [clientTurn, turn] at busy
    cases busy

/-- A call of the client's keeps polls in order, and may be a poll. -/
theorem call (sound : machine.Sound) (turn : machine.clientTurn = true)
    (permitted : machine.Permitted command) : machine.Ushers (machine.call command) := by
  have quiet := lobby_eq_foyer (poll?_of_clientTurn turn)
  refine ⟨.of_vacant ?_ ?_, ?_⟩
  · refine isChain_cons.mpr ⟨fun below member => ?_, seated.chain⟩
    exact .of_plain (sound.vacant turn below member)
  · intro top member
    cases member
    rfl
  · rw [quiet]
    cases command with
    | poll k => exact .begin (quiet ▸ idle_of_sessionIdle turn (permitted.idle k rfl))
    | _ => exact .receive (.inl rfl)

/-- Every step of a run keeps polls in order, and is a step of the lobby. -/
theorem ushers (attended : machine.lobby.Attended) (sound : machine.Sound)
    (step : Next machine next) : machine.Ushers next := by
  cases step with
  | engine busy => exact seated.engineStep attended sound busy
  | accept called =>
    have turn : machine.clientTurn = true := by rw [clientTurn, called]
    refine seated.kept sound turn rfl (.receive (.inl ?_))
    rw [lobby_eq_foyer (poll?_of_clientTurn turn)]
    rfl
  | advance turn elapsed => exact seated.kept sound turn rfl (.receive (.inl rfl))
  | openHost turn settings observer =>
    refine seated.kept sound turn rfl ?_
    show machine.lobby.Step ((machine.engine.addHost settings observer).lobby machine.polls)
    rw [lobby_addHost]
    exact .openHost
  | build turn opened alive success =>
    exact seated.kept sound turn (kept_of_build success).1
      (.receive (.inl (lobby_of_build success)))
  | retain turn => exact seated.kept sound turn rfl (.receive (.inl rfl))
  | release turn => exact seated.kept sound turn rfl (.receive (.inl rfl))
  | subscribe turn => exact seated.kept sound turn rfl (.receive (.inl rfl))
  | unsubscribe turn => exact seated.kept sound turn rfl (.receive (.inl rfl))
  | beginWait turn alive =>
    exact seated.kept sound turn (machine.kept_of_beginWait _).1
      (.receive (sound.receives_beginWait alive))
  | openSession turn future opened => exact seated.kept sound turn rfl (.openSession opened future)
  | @closeSession turn k idle =>
    refine seated.kept sound turn rfl ?_
    show machine.lobby.Step ((machine.engine.endSession k).lobby machine.polls)
    rw [lobby_endSession _ _ (attended.housed k idle.1)]
    exact .closeSession (idle_of_sessionIdle turn idle)
  | call turn permitted => exact seated.call sound turn permitted
  | @finish turn callback base top reply =>
    have quiet := lobby_eq_foyer (poll?_of_clientTurn turn)
    have chain := seated.chain
    rw [top] at chain
    obtain ⟨bears, under⟩ := isChain_cons.mp chain
    have stack : (machine.finish reply).stack = base := by rw [Machine.finish, top, tail_cons]
    refine ⟨⟨?_, fun below member => ?_⟩, .receive (.inl ?_)⟩
    · rw [stack]
      exact under
    · -- If the frame of a poll is on top now, its future has replied.
      rw [stack] at member
      have bears := bears below member
      cases below with
      | pumped k =>
        obtain ⟨_, _, same⟩ := bears
        cases same
      | asked k => exact ⟨bears.1, .inl ⟨reply, rfl⟩⟩
      | _ => trivial
    · rw [quiet, foyer, top, lobby, polls, stack]
      rfl
  | panic turn payload =>
    refine seated.kept sound turn rfl (.receive (.inl ?_))
    rw [lobby_eq_foyer (poll?_of_clientTurn turn)]
    rfl

end

end Seated

/-- In every state of every run polls stand as they should, and the lists of the hosts agree with
the phases of the sessions. -/
theorem Reachable.attended (reachable : machine.Reachable) :
    machine.Seated ∧ machine.lobby.Attended := by
  induction reachable with
  | refl =>
    refine ⟨⟨.nil, nofun⟩, ⟨nofun, fun h k => ?_, fun _ => ?_, nofun, ?_⟩⟩
    · exact ⟨nofun, nofun⟩
    · exact nodup_nil
    · exact nodup_nil
  | step reached step ih =>
    have ushers := ih.1.ushers ih.2 (Reachable.sound reached) step
    exact ⟨ushers.seated, ih.2.step ushers.step⟩

/-- Every step of a run is a step of the lobby. -/
theorem Next.lobby (step : Next machine next) (reachable : machine.Reachable) :
    machine.lobby.Step next.lobby :=
  (reachable.attended.1.ushers reachable.attended.2 reachable.sound step).step

end Machine

end Readiness
