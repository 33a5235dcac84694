import Mathlib.Data.List.Chain
import Readiness.Machine.Run
import Readiness.Proofs.Machine.Living

/-! Sound machines: what frames and commands refer to is in the store and within a scope, and the
frames stand on one another as they should.

A frame that has the observer or a listener told must not go on, nor be unwound, before that is
done. So only the call of the observer, or the guard of the listener, can stand on such a frame. A
delivery loop has nothing on top of it but the batch that it delivers. A gate does not keep its
dependent alive, so some call under it on the stack has to.
-/

namespace Readiness

open List

variable {frame : Frame} {scope : Scope} {e : ExecutableRef} {before after : Engine}
  {stack : List Frame}

/-- The news of a transition. -/
def Transition.event (transition : Transition) (e : ExecutableRef) : Event :=
  ⟨e, transition.new, transition.old⟩

/-- The call that an entry asks for. -/
def Entry.delivery (entry : Entry) : Delivery :=
  ⟨entry.listener, some entry.sequence⟩

/-- The wait that a listener ends. -/
def Listener.wait? : Listener → Option WaitRef
  | .waitReady w | .waitFailed w => some w
  | .client _ | .countdown _ _ | .dependencyFailed _ => none

/-- Which listeners end a wait. -/
theorem Listener.wait?_eq_some_iff {listener : Listener} {w : WaitRef} :
    listener.wait? = some w ↔ listener = .waitReady w ∨ listener = .waitFailed w := by
  cases listener <;> simp [Listener.wait?]

namespace Frame

variable {engine : Engine}

/-- The calls of listeners that a frame makes or is going to make. -/
def sends : Frame → List (Event × Delivery)
  | .announce e transition entries =>
    entries.map fun entry => (transition.event e, entry.delivery)
  | .deliver batch => batch.deliveries.map (Prod.mk batch.event)
  | .guard _ event delivery => [(event, delivery)]
  | _ => []

/-- The listener that a frame is going to register for failures. -/
def onFailure? : Frame → Option Listener
  | .arm _ _ _ onFailure | .examine _ _ _ _ onFailure => onFailure
  | _ => none

/-- The gate whose dependencies a frame goes through. -/
def gate? : Frame → Option GateRef
  | .arm g _ _ _ | .examine g _ _ _ _ => some g
  | _ => none

/-- A frame that waits until the observer or a listener has been told. -/
def isTelling : Frame → Bool
  | .begin _ _ | .announce _ _ _ | .deliver _ => true
  | _ => false

/-- A delivery loop. -/
def isDrain : Frame → Bool
  | .drain _ => true
  | _ => false

/-- A batch that is being delivered. -/
def isDeliver : Frame → Bool
  | .deliver _ => true
  | _ => false

/-- A frame on which only certain others can stand. -/
def isBusy (frame : Frame) : Bool :=
  frame.isTelling || frame.isDrain

/-- A call of client code. -/
def isClient : Frame → Bool
  | .client _ => true
  | _ => false

/-- The observer is being told something. -/
def isObserver : Frame → Bool
  | .client (.observer _ _) => true
  | _ => false

/-- Which frame may stand on which. -/
structure StandsOn (above below : Frame) : Prop where
  loop : above.isDeliver = below.isDrain
  told : below.isTelling = true → above.isObserver = true ∨ (∃ batch, below = .deliver batch) ∧
    ∃ serial event delivery, above = .guard serial event delivery

/-- What a frame refers to is in the store, and within a scope. -/
structure Known (engine : Engine) (frame : Frame) (scope : Scope := .all) : Prop where
  has : ∀ e ∈ frame.executables, engine.Has scope e
  listeners : ∀ listener ∈ frame.listeners, listener.Known engine
  sends : ∀ call ∈ frame.sends, scope.sends call.1 call.2
  plain : ∀ listener ∈ frame.onFailure?, listener.wait? = none

/-- What a known frame refers to has been built. -/
theorem Known.executables (known : frame.Known engine scope) :
    ∀ e ∈ frame.executables, e < engine.executables.length :=
  fun e member => (known.has e member).built

/-- Frames stay known as the store grows. -/
theorem Known.mono {before after : Engine} (grown : before.Extends after)
    (known : frame.Known before scope) : frame.Known after scope :=
  { known with
    has := fun e member => (known.has e member).mono grown
    listeners := fun listener member => (known.listeners listener member).mono grown }

/-- A frame without listeners is known along with its executables. -/
theorem known_of_executables (plain : frame.listeners = [])
    (has : ∀ e ∈ frame.executables, engine.Has scope e) : frame.Known engine scope := by
  refine ⟨has, fun _ member => (by rw [plain] at member; cases member), fun call member => ?_,
    fun listener member => ?_⟩
  · -- Whoever is called is among the listeners.
    cases frame with
    | announce => rw [map_eq_nil_iff.mp plain] at member; cases member
    | deliver batch => rw [sends, map_eq_nil_iff.mp plain] at member; cases member
    | guard => cases plain
    | _ => cases member
  · cases frame with
    | arm | examine => cases member; cases plain
    | _ => cases member

/-- A batch is known along with its source and what it sends to each of its listeners. -/
theorem known_deliver {batch : Batch} :
    (deliver batch).Known engine scope ↔ engine.Has scope batch.event.source ∧
      ∀ delivery ∈ batch.deliveries,
        delivery.listener.Known engine ∧ scope.sends batch.event delivery := by
  constructor
  · intro known
    refine ⟨known.has _ (mem_singleton_self _), fun delivery among => ⟨?_, ?_⟩⟩
    · exact known.listeners _ (mem_map_of_mem among)
    · exact known.sends (batch.event, delivery) (mem_map_of_mem among)
  · rintro ⟨has, acts⟩
    refine ⟨has.only, fun listener member => ?_, fun call member => ?_,
      fun _ member => (by cases member)⟩
    · obtain ⟨delivery, among, rfl⟩ := mem_map.mp member
      exact (acts delivery among).1
    · obtain ⟨delivery, among, rfl⟩ := mem_map.mp member
      exact (acts delivery among).2

end Frame

/-- The dependent of a gate is kept alive by some frame. -/
def Engine.Backs (engine : Engine) (stack : List Frame) (g : GateRef) : Prop :=
  g < engine.gates.length ∧ (engine.gate g).dependent ∈ stack.flatMap Frame.executables

/-- Gates stay backed as the store grows. -/
theorem Engine.Backs.mono (grown : before.Extends after) {g : GateRef}
    (backs : before.Backs stack g) : after.Backs stack g :=
  ⟨Nat.lt_of_lt_of_le backs.1 grown.gates, grown.dependent g backs.1 ▸ backs.2⟩

/-- The dependent of every gate that is gone through is kept alive by a frame further down. -/
def Backed (engine : Engine) : List Frame → Prop
  | [] => True
  | frame :: rest => (∀ g ∈ frame.gate?, engine.Backs rest g) ∧ Backed engine rest

/-- Stacks stay backed as the store grows. -/
theorem Backed.mono (grown : before.Extends after) (backed : Backed before stack) :
    Backed after stack := by
  -- The frames further down are the same, whichever store is looked at.
  induction stack with
  | nil => trivial
  | cons frame rest ih => exact ⟨fun g gated => (backed.1 g gated).mono grown, ih backed.2⟩

namespace Command

variable {engine : Engine} {command : Command}

/-- Only the client makes such a request. -/
def isExternal : Command → Bool
  | .report _ _ | .fail _ _ | .onReady _ _ | .destroy _ | .buildConstant _ | .poll _ => true
  | .execute _ _ | .setStatus _ _ | .synchronise _ _ _ _ | .invoke _ _ | .pump _ => false

/-- The engine makes such a request for itself wherever it likes. -/
def isInner : Command → Bool
  | .execute _ _ | .setStatus _ _ | .pump _ => true
  | _ => false

/-- What a command refers to is in the store, and within a scope. -/
structure Known (engine : Engine) (command : Command) (scope : Scope := .all) : Prop where
  has : ∀ e ∈ command.executables, engine.Has scope e
  listeners : ∀ listener ∈ command.listeners, listener.Known engine
  opened : ∀ h, command = .buildConstant h → h < engine.hosts.length
  foreign : ∀ e request, command = .onReady e request →
    ∀ listener ∈ request.success :: request.failure.toList, listener.isWatcher = false
  plain : ∀ listener ∈ command.listeners, (∀ event, command ≠ .invoke listener event) →
    listener.wait? = none

/-- What a known command refers to has been built. -/
theorem Known.executables (known : command.Known engine scope) :
    ∀ e ∈ command.executables, e < engine.executables.length :=
  fun e member => (known.has e member).built

/-- A request that the engine makes for itself is known along with its executables. -/
theorem known_of_isInner (inner : command.isInner = true)
    (has : ∀ e ∈ command.executables, engine.Has scope e) : command.Known engine scope := by
  have silent : command.listeners = [] := by cases command <;> first | rfl | cases inner
  refine ⟨has, ?_, ?_, ?_, ?_⟩
  · exact fun _ member => by rw [silent] at member; cases member
  · rintro h rfl
    cases inner
  · rintro e request rfl
    cases inner
  · exact fun _ member => by rw [silent] at member; cases member

end Command

/-- The turn fits what stands on top of the stack. -/
def Control.Fits (engine : Engine) (stack : List Frame) (control : Control)
    (scope : Scope := .all) : Prop :=
  match control with
  | .perform command => command.Known engine scope ∧
      (∃ top rest, stack = top :: rest ∧ top.isBusy = false ∧ top.isClient = false) ∧
      (command.isExternal = true → ∃ held rest, stack = .hold held :: rest) ∧
      -- Whose listener is called is said on top of the stack.
      (∀ listener event, command = .invoke listener event → listener.isClient = false →
        ∃ serial entry rest, stack = .guard serial event ⟨listener, entry⟩ :: rest) ∧
      -- Whoever is to be moved by a gate is kept alive.
      ∀ e target dependencies onFailure, command = .synchronise e target dependencies onFailure →
        e ∈ stack.flatMap Frame.executables
  | .called | .returned _ => ∀ top ∈ stack.head?, top.isClient = true
  | .resume _ => True
  | .unwind payload => payload.onDrop? = none

namespace Machine

/-- Everything that store and stack refer to is in the store and within a scope, and the frames are
in order. -/
structure Intact (engine : Engine) (stack : List Frame) (scope : Scope) : Prop where
  store : engine.Sound scope
  frames : ∀ frame ∈ stack, frame.Known engine scope
  /-- Gates that are gone through have their dependents kept alive. -/
  backed : Backed engine stack
  layered : stack.IsChain Frame.StandsOn

/-- Everything that the machine refers to is in the store and within a scope, and its frames are in
order. -/
structure Sound (machine : Machine) (scope : Scope := .all) : Prop extends
    Intact machine.engine machine.stack scope where
  control : machine.control.Fits machine.engine machine.stack scope

/-- The machine is sound but for whose turn it is, and its store has grown from another one. -/
structure Based (start : Engine) (machine : Machine) (scope : Scope := .all) : Prop extends
    Intact machine.engine machine.stack scope where
  grown : start.Extends machine.engine

/-- The machine can go on with anything, since nobody on top waits for a call to end. -/
structure Calm (start : Engine) (machine : Machine) (scope : Scope := .all) : Prop extends
    Based start machine scope where
  top : ∀ frame ∈ machine.stack.head?, frame.isBusy = false

/-- A sound machine whose store has grown from another one. -/
structure Later (start : Engine) (machine : Machine) (scope : Scope := .all) : Prop where
  grown : start.Extends machine.engine
  sound : machine.Sound scope

/-- The machine goes on without a panic. -/
structure Onward (start : Engine) (machine : Machine) (scope : Scope := .all) : Prop extends
    Later start machine scope where
  steady : ∀ payload, machine.control ≠ .unwind payload

variable {start : Engine} {machine : Machine}

namespace Based

variable (based : machine.Based start scope)
include based

/-- The store may grow and stay sound. -/
theorem update {change : Engine → Engine} (grown : machine.engine.Extends (change machine.engine))
    (sound : (change machine.engine).Sound scope) : (machine.update change).Based start scope :=
  ⟨⟨sound, fun frame member => (based.frames frame member).mono grown, based.backed.mono grown,
    based.layered⟩, based.grown.trans grown⟩

/-- Something may be noted. -/
theorem note (occurrence : Occurrence) : (machine.note occurrence).Based start scope :=
  based.update (.note _ _) (based.store.of_same rfl rfl rfl)

/-- An answer may be given. -/
theorem resume (answer : Answer) : (machine.resume answer).Onward start scope :=
  ⟨⟨based.grown, based.toIntact, trivial⟩, fun _ same => (by cases same)⟩

/-- A gate may be gone through while its dependent is kept alive. -/
theorem pushGated (known : frame.Known machine.engine scope)
    (gated : ∀ g ∈ frame.gate?, machine.engine.Backs machine.stack g)
    (stands : ∀ below ∈ machine.stack.head?, frame.StandsOn below) :
    (machine.push frame).Based start scope := by
  refine ⟨⟨based.store, fun other member => ?_, ⟨gated, based.backed⟩,
    isChain_cons.mpr ⟨stands, based.layered⟩⟩, based.grown⟩
  rcases mem_cons.mp member with rfl | old
  · exact known
  · exact based.frames other old

/-- A frame may be put where it may stand. -/
theorem push (known : frame.Known machine.engine scope) (ungated : frame.gate? = none)
    (stands : ∀ below ∈ machine.stack.head?, frame.StandsOn below) :
    (machine.push frame).Based start scope :=
  based.pushGated known (fun _ gated => by rw [ungated] at gated; cases gated) stands

/-- Client code is called. -/
theorem called {callback : Callback} (has : ∀ e ∈ callback.executables, machine.engine.Has scope e)
    (stands : ∀ below ∈ machine.stack.head?, (Frame.client callback).StandsOn below) :
    (machine.callClient callback).Onward start scope := by
  have known : (Frame.client callback).Known machine.engine scope :=
    Frame.known_of_executables rfl has
  have pushed := based.push known rfl stands
  exact ⟨⟨pushed.grown, pushed.toIntact, fun top member => (by cases member; rfl)⟩,
    fun _ same => (by cases same)⟩

/-- The observer may be told. -/
theorem notify (free : ∀ below ∈ machine.stack.head?, below.isDrain = false) (h : HostRef)
    (notice : Notice) : (machine.notify h notice).Onward start scope := by
  have told := based.note (.observed h notice)
  unfold Machine.notify
  cases (machine.engine.host h).observer with
  | silent | tracing => exact told.resume .done
  | client code =>
    exact told.called (fun _ member => by cases member) fun below first =>
      ⟨(free below first).symm, fun _ => .inl rfl⟩

end Based

namespace Calm

variable (calm : machine.Calm start scope)
include calm

/-- The store may grow and stay sound. -/
theorem update {change : Engine → Engine} (grown : machine.engine.Extends (change machine.engine))
    (sound : (change machine.engine).Sound scope) : (machine.update change).Calm start scope :=
  ⟨calm.toBased.update grown sound, calm.top⟩

/-- Something may be noted. -/
theorem note (occurrence : Occurrence) : (machine.note occurrence).Calm start scope :=
  ⟨calm.toBased.note occurrence, calm.top⟩

/-- Whatever is not a batch can stand on top. -/
theorem standsOn (plain : frame.isDeliver = false) :
    ∀ below ∈ machine.stack.head?, frame.StandsOn below := by
  intro below member
  obtain ⟨quiet, free⟩ := Bool.or_eq_false_iff.mp (calm.top below member)
  exact ⟨plain.trans free.symm, fun telling => by rw [quiet] at telling; cases telling⟩

/-- Any frame but a delivery may be put on top. -/
theorem pushAny (known : frame.Known machine.engine scope) (ungated : frame.gate? = none)
    (plain : frame.isDeliver = false) : (machine.push frame).Based start scope :=
  calm.toBased.push known ungated (calm.standsOn plain)

/-- The frame of a gate needs backing. -/
theorem pushGated (known : frame.Known machine.engine scope) {g : GateRef}
    (gated : frame.gate? = some g) (backs : machine.engine.Backs machine.stack g) :
    (machine.push frame).Calm start scope := by
  have quiet : frame.isBusy = false ∧ frame.isDeliver = false := by
    cases frame <;> first | exact ⟨rfl, rfl⟩ | cases gated
  refine ⟨calm.toBased.pushGated known (fun other through => ?_) (calm.standsOn quiet.2),
    fun top member => (by cases member; exact quiet.1)⟩
  cases gated.symm.trans through
  exact backs

/-- A frame without listeners may be put on top. -/
theorem push (frame : Frame) (has : ∀ e ∈ frame.executables, machine.engine.Has scope e)
    (plain : frame.listeners = []) (ungated : frame.gate? = none) (quiet : frame.isBusy = false) :
    (machine.push frame).Calm start scope :=
  ⟨calm.pushAny (Frame.known_of_executables plain has) ungated
    (by cases frame <;> first | rfl | cases quiet),
    fun top member => (by cases member; exact quiet)⟩

/-- So may a frame for one executable. -/
theorem pushOne (frame : Frame) (has : machine.engine.Has scope e) (only : frame.executables = [e])
    (plain : frame.listeners = []) (ungated : frame.gate? = none) (quiet : frame.isBusy = false) :
    (machine.push frame).Calm start scope :=
  calm.push frame (by rw [only]; exact has.only) plain ungated quiet

/-- The client may be called. -/
theorem callClient {callback : Callback}
    (has : ∀ e ∈ callback.executables, machine.engine.Has scope e) :
    (machine.callClient callback).Onward start scope :=
  calm.toBased.called has (calm.standsOn rfl)

/-- The engine can make a request for itself. -/
theorem perform {rest : List Frame} (top : machine.stack = frame :: rest)
    (ours : frame.isClient = false) {command : Command} (inner : command.isInner = true)
    (has : ∀ e ∈ command.executables, machine.engine.Has scope e) :
    (machine.perform command).Onward start scope := by
  refine ⟨⟨calm.grown, calm.toIntact, Command.known_of_isInner inner has,
    ⟨frame, rest, top, ?_, ours⟩, ?_, ?_, ?_⟩, fun _ same => (by cases same)⟩
  · exact calm.top frame (by rw [top]; rfl)
  · intro outer
    cases command <;> first | cases inner; done | cases outer
  · rintro listener event rfl
    cases inner
  · rintro e target dependencies onFailure rfl
    cases inner

end Calm

end Machine

end Readiness
