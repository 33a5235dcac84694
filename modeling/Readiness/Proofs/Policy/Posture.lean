import Mathlib.Data.List.Chain
import Readiness.Proofs.Machine.Sequel
import Readiness.Proofs.Policy.Gist

/-! How calls stand on one another while no listener calls the engine and no observer is called.

What executables do stands on a call of the client or on itself, and so does what the client's code
for it does. The delivery of batches stands on what executables do, or on a call that has deferred
batches delivered, and at most one listener is called by it, on top of everything.
-/

namespace Readiness

open List

variable {command : Command} {rest : List Frame}

namespace Frame

variable {above below : Kind} {frame : Frame}

/-- A call that can be under the client's code without anything that executables do in between, or
is that code. -/
def Kind.isCasual : Kind → Bool
  | .hold | .work | .listener | .future | .asked => true
  | _ => false

/-- What bears such a call is such a call, down to the client's code for an executable. -/
theorem Kind.isCasual_of_suits (casual : above.isCasual = true) (other : above ≠ .work)
    (free : below ≠ .guard) (suits : above.suits below = true) : below.isCasual = true := by
  cases above with
  | hold | future | asked => cases below <;> first | rfl | cases suits
  | listener => cases below <;> first | rfl | exact absurd rfl free | cases suits
  | work => exact absurd rfl other
  | _ => cases casual

/-- A call that the engine makes without having to do with gates, destruction and observers. -/
def Kind.isInner : Kind → Bool
  | .hold | .foreign => false
  | _ => true

/-- What has to do with telling listeners. -/
def Kind.isShielded : Kind → Bool
  | .announce | .drain | .deliver | .guard => true
  | _ => false

/-- What bears a call does not have to do with telling listeners, unless that call does. -/
theorem Kind.isShielded_of_suits (free : above ≠ .guard) (idle : above ≠ .deliver)
    (other : below ≠ .guard) (suits : above.suits below = true) : below.isShielded = false := by
  cases below with
  | announce => cases above <;> cases suits
  | drain => cases above <;> first | exact absurd rfl idle | cases suits
  | deliver => cases above <;> first | exact absurd rfl free | cases suits
  | guard => exact absurd rfl other
  | _ => rfl

theorem isGuard_of_kind (guard : frame.kind = .guard) : frame.isGuard = true := by
  cases frame with
  | guard serial event delivery => rfl
  | client callback => cases callback <;> cases guard
  | _ => cases guard

/-- One call can stand on another. -/
def Suits (above below : Frame) : Prop :=
  above.kind.suits below.kind = true

/-- A call that has to do with telling listeners, which no panic of other client code passes. -/
def isShielded (frame : Frame) : Bool :=
  frame.kind.isShielded

theorem news_of_unshielded (plain : frame.isShielded = false) : frame.news = 0 := by
  cases frame <;> first | rfl | cases plain

end Frame

/-- A call of this kind can be put on top. -/
def Bears (stack : List Frame) (kind : Frame.Kind) : Prop :=
  ∀ top ∈ stack.head?, kind.suits top.kind = true

/-- The call of a listener for a batch is on top. -/
def Guarded (stack : List Frame) : Prop :=
  ∃ callback serial event delivery rest,
    stack = .client callback :: .guard serial event delivery :: rest

/-- The calls on a stack stand on one another as they can. -/
structure Ordered (stack : List Frame) : Prop where
  chain : stack.IsChain Frame.Suits
  plain : ∀ frame ∈ stack, frame.kind ≠ .foreign
  above : ∀ frame ∈ stack.drop 2, frame.isGuard = false

namespace Ordered

variable {stack : List Frame} {frame top : Frame}

theorem empty : Ordered [] :=
  ⟨.nil, forall_mem_nil _, forall_mem_nil _⟩

theorem tail (ordered : Ordered (frame :: stack)) : Ordered stack where
  chain := ordered.chain.tail
  plain other member := ordered.plain other (mem_cons_of_mem _ member)
  above other member := by
    refine ordered.above other ?_
    rw [show (frame :: stack).drop 2 = stack.drop 1 from rfl]
    exact drop_subset_drop_left _ (by decide) member

theorem bears (ordered : Ordered (frame :: stack)) : Bears stack frame.kind := by
  intro top first
  exact (isChain_cons.mp ordered.chain).1 top first

/-- The call of a listener for a batch has nothing on it but the listener. -/
theorem guarded_of_second (ordered : Ordered stack) {second : Frame}
    (stands : stack = top :: second :: rest) (guard : second.isGuard = true) : Guarded stack := by
  subst stands
  have suits : top.kind.suits second.kind = true := (isChain_cons_cons.mp ordered.chain).1
  obtain ⟨serial, event, delivery, rfl⟩ : ∃ serial event delivery,
      second = .guard serial event delivery := by
    cases second <;> first | exact ⟨_, _, _, rfl⟩ | cases guard
  -- Only the call of a listener can stand on a guard.
  have listener : top.kind = .listener := by
    cases kind : top.kind <;> rw [kind] at suits <;> first | rfl | cases suits
  obtain ⟨callback, rfl⟩ : ∃ callback, top = .client callback := by
    cases top <;> first | exact ⟨_, rfl⟩ | cases listener
  exact ⟨callback, serial, event, delivery, rest, rfl⟩

/-- If somebody is called as a listener for a batch, the guard of that is on top, or the listener
and then the guard. -/
theorem guard_or_guarded (ordered : Ordered (frame :: stack))
    (guarded : (frame :: stack).any Frame.isGuard = true) :
    frame.isGuard = true ∨ Guarded (frame :: stack) := by
  cases top : frame.isGuard with
  | true => exact .inl rfl
  | false =>
    simp only [any_cons, top, Bool.false_or] at guarded
    obtain ⟨guard, member, is⟩ := any_eq_true.mp guarded
    cases stack with
    | nil => cases member
    | cons next rest =>
      rcases mem_cons.mp member with rfl | deeper
      · exact .inr (ordered.guarded_of_second rfl is)
      · exact absurd (ordered.above guard deeper) (by simp [is])

/-- Only a listener stands on a guard. -/
theorem listener_of_guarded (ordered : Ordered (frame :: stack))
    (guarded : Guarded (frame :: stack)) :
    frame.kind = .listener ∧ stack.any Frame.isGuard = true := by
  obtain ⟨callback, serial, event, delivery, rest, stands⟩ := guarded
  obtain ⟨rfl, rfl⟩ := List.cons.inj stands
  refine ⟨?_, rfl⟩
  have suits := (isChain_cons_cons.mp ordered.chain).1
  cases callback <;> first | rfl | cases suits

theorem push (ordered : Ordered stack) (plain : frame.kind ≠ .foreign)
    (bears : Bears stack frame.kind) (free : ¬ Guarded stack) : Ordered (frame :: stack) where
  chain := isChain_cons.mpr ⟨bears, ordered.chain⟩
  plain other member := by
    rcases mem_cons.mp member with rfl | old
    · exact plain
    · exact ordered.plain other old
  above other member := by
    cases second : other.isGuard with
    | false => rfl
    | true =>
      refine absurd ?_ free
      -- The guard would be the second frame of the stack.
      cases stack with
      | nil => cases member
      | cons top rest =>
        cases rest with
        | nil => cases member
        | cons next others =>
          rcases mem_cons.mp member with rfl | deeper
          · exact ordered.guarded_of_second rfl second
          · rw [ordered.above other deeper] at second
            cases second

/-- Nothing but the client's own call can be put on the call of client code, so any other call has
no listener under it. -/
theorem put (ordered : Ordered stack) (bears : Bears stack frame.kind)
    (inner : frame.kind.isInner = true) : Ordered (frame :: stack) := by
  refine ordered.push (fun odd => ?_) bears ?_
  · rw [odd] at inner
    cases inner
  · rintro ⟨callback, serial, event, delivery, rest, rfl⟩
    have suits := bears _ rfl
    have fits := (isChain_cons_cons.mp ordered.chain).1
    -- The call under the new one stands on a guard, so it is a listener's.
    have listener : (Frame.client callback).kind = .listener := by
      cases callback <;> first | rfl | cases fits
    rw [listener] at suits
    have other : frame.kind ≠ .hold := fun held => by rw [held] at inner; cases inner
    cases kind : frame.kind <;> rw [kind] at suits <;> first | exact other kind | cases suits

section

variable (ordered : Ordered (frame :: stack))
include ordered

theorem upon (suits : top.kind.suits frame.kind = true) (inner : top.kind.isInner = true) :
    Ordered (top :: frame :: stack) :=
  ordered.put (fun _ first => Option.mem_some_iff.mp first ▸ suits) inner

/-- Whatever is not on top has something standing on it. -/
theorem exists_suits {other : Frame} (member : other ∈ stack) :
    ∃ above ∈ frame :: stack, above.Suits other := by
  induction stack generalizing frame with
  | nil => cases member
  | cons next rest ih =>
    rcases mem_cons.mp member with rfl | deeper
    · exact ⟨frame, mem_cons_self, (isChain_cons_cons.mp ordered.chain).1⟩
    · obtain ⟨above, found, suits⟩ := ih ordered.tail deeper
      exact ⟨above, mem_cons_of_mem _ found, suits⟩

/-- Where nobody is called as a listener for a batch and the call on top does not have to do with
telling listeners, no other call has. -/
theorem unshielded (top : frame.isShielded = false)
    (free : (frame :: stack).any Frame.isGuard = false) :
    ∀ other ∈ frame :: stack, other.isShielded = false := by
  -- What would have to stand on such a call is such a call itself, up to a guard.
  have unguarded (other : Frame) (member : other ∈ frame :: stack) : other.kind ≠ .guard := by
    intro kind
    exact absurd (any_eq_true.mpr ⟨other, member, Frame.isGuard_of_kind kind⟩) (by simp [free])
  have undelivered (other : Frame) (member : other ∈ frame :: stack) : other.kind ≠ .deliver := by
    intro kind
    rcases mem_cons.mp member with rfl | deeper
    · simp [Frame.isShielded, kind, Frame.Kind.isShielded] at top
    · obtain ⟨above, found, suits⟩ := ordered.exists_suits deeper
      refine unguarded above found ?_
      rw [Frame.Suits, kind] at suits
      cases kinds : above.kind <;> rw [kinds] at suits <;> first | rfl | cases suits
  intro other member
  rcases mem_cons.mp member with rfl | deeper
  · exact top
  · obtain ⟨above, found, suits⟩ := ordered.exists_suits deeper
    exact Frame.Kind.isShielded_of_suits (unguarded above found) (undelivered above found)
      (unguarded other member) suits

end

/-- Under the client's code, unless it is a listener that is called for a batch, the first call that
is part of what executables do is the client's. -/
theorem client_first (ordered : Ordered stack) (free : stack.any Frame.isGuard = false)
    (casual : ∀ top ∈ stack.head?, top.kind.isCasual = true) :
    (stack.filter Frame.isDeed).head?.all Frame.isClient = true := by
  induction stack with
  | nil => rfl
  | cons top rest ih =>
    have kind := casual top rfl
    have bears := ordered.bears
    simp only [any_cons, Bool.or_eq_false_iff] at free
    by_cases work : top.kind = .work
    · have deed : top.isDeed = true ∧ top.isClient = true := by
        cases top with
        | client callback => cases callback <;> first | exact ⟨rfl, rfl⟩ | cases work
        | _ => cases work
      rw [filter_cons_of_pos deed.1]
      exact deed.2
    · -- Any other such call is not part of what executables do, and stands on such a call.
      have minor : top.isDeed = false := by
        cases top with
        | client callback => cases callback <;> first | rfl | exact absurd rfl work
        | _ => first | rfl | cases kind
      rw [filter_cons_of_neg (by simp [minor])]
      refine ih ordered.tail free.2 fun below first => ?_
      have suits := bears below first
      have unguarded : below.kind ≠ .guard := by
        intro guard
        have is := Frame.isGuard_of_kind guard
        exact absurd (any_eq_true.mpr ⟨below, mem_of_mem_head? first, is⟩) (by simp [free.2])
      exact Frame.Kind.isCasual_of_suits kind work unguarded suits

end Ordered

/-- Nothing is asked for, and nobody panics. -/
def Control.isQuiet : Control → Bool
  | .perform _ | .unwind _ => false
  | _ => true

namespace Machine

/-- The calls stand on one another as they can, and so does what is carried out. -/
structure Posed (machine : Machine) : Prop where
  /-- The calls are in order. -/
  ordered : Ordered machine.stack
  command : ∀ command, machine.control = .perform command →
    ∃ top rest, machine.stack = top :: rest ∧ command.suits top.kind = true
  /-- A panic that nobody catches does not pass anything that has to do with telling listeners. -/
  falling : machine.falls = true → ∀ frame ∈ machine.stack, frame.isShielded = false

variable {machine : Machine} {frame : Frame}

theorem Posed.quiet {stack : List Frame} {control : Control} (stands : machine.stack = stack)
    (turn : machine.control = control) (ordered : Ordered stack)
    (quiet : control.isQuiet = true) : machine.Posed := by
  subst stands turn
  refine ⟨ordered, fun command asks => ?_, fun falling => ?_⟩
  · rw [asks] at quiet
    cases quiet
  · unfold falls at falling
    split at falling
    · rename_i unwinds
      rw [unwinds] at quiet
      cases quiet
    · cases falling

theorem Posed.asks {top : Frame} (stands : machine.stack = top :: rest)
    (turn : machine.control = .perform command) (ordered : Ordered (top :: rest))
    (suits : command.suits top.kind = true) : machine.Posed := by
  refine ⟨stands ▸ ordered, fun other asks => ?_, fun falling => ?_⟩
  · cases turn.symm.trans asks
    exact ⟨top, rest, stands, suits⟩
  · simp [falls, turn] at falling

theorem step_of_perform (turn : machine.control = .perform command) :
    machine.step = machine.start command := by
  rw [Machine.step, turn]

theorem step_of_resume {answer : Answer} (turn : machine.control = .resume answer)
    (stands : machine.stack = frame :: rest) :
    machine.step = Machine.receive { machine with stack := rest } answer frame := by
  obtain ⟨engine, stack, control⟩ := machine
  subst turn stands
  rfl

theorem step_of_unwind {payload : Payload} (turn : machine.control = .unwind payload)
    (stands : machine.stack = frame :: rest) :
    machine.step = Machine.unwind { machine with stack := rest } payload frame := by
  obtain ⟨engine, stack, control⟩ := machine
  subst turn stands
  rfl

theorem notify_of_passive (passive : machine.engine.Passive) (h : HostRef) (notice : Notice) :
    machine.notify h notice = (machine.note (.observed h notice)).resume .done := by
  unfold notify
  cases observer : (machine.engine.host h).observer with
  | silent | tracing => rfl
  | client code => exact absurd observer (passive h code)

end Machine

variable {engine : Engine} {frame : Frame} {base pushed : List Frame} {control : Control}
  {machine : Machine}

/-- A call that gets an answer leaves the calls in order, unless it synchronises; the listeners of a
batch are no watchers. -/
theorem Frame.Sequel.posed (sequel : frame.Sequel engine pushed control)
    (stack : machine.stack = pushed ++ base) (turn : machine.control = control)
    (ordered : Ordered (frame :: base)) (passive : engine.Passive)
    (foreign : ∀ batch, frame = .deliver batch →
      ∀ delivery ∈ batch.deliveries, delivery.listener.isWatcher = false)
    (apart : ∀ e, frame ≠ .gather e) : machine.Posed := by
  have below := ordered.tail
  have bears := ordered.bears
  -- What an executable goes on with stands where it stood.
  have goesOn {next : Frame} (is : frame.kind = .own ∨ frame.kind = .announce)
      (own : next.kind = .own) : Ordered (next :: base) := by
    refine below.put ?_ (by rw [own]; rfl)
    rw [own]
    rcases is with is | is <;> rw [is] at bears <;> exact bears
  cases sequel with
  | ends => exact .quiet stack turn below rfl
  | client => exact .quiet stack turn ordered rfl
  | own is own goes =>
    rcases goes with ⟨_, rfl⟩ | ⟨_, _, rfl⟩
    · exact .quiet stack turn (goesOn is own) rfl
    · exact .asks stack turn (goesOn is own) (by rw [own]; rfl)
  | work is own work =>
    refine .quiet stack turn ((goesOn (.inl is) own).upon ?_ ?_) rfl
    · rw [work, own]
      rfl
    · rw [work]
      rfl
  | @loop _ next h is =>
    have under : Ordered (next :: base) ∧ Frame.Kind.drain.suits next.kind = true := by
      rcases is with ⟨is, own⟩ | ⟨is, again⟩
      · exact ⟨goesOn (.inr is) own, by rw [own]; rfl⟩
      · refine ⟨below.put ?_ ?_, by rw [again]; rfl⟩ <;> rw [again]
        · rw [is] at bears
          exact bears
        · rfl
    exact .quiet stack turn (under.1.upon under.2 rfl) rfl
  | pump => exact .quiet stack turn (below.put bears rfl) rfl
  | take => exact .quiet stack turn (ordered.upon rfl rfl) rfl
  | @tell batch delivery others first =>
    have delivering : Ordered (.deliver { batch with deliveries := others } :: base) :=
      below.put bears rfl
    have stranger := foreign batch rfl delivery (by rw [first]; exact mem_cons_self)
    exact .asks stack turn (delivering.upon rfl rfl) (by simp [Command.suits, stranger, Frame.kind])
  | observe noisy => exact absurd passive noisy
  | ask => exact .quiet stack turn (below.put bears rfl) rfl
  | future k =>
    have asking : Ordered (.asked k :: base) := below.put bears rfl
    exact .quiet stack turn (asking.upon rfl rfl) rfl
  | renew => exact .asks stack turn (below.put bears rfl) rfl
  | other odd =>
    rcases odd with odd | ⟨e, rfl⟩
    · exact absurd odd (ordered.plain _ mem_cons_self)
    · exact absurd rfl (apart e)

/-- A command that can be carried out keeps the calls in order, whoever observes. -/
theorem Command.Sequel.posed (sequel : command.Sequel engine pushed control)
    (stack : machine.stack = pushed ++ base) (turn : machine.control = control)
    (ordered : Ordered base) (passive : engine.Passive)
    (bears : ∃ top rest, base = top :: rest ∧ command.suits top.kind = true) : machine.Posed := by
  obtain ⟨top, rest, rfl, suits⟩ := bears
  cases sequel with
  | ends => exact .quiet stack turn ordered rfl
  | put is fits =>
    rw [fits] at suits
    refine .quiet stack turn (ordered.upon suits ?_) rfl
    rcases is with is | is | is <;> rw [is] <;> rfl
  | observe noisy => exact absurd passive noisy
  | build h e statuses =>
    have handing : Ordered (.hand e :: top :: rest) := ordered.upon suits rfl
    exact .quiet stack turn (handing.upon rfl rfl) rfl
  | execute => exact .asks stack turn ordered suits
  | listener => exact .quiet stack turn (ordered.upon suits rfl) rfl
  | @ask k _ _ asks =>
    have pumped : Ordered (.pumped k :: top :: rest) := ordered.upon suits rfl
    exact asks.posed stack turn pumped passive (by simp) (by simp)
  | run => exact .asks stack turn (ordered.upon suits rfl) rfl
  | other odd =>
    rw [odd] at suits
    cases suits

namespace Machine

/-- A panic goes on past the calls in order, until it is caught. -/
theorem Posed.unwind (posed : machine.Posed) (passive : machine.engine.Passive) {payload : Payload}
    (turn : machine.control = .unwind payload) (quiet : payload.onDrop? = none)
    (stands : machine.stack = frame :: rest) :
    (Machine.unwind { machine with stack := rest } payload frame).Posed := by
  have ordered := posed.ordered
  rw [stands] at ordered
  have passes (next : Machine) (stack : next.stack = rest)
    (control : next.control = machine.control)
      (other : frame.isGuard = false) : next.Posed := by
    refine ⟨by rw [stack]; exact ordered.tail, fun command same => ?_, fun falls => ?_⟩
    · rw [control, turn] at same
      cases same
    · -- It is not caught below, so it was not going to be caught before.
      have before : machine.falls = true := by
        simp only [Machine.falls, control, turn, stack, stands, any_cons, other,
          Bool.false_or] at falls ⊢
        exact falls
      intro other member
      rw [stack] at member
      exact posed.falling before other (by rw [stands]; exact mem_cons_of_mem _ member)
  cases frame with
  | guard serial event delivery =>
    rw [unwind_guard quiet]
    obtain ⟨pushed, stack, sequel⟩ := sequel_listenerReturned { machine with stack := rest } serial
      event delivery (some (.panicked payload.report)) (.guard serial event delivery)
    exact sequel.posed stack rfl ordered passive (by simp) (by simp)
  | _ => exact passes _ rfl rfl rfl

/-- A step of the engine keeps the calls in order, unless it leads to synchronisation; the listeners
of a batch are no watchers. -/
theorem Posed.step (posed : machine.Posed) (passive : machine.engine.Passive)
    (quiet : ∀ payload, machine.control = .unwind payload → payload.onDrop? = none)
    (foreign : ∀ batch, .deliver batch ∈ machine.stack →
      ∀ delivery ∈ batch.deliveries, delivery.listener.isWatcher = false)
    (apart : ∀ e target dependencies onFailure, machine.step.control ≠
      .perform (.synchronise e target dependencies onFailure)) : machine.step.Posed := by
  cases turn : machine.control with
  | perform command =>
    obtain ⟨pushed, stack, sequel⟩ := machine.sequel_start command
    rw [step_of_perform turn]
    exact sequel.posed stack rfl posed.ordered passive (posed.command command turn)
  | resume answer =>
    cases stands : machine.stack with
    | nil =>
      simp only [Machine.step, turn, stands]
      exact ⟨stands ▸ posed.ordered, fun _ same => (by cases same), fun falls => (by cases falls)⟩
    | cons frame rest =>
      obtain ⟨pushed, stack, sequel⟩ := sequel_receive { machine with stack := rest } answer frame
      rw [step_of_resume turn stands] at apart ⊢
      refine sequel.posed stack rfl (stands ▸ posed.ordered) passive ?_ ?_
      · rintro batch rfl
        exact foreign batch (by rw [stands]; exact mem_cons_self)
      · rintro e rfl
        exact apart _ _ _ _ rfl
  | unwind payload =>
    cases stands : machine.stack with
    | nil =>
      simp only [Machine.step, turn, stands]
      exact ⟨stands ▸ posed.ordered, fun _ same => (by cases same), fun falls => (by cases falls)⟩
    | cons frame rest =>
      rw [step_of_unwind turn stands]
      exact posed.unwind passive turn (quiet payload turn) stands
  | called | returned answer =>
    simp only [Machine.step, turn]
    exact posed

end Machine

end Readiness
