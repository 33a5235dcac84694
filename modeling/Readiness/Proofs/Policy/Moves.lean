import Readiness.Proofs.Policy.Ungated

/-! What the client does in its turns, as far as it gives nothing up, and what that shows in the
gist.
-/

namespace Readiness

/-- The call of a listener for a batch is on top. -/
def isGuarded : List Frame → Bool
  | .client _ :: .guard _ _ _ :: _ => true
  | _ => false

theorem isGuarded_iff {stack : List Frame} : isGuarded stack = true ↔ Guarded stack := by
  constructor
  · intro guarded
    unfold isGuarded at guarded
    split at guarded
    · exact ⟨_, _, _, _, _, rfl⟩
    · cases guarded
  · rintro ⟨callback, serial, event, delivery, rest, rfl⟩
    rfl

namespace Machine

variable {machine next : Machine} {move : Move}

/-- What becomes of the machine by a move of the client. -/
def made (machine : Machine) : Move → Machine
  | .openHost settings observer => (machine.openHost settings observer).1
  | .advance elapsed => machine.advance elapsed
  | .build h work => machine.update (·.addTemporary h work 1)
  | .register h id work => machine.update (·.addRegistered h id work)
  | .retain e => machine.retain e
  | .release e => machine.release e
  | .call command => machine.call command
  | .accept => machine.accept
  | .finish reply => machine.finish reply
  | .subscribe e code status once => machine.subscribe e (.client code) status once
  | .unsubscribe e code status => (machine.unsubscribe e (.client code) status).1
  | .beginWait e => (machine.beginWait e).1
  | .openSession h future => (machine.openSession h future).1
  | .closeSession k => machine.closeSession k
  | .panic payload => machine.panic payload

/-- What the client must have in order to make a move in its turn. -/
def Able (machine : Machine) : Move → Prop
  | .build h work =>
    h < machine.engine.hosts.length ∧ (∀ d ∈ work.dependencies, machine.isAlive d = true) ∧
      work.fault? = none
  | .register h id work =>
    h < machine.engine.hosts.length ∧ (∀ d ∈ work.dependencies, machine.isAlive d = true) ∧
      work.fault? = none ∧ machine.resolve? h id = none
  | .retain e | .subscribe e _ _ _ | .unsubscribe e _ _ | .beginWait e => machine.isAlive e = true
  | .release e => 0 < (machine.engine.executable e).handles
  | .call command => machine.Permitted command
  | .accept => machine.control = .called
  | .finish _ => ∃ callback rest, machine.stack = .client callback :: rest
  | .openSession h _ => h < machine.engine.hosts.length
  | .closeSession k => machine.sessionIdle k
  | .panic payload => payload.onDrop? = none
  | .openHost _ _ | .advance _ => True

/-- When an executable can be built. -/
theorem built?_eq_some_iff {h : HostRef} {id : Option String} {work : Work} :
    machine.built? h id work = some next ↔ machine.clientTurn = true ∧
      (h < machine.engine.hosts.length ∧ (∀ d ∈ work.dependencies, machine.isAlive d = true) ∧
        work.fault? = none ∧ ∀ name ∈ id, machine.resolve? h name = none) ∧
      machine.made (id.elim (.build h work) (.register h · work)) = next := by
  unfold built?
  by_cases able : machine.clientTurn = true ∧ h < machine.engine.hosts.length ∧
      ∀ d ∈ work.dependencies, machine.isAlive d = true
  · rw [if_pos able]
    cases lawful : work.fault? with
    | some fault => simp [build_of_fault lawful]
    | none =>
      cases id with
      | none => simpa [build_temporary lawful, able.1, able.2.1, made] using fun _ => able.2.2
      | some id =>
        rw [build_registered lawful]
        cases resolved : machine.resolve? h id with
        | some e => simp [resolved]
        | none => simpa [able.1, able.2.1, made, resolved] using fun _ => able.2.2
  · rw [if_neg able]
    simp only [reduceCtorEq, false_iff]
    exact fun all => able ⟨all.1, all.2.1.1, all.2.1.2.1⟩

/-- When the client can make a move, and what becomes of the machine then. -/
theorem move?_eq_some_iff : machine.move? move = some next ↔
    machine.clientTurn = true ∧ machine.Able move ∧ machine.made move = next := by
  cases move with
  | build h work => simp [move?, built?_eq_some_iff, Able]
  | register h id work => simp [move?, built?_eq_some_iff, Able]
  | accept =>
    have turn : machine.control = .called → machine.clientTurn = true := fun called => by
      rw [clientTurn, called]
    simp only [move?, Able, made, Option.ite_none_right_eq_some, Option.some.injEq]
    exact ⟨fun both => ⟨turn both.1, both⟩, And.right⟩
  | finish reply =>
    simp only [move?, Able, made]
    split
    · rename_i callback rest stands
      simp [stands]
    · rename_i other
      simp only [reduceCtorEq, false_iff]
      rintro ⟨_, ⟨callback, rest, stands⟩, _⟩
      exact other _ _ stands
  | openHost settings observer | advance elapsed => simp [move?, Able, made]
  | retain e | release e | call command | subscribe e code status once | unsubscribe e code status
  | beginWait e | openSession h future | closeSession k | panic payload =>
    simp [move?, Able, made, and_assoc]

/-- A move that does not have to do with what executables do. -/
def hides (machine : Machine) : Move → Bool
  | .accept | .openSession _ _ | .closeSession _ => true
  | .call command => !command.isDeed
  | .finish _ => machine.stack.head?.any (!·.isDeed)
  | .panic _ => machine.stack.any Frame.isGuard
  | _ => false

/-- A move by which the client gives nothing up and synchronises nobody, and lets nobody but itself
and its work call the engine: a listener that is called for a batch only returns or panics, and no
observer is client code. -/
def allows (machine : Machine) : Move → Bool
  | .accept | .finish _ | .panic _ => true
  | .release _ | .call (.destroy _) | .call (.synchronise _ _ _ _) | .openHost _ (.client _) =>
    false
  | _ => !isGuarded machine.stack

theorem Posed.of_same (posed : machine.Posed) (stack : next.stack = machine.stack)
    (control : next.control = machine.control) : next.Posed := by
  obtain ⟨engine, frames, turn⟩ := next
  subst stack control
  exact ⟨posed.ordered, posed.command, posed.falling⟩

section

variable (ungated : machine.Ungated)
include ungated

section

variable (turn : machine.clientTurn = true)
include turn

/-- At the turn of the client its code is on top, if anything is. -/
theorem Ungated.client_on_top {top : Frame} (first : top ∈ machine.stack.head?) :
    top.kind = .work ∨ top.kind = .listener ∨ top.kind = .future := by
  have fits := ungated.reachable.sound.control
  have client : top.isClient = true := by
    cases control : machine.control with
    | called | returned answer =>
      rw [control] at fits
      exact fits top first
    | perform command | resume answer | unwind payload => simp [clientTurn, control] at turn
  have plain := ungated.posed.ordered.plain top (List.mem_of_mem_head? first)
  cases top with
  | client callback => cases callback <;> simp_all [Frame.kind]
  | _ => cases client

/-- At the turn of the client, unless a listener is called for a batch, no call has to do with
telling listeners. -/
theorem Ungated.unshielded (free : machine.stack.any Frame.isGuard = false) :
    ∀ frame ∈ machine.stack, frame.isShielded = false := by
  have ordered := ungated.posed.ordered
  cases stands : machine.stack with
  | nil => exact List.forall_mem_nil _
  | cons top rest =>
    rw [stands] at ordered free
    refine ordered.unshielded ?_ free
    have first : top ∈ machine.stack.head? := by rw [stands]; rfl
    rcases ungated.client_on_top turn first with kind | kind | kind <;>
      rw [Frame.isShielded, kind] <;> rfl

/-- A call of the client keeps the calls in order, where it is allowed. -/
theorem Ungated.posed_call {command : Command} (permitted : machine.Permitted command)
    (allowed : machine.allows (.call command) = true) : (machine.call command).Posed := by
  have free : ¬ Guarded machine.stack := by
    rw [← isGuarded_iff]
    cases command <;> simp_all [allows]
  have held : Ordered (.hold command.executables :: machine.stack) := by
    refine ungated.posed.ordered.push (by simp [Frame.kind]) ?_ free
    intro top first
    rw [show (Frame.hold command.executables).kind = .hold from rfl]
    rcases ungated.client_on_top turn first with kind | kind | kind <;> rw [kind] <;> rfl
  refine .asks rfl rfl held ?_
  cases command with
  | invoke listener event =>
    have own := permitted.own listener List.mem_cons_self
    cases listener <;> first | rfl | cases own
  | destroy e | synchronise e target dependencies onFailure => cases allowed
  | _ => rfl

/-- Whatever the client is allowed to do keeps the calls in order. -/
theorem Ungated.posed_made (able : machine.Able move) (allowed : machine.allows move = true) :
    (machine.made move).Posed := by
  have posed := ungated.posed
  cases move with
  | call command => exact ungated.posed_call turn able allowed
  | accept => exact ⟨posed.ordered, fun _ same => (by cases same), fun falls => (by cases falls)⟩
  | finish reply =>
    obtain ⟨callback, rest, stands⟩ := able
    have below : Ordered machine.stack.tail := by
      have ordered := posed.ordered
      rw [stands] at ordered ⊢
      exact ordered.tail
    exact ⟨below, fun _ same => (by cases same), fun falls => (by cases falls)⟩
  | panic payload =>
    refine ⟨posed.ordered, fun _ same => (by cases same), fun falling => ?_⟩
    have free : machine.stack.any Frame.isGuard = false := by
      simpa only [made, Machine.panic, falls, Bool.not_eq_true'] using falling
    exact ungated.unshielded turn free
  | openHost settings observer | advance elapsed | build h work | register h id work | retain e
  | release e | subscribe e code status once | unsubscribe e code status | openSession h future
  | closeSession k => exact posed.of_same rfl rfl
  | beginWait e =>
    simp only [made, beginWait]
    split <;> exact posed.of_same rfl rfl

end

end

theorem gist_of_clientTurn (turn : machine.clientTurn = true) : machine.gist = machine.shadow := by
  cases control : machine.control with
  | called | returned answer =>
    rw [gist_eq_shadow (falls_of_control control (by simp)), control]
    rfl
  | perform command | resume answer | unwind payload => simp [clientTurn, control] at turn

/-- A move that does not have to do with what executables do does not show. -/
theorem gist_made_of_hides (turn : machine.clientTurn = true) (able : machine.Able move)
    (hidden : machine.hides move = true) : (machine.made move).gist = machine.gist := by
  rw [gist_of_clientTurn turn]
  cases move with
  | accept => exact gist_eq_shadow rfl
  | openSession h future => exact gist_of_clientTurn turn
  | closeSession k =>
    have still : (machine.closeSession k).gist = (machine.closeSession k).shadow :=
      gist_of_clientTurn turn
    exact still.trans (shadow_update_of_same (machine.engine.gist_endSession k))
  | call command =>
    have minor : command.isDeed = false := by simpa [hides] using hidden
    simp only [made, Machine.call, gist_perform, minor]
    exact shadow_push_minor rfl rfl
  | finish reply =>
    obtain ⟨callback, rest, stands⟩ := able
    have minor : (Frame.client callback).isDeed = false := by simpa [hides, stands] using hidden
    have ends : (machine.finish reply).gist = machine.engine.gist.under machine.stack.tail :=
      gist_eq_shadow rfl
    rw [made, ends, shadow, stands, Gist.under_cons_minor _ minor]
    exact congrArg (fun news => { machine.engine.gist.under rest with news }) (add_zero _).symm
  | panic payload =>
    have guarded : machine.stack.any Frame.isGuard = true := hidden
    refine gist_eq_shadow ?_
    simp only [made, Machine.panic, falls, guarded, Bool.not_true]
  | _ => cases hidden

section

variable (ungated : machine.Ungated)
include ungated

section

variable (turn : machine.clientTurn = true)
include turn

theorem Ungated.isIdle (free : machine.stack.any Frame.isGuard = false) :
    machine.gist.isIdle = true := by
  rw [gist_of_clientTurn turn]
  refine ungated.posed.ordered.client_first free fun top first => ?_
  rcases ungated.client_on_top turn first with kind | kind | kind <;> rw [kind] <;> rfl

/-- A move that shows is not made by a listener that is called for a batch. -/
theorem Ungated.free_of_shown (able : machine.Able move) (allowed : machine.allows move = true)
    (shown : machine.hides move = false) : machine.stack.any Frame.isGuard = false := by
  cases any : machine.stack.any Frame.isGuard with
  | false => rfl
  | true =>
    have ordered := ungated.posed.ordered
    cases stands : machine.stack with
    | nil =>
      rw [stands] at any
      cases any
    | cons top rest =>
      rw [stands] at ordered any
      have first : top ∈ machine.stack.head? := by rw [stands]; rfl
      have guarded : Guarded (top :: rest) := by
        refine (ordered.guard_or_guarded any).resolve_left fun guard => ?_
        cases top with
        | guard serial event delivery =>
          rcases ungated.client_on_top turn first with kind | kind | kind <;> cases kind
        | _ => cases guard
      have listener := (ordered.listener_of_guarded guarded).1
      -- A listener that is called for a batch can only start, return or panic, which does not show.
      have is : isGuarded machine.stack = true := by rw [stands]; exact isGuarded_iff.mpr guarded
      cases move with
      | accept => cases shown
      | finish reply =>
        have minor : top.isDeed = false := by
          cases top with
          | client callback => cases callback <;> first | rfl | cases listener
          | _ => cases listener
        simp [hides, stands, minor] at shown
      | panic payload =>
        rw [hides, stands, any] at shown
        cases shown
      | openHost settings observer => cases observer <;> simp [allows, is] at allowed
      | call command => cases command <;> simp [allows, is] at allowed
      | _ => simp [allows, is] at allowed

/-- Any other move that is allowed shows in the gist as what the client does there. -/
theorem Ungated.gist_made (able : machine.Able move) (allowed : machine.allows move = true)
    (shown : machine.hides move = false) : (machine.made move).gist = machine.gist.act move := by
  have still {change : Engine → Engine} : (machine.update change).gist =
    (machine.update change).shadow := gist_of_clientTurn turn
  rw [gist_of_clientTurn turn]
  cases move with
  | openHost settings observer =>
    exact still.trans (shadow_update (machine.engine.gist_addHost settings observer))
  | advance elapsed => exact still
  | build h work =>
    exact still.trans (shadow_update (machine.engine.gist_addTemporary h work 1))
  | register h id work =>
    exact still.trans (shadow_update (machine.engine.gist_addRegistered h id work))
  | retain e => exact still
  | subscribe e code status once => exact still
  | unsubscribe e code status => exact still
  | beginWait e =>
    have opened := ungated.reachable.sound.store.hosted e (ungated.isAlive_iff e |>.mp able)
    have same : machine.shadow.store.executable e = machine.engine.executable e := rfl
    simp only [made, Machine.beginWait, Gist.act, same]
    -- A wait for what has failed is over at once, any other one listens.
    by_cases failed : (machine.engine.executable e).hasFailed = true
    · rw [if_pos failed, if_pos failed]
      exact still.trans (shadow_update (machine.engine.gist_addWait e _))
    · rw [if_neg failed, if_neg failed]
      have length : machine.shadow.store.waits.length = machine.engine.waits.length :=
        List.length_map ..
      have listening := (machine.engine.addWait ⟨e, none⟩).gist_listenReady opened
        { success := .waitReady machine.engine.waits.length
          failure := some (.waitFailed machine.engine.waits.length)
          once := true }
      rw [machine.engine.gist_addWait] at listening
      rw [length]
      exact still.trans (shadow_update_of_gist listening)
  | call command =>
    have deed : command.isDeed = true := by simpa [hides] using shown
    rw [made, Machine.call, gist_perform, shadow_push_minor rfl rfl, if_pos deed]
    rfl
  | finish reply =>
    obtain ⟨callback, rest, stands⟩ := able
    have deed : (Frame.client callback).isDeed = true := by simpa [hides, stands] using shown
    have ends : (machine.finish reply).gist = machine.engine.gist.under machine.stack.tail :=
      gist_eq_shadow rfl
    rw [made, ends, shadow, stands, Gist.under_cons_deed _ deed]
    exact congrArg (fun news => { machine.engine.gist.under rest with news }) (add_zero _).symm
  | panic payload =>
    have free : machine.stack.any Frame.isGuard = false := shown
    have falling : (machine.panic payload).falls = true := by
      simp only [Machine.panic, falls, free, Bool.not_false]
    refine Gist.ext rfl rfl ?_ rfl
    simp only [made, gist, falling, if_true]
    rfl
  | release e => cases allowed
  | accept | openSession h future | closeSession k => cases shown

end

/-- Whatever the client is allowed to do keeps the machine ungated. -/
theorem Ungated.made (moved : machine.move? move = some next)
    (allowed : machine.allows move = true) : next.Ungated := by
  have step := next_of_move moved
  obtain ⟨turn, able, rfl⟩ := move?_eq_some_iff.mp moved
  refine ⟨ungated.reachable.step step, ungated.posed_made turn able allowed, ?_,
    ungated.unwatched_next step⟩
  cases shown : machine.hides move with
  | true =>
    rw [gist_made_of_hides turn able shown]
    exact ungated.allKept
  | false =>
    have idle := ungated.isIdle turn (ungated.free_of_shown turn able allowed shown)
    rw [ungated.gist_made turn able allowed shown]
    refine ungated.allKept.act idle ?_
    rintro settings code rfl
    cases allowed

end

end Machine

end Readiness
