import Readiness.Proofs.Machine.Course

/-! Runs that are carried out: what the client does in each of its turns decides the whole run. -/

namespace Readiness

namespace Machine

variable {condition stop : Machine → Bool} {moves : List Move}

/-- Whether a session can be polled can be checked. -/
instance (machine : Machine) (k : SessionRef) : Decidable (machine.sessionIdle k) :=
  inferInstanceAs (Decidable (_ ∧ _ ∧ _))

/-- What the client must have in order to make a call, part by part. -/
theorem permitted_iff (machine : Machine) (command : Command) : machine.Permitted command ↔
    (∀ e ∈ command.executables, machine.isAlive e = true) ∧
    (∀ listener ∈ command.listeners, listener.isClient = true) ∧
    match command with
    | .pump h | .buildConstant h => h < machine.engine.hosts.length
    | .invoke _ event => event.status ≠ .null
    | .poll k => machine.sessionIdle k
    | _ => True := by
  constructor
  · intro permitted
    refine ⟨permitted.alive, permitted.own, ?_⟩
    cases command with
    | pump h => exact permitted.opened h (.inl rfl)
    | buildConstant h => exact permitted.opened h (.inr rfl)
    | invoke listener event => exact permitted.real listener event rfl
    | poll k => exact permitted.idle k rfl
    | _ => trivial
  · rintro ⟨alive, own, rest⟩
    refine ⟨alive, own, ?_, ?_, ?_⟩
    · rintro h (rfl | rfl) <;> exact rest
    · rintro listener event rfl
      exact rest
    · rintro k rfl
      exact rest

/-- Whether the client may make a call can be checked. -/
instance (machine : Machine) (command : Command) : Decidable (machine.Permitted command) :=
  haveI : Decidable (match command with
      | .pump h | .buildConstant h => h < machine.engine.hosts.length
      | .invoke _ event => event.status ≠ .null
      | .poll k => machine.sessionIdle k
      | _ => True) :=
    match command with
    | .pump h | .buildConstant h => inferInstanceAs (Decidable (h < machine.engine.hosts.length))
    | .invoke _ event => inferInstanceAs (Decidable (event.status ≠ .null))
    | .poll k => inferInstanceAs (Decidable (machine.sessionIdle k))
    | .execute _ _ | .setStatus _ _ | .report _ _ | .fail _ _ | .synchronise _ _ _ _ | .onReady _ _
    | .destroy _ => inferInstanceAs (Decidable True)
  decidable_of_iff _ (machine.permitted_iff command).symm

/-- Whether no observer panics can be checked. -/
instance (machine : Machine) : Decidable machine.ObserverSteady :=
  match turn : machine.control, stands : machine.stack with
  | .unwind _, frame :: _ =>
    decidable_of_iff (frame.isObserver = false)
      ⟨fun plain _ _ _ _ same => (List.cons.inj (stands.symm.trans same)).1 ▸ plain,
        fun steady => steady _ _ _ turn stands⟩
  | .unwind _, [] => .isTrue fun _ _ _ _ same => by rw [stands] at same; cases same
  | .perform _, _ | .resume _, _ | .called, _ | .returned _, _ =>
    .isTrue fun _ _ _ same => by rw [turn] at same; cases same

/-- One thing that the client does in its turn. -/
inductive Move where
  | openHost (settings : Settings) (observer : Observer)
  | advance (elapsed : Nat)
  | build (h : HostRef) (work : Work)
  | register (h : HostRef) (id : String) (work : Work)
  | retain (e : ExecutableRef)
  | release (e : ExecutableRef)
  | call (command : Command)
  | accept
  | finish (reply : Reply)
  | subscribe (e : ExecutableRef) (code : CodeRef) (status : Option Status) (once : Bool)
  | unsubscribe (e : ExecutableRef) (code : CodeRef) (status : Option Status)
  | beginWait (e : ExecutableRef)
  | openSession (h : HostRef) (future : Future)
  | closeSession (k : SessionRef)
  | panic (payload : Payload)

/-- What becomes of the machine if the client may build an executable, and can. -/
def built? (machine : Machine) (h : HostRef) (id : Option String) (work : Work) : Option Machine :=
  if machine.clientTurn ∧ h < machine.engine.hosts.length ∧
      ∀ d ∈ work.dependencies, machine.isAlive d = true then
    match machine.build h id work with
    | (built, .ok _) => some built
    | (_, .error _) => none
  else none

/-- What becomes of the machine if the client may do that. -/
def move? (machine : Machine) : Move → Option Machine
  | .openHost settings observer =>
    if machine.clientTurn then some (machine.openHost settings observer).1 else none
  | .advance elapsed => if machine.clientTurn then some (machine.advance elapsed) else none
  | .build h work => machine.built? h none work
  | .register h id work => machine.built? h (some id) work
  | .retain e =>
    if machine.clientTurn ∧ machine.isAlive e = true then some (machine.retain e) else none
  | .release e =>
    if machine.clientTurn ∧ 0 < (machine.engine.executable e).handles then
      some (machine.release e)
    else none
  | .call command =>
    if machine.clientTurn ∧ machine.Permitted command then some (machine.call command) else none
  | .accept => if machine.control = .called then some machine.accept else none
  | .finish reply =>
    match machine.stack with
    | .client _ :: _ => if machine.clientTurn then some (machine.finish reply) else none
    | _ => none
  | .subscribe e code status once =>
    if machine.clientTurn ∧ machine.isAlive e = true then
      some (machine.subscribe e (.client code) status once)
    else none
  | .unsubscribe e code status =>
    if machine.clientTurn ∧ machine.isAlive e = true then
      some (machine.unsubscribe e (.client code) status).1
    else none
  | .beginWait e =>
    if machine.clientTurn ∧ machine.isAlive e = true then some (machine.beginWait e).1 else none
  | .openSession h future =>
    if machine.clientTurn ∧ h < machine.engine.hosts.length then
      some (machine.openSession h future).1
    else none
  | .closeSession k =>
    if machine.clientTurn ∧ machine.sessionIdle k then some (machine.closeSession k) else none
  | .panic payload =>
    if machine.clientTurn ∧ payload.onDrop? = none then some (machine.panic payload) else none

/-- Lets the engine go on until it comes to where it is to stop, as long as a condition is met. -/
def proceed? (condition stop : Machine → Bool) : Nat → Machine → Option Machine
  | 0, machine => if stop machine then some machine else none
  | fuel + 1, machine =>
    if stop machine then some machine
    else if machine.clientTurn then none
    else if condition machine.step then proceed? condition stop fuel machine.step else none

/-- Carries out a run turn by turn, as long as a condition is met. -/
def carryOut? (condition : Machine → Bool) (machine : Machine) (moves : List Move) :
    Option Machine :=
  moves.foldlM (fun machine move => do
    let moved ← machine.move? move
    if condition moved then proceed? condition clientTurn 100 moved else none) machine

variable {machine later : Machine}

theorem next_of_built {h : HostRef} {id : Option String} {work : Work}
    (made : machine.built? h id work = some later) : Next machine later := by
  unfold built? at made
  split at made
  · rename_i able
    split at made
    · rename_i built e success
      cases made
      exact .build able.1 able.2.1 able.2.2 success
    · cases made
  · cases made

/-- What the client may do is a step of a run. -/
theorem next_of_move {move : Move} (moved : machine.move? move = some later) :
    Next machine later := by
  -- What makes a move possible is what the step of its kind asks for.
  cases move with
  | openHost settings observer =>
    obtain ⟨able, ⟨⟩⟩ := Option.ite_none_right_eq_some.mp moved
    exact .openHost able settings observer
  | advance elapsed =>
    obtain ⟨able, ⟨⟩⟩ := Option.ite_none_right_eq_some.mp moved
    exact .advance able elapsed
  | build h work => exact next_of_built moved
  | register h id work => exact next_of_built moved
  | retain e =>
    obtain ⟨able, ⟨⟩⟩ := Option.ite_none_right_eq_some.mp moved
    exact .retain able.1 able.2
  | release e =>
    obtain ⟨able, ⟨⟩⟩ := Option.ite_none_right_eq_some.mp moved
    exact .release able.1 able.2
  | call command =>
    obtain ⟨able, ⟨⟩⟩ := Option.ite_none_right_eq_some.mp moved
    exact .call able.1 able.2
  | accept =>
    obtain ⟨able, ⟨⟩⟩ := Option.ite_none_right_eq_some.mp moved
    exact .accept able
  | finish reply =>
    simp only [move?] at moved
    split at moved
    · rename_i callback rest top
      split at moved
      · cases moved
        exact .finish ‹_› top reply
      · cases moved
    · cases moved
  | subscribe e code status once =>
    obtain ⟨able, ⟨⟩⟩ := Option.ite_none_right_eq_some.mp moved
    exact .subscribe able.1 able.2 code status once
  | unsubscribe e code status =>
    obtain ⟨able, ⟨⟩⟩ := Option.ite_none_right_eq_some.mp moved
    exact .unsubscribe able.1 able.2 code status
  | beginWait e =>
    obtain ⟨able, ⟨⟩⟩ := Option.ite_none_right_eq_some.mp moved
    exact .beginWait able.1 able.2
  | openSession h future =>
    obtain ⟨able, ⟨⟩⟩ := Option.ite_none_right_eq_some.mp moved
    exact .openSession able.1 future able.2
  | closeSession k =>
    obtain ⟨able, ⟨⟩⟩ := Option.ite_none_right_eq_some.mp moved
    exact .closeSession able.1 able.2
  | panic payload =>
    obtain ⟨able, ⟨⟩⟩ := Option.ite_none_right_eq_some.mp moved
    exact .panic able.1 able.2

/-- What the engine goes on with is a run. -/
theorem reachesWhile_of_proceed {fuel : Nat} (holds : condition machine = true)
    (proceeds : proceed? condition stop fuel machine = some later) :
    machine.ReachesWhile (fun state => condition state = true) later := by
  induction fuel generalizing machine with
  | zero =>
    simp only [proceed?] at proceeds
    split at proceeds
    · cases proceeds
      exact .refl holds
    · cases proceeds
  | succ fuel ih =>
    simp only [proceed?] at proceeds
    split at proceeds
    · cases proceeds
      exact .refl holds
    · split at proceeds
      · cases proceeds
      · rename_i busy
        split at proceeds
        · rename_i next
          have first : machine.ReachesWhile (fun state => condition state = true) machine.step :=
            .step (.refl holds) (.engine (by simpa using busy)) next
          exact first.trans (ih next proceeds)
        · cases proceeds

/-- What is carried out is a run. -/
theorem reachesWhile_of_carryOut (holds : condition machine = true)
    (carried : machine.carryOut? condition moves = some later) :
    machine.ReachesWhile (fun state => condition state = true) later := by
  induction moves generalizing machine with
  | nil =>
    cases carried
    exact .refl holds
  | cons move rest ih =>
    simp only [carryOut?, List.foldlM_cons] at carried
    obtain ⟨between, one, others⟩ := Option.bind_eq_some_iff.mp carried
    obtain ⟨moved, acted, proceeds⟩ := Option.bind_eq_some_iff.mp one
    split at proceeds
    · rename_i next
      have first : machine.ReachesWhile (fun state => condition state = true) moved :=
        .step (.refl holds) (next_of_move acted) next
      have second := reachesWhile_of_proceed next proceeds
      exact (first.trans second).trans (ih second.holds others)
    · cases proceeds

/-- The state that a list of moves leads to, if they can be made under a condition. -/
def after (machine : Machine) (moves : List Move) (condition : Machine → Bool := fun _ => true) :
    Machine :=
  (machine.carryOut? condition moves).getD machine

theorem reaches_after (machine : Machine) (moves : List Move) :
    machine.Reaches (machine.after moves) := by
  unfold after
  cases carried : machine.carryOut? (fun _ => true) moves with
  | none => exact .refl
  | some later => exact (reachesWhile_of_carryOut rfl carried).reaches

/-- A run can come to what a list of moves leads to under a condition. -/
theorem reachesWhile_after (holds : condition machine = true)
    (possible : (machine.carryOut? condition moves).isSome = true) :
    machine.ReachesWhile (fun state => condition state = true) (machine.after moves condition) := by
  obtain ⟨later, carried⟩ := Option.isSome_iff_exists.mp possible
  rw [after, carried]
  exact reachesWhile_of_carryOut holds carried

/-- The state that the engine comes to where it is to stop, if it does so under a condition. -/
def halt (machine : Machine) (stop : Machine → Bool)
    (condition : Machine → Bool := fun _ => true) : Machine :=
  (proceed? condition stop 100 machine).getD machine

theorem reaches_halt (machine : Machine) (stop : Machine → Bool) :
    machine.Reaches (machine.halt stop) := by
  unfold halt
  cases proceeds : proceed? (fun _ => true) stop 100 machine with
  | none => exact .refl
  | some later => exact (reachesWhile_of_proceed rfl proceeds).reaches

theorem reachesWhile_halt (holds : condition machine = true)
    (possible : (proceed? condition stop 100 machine).isSome = true) :
    machine.ReachesWhile (fun state => condition state = true) (machine.halt stop condition) := by
  obtain ⟨later, proceeds⟩ := Option.isSome_iff_exists.mp possible
  rw [halt, proceeds]
  exact reachesWhile_of_proceed holds proceeds

end Machine

end Readiness
