import Readiness.Proofs.Policy.Posture

/-! What can become of executables and hosts by what the client does, while it gives nothing up and
synchronises nobody.

Main statement: what the client did decides the gist whenever the next step is the client's,
whatever the policies of the hosts are.
-/

namespace Readiness

/-- The calls that a transition owes to those that are registered for it, if there is one. -/
def Engine.owes (engine : Engine) (e : ExecutableRef) (status : Status) :
    Multiset (Event × Delivery) :=
  if (engine.executable e).moves status then
    Transition.news ⟨(engine.executable e).status, status⟩ e
      ((engine.executable e).subscriptions.due status)
  else 0

namespace Gist

/-- A composite is about to be synchronised. -/
def gathers (gist : Gist) : Bool :=
  match gist.errand, gist.duties with
  | none, .gather _ :: _ => true
  | _, _ => false

/-- What listeners have been told or are going to be told of transitions. -/
def dues (gist : Gist) : Multiset (Event × Delivery) :=
  gist.news.filter fun call => call.2.entry.isSome

/-- The calls that the next step owes, if an executable moves then. -/
def owes (gist : Gist) : Multiset (Event × Delivery) :=
  match gist.errand with
  | some (.setStatus e status) => gist.store.owes e status
  | _ => 0

/-- What is granted at once belongs to no entry. -/
theorem filter_grants (executable : Executable) (e : ExecutableRef) (request : ReadyRequest) :
    (grants executable e request).filter (fun call => call.2.entry.isSome) = 0 := by
  unfold grants
  split <;> rfl

/-- What a transition owes belongs to entries. -/
theorem filter_news (transition : Transition) (e : ExecutableRef) (entries : List Entry) :
    (transition.news e entries).filter (fun call => call.2.entry.isSome) =
      transition.news e entries := by
  refine Multiset.filter_eq_self.mpr fun call member => ?_
  obtain ⟨entry, _, rfl⟩ := List.mem_map.mp (Multiset.mem_coe.mp member)
  rfl

/-- A step adds the calls that it owes. -/
theorem dues_turn (gist : Gist) : gist.turn.dues = gist.dues + gist.owes := by
  obtain ⟨store, news, duties, errand⟩ := gist
  cases errand with
  | none =>
    cases duties with
    | nil => exact (add_zero _).symm
    | cons frame rest =>
      refine Eq.trans ?_ (add_zero _).symm
      cases frame with
      | begin e status =>
        simp only [turn, receive, startWork]
        split <;> rfl
      | moves e statuses => cases statuses <;> rfl
      | _ => rfl
  | some command =>
    cases command with
    | setStatus e status =>
      simp only [turn, start, owes, Engine.owes]
      split
      · simp only [dues, Multiset.filter_add, filter_news]
      · exact (add_zero _).symm
    | onReady e request =>
      simp only [turn, start, owes, dues, Multiset.filter_add, filter_grants]
    | execute e refresh | report e status | fail e reason =>
      simp only [turn, start, owes, add_zero]
      split <;> rfl
    | _ => exact (add_zero _).symm

/-- The client adds nothing to what is owed. -/
theorem dues_act (gist : Gist) (move : Machine.Move) : (gist.act move).dues = gist.dues := by
  cases move with
  | beginWait e =>
    simp only [act]
    split
    · rfl
    · simp only [dues, Multiset.filter_add, filter_grants, add_zero]
  | _ => rfl

/-- What the client must have for what it does to executables and hosts. -/
def Able (gist : Gist) : Machine.Move → Prop
  | .openHost _ observer => ∀ code, observer ≠ .client code
  | .build h work =>
    h < gist.store.hosts.length ∧
      (∀ d ∈ work.dependencies, d < gist.store.executables.length) ∧ work.fault? = none
  | .register h id work =>
    h < gist.store.hosts.length ∧
      (∀ d ∈ work.dependencies, d < gist.store.executables.length) ∧ work.fault? = none ∧
      ∀ e ∈ (gist.store.host h).roster.lookup id, ¬ e < gist.store.executables.length
  | .retain e | .subscribe e _ _ _ | .unsubscribe e _ _ | .beginWait e =>
    e < gist.store.executables.length
  | .call command =>
    (command.isDeed = true ∧ command.suits .hold = true) ∧
      (∀ e ∈ command.executables, e < gist.store.executables.length) ∧
      (∀ listener ∈ command.listeners, listener.isClient = true) ∧
      ∀ h, command = .buildConstant h → h < gist.store.hosts.length
  | .finish _ => ∃ callback rest, gist.duties = .client callback :: rest
  | .panic payload => payload.onDrop? = none
  | .advance _ => True
  | .release _ | .accept | .openSession _ _ | .closeSession _ => False

end Gist

/-- The move as it is if hosts are opened under this policy. -/
def Machine.Move.under (policy : DeliveryPolicy) : Machine.Move → Machine.Move
  | .openHost settings observer => .openHost { settings with dispatch := policy } observer
  | move => move

/-- The last policy counts. -/
theorem Machine.Move.under_under (move : Machine.Move) (policy other : DeliveryPolicy) :
    (move.under policy).under other = move.under other := by
  cases move <;> rfl

/-- Policies do not show in the gist. -/
theorem Gist.act_under (gist : Gist) (policy : DeliveryPolicy) (move : Machine.Move) :
    gist.act (move.under policy) = gist.act move := by
  cases move <;> rfl

/-- Policies forbid nothing. -/
theorem Gist.able_under {gist : Gist} {policy : DeliveryPolicy} {move : Machine.Move} :
    gist.Able (move.under policy) ↔ gist.Able move := by
  cases move <;> rfl

/-- What can become of executables and hosts by what the client does. -/
inductive Story : List Machine.Move → Gist → Prop where
  | start : Story [] {}
  | turn {moves : List Machine.Move} {gist : Gist} (before : Story moves gist)
    (busy : gist.isIdle = false) (apart : gist.gathers = false) : Story moves gist.turn
  | act {moves : List Machine.Move} {gist : Gist} (before : Story moves gist)
    (idle : gist.isIdle = true) {move : Machine.Move} (able : gist.Able move) :
    Story (moves ++ [move]) (gist.act move)

namespace Story

variable {moves : List Machine.Move} {move : Machine.Move} {gist other : Gist}

/-- Executables go on until the next step is the client's. -/
def GoesOn (gist next : Gist) : Prop :=
  gist.isIdle = false ∧ gist.turn = next

/-- Without moves, executables have only gone on. -/
theorem goesOn_of_nil (story : Story moves gist) (none : moves = []) :
    Relation.ReflTransGen GoesOn {} gist := by
  induction story with
  | start => exact .refl
  | turn before busy apart ih => exact (ih none).tail ⟨busy, rfl⟩
  | act before idle able ih => simp at none

/-- After the last thing that the client did, executables can only have gone on. -/
theorem goesOn_of_append {early : List Machine.Move} (story : Story moves gist)
    (last : moves = early ++ [move]) : ∃ before : Gist, Story early before ∧
      before.isIdle = true ∧ Relation.ReflTransGen GoesOn (before.act move) gist := by
  induction story with
  | start => simp at last
  | turn story busy apart ih =>
    obtain ⟨before, early, idle, goes⟩ := ih last
    exact ⟨before, early, idle, goes.tail ⟨busy, rfl⟩⟩
  | act story idle able ih =>
    obtain ⟨rfl, same⟩ := List.append_inj' last rfl
    cases same
    exact ⟨_, story, idle, .refl⟩

/-- Executables can go on in one way only, until the next step is the client's. -/
theorem eq_of_goesOn {start : Gist} (goes : Relation.ReflTransGen GoesOn start gist)
    (idle : gist.isIdle = true) (others : Relation.ReflTransGen GoesOn start other)
    (rests : other.isIdle = true) : gist = other := by
  have unique : Relator.RightUnique GoesOn := fun _ _ _ one two => one.2.symm.trans two.2
  have ends {first second : Gist} (idle : first.isIdle = true)
      (goes : Relation.ReflTransGen GoesOn first second) : first = second := by
    rcases goes.cases_head with same | ⟨_, ⟨busy, _⟩, _⟩
    · exact same
    · rw [idle] at busy
      cases busy
  rcases Relation.ReflTransGen.total_of_right_unique unique goes others with onward | onward
  · exact ends idle onward
  · exact (ends rests onward).symm

/-- What the client did decides what has become of executables and hosts whenever the next step is
the client's. -/
theorem unique (story : Story moves gist) (idle : gist.isIdle = true) (another : Story moves other)
    (rests : other.isIdle = true) : gist = other := by
  induction moves using List.reverseRecOn generalizing gist other with
  | nil => exact eq_of_goesOn (story.goesOn_of_nil rfl) idle (another.goesOn_of_nil rfl) rests
  | append_singleton early last ih =>
    obtain ⟨one, before, began, goes⟩ := story.goesOn_of_append rfl
    obtain ⟨two, earlier, ready, others⟩ := another.goesOn_of_append rfl
    rw [ih before began earlier ready] at goes
    exact eq_of_goesOn goes idle others rests

end Story

end Readiness
