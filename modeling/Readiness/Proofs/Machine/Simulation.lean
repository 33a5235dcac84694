import Readiness.Proofs.Machine.Protocol

/-! The machine follows the protocol: whatever one step of a run does to the view, the protocol
allows it.
-/

namespace Readiness

open List Function Engine

variable {d e : ExecutableRef} {view : View}

/-- The listeners that a gate registers with a dependency are the links of the protocol. -/
theorem Circumstances.watches_links {given : Circumstances} {target : Executable}
    (work : given.work d = target.work) (g : GateRef) (position : Nat) (onFailure : Option Listener)
    (subscriptions : Subscriptions) :
    (((Listener.countdown g position, target.readyStatus) ::
        onFailure.toList.flatMap fun listener => target.failedStatuses.map fun status =>
          (listener, status)).foldl
      (fun grown link => grown.add link.1 (some link.2) true) subscriptions).watches =
      given.links g position d onFailure + subscriptions.watches := by
  rw [Subscriptions.watches_foldl_add]
  congr 1
  rw [filter_cons_of_pos rfl, map_cons, ← Multiset.cons_coe]
  simp only [links, work]
  congr 1
  -- Only a watcher is linked, and it is linked to every failed status.
  cases onFailure with
  | none => rfl
  | some listener =>
    cases watcher : listener.isWatcher
    · simp [watcher]
    · simp [watcher, filter_map, comp_def, Executable.failedStatuses]

namespace Machine

/-- The client has just asked for something. -/
def Asks (machine : Machine) (command : Command) : Prop :=
  machine.control = .perform command ∧ ∃ held rest, machine.stack = .hold held :: rest

variable {machine : Machine} {given : Circumstances} {g : GateRef} {position : Nat}
  {rest : List ExecutableRef} {onFailure : Option Listener} {listener : Listener}

section

variable (machine : Machine)

theorem countGate_snd (g : GateRef) :
    (machine.countGate g).2 = decide ((machine.engine.gate g).remaining = 1) := by
  rw [Bool.eq_iff_iff]
  simp [countGate]

theorem scene_countGate (g : GateRef) : (machine.countGate g).1.scene = machine.scene.count g :=
  rfl

theorem view_openGate (g : GateRef) : (machine.openGate g).view = machine.scene.release g := by
  unfold openGate
  rw [view_perform _ rfl rfl, scene_note_pivotal _ rfl]
  rfl

theorem view_countGate (g : GateRef) (frame : Frame) (answer : Answer) :
    (if (machine.countGate g).2 then ((machine.countGate g).1.push frame).openGate g
      else ((machine.countGate g).1.push frame).resume answer).view =
      (machine.push frame).scene.countOrRelease g := by
  have counted : ((machine.countGate g).1.push frame).scene =
      (machine.push frame).scene.count g := rfl
  have same : (machine.push frame).scene.gate g = machine.engine.gate g := rfl
  rw [View.countOrRelease, same, countGate_snd]
  by_cases last : (machine.engine.gate g).remaining = 1
  · simp only [last, decide_true, if_true, view_openGate, counted]
  · simp only [last, decide_false, Bool.false_eq_true, if_false, view_resume, counted]

/-- A gate counts a dependency that is ready, and opens with the last. -/
theorem view_examine_of_ready (g : GateRef) (position : Nat) (rest : List ExecutableRef)
    (onFailure : Option Listener) (ready : (machine.engine.executable d).isReady = true) :
    (machine.examine g position d rest onFailure).view =
      View.countOrRelease { machine.scene with
        duties := .arm g (position + 1) rest onFailure :: machine.scene.duties
        journal := machine.scene.journal ++ [.examined g position d true] } g := by
  simp only [examine, ready, if_true]
  rw [view_countGate, scene_push_duty _ rfl rfl, scene_note_pivotal _ rfl]

/-- A gate puts its watches on a dependency that is not ready. -/
theorem view_examine_of_pending (g : GateRef) (position : Nat) (rest : List ExecutableRef)
    (onFailure : Option Listener) (built : d < machine.engine.executables.length)
    (work : given.work d = (machine.engine.executable d).work)
    (pending : (machine.engine.executable d).isReady = false) :
    (machine.examine g position d rest onFailure).view =
      { machine.scene with
        duties := .arm g (position + 1) rest onFailure :: machine.scene.duties
        journal := machine.scene.journal ++ [.examined g position d false]
        watches := Function.update machine.scene.watches d
          (given.links g position d onFailure + machine.scene.watches d) } := by
  simp only [examine, pending]
  rw [if_neg (by simp), view_resume, scene_push_duty _ rfl rfl, scene_update,
    Engine.modifySubscriptions, view_modifyExecutable _ (by exact built)]
  have seen : (machine.note (.examined g position d false)).engine.view =
      { machine.engine.view with
        journal := machine.engine.view.journal ++ [.examined g position d false] } :=
    machine.engine.view_note_pivotal rfl
  rw [seen]
  refine View.ext ?_ ?_ ?_ ?_ rfl rfl rfl rfl rfl
  · exact update_eq_self d machine.engine.view.status
  · exact update_eq_self d machine.engine.view.destroyed
  · exact update_eq_self d machine.engine.view.runs
  · -- The links are those of the protocol, read from the work of the dependency.
    exact congrArg (Function.update machine.engine.view.watches d)
      (Circumstances.watches_links work g position onFailure _)

end

/-- The work of the executables in a store is known. -/
def Reads (work : ExecutableRef → Work) (engine : Engine) : Prop :=
  ∀ e < engine.executables.length, work e = (engine.executable e).work

section

variable (reads : Reads given.work machine.engine) (built : d < machine.engine.executables.length)
include reads built

theorem Reads.ready_iff (same : view.status = machine.engine.view.status) :
    given.Ready view d ↔ (machine.engine.executable d).isReady = true := by
  simp only [Circumstances.Ready, reads d built, same, Executable.isReady, decide_eq_true_eq]
  rfl

theorem Reads.failed_iff (same : view.status = machine.engine.view.status) :
    given.Failed view d ↔ (machine.engine.executable d).hasFailed = true := by
  simp only [Circumstances.Failed, reads d built, same, Executable.hasFailed,
    contains_eq_mem, decide_eq_true_eq]
  rfl

/-- Examining a dependency follows the protocol. -/
theorem step_examine :
    given.Step
      { machine.scene with
        duties := .examine g position d rest onFailure :: machine.scene.duties }
      (machine.examine g position d rest onFailure).view := by
  cases ready : (machine.engine.executable d).isReady with
  | true =>
    rw [view_examine_of_ready machine g position rest onFailure ready]
    exact .count rfl (.inr rfl) ((reads.ready_iff built rfl).mpr ready)
  | false =>
    rw [view_examine_of_pending machine g position rest onFailure built (reads d built) ready]
    exact .watch rfl rfl fun claimed => by
      rw [(reads.ready_iff built rfl).mp claimed] at ready
      cases ready

end

/-- So does going on with a gate. -/
theorem step_arm (reads : Reads given.work machine.engine)
    (built : ∀ d ∈ rest, d < machine.engine.executables.length) :
    given.Step
      { machine.scene with duties := .arm g position rest onFailure :: machine.scene.duties }
      (machine.arm g position rest onFailure).view := by
  cases rest with
  | nil =>
    rw [show machine.arm g position [] onFailure = machine.resume .done from rfl, view_resume]
    exact .finish rfl rfl
  | cons d others =>
    have here := built d (mem_cons_self ..)
    simp only [arm]
    split
    · rename_i ready
      rw [view_examine_of_ready machine g position others onFailure ready]
      exact .count rfl (.inl rfl) ((reads.ready_iff here rfl).mpr ready)
    · rename_i pending
      rw [view_perform _ rfl rfl, scene_push_duty _ rfl rfl]
      exact .send rfl rfl fun claimed => pending ((reads.ready_iff here rfl).mp claimed)

/-- Calling a listener of another kind does not show. -/
theorem view_callListener_of_foreign (machine : Machine) (foreign : listener.isWatcher = false)
    (event : Event) : (machine.callListener listener event).view = machine.scene := by
  cases listener with
  | client code => exact view_callClient _ _
  | countdown g position => cases foreign
  | dependencyFailed composite => cases foreign
  | waitReady w | waitFailed w =>
    exact (view_resume _ _).trans
      (machine.scene_update_of_same (view_of_same rfl rfl rfl rfl))

/-- So does calling a watcher. -/
theorem step_callListener (reads : Reads given.work machine.engine)
    (alive : ∀ e, given.alive e = machine.isAlive e) (store : machine.engine.Sound)
    (watcher : listener.isWatcher = true) (known : listener.Known machine.engine) (event : Event) :
    given.Step
      { machine.scene with
        errand := some (.invoke listener event)
        alerts := (event, listener) ::ₘ machine.scene.alerts }
      (machine.callListener listener event).view := by
  cases listener with
  | client code => cases watcher
  | waitReady w => cases watcher
  | waitFailed w => cases watcher
  | dependencyFailed composite =>
    simp only [callListener]
    cases living : machine.isAlive composite with
    | true =>
      rw [if_pos rfl, view_perform _ rfl rfl, scene_push_plain _ rfl rfl, scene_note _ rfl]
      exact .alarm rfl rfl ((alive composite).trans living)
    | false =>
      rw [if_neg (by simp), view_resume]
      exact .spare rfl rfl rfl ((alive composite).trans living)
  | countdown g position =>
    have built := store.dependents g known
    simp only [callListener]
    cases living : machine.isAlive (machine.engine.gate g).dependent with
    | false =>
      rw [if_neg (by simp), view_resume]
      exact .spare rfl rfl rfl ((alive _).trans living)
    | true =>
      have counted := machine.scene_countGate g
      have here : given.alive (machine.engine.gate g).dependent = true := (alive _).trans living
      have failed : given.Failed machine.scene (machine.engine.gate g).dependent ↔ _ :=
        reads.failed_iff built rfl
      simp only [if_true, countGate_snd]
      by_cases last : (machine.engine.gate g).remaining = 1
      · -- The last call opens the gate, unless its dependent is destroyed or has failed.
        cases gone : (machine.engine.executable (machine.engine.gate g).dependent).destroyed with
        | true =>
          rw [if_pos (by simp), view_resume, counted]
          exact .skip rfl rfl here last (.inl gone)
        | false =>
          rw [if_neg (by simp [last])]
          split
          · rename_i fell
            rw [view_resume, scene_note _ rfl, counted]
            exact .skip rfl rfl here last (.inr (failed.mpr fell))
          · rename_i fine
            have opens : View.countOrRelease machine.scene g = (machine.scene.count g).release g :=
              if_pos last
            rw [view_openGate, scene_push_plain _ rfl rfl, counted, ← opens]
            exact .tick rfl rfl here fun _ => ⟨gone, fun fell => fine (failed.mp fell)⟩
      · have more : View.countOrRelease machine.scene g = machine.scene.count g := if_neg last
        rw [if_pos (by simp [last]), view_resume, counted, ← more]
        exact .tick rfl rfl here fun only => absurd only last

section

variable (machine : Machine)

theorem view_dispatch {h : HostRef} (opened : h < machine.engine.hosts.length) (batch : Batch) :
    (machine.dispatch h batch).view =
      { machine.scene with alerts := batch.alerts + machine.scene.alerts } := by
  have queued : (machine.update (·.enqueue h batch)).scene =
      { machine.scene with alerts := batch.alerts + machine.scene.alerts } := by
    rw [scene_update, view_enqueue _ opened]
    exact View.ext rfl rfl rfl rfl rfl rfl (add_left_comm ..) rfl rfl
  simp only [dispatch]
  split
  · rw [view_resume, queued]
  · rw [view_resume, scene_push_plain _ rfl rfl,
      scene_update_of_same _ (view_modifyHost _ h rfl), queued]

/-- News for watchers become alerts. -/
theorem view_fire (opened : (machine.engine.executable e).host < machine.engine.hosts.length)
    (transition : Transition) (entries : List Entry) :
    (machine.fire e transition entries).view =
      { machine.scene with
        alerts := watcherCalls ⟨e, transition.new, transition.old⟩ (entries.map Entry.listener) +
          machine.scene.alerts } := by
  have spent : (machine.update Engine.spendBatch).scene = machine.scene :=
    machine.scene_update_of_same (view_of_same rfl rfl rfl rfl)
  simp only [fire]
  generalize made : machine.engine.batch _ _ = batch
  have calls : batch.alerts =
      watcherCalls ⟨e, transition.new, transition.old⟩ (entries.map Entry.listener) := by
    subst made
    -- The policy may put the first call last, which changes nothing about the calls as a whole.
    have perm := (Host.arrange_perm (machine.engine.host (machine.engine.executable e).host)
      (entries.map fun entry => ⟨entry.listener, some entry.sequence⟩)).map Delivery.listener
    refine (watcherCalls_perm perm).trans ?_
    rw [map_map]
    rfl
  split
  · rw [view_resume, scene_update, view_defer _ (by exact opened), ← calls]
    refine View.ext rfl rfl rfl rfl rfl rfl ?_ rfl rfl
    exact add_left_comm ..
  · rw [view_dispatch (machine.update Engine.spendBatch) opened, spent, calls]

theorem view_listenerReturned (serial : Nat) (event : Event) (delivery : Delivery)
    (fault : Option ListenerFault) :
    (machine.listenerReturned serial event delivery fault).view = machine.scene := by
  have counted : ((machine.update (·.modifyTally (machine.engine.executable event.source).host
      (·.countInvocation fault.isNone))).note (.returned serial event delivery fault)).scene =
      machine.scene := by
    rw [scene_note _ rfl, scene_update_of_same _ (view_modifyHost _ _ rfl)]
  simp only [listenerReturned]
  split
  · rw [view_resume, counted]
  · rw [view_notify, counted]

theorem view_askFuture (k : SessionRef) : (machine.askFuture k).view = machine.scene := by
  simp only [askFuture]
  split
  · rw [view_callClient, scene_push_plain _ rfl rfl]
  · rw [view_resume, scene_push_plain _ rfl rfl]

theorem view_runSession (k : SessionRef) : (machine.runSession k).view = machine.scene := by
  unfold runSession
  rw [view_of_idle rfl rfl]
  exact machine.scene_push_plain rfl rfl

theorem view_concludePoll (k : SessionRef) (finished : Bool) :
    (machine.concludePoll k finished).view = machine.scene := by
  simp only [concludePoll]
  split
  · rw [view_resume, scene_update_of_same _ (view_endSession _ k)]
  · split
    · rw [view_runSession, scene_update_of_same _ (view_of_same rfl rfl rfl rfl)]
    · exact view_resume _ _
    · exact view_resume _ _
    · split
      · rw [view_runSession, scene_update_of_same _ (view_modifyHost _ _ rfl)]
      · rw [view_resume]
        apply scene_update_of_same
        exact (view_modifyHost _ _ rfl).trans (view_of_same rfl rfl rfl rfl)

end

/-- Beginning work follows the protocol. -/
theorem step_startWork (reads : Reads given.work machine.engine) {status : Status}
    (built : e < machine.engine.executables.length) (idle : view.errand = none)
    (top : view.duties = .begin e status :: machine.scene.duties) (begun : machine.scene =
      { view with
        runs := Function.update view.runs e (view.runs e + 1)
        duties := machine.scene.duties
        errand := none }) : given.Step view (machine.startWork e).view := by
  have work := reads e built
  -- Work of any kind but a composite moves its own executable only.
  have other (own : List Frame) (errand : Option Command)
      (kind : ∀ dependencies, given.work e ≠ .composite dependencies)
      (moves : ∀ duty ∈ own, ∃ statuses, duty = .moves e statuses)
      (asks : ∀ command ∈ errand, ∃ status, command = .setStatus e status) :
      given.Step view
        { machine.scene with duties := own ++ machine.scene.duties, errand := errand } := by
    rw [begun]
    exact .work idle top kind moves asks
  have moving (statuses : List Status) : (machine.push (.moves e statuses)).scene =
      { machine.scene with duties := (Frame.moves e statuses).duty ++ machine.scene.duties } := by
    rw [scene_push, show (Frame.moves e statuses).alerts = 0 from rfl, zero_add]
  have own (statuses : List Status) :
      ∀ duty ∈ (Frame.moves e statuses).duty, ∃ statuses, duty = .moves e statuses := by
    intro duty member
    unfold Frame.duty at member
    split at member
    · exact ⟨statuses, mem_singleton.mp member⟩
    · cases member
  simp only [startWork]
  split
  · rename_i kind
    rw [view_resume, moving]
    exact other _ none (fun _ same => by rw [work, kind] at same; cases same) (own _)
      (fun _ member => by cases member)
  · rename_i kind
    rw [view_resume, moving]
    exact other _ none (fun _ same => by rw [work, kind] at same; cases same) (own _)
      (fun _ member => by cases member)
  · rename_i kind
    rw [view_perform _ rfl rfl, scene_push_plain _ rfl rfl]
    exact other [] (some _) (fun _ same => by rw [work, kind] at same; cases same)
      (fun _ member => by cases member) (fun command member => by cases member; exact ⟨_, rfl⟩)
  · rename_i kind
    rw [view_perform _ rfl rfl, scene_push_duty _ rfl rfl, begun]
    exact .compose idle top (work.trans kind)
  · rename_i kind
    rw [view_callClient, moving]
    exact other _ none (fun _ same => by rw [work, kind] at same; cases same) (own _)
      (fun _ member => by cases member)

end Machine

/-- A gate is about to be set up. -/
def View.Synchronises (view : View) : Prop :=
  ∃ e target dependencies onFailure,
    view.errand = some (.synchronise e target dependencies onFailure)

/-- What can become of the view in a step of a run: one step of the protocol, or two the first of
which sets up a gate. -/
def Circumstances.Follows (given : Circumstances) (before after : View) : Prop :=
  given.Step before after ∨ ∃ between, before.Synchronises ∧ given.Step before between ∧
    between.journal = before.journal ∧ between.errand = none ∧ given.Step between after

/-- The circumstances are those of a step of a run. -/
structure Circumstances.Fit (given : Circumstances) (before after : Machine) : Prop where
  /-- They tell the work of every executable. -/
  work : Machine.Reads given.work after.engine
  alive : ∀ e, given.alive e = before.isAlive e
  /-- They allow for what the client asks: an errand shows as soon as it is asked for, and anything
  else when it is carried out. -/
  asks : ∀ command, (if command.isErrand then after else before).Asks command → given.asks command
  loses : ∀ payload frame rest, before.control = .unwind payload → before.stack = frame :: rest →
    given.loses frame

namespace Machine

variable {machine : Machine} {given : Circumstances} {frame : Frame} {work : ExecutableRef → Work}
  {before after : Engine} {command : Command} {change : Engine → Engine} {rest : List Frame}

theorem Reads.of_extends (reads : Reads work after) (grown : before.Extends after) :
    Reads work before := fun e built =>
  (reads e (Nat.lt_of_lt_of_le built grown.executables)).trans (grown.work e built)

theorem Reads.of_size (reads : Reads work before) (grown : before.Extends after)
    (size : after.executables.length = before.executables.length) : Reads work after :=
  fun e built => (reads e (size ▸ built)).trans (grown.work e (size ▸ built)).symm

/-- A transition shows, with the calls of the watches for it in the frame that announces it. -/
theorem scene_announce (store : machine.engine.Sound) {status : Status}
    (built : e < machine.engine.executables.length) :
    ((machine.update (·.transition e status)).push (.announce e
      ⟨(machine.engine.executable e).status, status⟩
      ((machine.engine.executable e).subscriptions.due status))).scene =
      machine.scene.move e status := by
  have entries := store.entries e
  rw [scene_push, scene_update, view_transition _ built entries.watchful]
  refine View.ext rfl rfl rfl rfl rfl rfl ?_ rfl rfl
  have due := entries.watchful.due_watches entries.keyed status
  have calls : (Frame.announce e ⟨(machine.engine.executable e).status, status⟩
      ((machine.engine.executable e).subscriptions.due status)).alerts =
      ((machine.scene.watches e).filter fun watch => watch.1 = status).map
        fun watch => (⟨e, status, machine.scene.status e⟩, watch.2) := by
    simp only [Frame.alerts, watcherCalls, filter_map, comp_def]
    rw [← Multiset.map_coe, due, Multiset.map_map]
    rfl
  exact congrArg (· + machine.scene.alerts) calls

/-- A request to synchronise passes through a gate if all dependencies are ready, and comes to the
first of them otherwise. -/
theorem follows_synchronise (reads : Reads given.work machine.engine) {target : Status}
    {dependencies : List ExecutableRef} {onFailure : Option Listener}
    (turn : machine.control = .perform (.synchronise e target dependencies onFailure))
    (built : ∀ d ∈ dependencies, d < machine.engine.executables.length) :
    given.Follows machine.view
      (machine.start (.synchronise e target dependencies onFailure)).view := by
  have all : (dependencies.all fun d => (machine.engine.executable d).isReady) = true ↔
      ∀ d ∈ dependencies, given.Ready machine.scene d := by
    rw [all_eq_true]
    exact forall₂_congr fun d member => (reads.ready_iff (built d member) rfl).symm
  rw [view_of_errand turn rfl rfl]
  simp only [start]
  by_cases ready : (dependencies.all fun d => (machine.engine.executable d).isReady) = true
  · left
    simp only [ready, if_true]
    rw [view_openGate, scene_push_plain _ rfl rfl]
    have opens : (machine.update (·.addGate ⟨e, target, 0⟩)).scene.release
        machine.engine.gates.length =
        { machine.scene with
          gates := machine.scene.gates ++ [⟨e, target, 0⟩]
          journal := machine.scene.journal ++ [.gateOpened machine.scene.gates.length]
          errand := some (.setStatus e target) } := by
      have last : (machine.update (·.addGate ⟨e, target, 0⟩)).scene.gate
          machine.engine.gates.length = ⟨e, target, 0⟩ :=
        (machine.engine.gate_addGate ⟨e, target, 0⟩ (Nat.le_refl _)).trans (if_pos rfl)
      refine View.ext rfl rfl rfl rfl rfl rfl rfl rfl ?_
      simp only [View.release, last]
    rw [opens]
    exact .passThrough rfl (all.mp ready)
  · right
    have pending : ∃ d ∈ dependencies, ¬ given.Ready machine.scene d := by
      by_contra none_pending
      exact ready (all.mpr fun d member =>
        by_contra fun claimed => none_pending ⟨d, member, claimed⟩)
    have set : Reads given.work (machine.update
        (·.addGate ⟨e, target, dependencies.length⟩)).engine := reads
    rw [if_neg ready, if_neg ready]
    -- The gate is set up in one step of the protocol, and the first dependency is the next one.
    exact ⟨_, ⟨e, target, dependencies, onFailure, rfl⟩, .close rfl pending, rfl, rfl,
      step_arm set built⟩

/-- A request for readiness does not show, but that it may ask for an execution. -/
theorem Sound.step_onReady (sound : machine.Sound) {request : ReadyRequest}
    (built : e < machine.engine.executables.length)
    (foreign : ∀ listener ∈ request.success :: request.failure.toList, listener.isWatcher = false)
    (external : ∃ held rest, machine.stack = .hold held :: rest)
    (asks : (machine.start (.onReady e request)).Asks (.execute e .ifNotReady) →
      given.asks (.execute e .ifNotReady)) :
    given.Step machine.scene (machine.start (.onReady e request)).view := by
  have listening : (machine.update (·.listenReady e request)).scene = machine.scene :=
    machine.scene_update_of_same (machine.engine.view_listenReady
      (sound.store.hosted e built) foreign)
  obtain ⟨held, rest, hold⟩ := external
  by_cases wanted : (request.execute && !(machine.engine.executable e).isReady) = true
  · have begun : machine.start (.onReady e request) =
        (machine.update (·.listenReady e request)).perform (.execute e .ifNotReady) := by
      simp only [start, wanted, if_true]
    have asked := asks ⟨by rw [begun]; rfl, held, rest, by rw [begun]; exact hold⟩
    rw [begun, view_perform _ rfl rfl, listening]
    exact .ask rfl rfl asked fun _ member => by cases member
  · have done : machine.start (.onReady e request) =
        (machine.update (·.listenReady e request)).resume .done := by
      simp only [start, wanted, if_false, Bool.false_eq_true]
    rw [done, view_resume, listening]
    exact .pass rfl

/-- An execution of what is ready may be left out, and is announced otherwise. -/
theorem step_execute (reads : Reads given.work machine.engine) {refresh : Refresh}
    (turn : machine.control = .perform (.execute e refresh))
    (built : e < machine.engine.executables.length) :
    given.Step machine.view (machine.start (.execute e refresh)).view := by
  rw [view_of_errand turn rfl rfl]
  simp only [start]
  split
  · rename_i ready
    simp only [Bool.and_eq_true, decide_eq_true_eq] at ready
    obtain ⟨rfl, ready⟩ := ready
    rw [view_resume]
    exact .leave rfl ((reads.ready_iff built rfl).mpr ready)
  · rw [view_notify, scene_push_duty _ rfl rfl, scene_update_of_same]
    · exact .execute rfl
    · exact (view_modifyHost _ _ rfl).trans
        (view_modifyExecutable_of_same _ e rfl rfl rfl rfl)

/-- A status is reached unless the executable has it already. -/
theorem Sound.step_setStatus (sound : machine.Sound) {status : Status}
    (turn : machine.control = .perform (.setStatus e status))
    (built : e < machine.engine.executables.length) :
    given.Step machine.view (machine.start (.setStatus e status)).view := by
  rw [view_of_errand turn rfl rfl]
  simp only [start]
  split
  · rename_i moves
    obtain ⟨real, new⟩ := (Executable.moves_iff _ _).mp moves
    rw [view_notify, scene_announce sound.store built]
    exact .move rfl real new
  · rename_i stays
    rw [view_resume]
    refine .stay rfl ?_
    by_contra effect
    exact stays ((Executable.moves_iff _ _).mpr (not_or.mp effect))

/-- A watcher acts on its target when it is called, and of other listeners nothing shows. -/
theorem Sound.step_invoke (sound : machine.Sound) (reads : Reads given.work machine.engine)
    (alive : ∀ e, given.alive e = machine.isAlive e) {listener : Listener} {event : Event}
    (turn : machine.control = .perform (.invoke listener event))
    (known : listener.Known machine.engine) :
    given.Step machine.view (machine.start (.invoke listener event)).view := by
  cases watcher : listener.isWatcher with
  | true =>
    rw [view_of_invoke turn watcher]
    exact step_callListener reads alive sound.store watcher known event
  | false =>
    have silent : (Command.invoke listener event).alerts = 0 :=
      watcherCalls_of_foreign fun other member => by
        rw [mem_singleton.mp member]
        exact watcher
    rw [view_of_idle (by simp [turn, Control.errand, Command.isErrand, watcher])
      (by simp [turn, Control.alerts, silent])]
    exact (machine.view_callListener_of_foreign watcher event).symm ▸ .pass rfl

/-- A constant is going to move as soon as it is built. -/
theorem step_buildConstant {h : HostRef}
    (reads : Reads given.work (machine.start (.buildConstant h)).engine) :
    given.Step machine.scene (machine.start (.buildConstant h)).view := by
  have work : given.work machine.engine.executables.length = .constant := by
    rw [reads _ (by simp [start, resume, push, update, Engine.addTemporary,
      Engine.addExecutable, Engine.modifyHost])]
    show ((machine.engine.addTemporary h .constant 0).executable
      machine.engine.executables.length).work = .constant
    unfold Engine.addTemporary
    rw [executable_addExecutable, if_pos (by simp [Engine.modifyHost])]
  simp only [start]
  rw [view_resume, scene_push_duty _ rfl rfl, scene_push_plain _ rfl rfl,
    scene_update_of_same _ (view_addTemporary _ h .constant 0)]
  exact .build rfl work

/-- A poll does not show. -/
theorem view_start_poll (machine : Machine) (k : SessionRef) :
    (machine.start (.poll k)).view = machine.scene := by
  simp only [start]
  split
  · exact view_runSession ..
  · exact view_askFuture ..
  · exact view_askFuture ..
  · exact view_resume ..

/-- Beginning a command follows the protocol. -/
theorem Sound.follows_start (sound : machine.Sound) (turn : machine.control = .perform command)
    (fit : given.Fit machine (machine.start command)) :
    given.Follows machine.view (machine.start command).view := by
  have reads : Reads given.work machine.engine :=
    fit.work.of_extends (sound.onward_start (machine.admits_all machine) turn).grown
  have fits := sound.control
  rw [turn] at fits
  obtain ⟨known, ⟨top, below, stands, _, _⟩, external, _⟩ := fits
  -- A command that does not show leaves the view as store and stack show it.
  have plain (minor : command.isErrand = false) (silent : command.alerts = 0) :
      machine.view = machine.scene :=
    view_of_idle (by simp [turn, Control.errand, minor]) (by simp [turn, Control.alerts, silent])
  -- What only the client asks for is asked from a frame that holds its handles.
  have asked (foreign : command.isExternal = true) (minor : command.isErrand = false) :
      given.asks command := by
    obtain ⟨held, rest, hold⟩ := external foreign
    refine fit.asks command ?_
    rw [if_neg (by simp [minor])]
    exact ⟨turn, held, rest, hold⟩
  cases command with
  | execute e refresh =>
    exact .inl (step_execute reads turn (known.executables e (mem_singleton_self e)))
  | setStatus e status =>
    exact .inl (sound.step_setStatus turn (known.executables e (mem_singleton_self e)))
  | report e status =>
    left
    rw [plain rfl rfl]
    simp only [start]
    split
    · rw [view_resume, scene_push_duty _ rfl rfl]
      exact .report rfl (.inl (asked rfl rfl))
    · rw [view_resume]
      exact .pass rfl
  | fail e reason =>
    left
    rw [plain rfl rfl]
    simp only [start]
    split
    · rw [view_resume, scene_push_duty _ rfl rfl, scene_note _ rfl]
      exact .report rfl (.inr ⟨reason, asked rfl rfl⟩)
    · rw [view_resume]
      exact .pass rfl
  | synchronise e target dependencies onFailure =>
    exact follows_synchronise reads turn fun d member =>
      known.executables d (mem_cons_of_mem _ member)
  | onReady e request =>
    left
    rw [plain rfl rfl]
    exact sound.step_onReady (known.executables e (mem_singleton_self e))
      (known.foreign e request rfl) (external rfl) (fit.asks (.execute e .ifNotReady))
  | invoke listener event =>
    exact .inl (sound.step_invoke reads fit.alive turn
      (known.listeners listener (mem_singleton_self _)))
  | destroy e =>
    have built := known.executables e (mem_singleton_self e)
    left
    rw [plain rfl rfl]
    simp only [start]
    split
    · rw [view_resume]
      exact .pass rfl
    · rw [view_notify, scene_push_plain _ rfl rfl, scene_update, view_destroy _ built]
      exact .destroy rfl (asked rfl rfl)
  | buildConstant h => exact .inl (plain rfl rfl ▸ step_buildConstant fit.work)
  | pump h =>
    left
    rw [plain rfl rfl]
    simp only [start]
    rw [view_resume, scene_push_plain _ rfl rfl]
    exact .pass rfl
  | poll k =>
    left
    rw [plain rfl rfl, view_start_poll]
    exact .pass rfl

section

variable (machine : Machine)

/-- The calls of a transition that has been announced stay on their way. -/
theorem view_receive_announce
    (opened : (machine.engine.executable e).host < machine.engine.hosts.length)
    (transition : Transition) (entries : List Entry) (answer : Answer) :
    (receive machine answer (.announce e transition entries)).view =
      { machine.scene with
        alerts := (Frame.announce e transition entries).alerts + machine.scene.alerts } := by
  have concluding : (machine.push (.conclude e transition)).scene = machine.scene :=
    machine.scene_push_plain rfl rfl
  cases entries with
  | nil =>
    have nobody : (Frame.announce e transition []).alerts = 0 := rfl
    rw [nobody, zero_add]
    exact (view_resume _ _).trans concluding
  | cons entry others =>
    exact (view_fire (machine.push (.conclude e transition)) opened transition _).trans
      (by rw [concluding]; rfl)

/-- A batch that is taken from its host is still on its way. -/
theorem scene_update_of_take {batch : Batch} (taken : ({ (change machine.engine).view with
      alerts := batch.alerts + (change machine.engine).view.alerts } : View) =
        machine.engine.view) :
    ({ (machine.update change).scene with
      alerts := batch.alerts + (machine.update change).scene.alerts } : View) = machine.scene := by
  have whole : machine.scene =
      { machine.engine.view with
        alerts := (machine.stack.map Frame.alerts).sum + machine.engine.view.alerts
        duties := machine.stack.flatMap Frame.duty } := rfl
  rw [whole, ← taken]
  exact View.ext rfl rfl rfl rfl rfl rfl (add_left_comm ..) rfl rfl

/-- Taking a batch from the dispatch queue does not show. -/
theorem view_receive_drain (h : HostRef) (answer : Answer) :
    (receive machine answer (.drain h)).view = machine.scene := by
  simp only [receive]
  split
  · rw [view_resume, scene_update_of_same _ (view_modifyHost _ h rfl)]
  · rename_i batch others queue
    have opened := host_lt_of_queue queue
    have taken : ({ (machine.engine.modifyHost h ({ · with queue := others })).view with
        alerts := batch.alerts +
          (machine.engine.modifyHost h ({ · with queue := others })).view.alerts } : View) =
        machine.engine.view :=
      machine.engine.view_modifyHost_of_take opened (by
        simp only [Host.alerts, queue, cons_append, map_cons, sum_cons])
    rw [view_resume, scene_push, scene_push_plain _ rfl rfl, scene_note _ rfl]
    exact machine.scene_update_of_take taken

/-- Taking a batch from the deferred queue does not show. -/
theorem view_receive_pump (h : HostRef) (taken : Nat) (answer : Answer) :
    (receive machine answer (.pump h taken)).view = machine.scene := by
  simp only [receive]
  split
  · exact view_resume _ _
  · rename_i batch others deferred
    have opened := host_lt_of_deferred deferred
    have popped : ({ (machine.engine.modifyHost h ({ · with deferred := others })).view with
        alerts := batch.alerts +
          (machine.engine.modifyHost h ({ · with deferred := others })).view.alerts } : View) =
        machine.engine.view :=
      machine.engine.view_modifyHost_of_take opened (by
        simp only [Host.alerts, deferred, map_append, map_cons, sum_append,
          sum_cons]
        abel)
    have still : h < ((machine.update (·.modifyHost h ({ · with deferred := others }))).push
        (.pump h (taken + 1))).engine.hosts.length := by
      simpa [update, push, Engine.modifyHost] using opened
    rw [view_dispatch _ still, scene_push_plain _ rfl rfl]
    exact machine.scene_update_of_take popped

/-- Going on with a batch follows the protocol. -/
theorem step_deliver (answer : Answer) (batch : Batch) :
    given.Step { machine.scene with alerts := batch.alerts + machine.scene.alerts }
      (receive machine answer (.deliver batch)).view := by
  simp only [receive]
  split
  · rename_i done
    have none_left : batch.alerts = 0 := by simp [Batch.alerts, done, watcherCalls]
    rw [view_resume, none_left, zero_add]
    exact .pass rfl
  · rename_i delivery others deliveries
    have first : batch.alerts = watcherCalls batch.event [delivery.listener] +
        ({ batch with deliveries := others } : Batch).alerts := by
      simp only [Batch.alerts, deliveries, map_cons]
      exact watcherCalls_cons ..
    split
    · rename_i destroyed
      rw [view_resume]
      refine .drop rfl destroyed rfl fun call member => ?_
      obtain ⟨listener, _, rfl⟩ := mem_map.mp (Multiset.mem_coe.mp member)
      rfl
    · rename_i there
      generalize called : ((((machine.push (.deliver { batch with deliveries := others })).push
        (.guard batch.serial batch.event delivery)).note
        (.invoked batch.serial batch.event delivery)).perform
        (.invoke delivery.listener batch.event)) = after
      have scene : after.scene = { machine.scene with
          alerts := ({ batch with deliveries := others } : Batch).alerts +
            machine.scene.alerts } := by
        rw [← called]
        exact (scene_note _ rfl).trans
          ((scene_push_plain _ rfl rfl).trans (machine.scene_push _))
      have turn : after.control = .perform (.invoke delivery.listener batch.event) := by
        rw [← called]
        rfl
      cases watcher : delivery.listener.isWatcher with
      | true =>
        -- The call that is made counts as being on its way until the watcher acts.
        rw [view_of_invoke turn watcher, scene, first, watcherCalls_singleton watcher,
          Multiset.singleton_add, Multiset.cons_add]
        exact .call rfl watcher (Multiset.mem_cons_self _ _) (Bool.eq_false_iff.mpr there)
      | false =>
        have silent : watcherCalls batch.event [delivery.listener] = 0 :=
          watcherCalls_of_foreign fun other member => by
            rw [mem_singleton.mp member]
            exact watcher
        rw [view_of_idle (by simp [turn, Control.errand, Command.isErrand, watcher])
          (by simp [turn, Control.alerts, Command.alerts, silent]), scene, first, silent, zero_add]
        exact .pass rfl

/-- A frame that is no duty and tells nobody of anything goes on without showing it. -/
theorem view_receive_minor (answer : Answer) (minor : frame.duty = [])
    (quiet : frame.isTelling = false) : (receive machine answer frame).view = machine.scene := by
  cases frame with
  | client callback => exact (view_of_idle rfl rfl).trans (machine.scene_push_plain rfl rfl)
  | hold held | conclude e transition | relay e => exact view_resume _ _
  | moves e todo =>
    cases todo with
    | nil => exact view_resume _ _
    | cons => cases minor
  | callBack e code =>
    simp only [receive]
    rw [view_callClient, scene_push_plain _ rfl rfl]
  | drain h => exact view_receive_drain ..
  | guard serial event delivery =>
    simp only [receive]
    split
    · exact view_listenerReturned ..
    · exact view_listenerReturned ..
  | farewell e =>
    simp only [receive]
    rw [view_resume, scene_note _ rfl]
  | hand e =>
    simp only [receive]
    rw [view_resume, scene_update_of_same _
      (view_modifyExecutable_of_same _ e rfl rfl rfl rfl)]
  | pump h taken => exact view_receive_pump ..
  | pumped k => exact view_askFuture ..
  | asked k => exact view_concludePoll ..
  | begin | gather | inspect | arm | examine => cases minor
  | announce | deliver => cases quiet

end

/-- What has been announced is begun. -/
theorem step_begin (reads : Reads given.work machine.engine)
    (built : e < machine.engine.executables.length) (status : Status) (answer : Answer) :
    given.Step { machine.scene with duties := .begin e status :: machine.scene.duties }
      (receive machine answer (.begin e status)).view := by
  have noted : (machine.note (.started e status)).engine.view = machine.engine.view :=
    view_note _ rfl
  simp only [receive]
  refine step_startWork (reads.of_size ?_ ?_) ?_ rfl rfl ?_
  · exact (Engine.Extends.note ..).trans (.modifyExecutable e rfl rfl)
  · simp [update, note, Engine.note, Engine.modifyExecutable]
  · simpa [update, note, Engine.note, Engine.modifyExecutable] using built
  · rw [scene_update, view_modifyExecutable _ (by exact built), noted]
    refine View.ext ?_ ?_ rfl ?_ rfl rfl rfl rfl rfl
    · exact update_eq_self e machine.engine.view.status
    · exact update_eq_self e machine.engine.view.destroyed
    · exact update_eq_self e machine.engine.view.watches

/-- A composite that has been gathered fails if one of its dependencies has. -/
theorem step_inspect (reads : Reads given.work machine.engine) (store : machine.engine.Sound)
    (built : e < machine.engine.executables.length) (answer : Answer) :
    given.Step { machine.scene with duties := .inspect e :: machine.scene.duties }
      (receive machine answer (.inspect e)).view := by
  have listed (d : ExecutableRef) (member : d ∈ (given.work e).dependencies) :
      d < machine.engine.executables.length := by
    rw [reads e built] at member
    exact Nat.lt_trans (store.older e d member) built
  simp only [receive]
  rw [← reads e built]
  split
  · rename_i none_failed
    rw [view_resume]
    refine .clear rfl rfl fun d member failed => ?_
    have fine := find?_eq_none.mp none_failed d member
    exact fine ((reads.failed_iff (listed d member) rfl).mp failed)
  · rename_i d found
    have member := mem_of_find?_eq_some found
    have failed := find?_some found
    rw [view_perform _ rfl rfl, scene_push_plain _ rfl rfl, scene_note _ rfl]
    exact .fault rfl rfl member ((reads.failed_iff (listed d member) rfl).mpr failed)

/-- Passing an answer to the frame on top follows the protocol. -/
theorem Sound.step_receive (sound : machine.Sound) {answer : Answer}
    (turn : machine.control = .resume answer) (stands : machine.stack = frame :: rest)
    (reads : Reads given.work machine.engine) :
    given.Step machine.view (receive { machine with stack := rest } answer frame).view := by
  have known : frame.Known machine.engine :=
    sound.frames frame (by rw [stands]; exact mem_cons_self ..)
  have idle : machine.view = machine.scene := view_of_idle (by rw [turn]; rfl) (by rw [turn]; rfl)
  rw [idle, scene_of_stack stands]
  generalize below : ({ machine with stack := rest } : Machine) = under
  have engine : under.engine = machine.engine := by rw [← below]
  have store : under.engine.Sound := engine ▸ sound.store
  have reads : Reads given.work under.engine := engine ▸ reads
  have known : frame.Known under.engine := engine ▸ known
  -- A frame that is no duty and makes no call does not show.
  have plain (silent : frame.alerts = 0) (minor : frame.duty = []) :
      ({ under.scene with
        alerts := frame.alerts + under.scene.alerts
        duties := frame.duty ++ under.scene.duties } : View) = under.scene := by
    rw [silent, minor, zero_add, nil_append]
  have duty (silent : frame.alerts = 0) (major : frame.duty = [frame]) :
      ({ under.scene with
        alerts := frame.alerts + under.scene.alerts
        duties := frame.duty ++ under.scene.duties } : View) =
      { under.scene with duties := frame :: under.scene.duties } := by
    rw [silent, major, zero_add]
    rfl
  cases frame with
  | begin e status =>
    rw [duty rfl rfl]
    exact step_begin reads (known.executables e (mem_singleton_self e)) status answer
  | moves e todo =>
    cases todo with
    | nil =>
      rw [plain rfl rfl, under.view_receive_minor answer rfl rfl]
      exact .pass rfl
    | cons status others =>
      rw [duty rfl rfl]
      simp only [receive]
      rw [view_perform _ rfl rfl, scene_push, show (Frame.moves e others).alerts = 0 from rfl,
        zero_add]
      exact .prompt rfl rfl
  | gather e =>
    have built : e < under.engine.executables.length :=
      known.executables e (mem_singleton_self e)
    rw [duty rfl rfl]
    simp only [receive]
    rw [view_perform _ rfl rfl, scene_push_duty _ rfl rfl, ← reads e built]
    exact .gather rfl rfl
  | inspect e =>
    rw [duty rfl rfl]
    exact step_inspect reads store (known.executables e (mem_singleton_self e)) answer
  | arm g position rest onFailure =>
    rw [duty rfl rfl]
    exact step_arm reads known.executables
  | examine g position dependency rest onFailure =>
    rw [duty rfl rfl]
    exact step_examine reads (known.executables dependency (mem_cons_self ..))
  | announce e transition entries =>
    have built : e < under.engine.executables.length :=
      known.executables e (mem_singleton_self e)
    rw [view_receive_announce under (store.hosted e built)]
    exact .pass rfl
  | deliver batch => exact step_deliver under answer batch
  | _ =>
    rw [plain rfl rfl, under.view_receive_minor answer rfl rfl]
    exact .pass rfl

/-- Taking a panic past the frame on top follows the protocol. -/
theorem Sound.step_unwind (sound : machine.Sound) {payload : Payload}
    (turn : machine.control = .unwind payload) (stands : machine.stack = frame :: rest)
    (lost : given.loses frame) :
    given.Step machine.view (unwind { machine with stack := rest } payload frame).view := by
  -- Nobody is at work on top of the frames that are left, whatever is changed out of view.
  have passed {change : Engine → Engine}
      (same : (change machine.engine).view = machine.engine.view) :
      (update { machine with stack := rest } change).view =
        ({ machine with stack := rest } : Machine).scene :=
    (view_of_idle (by rw [update, turn]; rfl) (by rw [update, turn]; rfl)).trans
      (scene_update_of_same _ same)
  have idle : machine.view = machine.scene := view_of_idle (by rw [turn]; rfl) (by rw [turn]; rfl)
  have ended : (unwind { machine with stack := rest } payload frame).view =
      ({ machine with stack := rest } : Machine).scene := by
    cases frame with
    | drain h => exact passed (view_modifyHost machine.engine h rfl)
    | pumped k | asked k => exact passed (view_endSession machine.engine k)
    | guard serial event delivery =>
      rw [unwind_guard (sound.quiet turn)]
      exact view_listenerReturned ..
    | _ => exact passed (show (id machine.engine).view = _ from rfl)
  rw [idle, scene_of_stack stands, ended]
  exact .lose rfl lost rfl rfl

/-- A step of the engine follows the protocol. -/
theorem Sound.follows_step (sound : machine.Sound) (fit : given.Fit machine machine.step) :
    given.Follows machine.view machine.step.view := by
  have reads : Reads given.work machine.engine :=
    fit.work.of_extends (sound.later_step (machine.admits_all machine)).grown
  unfold step at fit ⊢
  split
  · rename_i command turn
    rw [turn] at fit
    exact sound.follows_start turn fit
  · rename_i answer turn
    left
    split
    · rename_i stands
      have idle : machine.view = machine.scene :=
        view_of_idle (by rw [turn]; rfl) (by rw [turn]; rfl)
      rw [idle]
      exact (view_of_idle rfl rfl : ({ machine with control := .returned answer } :
        Machine).view = _) ▸ .pass rfl
    · rename_i stands
      exact sound.step_receive turn stands reads
  · rename_i payload turn
    left
    split
    · rename_i stands
      have idle : machine.view = machine.scene :=
        view_of_idle (by rw [turn]; rfl) (by rw [turn]; rfl)
      rw [idle]
      exact (view_of_idle rfl rfl : ({ machine with control := .returned (.panicked payload) } :
        Machine).view = _) ▸ .pass rfl
    · rename_i frame rest stands
      exact sound.step_unwind turn stands (fit.loses payload frame rest turn stands)
  · rename_i turn
    exact .inl (.pass (by simp only [view, turn, Control.errand]))
  · rename_i turn
    exact .inl (.pass (by simp only [view, turn, Control.errand]))

section

variable (turn : machine.clientTurn = true)
include turn

/-- In the client's turn the scene is the whole view. -/
theorem view_of_clientTurn : machine.view = machine.scene := by
  unfold clientTurn at turn
  split at turn
  · rename_i here; exact view_of_idle (by rw [here]; rfl) (by rw [here]; rfl)
  · rename_i here; exact view_of_idle (by rw [here]; rfl) (by rw [here]; rfl)
  all_goals cases turn

theorem follows_update (same : (change machine.engine).view = machine.engine.view) :
    given.Follows machine.view (machine.update change).view := by
  have still : (machine.update change).clientTurn = true := turn
  rw [view_of_clientTurn turn, view_of_clientTurn still, machine.scene_update_of_same same]
  exact .inl (.pass rfl)

theorem follows_build {h : HostRef} {id : Option String} {work : Work} {built : Machine}
    (success : machine.build h id work = (built, .ok e)) :
    given.Follows machine.view built.view := by
  obtain ⟨-, rfl | ⟨name, -, rfl⟩⟩ := build_cases success
  · exact follows_update turn (view_addTemporary ..)
  · refine follows_update turn ?_
    rw [Engine.addRegistered, view_note _ rfl, view_modifyHost _ h rfl,
      view_addExecutable _ rfl rfl rfl rfl]

/-- A call that the client may make follows the protocol. -/
theorem follows_call (permitted : machine.Permitted command)
    (asked : command.isErrand = true → given.asks command) :
    given.Follows machine.view (machine.call command).view := by
  have foreign : ∀ listener ∈ command.listeners, listener.isWatcher = false := by
    intro listener member
    have client := permitted.own listener member
    cases listener <;> first | rfl | cases client
  have silent : command.alerts = 0 := by
    cases command with
    | invoke listener event => exact watcherCalls_of_foreign foreign
    | _ => rfl
  have held : (machine.push (.hold command.executables)).scene = machine.scene :=
    machine.scene_push_plain rfl rfl
  left
  rw [view_of_clientTurn turn]
  cases errand : command.isErrand with
  | true =>
    rw [call, view_perform _ errand silent, held]
    exact .ask rfl errand (asked errand) foreign
  | false =>
    have plain : (machine.call command).view = machine.scene :=
      (view_of_idle (by simp [call, perform, Control.errand, errand])
        (by simp [call, perform, Control.alerts, silent])).trans held
    rw [plain]
    exact .pass rfl

end

/-- Every step of a run follows the protocol. -/
theorem Sound.follows_next (sound : machine.Sound) {next : Machine} (step : Next machine next)
    (fit : given.Fit machine next) : given.Follows machine.view next.view := by
  cases step with
  | engine busy => exact sound.follows_step fit
  | accept called =>
    have turn : machine.clientTurn = true := by simp [clientTurn, called]
    rw [view_of_clientTurn turn]
    exact .inl ((view_of_idle rfl rfl : machine.accept.view = machine.scene) ▸ .pass rfl)
  | advance turn elapsed => exact follows_update turn (view_of_same rfl rfl rfl rfl)
  | openHost turn settings observer => exact follows_update turn (view_addHost ..)
  | build turn opened alive success => exact follows_build turn success
  | retain turn alive =>
    exact follows_update turn (view_modifyExecutable_of_same _ _ rfl rfl rfl rfl)
  | release turn held =>
    exact follows_update turn (view_modifyExecutable_of_same _ _ rfl rfl rfl rfl)
  | subscribe turn alive code status once =>
    exact follows_update turn (view_modifyExecutable_of_same _ _ rfl rfl rfl
      ((Subscriptions.watches_insert ..).trans (zero_add _)))
  | unsubscribe turn alive code status =>
    exact follows_update turn (view_modifyExecutable_of_same _ _ rfl rfl rfl
      (Subscriptions.watches_remove rfl _ _))
  | beginWait turn alive =>
    rename_i e
    have built := sound.lt_of_isAlive alive
    simp only [beginWait]
    split
    · exact follows_update turn (view_of_same rfl rfl rfl rfl)
    · refine follows_update turn ((view_listenReady (machine.engine.addWait ⟨e, none⟩)
        (sound.store.hosted e built) fun listener member => ?_).trans
          (view_of_same rfl rfl rfl rfl))
      simp only [Option.toList_some, mem_cons, not_mem_nil, or_false] at member
      rcases member with rfl | rfl <;> rfl
  | openSession turn future opened =>
    exact follows_update turn (view_of_same rfl rfl rfl rfl)
  | closeSession turn shut => exact follows_update turn (view_endSession ..)
  | call turn permitted =>
    refine follows_call turn permitted fun errand => fit.asks _ ?_
    rw [if_pos errand]
    exact ⟨rfl, _, _, rfl⟩
  | finish turn top reply =>
    have left : (machine.finish reply).view = machine.scene := by
      rw [scene_of_stack top]
      refine (view_of_idle rfl rfl).trans ?_
      simp only [finish, top, tail_cons]
      exact View.ext rfl rfl rfl rfl rfl rfl (zero_add _).symm rfl rfl
    rw [view_of_clientTurn turn, left]
    exact .inl (.pass rfl)
  | @panic turn payload =>
    rw [view_of_clientTurn turn]
    exact .inl ((view_of_idle rfl rfl : (machine.panic payload).view = machine.scene) ▸ .pass rfl)

end Machine

end Readiness
