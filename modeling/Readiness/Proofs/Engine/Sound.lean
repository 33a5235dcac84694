import Readiness.Proofs.Engine.Lookup
import Readiness.Proofs.Subscription.Watch

/-! Sound stores: every reference names something, and everything stands where it belongs.

The statements here say that each change that the engine makes to its store keeps it sound. They do
so for any scope: a store can be sound and refer to nothing but some executables, and to nothing but
some calls of listeners. Without a scope it can refer to anything that is there.
-/

namespace Readiness

open List

variable {scope : Scope} {before after : Engine} {listener : Listener} {e : ExecutableRef}

namespace Work

variable {work : Work}

/-- Nobody is ready in the sentinel. -/
theorem readyStatus_ne_null (sensible : work.fault? = none) : work.readyStatus ≠ .null := by
  intro null
  simp [fault?, null, Status.isNull] at sensible

/-- Nobody fails in the sentinel. -/
theorem ne_null_of_mem_failedStatuses (sensible : work.fault? = none) {status : Status}
    (failed : status ∈ work.failedStatuses) : status ≠ .null := by
  rintro rfl
  have any : work.failedStatuses.any Status.isNull = true := any_eq_true.mpr ⟨_, failed, rfl⟩
  simp only [fault?, any] at sensible
  split at sensible <;> simp at sensible

/-- Whoever is ready has not failed. -/
theorem readyStatus_not_mem_failedStatuses (sensible : work.fault? = none) :
    work.readyStatus ∉ work.failedStatuses := by
  intro both
  simp only [fault?, contains_eq_mem, both, decide_true, if_true] at sensible
  split at sensible
  · simp at sensible
  · split at sensible <;> simp at sensible

end Work

/-- What may be referred to. -/
structure Scope where
  /-- The executables that may be kept alive. -/
  bears : ExecutableRef → Prop
  /-- The calls of listeners that may be on their way. -/
  sends : Event → Delivery → Prop

/-- Anything may be referred to. -/
def Scope.all : Scope :=
  ⟨fun _ => True, fun _ _ => True⟩

/-- An executable is there, and may be kept alive. -/
structure Engine.Has (engine : Engine) (scope : Scope) (e : ExecutableRef) : Prop where
  built : e < engine.executables.length
  borne : scope.bears e

/-- What the listener acts on is in the store. -/
def Listener.Known (engine : Engine) : Listener → Prop
  | .countdown g _ => g < engine.gates.length
  | .dependencyFailed composite => composite < engine.executables.length
  | .client _ | .waitReady _ | .waitFailed _ => True

/-- A listener of the client refers to nothing. -/
theorem Listener.known_of_foreign (foreign : listener.isWatcher = false) (engine : Engine) :
    listener.Known engine := by
  cases listener <;> trivial

/-- If neither listener of a request is a watcher, nothing that it registers is one. -/
theorem ReadyRequest.foreign_links {request : ReadyRequest}
    (foreign : ∀ listener ∈ request.success :: request.failure.toList,
      listener.isWatcher = false) (target : Executable) :
    ∀ link ∈ (request.success, target.readyStatus) ::
        request.failure.toList.flatMap (fun listener =>
          target.failedStatuses.map fun status => (listener, status)),
      link.1.isWatcher = false := by
  intro link member
  rcases mem_cons.mp member with rfl | later
  · exact foreign _ (by simp)
  · obtain ⟨listener, among, within⟩ := mem_flatMap.mp later
    obtain ⟨status, _, rfl⟩ := mem_map.mp within
    exact foreign listener (by simp [among])

/-- The entries of an executable are in order, and what they act on is in the store. -/
structure Subscriptions.Sound (engine : Engine) (subscriptions : Subscriptions) : Prop where
  keyed : subscriptions.Keyed
  watchful : subscriptions.Watchful
  known : ∀ filed ∈ subscriptions.listing, filed.2.listener.Known engine

/-- A batch is about an executable of its host, and its listeners act on what is in the store. -/
structure Batch.Sound (engine : Engine) (h : HostRef) (batch : Batch) (scope : Scope := .all) :
    Prop extends engine.Has scope batch.event.source where
  home : (engine.executable batch.event.source).host = h
  known : ∀ delivery ∈ batch.deliveries, delivery.listener.Known engine
  sends : ∀ delivery ∈ batch.deliveries, scope.sends batch.event delivery

/-- Every reference in the store names something, and everything stands where it belongs. -/
structure Engine.Sound (engine : Engine) (scope : Scope := .all) : Prop where
  hosted : ∀ e < engine.executables.length, (engine.executable e).host < engine.hosts.length
  lawful : ∀ e < engine.executables.length, (engine.executable e).work.fault? = none
  older : ∀ e, ∀ d ∈ (engine.executable e).work.dependencies, d < e
  entries : ∀ e, (engine.executable e).subscriptions.Sound engine
  dependents : ∀ g < engine.gates.length, (engine.gate g).dependent < engine.executables.length
  batches : ∀ h, ∀ batch ∈ (engine.host h).queue ++ (engine.host h).deferred,
    batch.Sound engine h scope
  held : ∀ e, 0 < (engine.executable e).handles → scope.bears e
  closed : ∀ e, scope.bears e → ∀ d ∈ (engine.executable e).work.dependencies, scope.bears d

/-- Nothing was taken out of the store, every executable has kept its work and its host, and every
gate its dependent. -/
structure Engine.Extends (before after : Engine) : Prop where
  executables : before.executables.length ≤ after.executables.length
  gates : before.gates.length ≤ after.gates.length
  hosts : before.hosts.length ≤ after.hosts.length
  work : ∀ e < before.executables.length, (after.executable e).work = (before.executable e).work
  home : ∀ e < before.executables.length, (after.executable e).host = (before.executable e).host
  dependent : ∀ g < before.gates.length, (after.gate g).dependent = (before.gate g).dependent

namespace Engine.Extends

variable {engine : Engine}

/-- A store whose executables are the same, with no gate or host taken out, is an extension. -/
theorem of_executables (same : after.executables = before.executables)
    (gates : before.gates.length ≤ after.gates.length)
    (hosts : before.hosts.length ≤ after.hosts.length) (dependent : ∀ g < before.gates.length,
      (after.gate g).dependent = (before.gate g).dependent) : before.Extends after := by
  have look (e : ExecutableRef) : after.executable e = before.executable e := by
    simp only [executable, same]
  exact ⟨Nat.le_of_eq (by rw [same]), gates, hosts, fun e _ => by rw [look],
    fun e _ => by rw [look], dependent⟩

/-- A store whose executables and gates are the same, with no host taken out, is an extension. -/
theorem of_same (executables : after.executables = before.executables)
    (gates : after.gates = before.gates) (hosts : before.hosts.length ≤ after.hosts.length) :
    before.Extends after :=
  of_executables executables (Nat.le_of_eq (by rw [gates])) hosts fun g _ => by
    simp only [gate, gates]

/-- Every store extends itself. -/
theorem refl (engine : Engine) : engine.Extends engine :=
  of_same rfl rfl (Nat.le_refl _)

/-- Extensions follow one another. -/
theorem trans {first second third : Engine} (early : first.Extends second)
    (late : second.Extends third) : first.Extends third where
  executables := Nat.le_trans early.executables late.executables
  gates := Nat.le_trans early.gates late.gates
  hosts := Nat.le_trans early.hosts late.hosts
  work := fun e built =>
    (late.work e (Nat.lt_of_lt_of_le built early.executables)).trans (early.work e built)
  home := fun e built =>
    (late.home e (Nat.lt_of_lt_of_le built early.executables)).trans (early.home e built)
  dependent := fun g made =>
    (late.dependent g (Nat.lt_of_lt_of_le made early.gates)).trans (early.dependent g made)

/-- A change of a host is an extension. -/
theorem modifyHost (engine : Engine) (h : HostRef) (change : Host → Host) :
    engine.Extends (engine.modifyHost h change) :=
  of_same rfl rfl (by simp [Engine.modifyHost])

/-- An executable may change in all but work and host. -/
theorem modifyExecutable (e : ExecutableRef) {change : Executable → Executable}
    (works : (change (engine.executable e)).work = (engine.executable e).work)
    (stays : (change (engine.executable e)).host = (engine.executable e).host) :
    engine.Extends (engine.modifyExecutable e change) := by
  refine ⟨by simp [Engine.modifyExecutable], Nat.le_refl _, Nat.le_refl _, ?_, ?_, fun _ _ => rfl⟩
  · exact fun other _ => read_modifyExecutable_of_same (·.work) works other
  · exact fun other _ => read_modifyExecutable_of_same (·.host) stays other

/-- A new executable is an extension. -/
theorem addExecutable (engine : Engine) (added : Executable) :
    engine.Extends (engine.addExecutable added) := by
  refine ⟨by simp [Engine.addExecutable], Nat.le_refl _, Nat.le_refl _, ?_, ?_, fun _ _ => rfl⟩
  · intro e built
    rw [executable_addExecutable, if_neg (Nat.ne_of_lt built)]
  · intro e built
    rw [executable_addExecutable, if_neg (Nat.ne_of_lt built)]

/-- A new gate is an extension. -/
theorem addGate (engine : Engine) (gate : Gate) : engine.Extends (engine.addGate gate) := by
  refine of_executables rfl (by simp [Engine.addGate]) (Nat.le_refl _) fun g made => ?_
  rw [gate_addGate _ _ (Nat.le_of_lt made), if_neg (Nat.ne_of_lt made)]

/-- A gate may change in all but whom it moves. -/
theorem modifyGate (g : GateRef) {change : Gate → Gate}
    (same : (change (engine.gate g)).dependent = (engine.gate g).dependent) :
    engine.Extends (engine.modifyGate g change) := by
  refine of_executables rfl (by simp [Engine.modifyGate]) (Nat.le_refl _) fun other _ => ?_
  rw [gate_modifyGate]
  split
  · rename_i here; rw [← here.1]; exact same
  · rfl

section

variable (engine : Engine)

/-- So is a note. -/
theorem note (occurrence : Occurrence) : engine.Extends (engine.note occurrence) :=
  of_same rfl rfl (Nat.le_refl _)

/-- The number of a batch may be used up. -/
theorem spendBatch : engine.Extends engine.spendBatch :=
  of_same rfl rfl (Nat.le_refl _)

/-- Sessions may be woken. -/
theorem wake (h : HostRef) : engine.Extends (engine.wake h) := by
  refine of_same (by simp) (by simp) ?_
  unfold Engine.wake
  split <;> simp [Engine.modifyHost, Engine.modifySession]

/-- A batch may be put off. -/
theorem defer (h : HostRef) (batch : Batch) : engine.Extends (engine.defer h batch) :=
  ((modifyHost engine h _).trans (note _ _)).trans (wake _ h)

/-- A batch may be queued. -/
theorem enqueue (h : HostRef) (batch : Batch) : engine.Extends (engine.enqueue h batch) :=
  (modifyHost engine h _).trans (note _ _)

/-- A transition is an extension. -/
theorem transition (e : ExecutableRef) (status : Status) :
    engine.Extends (engine.transition e status) :=
  ((modifyExecutable e rfl rfl).trans (note _ _)).trans (modifyHost _ _ _)

/-- A request for readiness may be filed. -/
theorem listenReady (e : ExecutableRef) (request : ReadyRequest) :
    engine.Extends (engine.listenReady e request) := by
  unfold Engine.listenReady
  simp only
  refine trans ?_ (modifyExecutable e rfl rfl)
  split
  · exact (spendBatch engine).trans (defer _ _ _)
  · exact refl engine

/-- Destruction takes nothing out of the store. -/
theorem destroy (e : ExecutableRef) : engine.Extends (engine.destroy e) := by
  unfold Engine.destroy
  refine trans ?_ (modifyHost _ _ _)
  have marked : engine.Extends (engine.modifyExecutable e Executable.destroy) :=
    modifyExecutable e rfl rfl
  split
  · exact (marked.trans (modifyHost _ _ _)).trans (note _ _)
  · exact marked

/-- A session may end. -/
theorem endSession (k : SessionRef) : engine.Extends (engine.endSession k) := by
  have closed : engine.Extends (engine.modifySession k ({ · with phase := .finished })) :=
    of_same rfl rfl (Nat.le_refl _)
  simp only [Engine.endSession]
  split
  · exact closed.trans (modifyHost _ _ _)
  · exact closed.trans (wake _ _)
  · exact closed

/-- An executable with a temporary id may be added. -/
theorem addTemporary (h : HostRef) (work : Work) (handles : Nat) :
    engine.Extends (engine.addTemporary h work handles) :=
  (modifyHost engine h _).trans (addExecutable _ _)

end

end Engine.Extends

/-- What is there is there as the only one of a list. -/
theorem Engine.Has.only {engine : Engine} (has : engine.Has scope e) :
    ∀ other ∈ [e], engine.Has scope other :=
  forall_mem_singleton.mpr has

/-- What is there stays there. -/
theorem Engine.Has.mono (grown : before.Extends after) (has : before.Has scope e) :
    after.Has scope e :=
  ⟨Nat.lt_of_lt_of_le has.built grown.executables, has.borne⟩

/-- What a listener refers to stays there. -/
theorem Listener.Known.mono (grown : before.Extends after) (known : listener.Known before) :
    listener.Known after := by
  cases listener with
  | countdown g position => exact Nat.lt_of_lt_of_le known grown.gates
  | dependencyFailed composite => exact Nat.lt_of_lt_of_le known grown.executables
  | client _ | waitReady _ | waitFailed _ => trivial

namespace Subscriptions.Sound

variable {engine : Engine} {subscriptions : Subscriptions} {once : Bool}
  {links : List (Listener × Status)}

/-- Without entries there is nothing to check. -/
theorem empty (engine : Engine) : ({} : Subscriptions).Sound engine :=
  ⟨nodup_nil, forall_mem_nil _, forall_mem_nil _⟩

/-- Entries stay sound as the store grows. -/
theorem mono {after : Engine} (grown : engine.Extends after)
    (sound : subscriptions.Sound engine) : subscriptions.Sound after :=
  ⟨sound.keyed, sound.watchful, fun filed member => (sound.known filed member).mono grown⟩

section

variable (sound : subscriptions.Sound engine)
include sound

/-- A fitting registration keeps the entries in order. -/
theorem insert {listener : Listener} {key : Status} {group : Option Nat}
    (fits : listener.isWatcher = true → key ≠ .null ∧ once = true ∧ group = none)
    (known : listener.Known engine) :
    (subscriptions.insert listener key once group).Sound engine := by
  refine ⟨sound.keyed.insert .., sound.watchful.insert fits, ?_⟩
  intro filed member
  rcases mem_cons.mp ((subscriptions.listing_insert_perm listener key once
    group).mem_iff.mp member) with rfl | old
  · exact known
  · exact sound.known filed old

/-- Entries may be left out. -/
theorem restrict (keep : Status → Entry → Bool) : (subscriptions.restrict keep).Sound engine := by
  refine ⟨sound.keyed.restrict keep, sound.watchful.restrict keep, ?_⟩
  intro filed member
  rw [listing_restrict] at member
  exact sound.known filed (mem_of_mem_filter member)

/-- Entries may be removed. -/
theorem remove (listener : Listener) (status : Option Status) :
    (subscriptions.remove listener status).Sound engine :=
  sound.restrict _

/-- Entries for one call may be spent. -/
theorem settle (status : Status) : (subscriptions.settle status).Sound engine := by
  unfold Subscriptions.settle
  exact sound.restrict _

end

/-- All entries may be removed. -/
theorem clear (subscriptions : Subscriptions) (engine : Engine) :
    subscriptions.clear.Sound engine :=
  ⟨nodup_nil, forall_mem_nil _, forall_mem_nil _⟩

/-- Registering fitting listeners one after the other keeps the entries in order. -/
theorem foldl_add (sound : subscriptions.Sound engine) (fits : ∀ link ∈ links, link.1.Known engine ∧
      (link.1.isWatcher = true → link.2 ≠ .null ∧ once = true)) :
    (links.foldl (fun grown link => grown.add link.1 (some link.2) once)
      subscriptions).Sound engine := by
  induction links generalizing subscriptions with
  | nil => exact sound
  | cons link rest ih =>
    obtain ⟨known, fit⟩ := fits link (by simp)
    refine ih (sound.insert (fun watcher => ?_) known)
      (fun other member => fits other (by simp [member]))
    exact ⟨(fit watcher).1, (fit watcher).2, rfl⟩

/-- Registering a group of listeners of other kinds keeps the entries in order. -/
theorem addGroup (sound : subscriptions.Sound engine)
    (foreign : ∀ link ∈ links, link.1.isWatcher = false) :
    (subscriptions.addGroup links).Sound engine := by
  unfold Subscriptions.addGroup
  generalize some subscriptions.nextGroup = group
  have start : ({ subscriptions with nextGroup := subscriptions.nextGroup + 1 } :
      Subscriptions).Sound engine := ⟨sound.keyed, sound.watchful, sound.known⟩
  generalize ({ subscriptions with nextGroup := subscriptions.nextGroup + 1 } :
    Subscriptions) = grown at start
  induction links generalizing grown with
  | nil => exact start
  | cons link rest ih =>
    have other := foreign link (by simp)
    refine ih (fun link member => foreign link (by simp [member])) _ (start.insert ?_ ?_)
    · exact fun watcher => by rw [other] at watcher; cases watcher
    · exact Listener.known_of_foreign other engine

end Subscriptions.Sound

/-- Batches stay sound as the store grows. -/
theorem Batch.Sound.mono {h : HostRef} {batch : Batch} (grown : before.Extends after)
    (sound : batch.Sound before h scope) : batch.Sound after h scope where
  toHas := sound.toHas.mono grown
  home := (grown.home _ sound.built).trans sound.home
  known := fun delivery member => (sound.known delivery member).mono grown
  sends := sound.sends

namespace Engine

/-- The empty store is sound. -/
theorem sound_empty (scope : Scope) : ({} : Engine).Sound scope where
  hosted := fun e built => absurd built (Nat.not_lt_zero e)
  lawful := fun e built => absurd built (Nat.not_lt_zero e)
  older := fun _ d member => absurd (show d ∈ [] from member) not_mem_nil
  entries := fun _ => Subscriptions.Sound.empty _
  dependents := fun g made => absurd made (Nat.not_lt_zero g)
  batches := fun _ batch member => absurd (show batch ∈ [] from member) not_mem_nil
  held := fun _ held => absurd held (Nat.not_lt_zero _)
  closed := fun _ _ d listed => absurd (show d ∈ [] from listed) not_mem_nil

namespace Sound

variable {engine : Engine} {h : HostRef} {batch : Batch}

variable (sound : engine.Sound scope)
include sound

/-- Only executables, gates and hosts matter. -/
theorem of_same {after : Engine} (executables : after.executables = engine.executables)
    (gates : after.gates = engine.gates) (hosts : after.hosts = engine.hosts) :
    after.Sound scope := by
  have look (e : ExecutableRef) : after.executable e = engine.executable e := by
    simp only [executable, executables]
  have stay (h : HostRef) : after.host h = engine.host h := by simp only [host, hosts]
  have grown : engine.Extends after := .of_same executables gates (by rw [hosts])
  constructor
  · intro e built
    rw [look, hosts]
    exact sound.hosted e (executables ▸ built)
  · intro e built
    rw [look]
    exact sound.lawful e (executables ▸ built)
  · intro e d member
    exact sound.older e d (look e ▸ member)
  · intro e
    rw [look]
    exact (sound.entries e).mono grown
  · intro g made
    have same : after.gate g = engine.gate g := by simp only [gate, gates]
    rw [same, executables]
    exact sound.dependents g (gates ▸ made)
  · intro h batch member
    rw [stay] at member
    exact (sound.batches h batch member).mono grown
  · exact fun e held => sound.held e (look e ▸ held)
  · exact fun e borne d listed => sound.closed e borne d (look e ▸ listed)

/-- A host may change as long as its batches are sound. -/
theorem modifyHost (h : HostRef) {change : Host → Host}
    (fewer : ∀ batch ∈ (change (engine.host h)).queue ++ (change (engine.host h)).deferred,
      batch.Sound engine h scope) : (engine.modifyHost h change).Sound scope := by
  have grown := Extends.modifyHost engine h change
  constructor
  · intro e built
    exact Nat.lt_of_lt_of_le (sound.hosted e built) grown.hosts
  · exact sound.lawful
  · exact sound.older
  · exact fun e => (sound.entries e).mono grown
  · exact sound.dependents
  · intro other batch member
    rw [host_modifyHost] at member
    split at member
    · -- The host that changed has no batch but those that are sound for it.
      rename_i here
      obtain ⟨rfl, _⟩ := here
      exact (fewer batch member).mono grown
    · exact (sound.batches other batch member).mono grown
  · exact sound.held
  · exact sound.closed

/-- What a host has counted does not matter. -/
theorem modifyTally (h : HostRef) (change : Tally → Tally) :
    (engine.modifyTally h change).Sound scope :=
  sound.modifyHost h fun batch member => sound.batches h batch member

/-- An executable may change in its entries, if they stay sound, and in its status. -/
theorem modifyExecutable (e : ExecutableRef) {change : Executable → Executable}
    (stays : (change (engine.executable e)).host = (engine.executable e).host)
    (works : (change (engine.executable e)).work = (engine.executable e).work)
    (entries : (change (engine.executable e)).subscriptions.Sound engine)
    (held : 0 < (change (engine.executable e)).handles → scope.bears e) :
    (engine.modifyExecutable e change).Sound scope := by
  have grown := Extends.modifyExecutable e works stays
  have home (other : ExecutableRef) : ((engine.modifyExecutable e change).executable other).host =
      (engine.executable other).host := read_modifyExecutable_of_same (·.host) stays other
  have work (other : ExecutableRef) : ((engine.modifyExecutable e change).executable other).work =
      (engine.executable other).work := read_modifyExecutable_of_same (·.work) works other
  have size : (engine.modifyExecutable e change).executables.length = engine.executables.length :=
    by simp [Engine.modifyExecutable]
  constructor
  · intro other built
    rw [home]
    exact sound.hosted other (size ▸ built)
  · intro other built
    rw [work]
    exact sound.lawful other (size ▸ built)
  · intro other d member
    exact sound.older other d (work other ▸ member)
  · intro other
    rw [executable_modifyExecutable]
    split
    · exact entries.mono grown
    · exact (sound.entries other).mono grown
  · intro g made
    exact Nat.lt_of_lt_of_le (sound.dependents g made) grown.executables
  · intro h batch member
    exact (sound.batches h batch member).mono grown
  · intro other owned
    rw [executable_modifyExecutable] at owned
    split at owned
    · rename_i here
      exact here.1 ▸ held owned
    · exact sound.held other owned
  · exact fun other borne d listed => sound.closed other borne d (work other ▸ listed)

/-- An executable may be added to those that it depends on. -/
theorem addExecutable {added : Executable} (opened : added.host < engine.hosts.length)
    (lawful : added.work.fault? = none) (older : ∀ d ∈ added.work.dependencies, engine.Has scope d)
    (blank : added.subscriptions = {}) (borne : scope.bears engine.executables.length) :
    (engine.addExecutable added).Sound scope := by
  have size : (engine.addExecutable added).executables.length = engine.executables.length + 1 := by
    simp [Engine.addExecutable]
  have grown := Extends.addExecutable engine added
  have earlier {e : ExecutableRef} (built : e < (engine.addExecutable added).executables.length)
      (other : e ≠ engine.executables.length) : e < engine.executables.length := by
    rw [size] at built
    exact Nat.lt_of_le_of_ne (Nat.le_of_lt_succ built) other
  -- Each part is assumed of the new executable, and holds of the others as before.
  constructor
  · intro e built
    rw [executable_addExecutable]
    split
    · exact opened
    · rename_i other
      exact sound.hosted e (earlier built other)
  · intro e built
    rw [executable_addExecutable]
    split
    · exact lawful
    · rename_i other
      exact sound.lawful e (earlier built other)
  · intro e d member
    rw [executable_addExecutable] at member
    split at member
    · rename_i last
      rw [last]
      exact (older d member).built
    · exact sound.older e d member
  · intro e
    rw [executable_addExecutable]
    split
    · rw [blank]
      exact Subscriptions.Sound.empty _
    · exact (sound.entries e).mono grown
  · intro g made
    exact Nat.lt_of_lt_of_le (sound.dependents g made) grown.executables
  · intro h batch member
    exact (sound.batches h batch member).mono grown
  · intro e owned
    rw [executable_addExecutable] at owned
    split at owned
    · rename_i last
      exact last ▸ borne
    · exact sound.held e owned
  · intro e kept d member
    rw [executable_addExecutable] at member
    split at member
    · exact (older d member).borne
    · exact sound.closed e kept d member

/-- A gate may be added for an executable. -/
theorem addGate {gate : Gate} (built : gate.dependent < engine.executables.length) :
    (engine.addGate gate).Sound scope := by
  have size : (engine.addGate gate).gates.length = engine.gates.length + 1 := by
    simp [Engine.addGate]
  have grown := Extends.addGate engine gate
  refine ⟨sound.hosted, sound.lawful, sound.older, fun e => (sound.entries e).mono grown, ?_,
    fun h batch member => (sound.batches h batch member).mono grown, sound.held, sound.closed⟩
  intro g made
  rw [size] at made
  rw [gate_addGate engine gate (Nat.le_of_lt_succ made)]
  split
  · exact built
  · rename_i other
    exact sound.dependents g (Nat.lt_of_le_of_ne (Nat.le_of_lt_succ made) other)

/-- A gate may change in all but whom it moves. -/
theorem modifyGate (g : GateRef) {change : Gate → Gate}
    (same : (change (engine.gate g)).dependent = (engine.gate g).dependent) :
    (engine.modifyGate g change).Sound scope := by
  have size : (engine.modifyGate g change).gates.length = engine.gates.length := by
    simp [Engine.modifyGate]
  have grown := Extends.modifyGate g same
  refine ⟨sound.hosted, sound.lawful, sound.older, fun e => (sound.entries e).mono grown, ?_,
    fun h batch member => (sound.batches h batch member).mono grown, sound.held, sound.closed⟩
  intro other made
  rw [grown.dependent other (size ▸ made)]
  exact sound.dependents other (size ▸ made)

/-- A sound batch may be queued. -/
theorem enqueue (fits : batch.Sound engine h scope) : (engine.enqueue h batch).Sound scope := by
  have queued : (engine.modifyHost h fun host =>
      { host with queue := host.queue ++ [batch] }).Sound scope := by
    apply sound.modifyHost h
    intro other member
    simp only [append_assoc, mem_append, mem_singleton] at member
    rcases member with old | rfl | old
    · exact sound.batches h other (by simp [old])
    · exact fits
    · exact sound.batches h other (by simp [old])
  exact queued.of_same rfl rfl rfl

/-- Sessions may be woken. -/
theorem wake (h : HostRef) : (engine.wake h).Sound scope := by
  unfold Engine.wake
  split
  · rename_i rest _
    have struck : (engine.modifyHost h ({ · with waiters := rest })).Sound scope :=
      sound.modifyHost h fun batch member => sound.batches h batch member
    exact struck.of_same rfl rfl rfl
  · exact sound.modifyHost h fun batch member => sound.batches h batch member

/-- A sound batch may be put off. -/
theorem defer (fits : batch.Sound engine h scope) : (engine.defer h batch).Sound scope := by
  have queued : (engine.modifyHost h fun host =>
      { host with deferred := host.deferred ++ [batch] }).Sound scope := by
    apply sound.modifyHost h
    intro other member
    rw [← append_assoc] at member
    rcases mem_append.mp member with old | last
    · exact sound.batches h other old
    · rw [mem_singleton.mp last]
      exact fits
  have noted : ((engine.modifyHost h fun host => { host with
      deferred := host.deferred ++ [batch] }).note (.deferred h batch.serial)).Sound scope :=
    queued.of_same rfl rfl rfl
  exact noted.wake h

/-- A transition keeps the store sound. -/
theorem transition (e : ExecutableRef) (status : Status) :
    (engine.transition e status).Sound scope := by
  unfold Engine.transition
  refine Sound.modifyTally ?_ _ _
  refine (sound.modifyExecutable e rfl rfl ?_ (by exact sound.held e)).of_same rfl rfl rfl
  exact (sound.entries e).settle status

/-- A request of the client for readiness may be filed, and granted at once. -/
theorem listenReady {e : ExecutableRef} (has : engine.Has scope e) {request : ReadyRequest}
    (foreign : ∀ listener ∈ request.success :: request.failure.toList, listener.isWatcher = false)
    (sends : ((engine.executable e).isReady && !request.onlyFuture) = true →
      scope.sends ⟨e, (engine.executable e).readyStatus, (engine.executable e).readyStatus⟩
        ⟨request.success, none⟩) : (engine.listenReady e request).Sound scope := by
  have links := request.foreign_links foreign (engine.executable e)
  unfold Engine.listenReady
  simp only
  generalize told : (if (engine.executable e).isReady && !request.onlyFuture then _ else engine) =
    after
  have sound : after.Sound scope := by
    subst told
    split
    · rename_i immediate
      have spent : engine.spendBatch.Sound scope := sound.of_same rfl rfl rfl
      have only {delivery : Delivery} (member : delivery ∈ [⟨request.success, none⟩]) :
          delivery = ⟨request.success, none⟩ := mem_singleton.mp member
      refine spent.defer ⟨has.mono (.spendBatch _), rfl, fun delivery member => ?_,
        fun delivery member => ?_⟩
      · rw [only member]
        exact Listener.known_of_foreign (foreign _ (by simp)) _
      · rw [only member]
        exact sends immediate
    · exact sound
  refine sound.modifyExecutable e rfl rfl ?_ (sound.held e)
  simp only
  split
  · refine (sound.entries e).foldl_add fun link member => ?_
    have other := links link member
    exact ⟨Listener.known_of_foreign other _, fun watcher => by
      rw [other] at watcher; cases watcher⟩
  · split
    · exact sound.entries e
    · exact (sound.entries e).addGroup links

/-- Destruction keeps the store sound. -/
theorem destroy (e : ExecutableRef) : (engine.destroy e).Sound scope := by
  have marked : (engine.modifyExecutable e Executable.destroy).Sound scope :=
    sound.modifyExecutable e rfl rfl (Subscriptions.Sound.clear _ _) (sound.held e)
  unfold Engine.destroy
  refine Sound.modifyTally ?_ _ _
  split
  · have struck : ((engine.modifyExecutable e Executable.destroy).modifyHost
        (engine.executable e).host (·.strike (engine.executable e).id)).Sound scope :=
      marked.modifyHost _ fun batch member => marked.batches _ batch member
    exact struck.of_same rfl rfl rfl
  · exact marked

/-- A session may end. -/
theorem endSession (k : SessionRef) : (engine.endSession k).Sound scope := by
  have closed : (engine.modifySession k ({ · with phase := .finished })).Sound scope :=
    sound.of_same rfl rfl rfl
  simp only [Engine.endSession]
  split
  · exact closed.modifyHost _ fun batch member => closed.batches _ batch member
  · exact closed.wake _
  · exact closed

/-- An executable with a temporary id may be added. -/
theorem addTemporary (opened : h < engine.hosts.length) {work : Work} (lawful : work.fault? = none)
    (older : ∀ d ∈ work.dependencies, engine.Has scope d)
    (borne : scope.bears engine.executables.length) (handles : Nat) :
    (engine.addTemporary h work handles).Sound scope := by
  have numbered : (engine.modifyHost h
      ({ · with nextTemporary := (engine.host h).nextTemporary + 1 })).Sound scope :=
    sound.modifyHost h fun batch member => sound.batches h batch member
  refine numbered.addExecutable ?_ lawful
    (fun d listed => (older d listed).mono (.modifyHost ..)) rfl borne
  simpa [Engine.modifyHost] using opened

/-- A host may be added. -/
theorem addHost (settings : Settings) (observer : Observer) :
    (engine.addHost settings observer).Sound scope := by
  have grown : engine.Extends (engine.addHost settings observer) :=
    .of_same rfl rfl (by simp [Engine.addHost])
  refine ⟨fun e built => Nat.lt_of_lt_of_le (sound.hosted e built) grown.hosts, sound.lawful,
    sound.older, fun e => (sound.entries e).mono grown, sound.dependents, ?_, sound.held,
    sound.closed⟩
  intro h batch member
  rw [host_addHost] at member
  split at member
  · cases member
  · exact (sound.batches h batch member).mono grown

end Sound

end Engine

end Readiness
