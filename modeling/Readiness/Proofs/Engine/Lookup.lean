import Mathlib.Logic.Function.Basic
import Readiness.Engine.Change

/-! What the look-ups of the store read after a change. -/

namespace Readiness

open List

/-- A move leads to another status than the sentinel. -/
theorem Executable.moves_iff (executable : Executable) (status : Status) :
    executable.moves status = true ↔ status ≠ .null ∧ status ≠ executable.status := by
  cases status <;> simp [Executable.moves, Status.isNull]

namespace Engine

variable {engine : Engine} {h : HostRef} {batch : Batch} {rest : List Batch}

/-- Nothing is known of what is not built. -/
theorem executable_of_ge {e : ExecutableRef} (beyond : engine.executables.length ≤ e) :
    engine.executable e = default := by
  simp [executable, getD_eq_getElem?_getD, beyond]

/-- One executable changes. -/
theorem executable_modifyExecutable (engine : Engine) (e other : ExecutableRef)
    (change : Executable → Executable) :
    (engine.modifyExecutable e change).executable other =
      if e = other ∧ e < engine.executables.length then change (engine.executable e)
      else engine.executable other := by
  by_cases same : e = other
  · subst same
    by_cases built : e < engine.executables.length
    · simp [executable_modifyExecutable_self engine change built, built]
    · have beyond : engine.executables.length ≤ e := Nat.le_of_not_lt built
      simp only [built, and_false, if_false]
      rw [executable_of_ge beyond, executable_of_ge (by simpa [modifyExecutable] using beyond)]
  · simp [executable_modifyExecutable_of_ne engine change same, same]

/-- The new one is the last. -/
theorem executable_addExecutable (engine : Engine) (added : Executable) (e : ExecutableRef) :
    (engine.addExecutable added).executable e =
      if e = engine.executables.length then added else engine.executable e := by
  by_cases last : e = engine.executables.length
  · subst last
    simp [addExecutable, executable, getD_eq_getElem?_getD]
  · rcases Nat.lt_or_ge e engine.executables.length with built | beyond
    · simp [addExecutable, executable, getD_eq_getElem?_getD, getElem?_append_left built,
        last]
    · -- Past the new one there is still nothing.
      rw [if_neg last, executable_of_ge beyond, executable_of_ge]
      simp only [addExecutable, length_append, length_singleton]
      exact Nat.lt_of_le_of_ne beyond (Ne.symm last)

section

variable {α : Type} (read : Executable → α) {e : ExecutableRef} {change : Executable → Executable}
  {added : Executable}

/-- A change shows in what is read of its own executable. -/
theorem read_modifyExecutable (built : e < engine.executables.length)
    (change : Executable → Executable) :
    (fun other => read ((engine.modifyExecutable e change).executable other)) =
      Function.update (fun other => read (engine.executable other)) e
        (read (change (engine.executable e))) := by
  funext other
  rw [executable_modifyExecutable]
  by_cases here : e = other
  · subst here
    simp [built]
  · simp [here, Function.update_of_ne (Ne.symm here)]

/-- A change that does not show in its own executable shows nowhere. -/
theorem read_modifyExecutable_of_same
    (same : read (change (engine.executable e)) = read (engine.executable e))
    (other : ExecutableRef) :
    read ((engine.modifyExecutable e change).executable other) =
      read (engine.executable other) := by
  rw [executable_modifyExecutable]
  split
  · rename_i here
    rw [← here.1]
    exact same
  · rfl

/-- A reading of all gets one more place. -/
theorem read_addExecutable (engine : Engine) (added : Executable) :
    (fun other => read ((engine.addExecutable added).executable other)) =
      Function.update (fun other => read (engine.executable other)) engine.executables.length
        (read added) := by
  funext other
  rw [executable_addExecutable]
  by_cases last : other = engine.executables.length
  · subst last
    simp
  · simp [last]

/-- What has not been built is read like what has just been built. -/
theorem read_addExecutable_of_same (same : read added = read default) (other : ExecutableRef) :
    read ((engine.addExecutable added).executable other) = read (engine.executable other) := by
  rw [executable_addExecutable]
  split
  · rename_i last
    rw [same, executable_of_ge (Nat.le_of_eq last.symm)]
  · rfl

end

/-- One host changes. -/
theorem host_modifyHost (engine : Engine) (h other : HostRef) (change : Host → Host) :
    (engine.modifyHost h change).host other =
      if h = other ∧ h < engine.hosts.length then change (engine.host h)
      else engine.host other := by
  by_cases same : h = other
  · subst same
    by_cases opened : h < engine.hosts.length
    · simp [modifyHost, host, getD_eq_getElem?_getD, opened]
    · simp [modifyHost, host, getD_eq_getElem?_getD, opened]
  · simp [modifyHost, host, getD_eq_getElem?_getD, same]

/-- The store once an executable has been built under this id and put on the roster. -/
def addRegistered (engine : Engine) (h : HostRef) (id : String) (work : Work) : Engine :=
  ((engine.addExecutable { id, registered := true, host := h, work, handles := 1 }).modifyHost h
    (·.enrol id engine.executables.length)).note (.registered engine.executables.length)

/-- A host of which something is known is open. -/
theorem host_lt_of_ne_default (used : engine.host h ≠ default) : h < engine.hosts.length := by
  rcases Nat.lt_or_ge h engine.hosts.length with opened | beyond
  · exact opened
  · exact absurd (by simp [host, getD_eq_getElem?_getD, beyond]) used

/-- A host with which a batch waits is there. -/
theorem host_lt_of_waiting (waits : batch ∈ (engine.host h).queue ++ (engine.host h).deferred) :
    h < engine.hosts.length := by
  refine host_lt_of_ne_default fun blank => ?_
  rw [blank] at waits
  cases waits

/-- A host with a queue is open. -/
theorem host_lt_of_queue (queue : (engine.host h).queue = batch :: rest) :
    h < engine.hosts.length :=
  host_lt_of_waiting (mem_append_left _ (queue ▸ mem_cons_self))

/-- A host that put something off is open. -/
theorem host_lt_of_deferred (deferred : (engine.host h).deferred = batch :: rest) :
    h < engine.hosts.length :=
  host_lt_of_waiting (mem_append_right _ (deferred ▸ mem_cons_self))

/-- The new host is the last. -/
theorem host_addHost (engine : Engine) (settings : Settings) (observer : Observer) (h : HostRef) :
    (engine.addHost settings observer).host h =
      if h = engine.hosts.length then { settings, observer } else engine.host h := by
  rcases Nat.lt_trichotomy h engine.hosts.length with opened | rfl | beyond
  · rw [if_neg (Nat.ne_of_lt opened)]
    simp [addHost, host, getD_eq_getElem?_getD, getElem?_append_left opened]
  · simp [addHost, host, getD_eq_getElem?_getD]
  · rw [if_neg (Nat.ne_of_gt beyond)]
    have past (added : Host) : (engine.hosts ++ [added])[h]? = none := by
      rw [getElem?_eq_none_iff, length_append, length_singleton]
      exact beyond
    simp [addHost, host, getD_eq_getElem?_getD, past, Nat.le_of_lt beyond]

section

variable {α : Type} (read : Host → α) {change : Host → Host}

/-- A change shows in what is read of its own host. -/
theorem read_modifyHost (opened : h < engine.hosts.length) (change : Host → Host) :
    (fun other => read ((engine.modifyHost h change).host other)) =
      Function.update (fun other => read (engine.host other)) h
        (read (change (engine.host h))) := by
  funext other
  rw [host_modifyHost]
  by_cases here : h = other
  · subst here
    simp [opened]
  · simp [here, Function.update_of_ne (Ne.symm here)]

/-- A change that does not show in its own host shows nowhere. -/
theorem read_modifyHost_of_same (same : read (change (engine.host h)) = read (engine.host h))
    (other : HostRef) :
    read ((engine.modifyHost h change).host other) = read (engine.host other) := by
  rw [host_modifyHost]
  split
  · rename_i here
    rw [← here.1]
    exact same
  · rfl

/-- A reading of all gets one more place. -/
theorem read_addHost (engine : Engine) (settings : Settings) (observer : Observer) :
    (fun other => read ((engine.addHost settings observer).host other)) =
      Function.update (fun other => read (engine.host other)) engine.hosts.length
        (read { settings, observer }) := by
  funext other
  rw [host_addHost]
  by_cases last : other = engine.hosts.length
  · subst last
    simp
  · simp [last]

/-- A host that is not open is read like one that keeps nothing. -/
theorem read_addHost_of_same {settings : Settings} {observer : Observer}
    (same : read { settings, observer } = read default) (other : HostRef) :
    read ((engine.addHost settings observer).host other) = read (engine.host other) := by
  rw [host_addHost]
  split
  · rename_i last
    rw [same, last]
    simp [host, getD_eq_getElem?_getD]
  · rfl

end

section

variable (engine : Engine)

/-- One gate changes. -/
theorem gate_modifyGate (g other : GateRef) (change : Gate → Gate) :
    (engine.modifyGate g change).gate other =
      if g = other ∧ g < engine.gates.length then change (engine.gate g)
      else engine.gate other := by
  by_cases same : g = other
  · subst same
    by_cases made : g < engine.gates.length
    · simp [modifyGate, gate, getD_eq_getElem?_getD, made]
    · simp [modifyGate, gate, getD_eq_getElem?_getD, made]
  · simp [modifyGate, gate, getD_eq_getElem?_getD, same]

/-- The new gate is the last. -/
theorem gate_addGate (added : Gate) {g : GateRef} (made : g ≤ engine.gates.length) :
    (engine.addGate added).gate g =
      if g = engine.gates.length then added else engine.gate g := by
  by_cases last : g = engine.gates.length
  · subst last
    simp [addGate, gate, getD_eq_getElem?_getD]
  · have older : g < engine.gates.length := Nat.lt_of_le_of_ne made last
    simp [addGate, gate, getD_eq_getElem?_getD, getElem?_append_left older, last]

/-- Waking touches no executable. -/
@[simp] theorem executables_wake (h : HostRef) :
    (engine.wake h).executables = engine.executables := by
  unfold wake
  split <;> rfl

/-- Waking touches no gate. -/
@[simp] theorem gates_wake (h : HostRef) : (engine.wake h).gates = engine.gates := by
  unfold wake
  split <;> rfl

/-- Waking touches no wait. -/
@[simp] theorem waits_wake (h : HostRef) : (engine.wake h).waits = engine.waits := by
  unfold wake
  split <;> rfl

/-- Waking is not noted. -/
@[simp] theorem journal_wake (h : HostRef) : (engine.wake h).journal = engine.journal := by
  unfold wake
  split <;> rfl

/-- A request for readiness touches no wait. -/
@[simp] theorem waits_listenReady (e : ExecutableRef) (request : ReadyRequest) :
    (engine.listenReady e request).waits = engine.waits := by
  simp only [listenReady, modifySubscriptions, modifyExecutable]
  split
  · exact waits_wake _ _
  · rfl

end

end Engine

end Readiness
