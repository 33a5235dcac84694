import Mathlib.Logic.Function.Basic
import Readiness.Proofs.Machine.View

/-! The protocol of gates and composites: all that can become of the view in one step.

What the steps depend on, but the view does not show, is given along with them: the work of every
executable, who is alive, what the client asks for and which calls a panic can end.
-/

namespace Readiness

/-- What a step of the view depends on besides the view. -/
structure Circumstances where
  /-- The work of each executable. -/
  work : ExecutableRef → Work
  /-- Who is alive. -/
  alive : ExecutableRef → Bool
  /-- What the client may ask for. -/
  asks : Command → Prop
  /-- Which calls a panic may end. -/
  loses : Frame → Prop

namespace View

/-- The view after a transition, which sets the calls of the watches for it on their way. -/
def move (view : View) (e : ExecutableRef) (status : Status) : View :=
  { view with
    status := Function.update view.status e status
    watches := Function.update view.watches e
      ((view.watches e).filter fun watch => watch.1 ≠ status)
    alerts := ((view.watches e).filter fun watch => watch.1 = status).map
      (fun watch => (⟨e, status, view.status e⟩, watch.2)) + view.alerts
    journal := view.journal ++ [.transitioned e (view.status e) status]
    errand := none }

/-- The gate that a reference names. -/
def gate (view : View) (g : GateRef) : Gate :=
  view.gates.getD g default

/-- The view with one dependency of a gate less to wait for. -/
def count (view : View) (g : GateRef) : View :=
  { view with
    gates := view.gates.modify g ({ · with remaining := (view.gate g).remaining - 1 }) }

/-- The view after a gate has asked its dependent to move. -/
def release (view : View) (g : GateRef) : View :=
  { view with
    journal := view.journal ++ [.gateOpened g]
    errand := some (.setStatus (view.gate g).dependent (view.gate g).target) }

/-- The view after one dependency of a gate has been counted, the last of which opens it. -/
def countOrRelease (view : View) (g : GateRef) : View :=
  if (view.gate g).remaining = 1 then (view.count g).release g else view.count g

section

variable (view : View) (g : GateRef)

/-- Counting moves nobody. -/
@[simp] theorem status_countOrRelease : (view.countOrRelease g).status = view.status := by
  unfold countOrRelease; split <;> rfl

/-- Counting destroys nobody. -/
@[simp] theorem destroyed_countOrRelease : (view.countOrRelease g).destroyed = view.destroyed := by
  unfold countOrRelease; split <;> rfl

/-- Counting executes nobody. -/
@[simp] theorem runs_countOrRelease : (view.countOrRelease g).runs = view.runs := by
  unfold countOrRelease; split <;> rfl

/-- Counting leaves the watches. -/
@[simp] theorem watches_countOrRelease : (view.countOrRelease g).watches = view.watches := by
  unfold countOrRelease; split <;> rfl

/-- Counting leaves the calls that are on their way. -/
@[simp] theorem alerts_countOrRelease : (view.countOrRelease g).alerts = view.alerts := by
  unfold countOrRelease; split <;> rfl

/-- Counting leaves the duties. -/
@[simp] theorem duties_countOrRelease : (view.countOrRelease g).duties = view.duties := by
  unfold countOrRelease; split <;> rfl

/-- Whether the gate opens does not show in the gates. -/
@[simp] theorem gates_countOrRelease : (view.countOrRelease g).gates = (view.count g).gates := by
  unfold countOrRelease; split <;> rfl

/-- That the gate opens is noted. -/
theorem journal_countOrRelease :
    (view.countOrRelease g).journal =
      view.journal ++ if (view.gate g).remaining = 1 then [.gateOpened g] else [] := by
  unfold countOrRelease
  split
  · rfl
  · exact (List.append_nil _).symm

end

/-- Other gates do not count. -/
theorem getElem?_gates_count (view : View) {g other : GateRef} (distinct : other ≠ g) :
    (view.count g).gates[other]? = view.gates[other]? := by
  simp only [count, List.getElem?_modify_ne _ _ distinct.symm]

/-- A new gate does not change those before it. -/
theorem gate_append {view next : View} {g : GateRef} (made : g < view.gates.length) {added : Gate}
    (gates : next.gates = view.gates ++ [added]) : next.gate g = view.gate g := by
  rw [gate, gate, gates, List.getD_eq_getElem?_getD, List.getElem?_append_left made,
    List.getD_eq_getElem?_getD]

/-- Counting does not change whom a gate moves. -/
@[simp] theorem dependent_gate_count (view : View) (g other : GateRef) :
    ((view.count g).gate other).dependent = (view.gate other).dependent := by
  simp only [gate, count, List.getD_eq_getElem?_getD, List.getElem?_modify]
  cases view.gates[other]? with
  | none => rfl
  | some found => by_cases same : g = other <;> simp [same]

/-- Whom a watcher acts on. -/
def target? (view : View) : Listener → Option ExecutableRef
  | .countdown g _ => some (view.gate g).dependent
  | .dependencyFailed composite => some composite
  | .client _ | .waitReady _ | .waitFailed _ => none

end View

namespace Circumstances

/-- The dependency is ready. -/
def Ready (given : Circumstances) (view : View) (d : ExecutableRef) : Prop :=
  view.status d = (given.work d).readyStatus

/-- The dependency has failed. -/
def Failed (given : Circumstances) (view : View) (d : ExecutableRef) : Prop :=
  view.status d ∈ (given.work d).failedStatuses

/-- The watches that a gate puts on a dependency that is not ready. -/
def links (given : Circumstances) (g : GateRef) (position : Nat) (d : ExecutableRef)
    (onFailure : Option Listener) : Multiset (Status × Listener) :=
  ((given.work d).readyStatus, .countdown g position) ::ₘ
    ((onFailure.toList.filter Listener.isWatcher).flatMap fun listener =>
      (given.work d).failedStatuses.map fun status => (status, listener) :
        List (Status × Listener))

/-- What can become of the view in one step. -/
inductive Step (given : Circumstances) (view : View) : View → Prop where
  | pass (idle : view.errand = none) : Step given view view
  | ask (idle : view.errand = none) {command : Command}
    (errand : command.isErrand = true) (asked : given.asks command)
    (foreign : ∀ listener ∈ command.listeners, listener.isWatcher = false) :
    Step given view { view with errand := some command }
  | leave {e : ExecutableRef} (asked : view.errand = some (.execute e .ifNotReady))
    (ready : given.Ready view e) : Step given view { view with errand := none }
  | execute {e : ExecutableRef} {refresh : Refresh}
    (asked : view.errand = some (.execute e refresh)) :
    Step given view
      { view with errand := none, duties := .begin e (view.status e) :: view.duties }
  | stay {e : ExecutableRef} {status : Status} (asked : view.errand = some (.setStatus e status))
    (same : status = .null ∨ status = view.status e) : Step given view { view with errand := none }
  | move {e : ExecutableRef} {status : Status}
    (asked : view.errand = some (.setStatus e status)) (real : status ≠ .null)
    (new : status ≠ view.status e) : Step given view (view.move e status)
  | compose {e : ExecutableRef} {status : Status} {duties : List Frame}
    {dependencies : List ExecutableRef} (idle : view.errand = none)
    (top : view.duties = .begin e status :: duties)
    (work : given.work e = .composite dependencies) :
    Step given view
      { view with
        runs := Function.update view.runs e (view.runs e + 1)
        duties := .gather e :: duties
        errand := some (.setStatus e .waiting) }
  | work {e : ExecutableRef} {status : Status} {duties own : List Frame}
    {errand : Option Command} (idle : view.errand = none)
    (top : view.duties = .begin e status :: duties)
    (other : ∀ dependencies, given.work e ≠ .composite dependencies)
    (moves : ∀ duty ∈ own, ∃ statuses, duty = .moves e statuses)
    (asks : ∀ command ∈ errand, ∃ status, command = .setStatus e status) :
    Step given view
      { view with
        runs := Function.update view.runs e (view.runs e + 1)
        duties := own ++ duties
        errand := errand }
  | prompt {e : ExecutableRef} {status : Status} {others : List Status}
    {duties : List Frame} (idle : view.errand = none)
    (top : view.duties = .moves e (status :: others) :: duties) :
    Step given view
      { view with
        duties := (Frame.moves e others).duty ++ duties
        errand := some (.setStatus e status) }
  | report {e : ExecutableRef} {status : Status} (idle : view.errand = none)
    (asked : given.asks (.report e status) ∨ ∃ reason, given.asks (.fail e reason)) :
    Step given view { view with duties := .moves e [status] :: view.duties }
  | build {e : ExecutableRef} (idle : view.errand = none) (work : given.work e = .constant) :
    Step given view { view with duties := .moves e [.initialized, .ready] :: view.duties }
  | gather {e : ExecutableRef} {duties : List Frame} (idle : view.errand = none)
    (top : view.duties = .gather e :: duties) :
    Step given view
      { view with
        duties := .inspect e :: duties
        errand := some (.synchronise e .ready (given.work e).dependencies
          (some (.dependencyFailed e))) }
  | clear {e : ExecutableRef} {duties : List Frame} (idle : view.errand = none)
    (top : view.duties = .inspect e :: duties)
    (fine : ∀ d ∈ (given.work e).dependencies, ¬ given.Failed view d) :
    Step given view { view with duties := duties }
  | fault {e d : ExecutableRef} {duties : List Frame} (idle : view.errand = none)
    (top : view.duties = .inspect e :: duties) (listed : d ∈ (given.work e).dependencies)
    (failed : given.Failed view d) :
    Step given view { view with duties := duties, errand := some (.setStatus e .failed) }
  | passThrough {e : ExecutableRef} {target : Status}
    {dependencies : List ExecutableRef} {onFailure : Option Listener}
    (asked : view.errand = some (.synchronise e target dependencies onFailure))
    (ready : ∀ d ∈ dependencies, given.Ready view d) :
    Step given view
      { view with
        gates := view.gates ++ [⟨e, target, 0⟩]
        journal := view.journal ++ [.gateOpened view.gates.length]
        errand := some (.setStatus e target) }
  | close {e : ExecutableRef} {target : Status}
    {dependencies : List ExecutableRef} {onFailure : Option Listener}
    (asked : view.errand = some (.synchronise e target dependencies onFailure))
    (pending : ∃ d ∈ dependencies, ¬ given.Ready view d) :
    Step given view
      { view with
        gates := view.gates ++ [⟨e, target, dependencies.length⟩]
        duties := .arm view.gates.length 0 dependencies onFailure :: view.duties
        errand := none }
  | finish {g : GateRef} {position : Nat} {onFailure : Option Listener}
    {duties : List Frame} (idle : view.errand = none)
    (top : view.duties = .arm g position [] onFailure :: duties) :
    Step given view { view with duties := duties }
  | send {g : GateRef} {position : Nat} {d : ExecutableRef}
    {rest : List ExecutableRef} {onFailure : Option Listener} {duties : List Frame}
    (idle : view.errand = none)
    (top : view.duties = .arm g position (d :: rest) onFailure :: duties)
    (pending : ¬ given.Ready view d) :
    Step given view
      { view with
        duties := .examine g position d rest onFailure :: duties
        errand := some (.execute d .always) }
  | count {g : GateRef} {position : Nat} {d : ExecutableRef}
    {rest : List ExecutableRef} {onFailure : Option Listener} {duties : List Frame}
    (idle : view.errand = none)
    (top : view.duties = .arm g position (d :: rest) onFailure :: duties ∨
      view.duties = .examine g position d rest onFailure :: duties)
    (ready : given.Ready view d) :
    Step given view
      (View.countOrRelease { view with
        duties := .arm g (position + 1) rest onFailure :: duties
        journal := view.journal ++ [.examined g position d true] } g)
  | watch {g : GateRef} {position : Nat} {d : ExecutableRef}
    {rest : List ExecutableRef} {onFailure : Option Listener} {duties : List Frame}
    (idle : view.errand = none)
    (top : view.duties = .examine g position d rest onFailure :: duties)
    (pending : ¬ given.Ready view d) :
    Step given view
      { view with
        duties := .arm g (position + 1) rest onFailure :: duties
        journal := view.journal ++ [.examined g position d false]
        watches := Function.update view.watches d
          (given.links g position d onFailure + view.watches d) }
  | call {listener : Listener} {event : Event} (idle : view.errand = none)
    (watcher : listener.isWatcher = true) (sent : (event, listener) ∈ view.alerts)
    (there : view.destroyed event.source = false) :
    Step given view { view with errand := some (.invoke listener event) }
  | spare {listener : Listener} {event : Event}
    {alerts : Multiset (Event × Listener)} {e : ExecutableRef}
    (asked : view.errand = some (.invoke listener event))
    (sent : view.alerts = (event, listener) ::ₘ alerts) (about : view.target? listener = some e)
    (dead : given.alive e = false) : Step given view { view with alerts := alerts, errand := none }
  | tick {g : GateRef} {position : Nat} {event : Event} {alerts : Multiset (Event × Listener)}
    (asked : view.errand = some (.invoke (.countdown g position) event))
    (sent : view.alerts = (event, .countdown g position) ::ₘ alerts)
    (alive : given.alive (view.gate g).dependent = true)
    (able : (view.gate g).remaining = 1 → view.destroyed (view.gate g).dependent = false ∧
      ¬ given.Failed view (view.gate g).dependent) :
    Step given view (View.countOrRelease { view with alerts := alerts, errand := none } g)
  /-- The last call for a gate finds its dependent destroyed or failed, and does not open it. -/
  | skip {g : GateRef} {position : Nat} {event : Event} {alerts : Multiset (Event × Listener)}
    (asked : view.errand = some (.invoke (.countdown g position) event))
    (sent : view.alerts = (event, .countdown g position) ::ₘ alerts)
    (alive : given.alive (view.gate g).dependent = true) (last : (view.gate g).remaining = 1)
    (unable : view.destroyed (view.gate g).dependent = true ∨
      given.Failed view (view.gate g).dependent) :
    Step given view (View.count { view with alerts := alerts, errand := none } g)
  | alarm {e : ExecutableRef} {event : Event} {alerts : Multiset (Event × Listener)}
    (asked : view.errand = some (.invoke (.dependencyFailed e) event))
    (sent : view.alerts = (event, .dependencyFailed e) ::ₘ alerts)
    (alive : given.alive e = true) :
    Step given view { view with alerts := alerts, errand := some (.setStatus e .failed) }
  | drop {gone alerts : Multiset (Event × Listener)} {e : ExecutableRef}
    (idle : view.errand = none) (destroyed : view.destroyed e = true)
    (split : view.alerts = gone + alerts) (about : ∀ call ∈ gone, call.1.source = e) :
    Step given view { view with alerts := alerts }
  | destroy {e : ExecutableRef} (idle : view.errand = none) (asked : given.asks (.destroy e)) :
    Step given view
      { view with
        destroyed := Function.update view.destroyed e true
        watches := Function.update view.watches e 0 }
  | lose {frame : Frame} {alerts : Multiset (Event × Listener)}
    {duties : List Frame} (idle : view.errand = none) (lost : given.loses frame)
    (calls : view.alerts = frame.alerts + alerts) (stands : view.duties = frame.duty ++ duties) :
    Step given view { view with alerts := alerts, duties := duties }

end Circumstances

end Readiness
