import Readiness.Machine.Basic

/-! Gates: counting the dependencies of an executable until it may move. -/

namespace Readiness

namespace Machine

/-- Counts one dependency of a gate; the last one opens it. -/
def countGate (machine : Machine) (g : GateRef) : Machine × Bool :=
  -- A gate at zero has been opened or passed over already, and stays where it is.
  let remaining := (machine.engine.gate g).remaining
  (machine.update (·.modifyGate g ({ · with remaining := remaining - 1 })), remaining == 1)

/-- Opens a gate: its dependent is asked to move. -/
def openGate (machine : Machine) (g : GateRef) : Machine :=
  let gate := machine.engine.gate g
  (machine.note (.gateOpened g)).perform (.setStatus gate.dependent gate.target)

/-- Counts a dependency that is ready, or listens to one that is not, and goes on to the next. -/
def examine (machine : Machine) (g : GateRef) (position : Nat) (dependency : ExecutableRef)
    (rest : List ExecutableRef) (onFailure : Option Listener) : Machine :=
  let target := machine.engine.executable dependency
  let next : Frame := .arm g (position + 1) rest onFailure
  let seen := machine.note (.examined g position dependency target.isReady)
  if target.isReady then
    let (counted, last) := seen.countGate g
    if last then (counted.push next).openGate g else (counted.push next).resume .done
  else
    let failures := onFailure.toList.flatMap fun listener =>
      target.failedStatuses.map fun status => (listener, status)
    let links := (.countdown g position, target.readyStatus) :: failures
    ((seen.update (·.modifySubscriptions dependency fun subscriptions =>
      links.foldl (fun grown link => grown.add link.1 (some link.2) true) subscriptions)).push
        next).resume .done

/-- Goes on with the dependencies of a gate; one that is not ready is executed first. -/
def arm (machine : Machine) (g : GateRef) (position : Nat) (rest : List ExecutableRef)
    (onFailure : Option Listener) : Machine :=
  match rest with
  | [] => machine.resume .done
  | dependency :: others =>
    if (machine.engine.executable dependency).isReady then
      machine.examine g position dependency others onFailure
    else
      (machine.push (.examine g position dependency others onFailure)).perform
        (.execute dependency .always)

end Machine

end Readiness
