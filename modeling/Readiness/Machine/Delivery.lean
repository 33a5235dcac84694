import Readiness.Machine.Gate
import Readiness.Machine.Liveness

/-! Delivery: from a transition to a batch, and from a batch to the calls of its listeners. -/

namespace Readiness

namespace Machine

/-- Delivers a batch now, or right after the batches before it if a delivery loop is at work. -/
def dispatch (machine : Machine) (h : HostRef) (batch : Batch) : Machine :=
  let queued := machine.update (·.enqueue h batch)
  if (machine.engine.host h).draining then queued.resume .done
  else
    ((queued.update (·.modifyHost h ({ · with draining := true }))).push (.drain h)).resume .done

/-- Makes one batch of the entries due for a transition, to be delivered now or on a later turn. -/
def fire (machine : Machine) (e : ExecutableRef) (transition : Transition) (entries : List Entry) :
    Machine :=
  let source := machine.engine.executable e
  let host := machine.engine.host source.host
  let deliveries := entries.map fun entry => ⟨entry.listener, some entry.sequence⟩
  let batch := machine.engine.batch ⟨e, transition.new, transition.old⟩ (host.arrange deliveries)
  let spent := machine.update Engine.spendBatch
  if host.defers deliveries (decide (transition.new = source.readyStatus)) then
    (spent.update (·.defer source.host batch)).resume .done
  else spent.dispatch source.host batch

/-- Calls a listener: client code is called, the engine's own listeners act at once. -/
def callListener (machine : Machine) (listener : Listener) (event : Event) : Machine :=
  match listener with
  | .client code => machine.callClient (.listener code event)
  | .countdown g _ =>
    let dependent := (machine.engine.gate g).dependent
    if machine.isAlive dependent then
      let (counted, last) := machine.countGate g
      let record := machine.engine.executable dependent
      if !last || record.destroyed then counted.resume (.replied .done)
      else if record.hasFailed then
        (counted.note (.gateSkipped g event.source record.status)).resume (.replied .done)
      else (counted.push (.relay dependent)).openGate g
    else machine.resume (.replied .done)
  | .dependencyFailed composite =>
    if machine.isAlive composite then
      ((machine.note (.dependencyFailed composite event.source event.status)).push
        (.relay composite)).perform (.setStatus composite .failed)
    else machine.resume (.replied .done)
  | .waitReady w => (machine.update (·.settleWait w .ready)).resume (.replied .done)
  | .waitFailed w =>
    (machine.update (·.settleWait w (.failed event.status))).resume (.replied .done)

/-- Counts the call of a listener that has ended, and reports it if it went wrong. -/
def listenerReturned (machine : Machine) (batch : Nat) (event : Event) (delivery : Delivery)
    (fault : Option ListenerFault) : Machine :=
  let h := (machine.engine.executable event.source).host
  let counted := (machine.update (·.modifyTally h (·.countInvocation fault.isNone))).note
    (.returned batch event delivery fault)
  match fault with
  | none => counted.resume .done
  | some fault => counted.notify h (.listenerFailed event.source event.status fault)

end Machine

end Readiness
