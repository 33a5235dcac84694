import Readiness.Machine.Liveness

/-! Polling: running a host for a future, parking when there is nothing to do, and waking up. -/

namespace Readiness

namespace Machine

/-- Asks the future of a session, which the client answers unless it is the end of a wait. -/
def askFuture (machine : Machine) (k : SessionRef) : Machine :=
  let asking := machine.push (.asked k)
  match (machine.engine.session k).future with
  | .client code => asking.callClient (.future code)
  | .wait w =>
    asking.resume (.replied (if (machine.settlement? w).isSome then .done else .pending))

/-- Delivers the deferred batches of a session's host, then asks its future. -/
def runSession (machine : Machine) (k : SessionRef) : Machine :=
  (machine.push (.pumped k)).perform (.pump (machine.engine.session k).host)

/-- Goes on with a session whose future has answered. -/
def concludePoll (machine : Machine) (k : SessionRef) (finished : Bool) : Machine :=
  let session := machine.engine.session k
  if finished then (machine.update (·.endSession k)).resume (.polled true)
  else
    match session.phase with
    | .woken => (machine.update (·.modifySession k ({ · with phase := .fresh }))).runSession k
    | .parked | .finished => machine.resume (.polled false)
    | .fresh =>
      -- A stored wakeup is used up by another turn; without one the session parks.
      if (machine.engine.host session.host).permit then
        (machine.update (·.modifyHost session.host ({ · with permit := false }))).runSession k
      else
        (machine.update fun engine =>
          (engine.modifySession k ({ · with phase := .parked })).modifyHost session.host
            fun host => { host with waiters := host.waiters ++ [k] }).resume (.polled false)

end Machine

end Readiness
