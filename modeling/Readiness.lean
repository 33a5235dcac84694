import Readiness.Script.Scenario
import Readiness.Script.Inquiry
import Readiness.Proofs.Subscription.Register
import Readiness.Proofs.Gate.Synchronise
import Readiness.Proofs.Gate.Moments
import Readiness.Proofs.Composite.Failure
import Readiness.Proofs.Delivery.Destroyed
import Readiness.Proofs.Delivery.Once
import Readiness.Proofs.Delivery.Sequence
import Readiness.Proofs.Composite.Settled
import Readiness.Proofs.Tally.Executing
import Readiness.Proofs.Wait.Outcome
import Readiness.Proofs.Delivery.Together
import Readiness.Proofs.Delivery.Lasting
import Readiness.Proofs.Roster.Entries
import Readiness.Proofs.History.Transitions
import Readiness.Proofs.History.Sojourn
import Readiness.Proofs.Delivery.Recovery
import Readiness.Proofs.Roster.Identity
import Readiness.Proofs.Roster.Refusal
import Readiness.Proofs.Session.Wakeup
import Readiness.Proofs.Observation.Indifference
import Readiness.Proofs.Delivery.Isolation
import Readiness.Proofs.Policy.Reorder
import Readiness.Proofs.Settings.Overlay
