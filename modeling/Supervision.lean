import Supervision.Latch.Session
import Supervision.Broadcast.Session
import Supervision.Signal.Session
import Supervision.Scenario
import Supervision.Proofs.Act
import Supervision.Proofs.Queue
import Supervision.Proofs.Turn
import Supervision.Proofs.StepInvariants
import Supervision.Proofs.Lifecycle
import Supervision.Proofs.Verdict
import Supervision.Proofs.Waking
import Supervision.Proofs.Trigger
import Supervision.Proofs.Completion
import Supervision.Proofs.Play
import Supervision.Proofs.Fanout
import Supervision.Proofs.Aftermath
import Supervision.Proofs.Mask
import Supervision.Proofs.Simulation
import Supervision.Proofs.MaskedTurn
import Supervision.Proofs.Containment
import Supervision.Proofs.Streams
import Supervision.Proofs.Acquisition
import Supervision.Proofs.AllOrNothing
import Supervision.Proofs.Commands
import Supervision.Proofs.Agreement
import Supervision.Proofs.Closing
import Supervision.Proofs.Lag
import Supervision.Proofs.Backlog
import Supervision.Proofs.Precedence
import Supervision.Proofs.Raising
import Supervision.Proofs.Renaming
import Supervision.Proofs.Log
import Supervision.Proofs.FirstFiring
import Supervision.Proofs.StreamQueues
import Supervision.Proofs.Readers
import Supervision.Proofs.Delivery
import Supervision.Proofs.OnePlacePerTask
import Supervision.Proofs.UnusedHandle
import Supervision.Proofs.RoundProgress
import Supervision.Proofs.LostHandleNoticed
import Supervision.Proofs.DroppedHandleLockstep
import Supervision.Proofs.Inertness
import Supervision.Proofs.Abandonment
import Supervision.Proofs.Configuration
import Supervision.Proofs.Rendering
