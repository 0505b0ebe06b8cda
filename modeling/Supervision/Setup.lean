import Supervision.Signal
import Supervision.Broadcast

/-! What can keep a run from being set up: a signal stream or a restart broadcast larger than its limit, or a
signal that cannot be listened to. -/

namespace Supervision

inductive SetupFault
  | capacityTooLarge
  | refused (n : Int) (why : Refusal)
  | backlogTooLarge
deriving DecidableEq, Repr

namespace SetupFault

def refusalText (n : Int) (reason : String) : String :=
  "failed to register handler for signal " ++ toString n ++ ": " ++ reason

def text : SetupFault → String
  | .capacityTooLarge =>
    "a semaphore may not have more than MAX_PERMITS permits (" ++ toString streamLimit ++ ")"
  | .refused n why => refusalText n why.text
  | .backlogTooLarge => "broadcast channel capacity exceeded `usize::MAX / 2`"

/-- A refused signal is an error of the run; a buffer that is too large makes the run itself panic. -/
def isPanic : SetupFault → Bool
  | .refused _ _ => false
  | _ => true

end SetupFault

end Supervision
