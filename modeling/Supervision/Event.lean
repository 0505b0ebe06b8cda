import Supervision.Cause
import Supervision.Failure

/-! The log of a run: what is written, at which level, with which fields, and for which service. -/

namespace Supervision

inductive Event
  | runStarting (services : Nat)
  | restartSignal (n : Int)
  | restartRequested
  | shuttingDown (cause : Cause)
  | graceExpired (running : Nat)
  | runFinished
  | runFailed (failures : Nat)
  | deliveryDropped (n : Int)
  | starting (service : String)
  | exitedAlone (service : String)
  | fellBehind (service : String) (firings : Nat)
  | restarting (service : String)
  | stopping (service : String)
  | stopAbandoned (service : String)
  | panicked (service : String) (phase : Phase) (message : String)
  | failed (f : Failure)
deriving DecidableEq, Repr

inductive Level
  | debug
  | info
  | warn
  | error
deriving DecidableEq, Repr

def Level.text : Level → String
  | .debug => "DEBUG"
  | .info => "INFO"
  | .warn => "WARN"
  | .error => "ERROR"

inductive FieldValue
  | text (s : String)
  | number (n : Int)
deriving DecidableEq, Repr

namespace Event

/-- What a failure is told by; a panic is told of before. -/
def ofFailure (f : Failure) : List Event :=
  match f.fault with
  | .error _ => [.failed f]
  | .panic message => [.panicked f.service f.phase message, .failed f]

def level : Event → Level
  | .deliveryDropped _ | .starting _ | .restarting _ | .stopping _ | .stopAbandoned _ => .debug
  | .runStarting _ | .restartSignal _ | .restartRequested | .shuttingDown _ | .runFinished => .info
  | .graceExpired _ | .exitedAlone _ | .fellBehind _ _ | .failed _ => .warn
  | .runFailed _ | .panicked _ _ _ => .error

def service? : Event → Option String
  | .starting s | .exitedAlone s | .fellBehind s _ | .restarting s | .stopping s | .stopAbandoned s
  | .panicked s _ _ => some s
  | .failed f => some f.service
  | _ => none

/-- The message; the text of a panic stands behind it. -/
def messages : Event → List String
  | .runStarting _ => ["starting supervision run"]
  | .restartSignal _ => ["restart signal received"]
  | .restartRequested => ["restart requested"]
  | .shuttingDown _ => ["shutting down services"]
  | .graceExpired _ => ["services did not exit within the grace period"]
  | .runFinished => ["supervision run finished"]
  | .runFailed _ => ["supervision run finished with failures"]
  | .deliveryDropped _ => ["signal stream full, dropping delivery"]
  | .starting _ => ["starting service"]
  | .exitedAlone _ => ["service exited on its own"]
  | .fellBehind _ _ => ["service fell behind on restarts"]
  | .restarting _ => ["restarting service"]
  | .stopping _ => ["stopping service"]
  | .stopAbandoned _ => ["stop abandoned after cancellation"]
  | .panicked _ _ message => ["service panicked", message]
  | .failed _ => ["service failure recorded"]

def fields : Event → List (String × FieldValue)
  | .runStarting n => [("services", .number n)]
  | .restartSignal n | .deliveryDropped n => [("signal", .number n)]
  | .shuttingDown c => [("cause", .text c.text)]
  | .graceExpired n => [("still_running", .number n)]
  | .runFailed n => [("failures", .number n)]
  | .fellBehind _ n => [("firings", .number n)]
  | .panicked _ phase _ => [("phase", .text phase.text)]
  | .failed f => [("phase", .text f.phase.text), ("error", .text f.text)]
  | _ => []

end Event

end Supervision
