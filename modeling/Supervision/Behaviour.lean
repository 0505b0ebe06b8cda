import Supervision.Error

/-! What the services of a run do. A behaviour is one call of a service, written as the steps it takes until it
ends; a service is one behaviour for each call that can be made of it. -/

namespace Supervision

inductive Command
  | restart
  | shutdown
deriving DecidableEq, Repr

inductive Behaviour
  | done
  | fail (e : ErrorValue)
  | panic (p : PanicPayload)
  | never
  | sleep (ms : Nat) (next : Behaviour)
  /-- Waits until the calling service is released. -/
  | awaitRelease (next : Behaviour)
  /-- Ends well if the calling service is released within the time, and goes on otherwise. -/
  | awaitReleaseFor (ms : Nat) (next : Behaviour)
  | awaitCancel (next : Behaviour)
  /-- Waits through a handle until the run shuts down, and notes the cause a moment later. -/
  | awaitCause (next : Behaviour)
  /-- Releases a service, the calling one if none is named. -/
  | release (service : Option Nat) (next : Behaviour)
  | cancel (next : Behaviour)
  | command (c : Command) (next : Behaviour)
  | note (next : Behaviour)
  /-- Goes on in one way if the run is cancelled by now, and in the other if it is not. -/
  | ifCancelled (yes no : Behaviour)
deriving DecidableEq, Repr

/-- How long after the shutdown a call that waited for the cause notes it, in milliseconds. -/
def noteDelay : Nat := 2

structure Service where
  start : Behaviour
  restarts : List Behaviour := []
  stop : Behaviour
deriving DecidableEq, Repr

/-- The restart call with this number, from 0. The last behaviour repeats; without any, a restart just ends. -/
def Service.restart (s : Service) (k : Nat) : Behaviour :=
  (s.restarts[min k (s.restarts.length - 1)]?).getD .done

end Supervision
