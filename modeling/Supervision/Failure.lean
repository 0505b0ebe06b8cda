import Supervision.Error

/-! Failed service calls and the text that reports them. A report of one failure is its text; a report of any
other number opens with the count and numbers the failures in the order of their arrival. -/

namespace Supervision

inductive Phase
  | start
  | restart
  | stop
deriving DecidableEq, Repr

def Phase.text : Phase → String
  | .start => "start"
  | .restart => "restart"
  | .stop => "stop"

/-- What went wrong in a call: the error it returned, or the message recovered from its panic. -/
inductive Fault
  | error (e : ErrorValue)
  | panic (message : String)
deriving DecidableEq, Repr

def Fault.isPanic : Fault → Bool
  | .error _ => false
  | .panic _ => true

def Outcome.fault? : Outcome → Option Fault
  | .done => none
  | .failed e => some (.error e)
  | .panicked p => some (.panic p.message)

structure Failure where
  service : String
  phase : Phase
  fault : Fault
deriving DecidableEq, Repr

/-- The failure of a call of the service registered as `service`, if it ended so. -/
def Outcome.failure? (o : Outcome) (service : String) (phase : Phase) : Option Failure :=
  o.fault?.map fun fault => ⟨service, phase, fault⟩

namespace Failure

def text (f : Failure) : String :=
  match f.fault with
  | .error e => "service `" ++ f.service ++ "` failed to " ++ f.phase.text ++ ": " ++ e.text
  | .panic message => "service `" ++ f.service ++ "` panicked during " ++ f.phase.text ++ ": " ++ message

/-- The failures behind their 1-based positions, counted from `i`. -/
def numbered (i : Nat) : List Failure → String
  | [] => ""
  | f :: rest => "; [" ++ toString i ++ "] " ++ f.text ++ numbered (i + 1) rest

def report : List Failure → String
  | [f] => f.text
  | fs => toString fs.length ++ " service failures" ++ numbered 1 fs

end Failure

end Supervision
