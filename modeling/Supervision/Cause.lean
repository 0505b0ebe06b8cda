/-! Why a run moved into shutdown. -/

namespace Supervision

inductive Cause
  /-- The caller cancelled the run. -/
  | cancelled
  /-- A configured shutdown signal arrived. -/
  | signal (n : Int)
  /-- The start call of a service ended although nobody had asked for it. -/
  | exited (service : String)
  /-- A shutdown command arrived. -/
  | requested
deriving DecidableEq, Repr

def Cause.text : Cause → String
  | .cancelled => "cancelled"
  | .signal n => "signal " ++ toString n
  | .exited service => "service `" ++ service ++ "` exited"
  | .requested => "shutdown requested"

end Supervision
