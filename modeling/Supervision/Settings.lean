import Supervision.Broadcast
import Supervision.Signal

/-! How a run is configured. A configuration is built by a list of changes; each field has the value of the last
change that touches it, and the services are those that were added, in that order. -/

namespace Supervision

/-- A registration: the service with this index under this name. One service may be registered several times. -/
structure Entry where
  name : String
  service : Nat
deriving DecidableEq, Repr

/-- `restartBacklog` is how far a busy service may fall behind on restarts; `exitGrace` is how many milliseconds a
run that a service ended by itself waits for the other start calls once every stop call has ended. -/
structure Settings where
  signals : SignalSettings := {}
  restartBacklog : Nat := defaultBacklog
  exitGrace : Nat := 5000
  entries : List Entry := []
deriving DecidableEq, Repr

inductive SettingsChange
  | signals (s : SignalSettings)
  | shutdownSignals (ns : List Int)
  | restartSignals (ns : List Int)
  | signalCapacity (n : Nat)
  | restartBacklog (n : Nat)
  | exitGrace (ms : Nat)
  | entry (e : Entry)
  | entries (es : List Entry)
deriving DecidableEq, Repr

namespace Settings

def change (s : Settings) : SettingsChange → Settings
  | .signals signals => { s with signals := signals }
  | .shutdownSignals ns => { s with signals := s.signals.change (.shutdown ns) }
  | .restartSignals ns => { s with signals := s.signals.change (.restart ns) }
  | .signalCapacity n => { s with signals := s.signals.change (.capacity n) }
  | .restartBacklog n => { s with restartBacklog := n }
  | .exitGrace ms => { s with exitGrace := ms }
  | .entry e => { s with entries := s.entries ++ [e] }
  | .entries es => { s with entries := s.entries ++ es }

def changes (s : Settings) (cs : List SettingsChange) : Settings :=
  cs.foldl change s

end Settings

end Supervision
