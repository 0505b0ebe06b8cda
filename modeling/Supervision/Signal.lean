/-! Which signals a run listens to. Settings are built by a list of changes from a base, the last change of a
field winning; a signal that cannot be listened to is refused, the first one of a list for the whole list. -/

namespace Supervision

/-- Why there can be no listener for a signal. -/
inductive Refusal
  /-- Signals that no program may catch, or that a fault of its own raises. -/
  | forbidden (n : Int)
  /-- Above the last signal number. -/
  | tooLarge
  /-- The two numbers that the threading library keeps for itself. -/
  | reserved
deriving DecidableEq, Repr

def Refusal.text : Refusal → String
  | .forbidden n => "Refusing to register signal " ++ toString n
  | .tooLarge => "signal too large"
  | .reserved => "Invalid argument (os error 22)"

def refusal? (n : Int) : Option Refusal :=
  if n ≤ 0 ∨ n ∈ [4, 8, 9, 11, 19] then some (.forbidden n)
  else if 64 < n then some .tooLarge
  else if n ∈ [32, 33] then some .reserved
  else none

def firstRefused : List Int → Option (Int × Refusal)
  | [] => none
  | n :: rest =>
    match refusal? n with
    | some why => some (n, why)
    | none => firstRefused rest

def raisable : List Int := [1, 2, 3, 10, 12, 13, 14, 15, 23, 28, 34, 64]

/-- The largest number of deliveries that a stream can be asked to keep. -/
def streamLimit : Nat := (1 <<< 61) - 1

inductive Purpose
  | shutdown
  | restart
deriving DecidableEq, Repr

/-- Interrupt and terminate ask for a shutdown and hang-up for a restart, unless other lists are set.
`capacity` is how many deliveries a stream keeps for its reader, at least one. -/
structure SignalSettings where
  shutdown : List Int := [2, 15]
  restart : List Int := [1]
  capacity : Nat := 1
  capacity_pos : 0 < capacity := by decide
deriving DecidableEq, Repr

inductive SignalChange
  | shutdown (ns : List Int)
  | restart (ns : List Int)
  | capacity (n : Nat)
deriving DecidableEq, Repr

namespace SignalSettings

def silent : SignalSettings :=
  { shutdown := [], restart := [] }

def change (s : SignalSettings) : SignalChange → SignalSettings
  | .shutdown ns => { s with shutdown := ns }
  | .restart ns => { s with restart := ns }
  | .capacity n => { s with capacity := max n 1, capacity_pos := by omega }

def changes (s : SignalSettings) (cs : List SignalChange) : SignalSettings :=
  cs.foldl change s

def kinds (s : SignalSettings) : Purpose → List Int
  | .shutdown => s.shutdown
  | .restart => s.restart

end SignalSettings

end Supervision
