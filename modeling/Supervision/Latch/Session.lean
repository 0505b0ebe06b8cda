import Supervision.Latch

/-! A latch in use: handles are made, used and dropped, and waiters run until they see the value. A waiter has a
handle of its own, so no drop disturbs it. -/

namespace Supervision

/-- `handles` says which handles are still there; a waiter is what it has seen, if anything. -/
structure LatchSession (α : Type) where
  latch : Latch α := {}
  handles : List Bool := [true]
  waiters : List (Option α) := []

inductive LatchStep (α : Type)
  | fire (handle : Nat) (a : α)
  | isFired (handle : Nat)
  | value (handle : Nat)
  | clone (handle : Nat)
  | drop (handle : Nat)
  /-- Looks once for the value. -/
  | poll (handle : Nat)
  /-- Starts a waiter. -/
  | wait (handle : Nat)
  | unknown

def LatchStep.handle? {α : Type} : LatchStep α → Option Nat
  | .fire h _ | .isFired h | .value h | .clone h | .drop h | .poll h | .wait h => some h
  | .unknown => none

inductive LatchAnswer (α : Type)
  | flag (b : Bool)
  | value (a : Option α)
  | polled (a : Option α)
  | index (n : Nat)
  | dropped
  | gone
  | unknown

namespace LatchSession

variable {α : Type}

def hasHandle (s : LatchSession α) (h : Nat) : Bool :=
  s.handles[h]?.getD false

def act (s : LatchSession α) : LatchStep α → LatchAnswer α × LatchSession α
  | .fire _ a => (.flag (!s.latch.isFired), { s with latch := s.latch.fire a })
  | .isFired _ => (.flag s.latch.isFired, s)
  | .value _ => (.value s.latch.value, s)
  | .clone _ => (.index s.handles.length, { s with handles := s.handles ++ [true] })
  | .drop h => (.dropped, { s with handles := s.handles.set h false })
  | .poll _ => (.polled s.latch.value, s)
  | .wait _ => (.index s.waiters.length, { s with waiters := s.waiters ++ [none] })
  | .unknown => (.unknown, s)

def perform (s : LatchSession α) (step : LatchStep α) : LatchAnswer α × LatchSession α :=
  match step.handle? with
  | some h => if s.hasHandle h then s.act step else (.gone, s)
  | none => s.act step

def runWaiters (s : LatchSession α) : LatchSession α :=
  { s with waiters := s.waiters.map fun seen => seen.or s.latch.value }

/-- Each answer with what the waiters have seen by then, and the session at the end. In a burst the waiters run
only after the last step. -/
def play (burst : Bool) : LatchSession α → List (LatchStep α) →
    List (LatchAnswer α × List (Option α)) × LatchSession α
  | s, [] => ([], s.runWaiters)
  | s, step :: rest =>
    let (answer, s') := s.perform step
    let s' := if burst then s' else s'.runWaiters
    let (answers, final) := play burst s' rest
    ((answer, s'.waiters) :: answers, final)

end LatchSession

end Supervision
