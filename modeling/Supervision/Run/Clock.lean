import Supervision.Run.Supervise

/-! How a run passes its time. All that can be done at one moment is done before the clock moves, and the clock
moves from one deadline to the next. -/

namespace Supervision

namespace Run

/-- How many turns in a row are served before the deferred tasks are taken up although others are still ready. -/
def lookAfter : Nat := 61

def serve : Nat → Run → Run
  | 0, r => r
  | turns + 1, r =>
    match r.tick? with
    | some r' => serve turns r'
    | none => r

def isSettled (r : Run) : Bool :=
  r.ready.isEmpty && r.deferred.isEmpty

def settleFor : Nat → Run → Run
  | 0, r => r
  | rounds + 1, r => if r.isSettled then r else settleFor rounds (r.serve lookAfter).takeUp

/-- How many rounds a moment may take. Services that keep restarting the run in no time would never let it pass. -/
def roundLimit : Nat := 100000

def settle (r : Run) : Run :=
  settleFor roundLimit r

/-- A signal arrives when the queue is empty or so many turns were served, and before the deferred tasks are taken
up. -/
def raise (r : Run) (n : Int) : Run :=
  ((r.serve lookAfter).spawn [.signal n]).takeUp.settle

def advance (r : Run) (time : Nat) : Run :=
  if r.isSettled then wake { r with now := time } else r

def passTo (target : Nat) : Nat → Run → Run
  | 0, r => r
  | fuel + 1, r =>
    match r.nextDeadline? with
    | some d => if d < target then passTo target fuel (r.advance d).settle else r.advance target
    | none => r.advance target

/-- Lets `ms` milliseconds pass. The caller goes on at the very moment that they are over, before the tasks that
get ready at that moment; without any time to pass, it goes on at once. -/
def elapse (r : Run) (ms : Nat) : Run :=
  if ms = 0 then r
  else
    let r := r.settle
    -- each deadline is later than the one before, so there are no more of them than milliseconds
    passTo (r.now + ms) ms r

def awaitReturnTo (target : Nat) : Nat → Run → Run
  | 0, r => r
  | fuel + 1, r =>
    if r.stage.hasReturned then r
    else match r.nextDeadline? with
      | some d => if d < target then awaitReturnTo target fuel (r.advance d).settle else r.advance target
      | none => r.advance target

def awaitReturn (r : Run) (limit : Nat) : Run :=
  awaitReturnTo (r.now + limit) limit r

end Run

end Supervision
