import Supervision.Behaviour
import Supervision.Event
import Supervision.Latch
import Supervision.Settings
import Supervision.Signal.Inbox

/-! The state of a run. Its work is divided into tasks: one that supervises, three for every entry, one for every
watcher of the cause, and one for every signal on its way. A task is ready, parked until what it waits for has
come, or over.

A turn has a budget. Reading a firing, a delivery or a command, the end of a sleep and the like cost one each; a
task that comes to such a wait without budget gives up its turn there and is deferred: it parks, and goes on as
soon as the other tasks have had their turns. -/

namespace Supervision

inductive Task
  | supervise
  | start (entry : Nat)
  | restart (entry : Nat)
  | stop (entry : Nat)
  | watch (watcher : Nat)
  /-- Delivers a signal that was raised. -/
  | signal (n : Int)
deriving DecidableEq, Repr

def Task.ofCall (e : Nat) : Phase → Task
  | .start => .start e
  | .restart => .restart e
  | .stop => .stop e

/-- Where a call in progress stands: what it waits for, and what it does then. -/
inductive Pause
  | never
  | until (deadline : Nat) (next : Behaviour)
  | release (next : Behaviour)
  | releaseUntil (deadline : Nat) (next : Behaviour)
  | cancel (next : Behaviour)
  | cause (next : Behaviour)
  /-- The cause is known and is noted at the deadline. -/
  | noting (deadline : Nat) (c : Cause) (next : Behaviour)
deriving DecidableEq, Repr

def Pause.deadline? : Pause → Option Nat
  | .until d _ | .releaseUntil d _ | .noting d _ _ => some d
  | _ => none

inductive CallState
  | unbegun
  | ongoing (p : Pause)
  | ended
deriving DecidableEq, Repr

namespace CallState

def isEnded : CallState → Bool
  | .ended => true
  | _ => false

def pause? : CallState → Option Pause
  | .ongoing p => some p
  | _ => none

def begun : CallState → Nat
  | .unbegun => 0
  | _ => 1

end CallState

/-- What has become of one entry. `stopAwaited` tells whether its stop task has had to wait for the cause.
`restarts` counts its restart calls and `owed` the firings it has read but not yet answered with a call; an entry is
`retired` once there will be no more firings. -/
structure Member where
  start : CallState := .unbegun
  stop : CallState := .unbegun
  stopAwaited : Bool := false
  restarting : Option Pause := none
  restarts : Nat := 0
  owed : Nat := 0
  retired : Bool := false
deriving DecidableEq, Repr

inductive Verdict
  | ok
  | failures (fs : List Failure)
  | fault (f : SetupFault)
deriving DecidableEq, Repr

def Verdict.ofFailures : List Failure → Verdict
  | [] => .ok
  | f :: fs => .failures (f :: fs)

def Verdict.errorText? : Verdict → Option String
  | .ok => none
  | .failures fs => some (Failure.report fs)
  | .fault f => if f.isPanic then none else some f.text

/-- One round of looking at all that a run can be called by: cancellation, the exit of a service, the two streams
of signals, and the commands, for which it is `listening` while there can be any. A stream without listeners is
passed at most once in a round. -/
structure Round where
  listening : Bool := true
  shutdownPassed : Bool := false
  restartPassed : Bool := false
deriving DecidableEq, Repr

namespace Round

/-- Whether the round has got beyond a stream. -/
def isUnderWay (round : Round) : Bool :=
  round.shutdownPassed || round.restartPassed

def next (round : Round) : Round :=
  { listening := round.listening }

end Round

/-- How far the supervising task has come. -/
inductive Stage
  | idle
  | spawned
  /-- Waits for something to shut down or restart for. -/
  | running (round : Round)
  /-- Waits for the stop calls. -/
  | stopping
  /-- Waits for the start calls, after the exit of a service no longer than until the deadline. -/
  | leaving (deadline : Option Nat)
  | returned (v : Verdict) (time : Nat)
deriving DecidableEq, Repr

def Stage.hasReturned : Stage → Bool
  | .returned _ _ => true
  | _ => false

def Stage.hearsSignals : Stage → Bool
  | .running _ | .stopping | .leaving _ => true
  | _ => false

/-- What a handle tells about the cause, if there is a handle. -/
inductive CauseView
  | noHandle
  | open
  | cause (c : Cause)
deriving DecidableEq, Repr

inductive CommandAnswer
  | sent
  | refused
  | noHandle
deriving DecidableEq, Repr

def refusedCommandText : String :=
  "failed to send message to supervisor: the run has finished"

def CommandAnswer.text : CommandAnswer → String
  | .sent => "sent"
  | .refused => refusedCommandText
  | .noHandle => "no handle"

/-- What can happen in a run, apart from what its log says. -/
inductive Occurrence
  | setUp
  | began (entry : Nat) (phase : Phase)
  /-- `cancelled` tells whether the run was cancelled when the call ended. -/
  | ended (entry : Nat) (phase : Phase) (outcome : Outcome) (cancelled : Bool)
  | noted (entry : Nat) (phase : Phase) (cancelled : Bool) (view : CauseView)
  | answered (entry : Nat) (phase : Phase) (c : Command) (answer : CommandAnswer)
  | learned (entry : Nat) (phase : Phase) (cause : Cause)
  | cancelled
  | released (service : Nat)
  | raised (n : Int)
  /-- A restart signal was taken from its stream. -/
  | received (n : Int)
  | accepted (c : Command)
  | obeyed (c : Command)
  | fired
  | shutDown (cause : Cause)
  | returned
deriving DecidableEq, Repr

structure Stamped where
  time : Nat
  what : Occurrence
deriving DecidableEq, Repr

def turnQuota : Nat := 128

/-- `ready` is a queue, `parked` is in the order in which the tasks began to wait, and `deferred` holds those of them
whose turn ended for want of budget, the latest first. When the supervising task is taken up from among these, its
`place` tells how many of the tasks still parked began to wait before it. A turn begins with a budget of `quota`, and
`budget` is what is left of it; without a quota there is no limit. To read a firing takes from the budget unless the
run `readsFreely`. `lent` counts the handles that watchers and waiting calls were given; they keep them at least until
the run shuts down. -/
structure Run where
  settings : Settings
  services : List Service
  quota : Option Nat := some turnQuota
  budget : Option Nat := some turnQuota
  readsFreely : Bool := false
  now : Nat := 0
  ready : List Task := []
  parked : List Task := []
  deferred : List Task := []
  place : Option Nat := none
  stage : Stage := .idle
  cancelled : Bool := false
  released : List Nat := []
  cause : Latch Cause := {}
  exit : Latch String := {}
  shutdownInbox : Inbox := {}
  restartInbox : Inbox := {}
  commands : List Command := []
  commandsClosed : Bool := false
  handleHeld : Bool := true
  lent : Nat := 0
  restarts : Broadcast := .withBacklog 0
  members : List Member := []
  failures : List Failure := []
  watches : List (Option (Nat × Cause)) := []
  history : List Stamped := []
  trace : List Event := []
deriving Repr

namespace Run

def initial (settings : Settings) (services : List Service) : Run :=
  { settings := settings, services := services, members := settings.entries.map fun _ => {} }

def nameOf (r : Run) (e : Nat) : String :=
  match r.settings.entries[e]? with
  | some entry => entry.name
  | none => ""

def serviceOf (r : Run) (e : Nat) : Nat :=
  match r.settings.entries[e]? with
  | some entry => entry.service
  | none => e

/-- A service that is not there does nothing. -/
def service (r : Run) (e : Nat) : Service :=
  r.services[r.serviceOf e]?.getD { start := .done, stop := .done }

/-- A member that is not there has nothing left to do. -/
def member (r : Run) (e : Nat) : Member :=
  r.members[e]?.getD { start := .ended, stop := .ended, retired := true }

def pause? (r : Run) : Task → Option Pause
  | .start e => (r.member e).start.pause?
  | .restart e => (r.member e).restarting
  | .stop e => (r.member e).stop.pause?
  | _ => none

def isReleased (r : Run) (service : Nat) : Bool :=
  r.released.contains service

def allStopped (r : Run) : Bool :=
  r.members.all fun m => m.stop.isEnded

def allExited (r : Run) : Bool :=
  r.members.all fun m => m.start.isEnded

def stillRunning (r : Run) : Nat :=
  r.members.countP fun m => !m.start.isEnded

def orphaned (r : Run) : Bool :=
  !r.handleHeld && r.lent == 0

def view (r : Run) : CauseView :=
  if r.handleHeld then
    match r.cause.value with
    | some c => .cause c
    | none => .open
  else .noHandle

/-- Adds up a count over the entries that register one service. -/
def total (r : Run) (service : Nat) (count : Member → Nat) : Nat :=
  (r.settings.entries.zip r.members).foldl (fun n (entry, m) => if entry.service = service then n + count m else n) 0

end Run

end Supervision
