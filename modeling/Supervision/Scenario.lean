import Supervision.Run.Clock

/-! A run as its caller sees it: what the caller does, step by step, what is answered, and what can be seen in
between. After each step all that can be done at that moment is done before the caller looks. A burst is one step
made of several, with a look only after the last. -/

namespace Supervision

/-- What a caller does. -/
inductive Action
  /-- Hands the supervisor over to be run. -/
  | run
  | cancel
  /-- Sends a command so many times. -/
  | command (c : Command) (times : Nat)
  | raise (n : Int)
  | release (service : Nat)
  | dropHandle
  | newHandle
  /-- Starts a watcher, which waits for the cause with a handle of its own. -/
  | watch
  | wait (ms : Nat)
  | unknown
deriving DecidableEq, Repr

inductive Step
  | act (a : Action)
  /-- Several steps, between which the tasks have their turns only where the caller waits or raises a signal. -/
  | burst (steps : List Step)
deriving Inhabited, Repr

inductive Answer
  | nothing
  | spawned
  | alreadyRun
  | command (a : CommandAnswer)
  | raised
  | notRaisable
  | released
  | gone
  | flag (b : Bool)
  | index (n : Nat)
  | many (as : List Answer)
  | unknown
deriving Repr

inductive Progression
  | idle
  | running
  | done
deriving DecidableEq, Repr

structure CallCounts where
  starts : Nat
  restarts : Nat
  stops : Nat
deriving DecidableEq, Repr

/-- `closed` is what the handle says, if there is one. -/
structure Snapshot where
  time : Nat
  progression : Progression
  closed : Option Bool
  cause : CauseView
  calls : List CallCounts
deriving DecidableEq, Repr

inductive Ending
  | notRun
  | unfinished
  | returned (v : Verdict)
deriving DecidableEq, Repr

/-- `limit` is how long the caller waits for the run after the last step, `drain` how long it looks on afterwards. -/
structure Scenario where
  settings : Settings
  services : List Service
  steps : List Step
  limit : Nat
  drain : Nat
deriving Repr

structure Report where
  steps : List (Answer × Snapshot)
  final : Snapshot
  ending : Ending
  run : Run
deriving Repr

namespace Run

def sendTimes (c : Command) : Nat → Answer × Run → Answer × Run
  | 0, result => result
  | times + 1, (_, r) =>
    let (answer, r) := r.send c
    sendTimes c times (.command answer, r)

def perform (r : Run) : Action → Answer × Run
  | .run =>
    if r.stage = .idle then (.spawned, { r with stage := .spawned }.spawn [.supervise]) else (.alreadyRun, r)
  | .cancel => (.nothing, r.cancel)
  | .command c times => sendTimes c times (.nothing, r)
  | .raise n => if n ∈ raisable then (.raised, r.raise n) else (.notRaisable, r)
  | .release service =>
    match r.settings.entries[service]? with
    | some entry => (.released, r.release entry.service)
    | none => (.gone, r)
  | .dropHandle => (.flag r.handleHeld, r.dropHandle)
  | .newHandle => if r.stage = .idle then (.flag true, { r with handleHeld := true }) else (.flag false, r)
  | .wait ms => (.nothing, r.elapse ms)
  | .watch =>
    if r.handleHeld then
      (.index r.watches.length,
        { r with lent := r.lent + 1, watches := r.watches ++ [none] }.spawn [.watch r.watches.length])
    else (.command .noHandle, r)
  | .unknown => (.unknown, r)

mutual

/-- Takes a step, without a look at what came of it. -/
def take (r : Run) : Step → Answer × Run
  | .act a => r.perform a
  | .burst steps =>
    let (answers, r) := r.takeAll steps
    (.many answers, r)

def takeAll (r : Run) : List Step → List Answer × Run
  | [] => ([], r)
  | s :: rest =>
    let (answer, r) := r.take s
    let (answers, r) := r.takeAll rest
    (answer :: answers, r)

end

def step (r : Run) (s : Step) : Answer × Run :=
  let (answer, r) := r.take s
  (answer, r.settle)

def progression (r : Run) : Progression :=
  match r.stage with
  | .idle => .idle
  | .returned _ _ => .done
  | _ => .running

def callCounts (r : Run) (service : Nat) : CallCounts where
  starts := r.total service fun m => m.start.begun
  restarts := r.total service fun m => m.restarts
  stops := r.total service fun m => m.stop.begun

def snapshot (r : Run) : Snapshot where
  time := r.now
  progression := r.progression
  closed := if r.handleHeld then some r.commandsClosed else none
  cause := r.view
  calls := r.settings.entries.map fun entry => r.callCounts entry.service

def steps : Run → List Step → List (Answer × Snapshot) × Run
  | r, [] => ([], r)
  | r, s :: rest =>
    let (answer, r') := r.step s
    let (seen, final) := steps r' rest
    ((answer, r'.snapshot) :: seen, final)

/-- When the run returned, if it did and did not panic. -/
def doneAt (r : Run) : Option Nat :=
  match r.stage with
  | .returned (.fault f) time => if f.isPanic then none else some time
  | .returned _ time => some time
  | _ => none

def logOf (r : Run) (service : Nat) : List Stamped :=
  r.history.filter fun s =>
    match s.what with
    | .began e _ | .ended e _ _ _ | .noted e _ _ _ | .answered e _ _ _ | .learned e _ _ => r.serviceOf e = service
    | _ => false

end Run

namespace Scenario

def ending (r : Run) : Ending :=
  match r.stage with
  | .idle => .notRun
  | .returned v _ => .returned v
  | _ => .unfinished

def play (s : Scenario) : Report :=
  let (seen, r) := (Run.initial s.settings s.services).steps s.steps
  let r := if r.stage = .idle then r else r.awaitReturn s.limit
  let ending := ending r
  let r := (r.elapse s.drain).settle
  { steps := seen, final := r.snapshot, ending := ending, run := r }

end Scenario

/-! ### Where the order of arrival means nothing -/

def Failure.insertByText (f : Failure) : List Failure → List Failure
  | [] => [f]
  | g :: rest => if g.text < f.text ∨ g.text = f.text then g :: insertByText f rest else f :: g :: rest

/-- The failures by their texts, for a caller who does not ask in which order they arrived. -/
def Failure.sortByText (fs : List Failure) : List Failure :=
  fs.foldl (fun sorted f => insertByText f sorted) []

end Supervision
