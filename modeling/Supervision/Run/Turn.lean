import Supervision.Run.Call

/-! The turns of the tasks that call the services, of those that watch for the cause, and of signals. A task at its
turn does all it can do before it has to wait or has used up its budget. A call is in progress from its beginning;
where it stands is kept when it gives up its turn. -/

namespace Supervision

namespace Run

/-! ### Start calls -/

/-- A start call that ends before anybody asked for a shutdown is the exit that ends the run, unless another
service exited before. -/
def endStart (r : Run) (e : Nat) (o : Outcome) : Run :=
  let alone := !(r.cause.isFired || r.cancelled || r.exit.isFired)
  let r := (r.markEnd e .start o).report e .start o
  wake { r.update e fun m => { m with start := .ended } with
    exit := if alone then r.exit.fire (r.nameOf e) else r.exit
    trace := r.trace ++ if alone then [.exitedAlone (r.nameOf e)] else [] }

def keepStart (e : Nat) : Progress × Run → Run
  | (.paused p, r) => r.update e fun m => { m with start := .ongoing p }
  | (.ended o, r) => r.endStart e o

def beginStart (r : Run) (e : Nat) : Progress × Run :=
  let r := (r.log (.starting (r.nameOf e))).update e fun m => { m with start := .ongoing .never }
  r.begin e .start (r.service e).start

def startTurn (r : Run) (e : Nat) : Run :=
  match (r.member e).start with
  | .unbegun => keepStart e (r.beginStart e)
  | .ongoing p => keepStart e (r.resume e .start p)
  | .ended => r

/-! ### Restart calls -/

def endRestart (r : Run) (e : Nat) (o : Outcome) : Run :=
  ((r.markEnd e .restart o).report e .restart o).update e fun m => { m with restarting := none }

def beginRestart (r : Run) (e : Nat) : Progress × Run :=
  let b := (r.service e).restart (r.total (r.serviceOf e) Member.restarts)
  let r := (r.log (.restarting (r.nameOf e))).update e fun m =>
    { m with owed := m.owed - 1, restarts := m.restarts + 1, restarting := some .never }
  r.begin e .restart b

def takeFirings (r : Run) (e : Nat) (n : Nat) (b : Broadcast) : Run :=
  let events := if 1 < n then [.fellBehind (r.nameOf e) n] else []
  { r with restarts := b, trace := r.trace ++ events }.update e fun m => { m with owed := n }

/-- Reads firings and answers each with a call, in at most `fuel` steps. A reading that tells of any costs budget,
unless readings are free. -/
def restartLoop (e : Nat) : Nat → Run → Run
  | 0, r => r
  | fuel + 1, r =>
    if (r.member e).owed = 0 then
      if r.cannotRead then r.defer (.restart e)
      else match r.restarts.next e with
      | (.firings n, b) => restartLoop e fuel (r.spendReading.takeFirings e n b)
      | (.closed, _) => r.update e fun m => { m with retired := true }
      | (.pending, _) => r
    else
      match r.beginRestart e with
      | (.paused p, r) => r.update e fun m => { m with restarting := some p }
      | (.ended o, r) => restartLoop e fuel (r.endRestart e o)

/-- Each firing takes two steps, to read it and to answer it, and the last step finds nothing to do. -/
def restartSteps (r : Run) (e : Nat) : Nat :=
  2 * r.restarts.unread e + (r.member e).owed + 1

def restartAll (r : Run) (e : Nat) : Run :=
  restartLoop e (r.restartSteps e) r

def restartTurn (r : Run) (e : Nat) : Run :=
  match (r.member e).restarting with
  | none => r.restartAll e
  | some p =>
    match r.resume e .restart p with
    | (.paused p, r) => r.update e fun m => { m with restarting := some p }
    | (.ended o, r) => (r.endRestart e o).restartAll e

/-! ### Stop calls -/

/-- Whether a stop call that ended so is passed over: the run is cancelled, and that is why the service gave up. -/
def isAbandoned (r : Run) : Outcome → Bool
  | .failed err => r.cancelled && err.isCancellation
  | _ => false

def endStop (r : Run) (e : Nat) (o : Outcome) : Run :=
  let abandoned := r.isAbandoned o
  let r := (r.markEnd e .stop o).report e .stop (if abandoned then .done else o)
  wake { r.update e fun m => { m with stop := .ended } with
    trace := r.trace ++ if abandoned then [.stopAbandoned (r.nameOf e)] else [] }

def keepStop (e : Nat) : Progress × Run → Run
  | (.paused p, r) => r.update e fun m => { m with stop := .ongoing p }
  | (.ended o, r) => r.endStop e o

/-- Begins the stop call. To have waited for the cause costs budget, to find it known does not. -/
def beginStop (r : Run) (e : Nat) : Progress × Run :=
  let r := if (r.member e).stopAwaited then r.spend else r
  let r := (r.log (.stopping (r.nameOf e))).update e fun m => { m with stop := .ongoing .never }
  r.begin e .stop (r.service e).stop

def stopTurn (r : Run) (e : Nat) : Run :=
  match (r.member e).stop with
  | .unbegun =>
    if r.cause.isFired then keepStop e (r.beginStop e)
    else r.update e fun m => { m with stopAwaited := true }
  | .ongoing p => keepStop e (r.resume e .stop p)
  | .ended => r

/-! ### Watchers and signals -/

def watchTurn (r : Run) (w : Nat) : Run :=
  match r.cause.value with
  | some c => { r with watches := r.watches.set w (some (r.now, c)) }
  | none => r

def signalTurn (r : Run) (n : Int) : Run :=
  if r.stage.hearsSignals then r.deliver n else r.mark (.raised n)

end Run

end Supervision
