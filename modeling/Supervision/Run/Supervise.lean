import Supervision.Run.Turn

/-! The supervising task. It sets the run up, acts on whatever comes in a fixed order of precedence until there is
a cause to shut down, stops the services, waits for them, and gives the verdict. -/

namespace Supervision

namespace Run

/-! ### Setting up -/

/-- The streams and the broadcast of the run, unless one of them cannot be had: the shutdown stream is tried first,
then the restart stream, then the broadcast, of which every entry becomes a reader. -/
def acquire (s : Settings) : Except SetupFault (Inbox × Inbox × Broadcast) :=
  match Inbox.listen s.signals .shutdown with
  | .error f => .error f
  | .ok shutdown =>
    match Inbox.listen s.signals .restart with
    | .error f => .error f
    | .ok restart =>
      if backlogLimit < s.restartBacklog then .error .backlogTooLarge
      else .ok (shutdown, restart, s.entries.foldl (fun b _ => b.subscribe) (.withBacklog s.restartBacklog))

theorem acquire_ok {s : Settings} {shutdown restart : Inbox} {b : Broadcast}
    (h : acquire s = .ok (shutdown, restart, b)) :
    Inbox.listen s.signals .shutdown = .ok shutdown ∧ Inbox.listen s.signals .restart = .ok restart ∧
      s.restartBacklog ≤ backlogLimit ∧ b = s.entries.foldl (fun b _ => b.subscribe) (.withBacklog s.restartBacklog) := by
  unfold acquire at h
  split at h
  · cases h
  · rename_i hears
    split at h
    · cases h
    · rename_i hearsToo
      split at h
      · cases h
      · rename_i fits
        cases h
        exact ⟨hears, hearsToo, Nat.not_lt.mp fits, rfl⟩

def entryTasks (entries : Nat) : List Task :=
  (List.range entries).flatMap fun e => [.start e, .restart e, .stop e]

def giveVerdict (r : Run) (v : Verdict) : Run :=
  { r.mark .returned with stage := .returned v r.now }

def fail (r : Run) (f : SetupFault) : Run :=
  { r with commandsClosed := true }.giveVerdict (.fault f)

/-- The run has all that it needs, and the tasks of its entries get ready. -/
def equip (r : Run) (shutdown restart : Inbox) (broadcast : Broadcast) : Run :=
  let r := { r with shutdownInbox := shutdown, restartInbox := restart, restarts := broadcast }
  let r := (r.mark .setUp).log (.runStarting r.settings.entries.length)
  { r.spawn (entryTasks r.settings.entries.length) with stage := .running {} }

def setUp (r : Run) : Run :=
  match acquire r.settings with
  | .error f => r.fail f
  | .ok (shutdown, restart, broadcast) => r.equip shutdown restart broadcast

/-! ### Finishing -/

/-- Nobody will be restarted any more, and the failures recorded by now make the verdict. -/
def finish (r : Run) : Run :=
  let r := wake { r with restarts := r.restarts.close }
  let r := r.log (if r.failures.isEmpty then .runFinished else .runFailed r.failures.length)
  r.giveVerdict (Verdict.ofFailures r.failures)

/-- Until when the start calls are waited for, if not to their end: a run that a service ended by itself grants the
others their time. -/
def graceEnd? (r : Run) : Option Nat :=
  match r.cause.value with
  | some (.exited _) => some (r.now + r.settings.exitGrace)
  | _ => none

def leave (r : Run) (deadline : Option Nat) : Run :=
  if r.allExited then r.finish
  else match deadline with
    | none => r
    | some d => if d ≤ r.now then (r.log (.graceExpired r.stillRunning)).finish else r

def awaitStops (r : Run) : Run :=
  if r.allStopped then { r with stage := .leaving r.graceEnd? }.leave r.graceEnd? else r

/-- Fixes the cause: no command is accepted any more, and everybody who waits for the cause learns it. -/
def announce (r : Run) (c : Cause) : Run :=
  let r := r.mark (.shutDown c)
  (wake { r with commandsClosed := true, cause := r.cause.fire c, stage := .stopping }).log (.shuttingDown c)

def shutDown (r : Run) (c : Cause) : Run :=
  (r.announce c).awaitStops

/-! ### Acting on what comes -/

inductive Sight
  /-- There is a reason to shut down. -/
  | cause (c : Cause)
  /-- Something else was acted on, so another round is due. -/
  | news
  /-- Nothing has come, or the budget is used up. -/
  | nothing
deriving DecidableEq, Repr

/-- Looks at the commands. Once nobody is left to send any, the run stops listening for them. -/
def lookAtCommands (r : Run) (round : Round) : Sight × Run :=
  if !round.listening then (.nothing, r)
  else if r.isSpent then (.nothing, r.defer .supervise)
  else match r.commands with
  | .restart :: rest =>
    let r := { r.spend with commands := rest, stage := .running round.next }.mark (.obeyed .restart)
    (.news, (r.log .restartRequested).fire)
  | .shutdown :: rest => (.cause .requested, { r with commands := rest }.mark (.obeyed .shutdown))
  | [] =>
    if r.orphaned then (.news, { r.spend with stage := .running { round.next with listening := false } })
    else (.nothing, r)

/-- Looks at the stream of restart signals and beyond it. To find that nobody listens for any costs as much as to
receive one. -/
def lookAtRestarts (r : Run) (round : Round) : Sight × Run :=
  if !round.restartPassed && r.isSpent then (.nothing, r.defer .supervise)
  else match r.restartInbox.receive with
  | (some n, inbox) =>
    let r := { r.spend with restartInbox := inbox, stage := .running round.next }.mark (.received n)
    (.news, (r.log (.restartSignal n)).fire)
  | (none, _) =>
    if r.restartInbox.kinds.isEmpty && !round.restartPassed then
      let round := { round with restartPassed := true }
      { r.spend with stage := .running round }.lookAtCommands round
    else r.lookAtCommands round

def lookAtShutdowns (r : Run) (round : Round) : Sight × Run :=
  match r.shutdownInbox.receive with
  | (some n, inbox) => (.cause (.signal n), { r with shutdownInbox := inbox })
  | (none, _) =>
    if r.shutdownInbox.kinds.isEmpty && !round.shutdownPassed then
      let round := { round with shutdownPassed := true }
      { r.spend with stage := .running round }.lookAtRestarts round
    else r.lookAtRestarts round

/-- Looks at all that can come, in the order of precedence, until something has come. -/
def look (r : Run) (round : Round) : Sight × Run :=
  if r.isSpent then (.nothing, r.defer .supervise)
  else if r.cancelled then (.cause .cancelled, r)
  else match r.exit.value with
  | some name => (.cause (.exited name), r)
  | none => r.lookAtShutdowns round

def attend : Nat → Run → Run
  | 0, r => r
  | fuel + 1, r =>
    match r.stage with
    | .running round =>
      match r.look round with
      | (.cause c, r) => r.shutDown c
      | (.news, r) => attend fuel r
      | (.nothing, r) => r
    | _ => r

/-- Each signal and command takes a round; one more may be needed to stop listening, and one to find nothing. -/
def attendSteps (r : Run) : Nat :=
  r.restartInbox.queue.length + r.commands.length + 2

def superviseTurn (r : Run) : Run :=
  match r.stage with
  | .spawned =>
    let r := r.setUp
    attend r.attendSteps r
  | .running _ => attend r.attendSteps r
  | .stopping => r.awaitStops
  | .leaving deadline => r.leave deadline
  | _ => r

/-! ### The queue -/

def act (r : Run) : Task → Run
  | .supervise => r.superviseTurn
  | .start e => r.startTurn e
  | .restart e => r.restartTurn e
  | .stop e => r.stopTurn e
  | .watch w => r.watchTurn w
  | .signal n => r.signalTurn n

/-- Whether the supervising task only goes on with a round that it began in an earlier turn, as nothing has come that
could end the round. -/
def goesOn (r : Run) : Bool :=
  match r.stage with
  | .running round => round.isUnderWay && !r.isCalled round.listening
  | _ => false

theorem goesOn_eq_false {r : Run} : r.goesOn = false ↔
    ∀ round, r.stage = .running round → round.isUnderWay = true → r.isCalled round.listening = true := by
  unfold goesOn
  cases r.stage <;> simp

/-- The place that a task keeps through its turn. Whoever goes on with a round has not stopped waiting since its
beginning; whatever else a task waits for, it begins to wait at the end of its turn. -/
def placeKept (r : Run) (t : Task) : Option Nat :=
  if t = .supervise && r.goesOn then r.place else none

def park (r : Run) (t : Task) (kept : Option Nat) : Run :=
  let n := kept.getD r.parked.length
  { r with
    parked := r.parked.take n ++ t :: r.parked.drop n
    place := if t = .supervise then none else r.place }

theorem perm_park (r : Run) (t : Task) (kept : Option Nat) : (r.park t kept).parked.Perm (t :: r.parked) := by
  refine List.perm_middle.trans ?_
  rw [List.take_append_drop]

theorem mem_parked_park {r : Run} {t t' : Task} {kept : Option Nat} :
    t' ∈ (r.park t kept).parked ↔ t' = t ∨ t' ∈ r.parked := by
  rw [(r.perm_park t kept).mem_iff, List.mem_cons]

theorem parked_park_none (r : Run) (t : Task) : (r.park t none).parked = r.parked ++ [t] := by
  simp [park]

theorem placeKept_of_ne {r : Run} {t : Task} (other : t ≠ .supervise) : r.placeKept t = none := by
  simp [placeKept, other]

def turn (r : Run) (t : Task) : Run :=
  -- what has come before the turn decides whether the task keeps its place
  let kept := r.placeKept t
  let r := { r with budget := r.quota, deferred := r.deferred.erase t }.act t
  if r.isOver t then r else r.park t kept

def tick? (r : Run) : Option Run :=
  match r.ready with
  | [] => none
  | t :: rest => some (turn { r with ready := rest } t)

end Run

end Supervision
