import Supervision.Run.State

/-! When a parked task can go on, and how it gets to its turn. Whatever changes the state wakes, in the order in
which they parked, exactly the tasks that can go on now; so a task that is parked waits for something that has
not come yet, or was deferred. -/

namespace Supervision

namespace Run

def lets (r : Run) (service : Nat) : Pause → Bool
  | .never => false
  | .until d _ | .noting d _ _ => d ≤ r.now
  | .release _ => r.isReleased service
  | .releaseUntil d _ => r.isReleased service || d ≤ r.now
  | .cancel _ => r.cancelled
  | .cause _ => r.cause.isFired

def isCalled (r : Run) (listening : Bool) : Bool :=
  r.cancelled || r.exit.isFired || !r.shutdownInbox.queue.isEmpty || !r.restartInbox.queue.isEmpty ||
    (listening && (!r.commands.isEmpty || r.orphaned))

def isDue (r : Run) : Task → Bool
  | .supervise =>
    match r.stage with
    | .running round => r.isCalled round.listening
    | .stopping => r.allStopped
    | .leaving none => r.allExited
    | .leaving (some d) => r.allExited || d ≤ r.now
    | _ => false
  | .start e =>
    match (r.member e).start with
    | .ongoing p => r.lets (r.serviceOf e) p
    | _ => false
  | .restart e =>
    match (r.member e).restarting with
    | some p => r.lets (r.serviceOf e) p
    | none => r.restarts.hasNews e
  | .stop e =>
    match (r.member e).stop with
    | .unbegun => r.cause.isFired
    | .ongoing p => r.lets (r.serviceOf e) p
    | .ended => false
  | .watch _ => r.cause.isFired
  | .signal _ => false

/-- Whether a task can go on although it is deferred. A supervisor whose budget ran out in the middle of a round had
looked for cancellation and exits before. -/
def isDueEarly (r : Run) : Task → Bool
  | .supervise =>
    match r.stage with
    | .running round => round.isUnderWay && (r.cancelled || r.exit.isFired)
    | _ => false
  | _ => false

def canGoOn (r : Run) (t : Task) : Bool :=
  if t ∈ r.deferred then r.isDueEarly t else r.isDue t

/-- The place of the supervising task once these have left the parked tasks. -/
def placeAfter (r : Run) (leaves : Task → Bool) : Option Nat :=
  r.place.map fun n => n - (r.parked.take n).countP leaves

theorem placeAfter_of_nobody {r : Run} {leaves : Task → Bool} (stay : ∀ t ∈ r.parked, leaves t = false) :
    r.placeAfter leaves = r.place := by
  have none (n : Nat) : (r.parked.take n).countP leaves = 0 :=
    List.countP_eq_zero.mpr fun t mem => by simp [stay t (List.mem_of_mem_take mem)]
  simp only [placeAfter, none, Nat.sub_zero, Option.map_id']

theorem placeAfter_congr {r : Run} {leaves leaves' : Task → Bool} (same : ∀ t ∈ r.parked, leaves t = leaves' t) :
    r.placeAfter leaves = r.placeAfter leaves' := by
  have agree (n : Nat) : (r.parked.take n).countP leaves = (r.parked.take n).countP leaves' :=
    List.countP_congr fun t mem => by rw [same t (List.mem_of_mem_take mem)]
  simp only [placeAfter, agree]

/-- Moves the parked tasks that can go on to the end of the queue. -/
def wake (r : Run) : Run :=
  { r with
    ready := r.ready ++ r.parked.filter r.canGoOn
    parked := r.parked.filter fun t => !r.canGoOn t
    place := r.placeAfter r.canGoOn }

theorem canGoOn_wake (r : Run) : r.wake.canGoOn = r.canGoOn := by
  funext t
  cases t <;> rfl

theorem not_canGoOn_of_mem_parked_wake {r : Run} {t : Task} (h : t ∈ r.wake.parked) :
    r.wake.canGoOn t = false := by
  rw [canGoOn_wake]
  simpa [wake] using (List.mem_filter.mp h).2

theorem wake_of_still {r : Run} (still : ∀ t ∈ r.parked, r.canGoOn t = false) : r.wake = r := by
  have nobody : r.parked.filter r.canGoOn = [] := List.filter_eq_nil_iff.mpr fun t parked => by simp [still t parked]
  have everybody : (r.parked.filter fun t => !r.canGoOn t) = r.parked :=
    List.filter_eq_self.mpr fun t parked => by simp [still t parked]
  rw [wake, nobody, everybody, placeAfter_of_nobody still, List.append_nil]

def spawn (r : Run) (ts : List Task) : Run :=
  { r with ready := r.ready ++ ts }

/-! ### The budget of a turn -/

def isSpent (r : Run) : Bool :=
  r.budget == some 0

def spend (r : Run) : Run :=
  { r with budget := r.budget.map (· - 1) }

def cannotRead (r : Run) : Bool :=
  !r.readsFreely && r.isSpent

def spendReading (r : Run) : Run :=
  if r.readsFreely then r else r.spend

def defer (r : Run) (t : Task) : Run :=
  { r with deferred := t :: r.deferred }

def deferIfSpent (r : Run) (t : Task) : Run :=
  if r.isSpent then r.defer t else r

/-- The place that the supervising task leaves when it is taken up, or else the one that it has left before. -/
def placeLeft (r : Run) : Option Nat :=
  if .supervise ∈ r.deferred ∧ .supervise ∈ r.parked then
    some ((r.parked.takeWhile (· ≠ .supervise)).countP (· ∉ r.deferred))
  else r.placeAfter (· ∈ r.deferred)

/-- The deferred tasks that are still parked get ready, the one that was put off last first. -/
def takeUp (r : Run) : Run :=
  { r with
    ready := r.ready ++ r.deferred.filter (· ∈ r.parked)
    parked := r.parked.filter (· ∉ r.deferred)
    deferred := []
    place := r.placeLeft }

/-! ### What is left to do -/

def isOver (r : Run) : Task → Bool
  | .supervise => r.stage.hasReturned
  | .start e => (r.member e).start.isEnded
  | .restart e => (r.member e).retired
  | .stop e => (r.member e).stop.isEnded
  | .watch w => r.watches[w]?.join.isSome
  | .signal _ => true

/-- The time at which a parked task goes on if nothing comes before. -/
def deadline? (r : Run) : Task → Option Nat
  | .supervise =>
    match r.stage with
    | .leaving d => d
    | _ => none
  | t => (r.pause? t).bind Pause.deadline?

def nextDeadline? (r : Run) : Option Nat :=
  (r.parked.filterMap r.deadline?).foldl (fun least d => some (match least with | some l => min l d | none => d)) none

end Run

end Supervision
