import Mathlib.Logic.Relation
import Supervision.Scenario

/-! The moves of a run. A run moves by a turn of the task at the head of its queue, by taking up the deferred tasks, by
the passing of time, and by what its caller does. Nothing is said about their order: the caller may act between
any two turns, and only time waits until nothing else can be done. -/

namespace Supervision

/-- Whether an action takes no time and gives no task a turn. -/
def Action.isInstant : Action → Bool
  | .raise _ | .wait _ => false
  | _ => true

namespace Run

inductive Move : Run → Run → Prop
  | turn {r r' : Run} (h : r.tick? = some r') : Move r r'
  | takeUp (r : Run) : Move r r.takeUp
  /-- No deadline is passed over, so that each task that waits for one goes on at that very moment. -/
  | pass {r : Run} {time : Nat} (later : r.now ≤ time) (inTime : ∀ d, r.nextDeadline? = some d → time ≤ d) :
      Move r (r.advance time)
  /-- A signal is raised. It arrives at a turn of its own. -/
  | signal (r : Run) (n : Int) : Move r (r.spawn [.signal n])
  | act (r : Run) (a : Action) (h : a.isInstant = true) : Move r (r.perform a).2

/-- Some moves lead from one state to the other. -/
def Reaches : Run → Run → Prop :=
  Relation.ReflTransGen Move

variable {r r' : Run}

/-- A turn is that of the task at the head of the queue. -/
theorem tick_cases (h : r.tick? = some r') : ∃ t rest, r.ready = t :: rest ∧ r' = turn { r with ready := rest } t := by
  cases ready : r.ready with
  | nil => simp [tick?, ready] at h
  | cons t rest =>
    simp only [tick?, ready, Option.some.injEq] at h
    exact ⟨t, rest, rfl, h.symm⟩

theorem isSettled_iff : r.isSettled = true ↔ r.ready = [] ∧ r.deferred = [] := by
  simp only [isSettled, Bool.and_eq_true, List.isEmpty_iff]

/-- The tasks have their turns, and nobody else does anything. -/
def Settles : Run → Run → Prop :=
  Relation.ReflTransGen fun r r' => r.tick? = some r' ∨ r' = r.takeUp

theorem settles_serve (turns : Nat) (r : Run) : r.Settles (r.serve turns) := by
  induction turns generalizing r with
  | zero => exact .refl
  | succ turns ih =>
    rw [serve]
    split
    · rename_i r' turn
      exact (ih r').head (.inl turn)
    · exact .refl

theorem settles_settleFor (rounds : Nat) (r : Run) : r.Settles (settleFor rounds r) := by
  induction rounds generalizing r with
  | zero => exact .refl
  | succ rounds ih =>
    rw [settleFor]
    split
    · exact .refl
    · exact ((settles_serve lookAfter r).tail (.inr rfl)).trans (ih _)

theorem Settles.reaches (h : r.Settles r') : r.Reaches r' := by
  induction h with
  | refl => exact .refl
  | tail _ step ih =>
    rcases step with turn | rfl
    · exact ih.tail (.turn turn)
    · exact ih.tail (.takeUp _)

theorem reaches_serve (turns : Nat) (r : Run) : r.Reaches (r.serve turns) :=
  (settles_serve turns r).reaches

theorem reaches_settle (r : Run) : r.Reaches r.settle :=
  (settles_settleFor roundLimit r).reaches

theorem reaches_raise (r : Run) (n : Int) : r.Reaches (r.raise n) :=
  (((reaches_serve lookAfter r).tail (.signal _ n)).tail (.takeUp _)).trans (reaches_settle _)

theorem Reaches.rfl : r.Reaches r :=
  .refl

theorem Reaches.act (h : r.Reaches r') (a : Action) (instant : a.isInstant = true) : r.Reaches (r'.perform a).2 :=
  h.tail (.act r' a instant)

theorem Reaches.serve (h : r.Reaches r') (turns : Nat) : r.Reaches (r'.serve turns) :=
  h.trans (reaches_serve turns r')

theorem Reaches.advance {time : Nat} (h : r.Reaches r') (later : r'.now ≤ time)
    (inTime : ∀ d, r'.nextDeadline? = some d → time ≤ d) : r.Reaches (r'.advance time) :=
  h.tail (.pass later inTime)

/-! ### A run to look at -/

def pairSettings : Settings :=
  { signals := .silent, entries := [⟨"first", 0⟩, ⟨"second", 1⟩] }

/-- Both services run until they are cancelled. The first asks for a restart before, the second panics when it is
stopped. -/
def pairServices : List Service :=
  [{ start := .command .restart (.awaitCancel .done), restarts := [.done], stop := .done },
    { start := .awaitCancel .done, stop := .panic (.text "stuck") }]

/-- The pair, cancelled by the caller as soon as there is nothing left to do. -/
def pairRun : Run :=
  ((((initial pairSettings pairServices).perform .run).2.serve 20).perform .cancel).2.serve 20

theorem reaches_pairRun : (initial pairSettings pairServices).Reaches pairRun :=
  (((Reaches.rfl.act .run rfl).serve 20).act .cancel rfl).serve 20

end Run

end Supervision
