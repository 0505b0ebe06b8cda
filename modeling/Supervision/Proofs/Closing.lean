import Supervision.Proofs.Agreement
import Supervision.Proofs.Completion

/-! When a handle is closed. It is closed at the shutdown and not at the return: between the two the run still waits for
stop calls, and then for start calls, and a handle that is closed tells nothing about whether they have ended. -/

namespace Supervision

/-- A call of this phase of the entry has begun and has not ended. -/
def InProgress (os : List Occurrence) (e : Nat) (phase : Phase) : Prop :=
  endedCalls os e phase < begunCalls os e phase

instance (os : List Occurrence) (e : Nat) (phase : Phase) : Decidable (InProgress os e phase) :=
  inferInstanceAs (Decidable (_ < _))

namespace Run

variable {settings : Settings} {services : List Service} {r : Run} {cur : Option Task} {e : Nat} {phase : Phase}

/-- The run waits for a stop call in progress, or when all of these have ended for a start call in progress, unless it
has given up on it. -/
def AwaitsCalls (settings : Settings) (r : Run) : Prop :=
  (∃ e < settings.entries.length, InProgress r.happened e .stop) ∨
    AllEnded settings.entries.length .stop r.happened ∧
      (∃ e < settings.entries.length, InProgress r.happened e .start) ∧
      ∀ name, r.cause.value = some (.exited name) → r.now < stopsOver r.history + settings.exitGrace

theorem Passes.ended_le_begun (h : Passes settings services cur r) (he : e < settings.entries.length) (phase : Phase) :
    endedCalls r.happened e phase ≤ begunCalls r.happened e phase := by
  have tally := h.tally he
  rw [tally.begun phase]
  exact Nat.le.intro (tally.ended phase)

theorem Passes.inProgress_iff (h : Passes settings services cur r)
    (begun : ∀ e < settings.entries.length, begunCalls r.happened e phase = 1) :
    (∃ e < settings.entries.length, InProgress r.happened e phase) ↔
      ¬ AllEnded settings.entries.length phase r.happened := by
  unfold InProgress
  constructor
  · rintro ⟨e, he, ongoing⟩ all
    rw [begun e he, all e he] at ongoing
    exact Nat.lt_irrefl 1 ongoing
  · intro left
    simp only [AllEnded, Classical.not_forall] at left
    obtain ⟨e, he, left⟩ := left
    have le := h.ended_le_begun he phase
    rw [begun e he] at le
    exact ⟨e, he, by rw [begun e he]; omega⟩

theorem Passes.stop_begun_once (h : Passes settings services none r) (settled : r.isSettled = true)
    (fired : r.cause.isFired = true) (he : e < settings.entries.length) : begunCalls r.happened e .stop = 1 :=
  Nat.le_antisymm (h.orderly he).stop_once (List.count_pos_iff.mpr (h.stop_began settled fired he))

theorem Passes.awaitsCalls (h : Passes settings services none r) (settled : r.isSettled = true)
    (fired : r.cause.isFired = true) (live : r.stage.hasReturned = false) : r.AwaitsCalls settings := by
  cases stopped : r.allStopped with
  | false =>
    left
    refine (h.inProgress_iff fun e he => h.stop_begun_once settled fired he).mpr fun all => ?_
    rw [h.allEnded_stop_iff.mp all] at stopped
    cases stopped
  | true =>
    right
    obtain ⟨left, early⟩ := h.incomplete settled live fired stopped
    refine ⟨h.allEnded_stop_iff.mpr stopped, ?_, early⟩
    refine (h.inProgress_iff fun e he => (h.completed stopped he).start_once).mpr fun all => ?_
    rw [h.allEnded_start_iff.mp all] at left
    cases left

theorem Passes.live_of_awaitsCalls (h : Passes settings services cur r) (setUp : .setUp ∈ r.happened)
    (awaits : r.AwaitsCalls settings) : r.stage.hasReturned = false := by
  cases stage : r.stage with
  | returned v time =>
    obtain ⟨-, stopped, finished, -⟩ := h.complete setUp stage
    have begun {e : Nat} (he : e < settings.entries.length) := h.completed stopped he
    rcases awaits with stop | ⟨-, start, early⟩
    · exact absurd (h.allEnded_stop_iff.mpr stopped) ((h.inProgress_iff fun e he => (begun he).stop_once).mp stop)
    · rcases finished with exited | ⟨⟨name, cause⟩, late⟩
      · exact absurd (h.allEnded_start_iff.mpr exited) ((h.inProgress_iff fun e he => (begun he).start_once).mp start)
      · exact absurd late (Nat.not_le.mpr (early name cause))
  | _ => rfl

/-- A handle is closed, and commands are refused, from the shutdown on, so also at the return. But when there is nothing
else left to do, a run whose handles are closed has not returned if and only if it waits for a call. -/
theorem closed_from_shutDown (h : (initial settings services).Reaches r) (setUp : .setUp ∈ r.happened) :
    (r.commandsClosed = true ↔ ∃ c, .shutDown c ∈ r.happened) ∧
    (r.handleHeld = true → ∀ command, (r.send command).1 = .refused ↔ ∃ c, .shutDown c ∈ r.happened) ∧
    (r.stage.hasReturned = true → r.commandsClosed = true) ∧
    (r.isSettled = true →
      (r.commandsClosed = true ∧ r.stage.hasReturned = false ↔
        (∃ c, .shutDown c ∈ r.happened) ∧ r.AwaitsCalls settings)) := by
  have passes := Passes.of_reaches h
  have closed : r.commandsClosed = true ↔ ∃ c, .shutDown c ∈ r.happened :=
    (passes.closed_iff setUp).trans passes.isFired_iff
  refine ⟨closed, fun held command => ?_, fun returned => ?_, fun settled => ?_⟩
  · rw [answer_of_held held, ← closed]
    cases r.commandsClosed <;> simp
  · rw [passes.commandsClosed, Stage.isClosed, returned, Bool.or_true]
  · rw [closed]
    refine and_congr_right fun shutDown => ⟨fun live => ?_, passes.live_of_awaitsCalls setUp⟩
    exact passes.awaitsCalls settled (passes.isFired_iff.mpr shutDown) live

def slowSettings : Settings :=
  { signals := .silent, entries := [⟨"a", 0⟩] }

def slowServices : List Service :=
  [{ start := .awaitRelease .done, stop := .sleep 100 (.release none .done) }]

def slowRun : Run :=
  ((((initial slowSettings slowServices).perform .run).2.serve 20).perform .cancel).2.serve 20

theorem reaches_slowRun : (initial slowSettings slowServices).Reaches slowRun :=
  (((Reaches.rfl.act .run rfl).serve 20).act .cancel rfl).serve 20

theorem closed_from_shutDown_slow :
    slowRun.commandsClosed = true ∧ slowRun.stage.hasReturned = false ∧ slowRun.AwaitsCalls slowSettings := by
  obtain ⟨closed, -, -, whenSettled⟩ := closed_from_shutDown reaches_slowRun (by decide)
  have shutDown : ∃ c, .shutDown c ∈ slowRun.happened := ⟨.cancelled, by decide⟩
  have awaits : slowRun.AwaitsCalls slowSettings := .inl ⟨0, by decide, by decide⟩
  obtain ⟨isClosed, live⟩ := (whenSettled (by decide)).mpr ⟨shutDown, awaits⟩
  exact ⟨isClosed, live, awaits⟩

/-- That a handle is closed, and that commands are refused, does not mean that the run has returned. -/
theorem closed_before_return :
    (initial slowSettings slowServices).Reaches slowRun ∧ .setUp ∈ slowRun.happened ∧
      slowRun.snapshot.closed = some true ∧ (slowRun.send .restart).1.text = refusedCommandText ∧
      InProgress slowRun.happened 0 .stop ∧ slowRun.isSettled = true ∧ slowRun.stage.hasReturned = false ∧
      ¬ (slowRun.commandsClosed = true ↔ slowRun.stage.hasReturned = true) :=
  ⟨reaches_slowRun, by decide, by decide, by decide, by decide, by decide, by decide, by decide⟩

end Run

end Supervision
