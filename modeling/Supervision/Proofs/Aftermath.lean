import Supervision.Proofs.Completion
import Supervision.Proofs.Fanout

/-! What is left of a run once it has returned. Its start calls and stop calls are over then, but nobody waits for restart
calls: an entry that has not answered every firing by the return goes on being restarted, and what goes wrong then is
told in no verdict. -/

namespace Supervision

def sinceReturn (os : List Occurrence) : List Occurrence :=
  os.dropWhile (· ≠ .returned)

theorem beforeReturn_append_sinceReturn (os : List Occurrence) : beforeReturn os ++ sinceReturn os = os :=
  List.takeWhile_append_dropWhile

theorem begunCalls_eq_add (os : List Occurrence) (e : Nat) (phase : Phase) :
    begunCalls os e phase = begunCalls (beforeReturn os) e phase + begunCalls (sinceReturn os) e phase := by
  rw [← begunCalls_append, beforeReturn_append_sinceReturn]

theorem endedCalls_eq_add (os : List Occurrence) (e : Nat) (phase : Phase) :
    endedCalls os e phase = endedCalls (beforeReturn os) e phase + endedCalls (sinceReturn os) e phase := by
  rw [← endedCalls_append, beforeReturn_append_sinceReturn]

theorem Occurrence.ended_of_failure? {entries : List Entry} {o : Occurrence} {f : Failure}
    (h : o.failure? entries = some f) : ∃ e outcome flag, o = .ended e f.phase outcome flag := by
  cases o with
  | ended e phase outcome flag =>
    refine ⟨e, outcome, flag, ?_⟩
    cases outcome with
    | done => cases h
    | failed err =>
      simp only [Occurrence.failure?] at h
      split at h
      · cases h
      · obtain ⟨entry, -, rfl⟩ := Option.map_eq_some_iff.mp h
        rfl
    | panicked p =>
      obtain ⟨entry, -, rfl⟩ := Option.map_eq_some_iff.mp h
      rfl
  | _ => cases h

namespace Run

variable {settings : Settings} {services : List Service} {r r' : Run} {t : Task} {cur : Option Task} {e : Nat}
  {os : List Occurrence} {v : Verdict} {time : Nat}

/-! ### The state in which a run returns -/

/-- A run returns from where it waits for its start calls, when all of them have ended or its time is up. -/
structure Leaves (r : Run) : Prop where
  leaving : ∃ deadline, r.stage = .leaving deadline ∧ (r.allExited = true ∨ ∃ d, deadline = some d)
  unreturned : .returned ∉ r.happened

theorem Act.leaves (before : Passes settings services (some t) r) (h : Act t os r r')
    (returned : r'.stage = .returned v time) (sound : v.isFault = false) (unreturned : r.stage.hasReturned = false) :
    r.Leaves ∧ os = [.returned] := by
  cases h.closes with
  | stay same => simp [← same, returned, Stage.hasReturned] at unreturned
  | sooner unfired => simp [returned, Stage.hasShutDown, sound] at unfired
  | shutDown c _ stopping => simp [returned] at stopping
  | leave _ _ leaving => simp [returned] at leaving
  | finish deadline fs leaving finished _ nothing =>
    refine ⟨⟨⟨deadline, leaving, finished.imp_right fun late => ?_⟩, before.not_returned unreturned⟩, nothing⟩
    obtain ⟨-, d, some, -⟩ := late
    exact ⟨d, some⟩

theorem Passes.atReturn (h : Passes settings services cur r) (returned : r.stage = .returned v time)
    (sound : v.isFault = false) :
    ∃ r₀ t, Passes settings services (some t) r₀ ∧ r₀.Leaves ∧ r₀.happened = beforeReturn r.happened := by
  refine h.invariant (P := fun r => ∀ v time, r.stage = .returned v time → v.isFault = false →
    ∃ r₀ t, Passes settings services (some t) r₀ ∧ r₀.Leaves ∧ r₀.happened = beforeReturn r.happened)
    ?_ (fun _ _ _ _ _ ih => ih) ?_ ?_ v time returned sound
  · intro quota v time returned
    cases returned
  · intro os r r' before h ih v time returned sound
    have earlier : r.stage = .returned v time := h.stage_of returned (by simp)
    have mem : .returned ∈ r.happened := before.hasReturned_iff.mp (by rw [earlier]; rfl)
    rw [h.happened, beforeReturn_append_of_mem mem]
    exact ih v time earlier sound
  · intro t os r r' before h ih v time returned sound
    rw [h.happened]
    rcases h.verdict returned with earlier | ⟨-, unreturned, -⟩
    · have mem : .returned ∈ r.happened := before.hasReturned_iff.mp (by rw [earlier]; rfl)
      rw [beforeReturn_append_of_mem mem]
      exact ih v time earlier sound
    · obtain ⟨leaves, rfl⟩ := h.leaves before returned sound unreturned
      rw [beforeReturn_snoc leaves.unreturned]
      exact ⟨r, t, before, leaves, rfl⟩

theorem Leaves.shutDown (leaves : r.Leaves) : r.stage.hasShutDown = true := by
  obtain ⟨⟨deadline, leaving, -⟩, -⟩ := leaves
  rw [leaving]
  rfl

theorem Leaves.allStopped (h : Passes settings services cur r) (leaves : r.Leaves) : r.allStopped = true := by
  obtain ⟨⟨deadline, leaving, -⟩, -⟩ := leaves
  exact h.allStopped (by rw [leaving]; rfl)

theorem Leaves.allExited (h : Passes settings services cur r) (leaves : r.Leaves)
    (awaited : ∀ name, r.cause.value ≠ some (.exited name)) : r.allExited = true := by
  obtain ⟨⟨deadline, leaving, exited | ⟨d, rfl⟩⟩, -⟩ := leaves
  · exact exited
  · have grace := (h.timely.leaving _ leaving).grace
    unfold graceAfter at grace
    split at grace
    · rename_i name cause
      exact absurd cause (awaited name)
    · cases grace

theorem Passes.cause_of_prefix {r₀ : Run} {cur₀ : Option Task} (before : Passes settings services cur₀ r₀)
    (h : Passes settings services cur r) (shutDown : r₀.stage.hasShutDown = true)
    (grows : r.happened = r₀.happened ++ os) : r.cause.value = r₀.cause.value := by
  have fired : r₀.cause.isFired = true := before.isFired_eq.trans shutDown
  obtain ⟨c, cause⟩ := Option.isSome_iff_exists.mp fired
  rw [h.cause_value, grows, List.findSome?_append, ← before.cause_value, cause]
  rfl

/-! ### After the return -/

theorem Passes.fired_beforeReturn {r₀ : Run} {cur₀ : Option Task} (before : Passes settings services cur₀ r₀)
    (h : Passes settings services cur r) (shutDown : r₀.stage.hasShutDown = true)
    (grows : r.happened = r₀.happened ++ os) : r.happened.count .fired = r₀.happened.count .fired := by
  have none : os.count .fired = 0 := by
    rw [List.count_eq_zero]
    intro mem
    obtain ⟨earlier, later, rfl⟩ := List.append_of_mem mem
    obtain ⟨c, shut⟩ := before.hasShutDown_iff.mp shutDown
    refine (h.fires_inTime (r₀.happened ++ earlier) .fired later ?_ rfl).2 c (List.mem_append_left _ shut)
    rw [grows, List.append_assoc]
  rw [grows, List.count_append, none, Nat.add_zero]

/-- A call that is made once was over by the return, so none begins or ends afterwards. -/
theorem Passes.over_atReturn {r₀ : Run} {cur₀ : Option Task} {phase : Phase} (before : Passes settings services cur₀ r₀)
    (h : Passes settings services cur r) (he : e < settings.entries.length)
    (happened : r₀.happened = beforeReturn r.happened) (once : phase ≠ .restart)
    (ended : endedCalls r₀.happened e phase = 1) :
    (begunCalls (beforeReturn r.happened) e phase = 1 ∧ endedCalls (beforeReturn r.happened) e phase = 1) ∧
      begunCalls (sinceReturn r.happened) e phase = 0 ∧ endedCalls (sinceReturn r.happened) e phase = 0 := by
  have begun : begunCalls r.happened e phase ≤ 1 := by
    cases phase with
    | start => exact (h.orderly he).start_once
    | restart => exact absurd rfl once
    | stop => exact (h.orderly he).stop_once
  have tally₀ := (before.tally he).ended phase
  have tally := (h.tally he).ended phase
  rw [← (before.tally he).begun, happened] at tally₀
  rw [← (h.tally he).begun, endedCalls_eq_add, begunCalls_eq_add] at tally
  rw [begunCalls_eq_add] at begun
  rw [happened] at ended
  omega

/-- An entry that was restarted for every firing by the return is left alone afterwards. -/
theorem Passes.left_alone {r₀ : Run} {cur₀ : Option Task} (before : Passes settings services cur₀ r₀)
    (h : Passes settings services cur r) (he : e < settings.entries.length)
    (happened : r₀.happened = beforeReturn r.happened) (shutDown : r₀.stage.hasShutDown = true)
    (answered : endedCalls (beforeReturn r.happened) e .restart = (beforeReturn r.happened).count .fired) :
    begunCalls (sinceReturn r.happened) e .restart = 0 ∧ endedCalls (sinceReturn r.happened) e .restart = 0 := by
  have grows : r.happened = r₀.happened ++ sinceReturn r.happened := by rw [happened, beforeReturn_append_sinceReturn]
  have fired := before.fired_beforeReturn h shutDown grows
  have accounted := (h.fanned he).accounted
  have begun : begunCalls r.happened e .restart = (r.member e).restarts := (h.tally he).begun .restart
  have tally₀ := (before.tally he).ended .restart
  have tally := (h.tally he).ended .restart
  rw [← (before.tally he).begun, happened] at tally₀
  rw [← (h.tally he).begun, endedCalls_eq_add] at tally
  rw [happened] at fired
  rw [Member.told, ← begun] at accounted
  rw [begunCalls_eq_add] at tally accounted
  omega

/-- A run that did not shut down for the exit of a service returns when every start call and every stop call has ended,
and none begins or ends later. Restart calls it does not wait for: those of an entry that has not been restarted for
every firing by then go on, and their failures, which are all the failures to come, are not in the verdict. -/
theorem only_restarts_after_return (h : (initial settings services).Reaches r) (returned : r.stage = .returned v time)
    (sound : v.isFault = false) (awaited : ∀ name, r.cause.value ≠ some (.exited name)) :
    (∀ e < settings.entries.length, ∀ phase ≠ .restart,
      (begunCalls (beforeReturn r.happened) e phase = 1 ∧ endedCalls (beforeReturn r.happened) e phase = 1) ∧
        begunCalls (sinceReturn r.happened) e phase = 0 ∧ endedCalls (sinceReturn r.happened) e phase = 0) ∧
    (∀ e < settings.entries.length,
      endedCalls (beforeReturn r.happened) e .restart = (beforeReturn r.happened).count .fired →
        begunCalls (sinceReturn r.happened) e .restart = 0 ∧ endedCalls (sinceReturn r.happened) e .restart = 0) ∧
    v = Verdict.ofFailures (failuresAtReturn settings.entries r.happened) ∧
    (∀ o ∈ sinceReturn r.happened, ∀ f, o.failure? settings.entries = some f → f.phase = .restart) := by
  have passes := Passes.of_reaches h
  obtain ⟨r₀, t, before, leaves, happened⟩ := passes.atReturn returned sound
  have grows : r.happened = r₀.happened ++ sinceReturn r.happened := by rw [happened, beforeReturn_append_sinceReturn]
  have cause := before.cause_of_prefix passes leaves.shutDown grows
  have finished : ∀ e < settings.entries.length, ∀ phase ≠ .restart,
      (begunCalls (beforeReturn r.happened) e phase = 1 ∧ endedCalls (beforeReturn r.happened) e phase = 1) ∧
        begunCalls (sinceReturn r.happened) e phase = 0 ∧ endedCalls (sinceReturn r.happened) e phase = 0 := by
    intro e he phase once
    apply before.over_atReturn passes he happened once
    cases phase with
    | start => exact before.allEnded_start_iff.mpr (leaves.allExited before (cause ▸ awaited)) e he
    | restart => exact absurd rfl once
    | stop => exact before.allEnded_stop_iff.mpr (leaves.allStopped before) e he
  refine ⟨finished, fun e he => before.left_alone passes he happened leaves.shutDown, ?_, ?_⟩
  · rcases passes.verdict returned with ⟨f, rfl, -⟩ | tells
    · cases sound
    · exact tells
  · intro o mem f failure
    obtain ⟨e, outcome, flag, rfl⟩ := Occurrence.ended_of_failure? failure
    -- a start call or stop call would have ended before the return
    refine Decidable.byContradiction fun once => ?_
    have he : e < settings.entries.length :=
      passes.entry_lt_of_ended (beforeReturn_append_sinceReturn r.happened ▸ List.mem_append_right _ mem)
    have none := (finished e he f.phase once).2.2
    rw [endedCalls, List.countP_eq_zero] at none
    exact none _ mem (by simp [Occurrence.ends])

/-! ### A failure that comes too late -/

/-- The first service takes its time over a restart, and fails. -/
def lateServices : List Service :=
  [{ start := .awaitCancel .done, restarts := [.sleep 4 (.fail { base := .text "late" })], stop := .done },
    { start := .awaitCancel .done, stop := .done }]

def lateReturn : Run :=
  ((((((initial pairSettings lateServices).perform .run).2.perform (.command .restart 1)).2.serve 20).perform
    .cancel).2.serve 20)

def lateRun : Run :=
  (lateReturn.advance 4).serve 20

theorem reaches_lateReturn : (initial pairSettings lateServices).Reaches lateReturn :=
  ((((Reaches.rfl.act .run rfl).act (.command .restart 1) rfl).serve 20).act .cancel rfl).serve 20

theorem reaches_lateRun : lateReturn.Reaches lateRun := by
  refine (Reaches.rfl.advance ?_ fun d next => ?_).serve 20
  · decide
  · exact Nat.le_of_eq (Option.some.inj next)

theorem only_restarts_after_return_late :
    begunCalls (sinceReturn lateRun.happened) 0 .stop = 0 ∧ endedCalls (sinceReturn lateRun.happened) 1 .restart = 0 ∧
      Verdict.ok = Verdict.ofFailures (failuresAtReturn pairSettings.entries lateRun.happened) := by
  have cause : lateRun.cause.value = some .cancelled := by rfl
  have returned : lateRun.stage = .returned .ok 0 := by rfl
  obtain ⟨finished, alone, verdict, -⟩ :=
    only_restarts_after_return (reaches_lateReturn.trans reaches_lateRun) returned rfl fun name => by simp [cause]
  exact ⟨(finished 0 (by decide) .stop (by decide)).2.1, (alone 1 (by decide) (by decide)).2, verdict⟩

/-- The run was cancelled and has returned without a failure, but a restart call is still in progress, and when it fails
its failure is not in the verdict. -/
theorem restart_outlives_return :
    (initial pairSettings lateServices).Reaches lateReturn ∧ lateReturn.cause.value = some .cancelled ∧
      lateReturn.stage = .returned .ok 0 ∧
      endedCalls lateReturn.happened 0 .restart < begunCalls lateReturn.happened 0 .restart ∧
      lateReturn.Reaches lateRun ∧ lateRun.stage = .returned .ok 0 ∧
      lateRun.failures = [⟨"first", .restart, .error { base := .text "late" }⟩] :=
  ⟨reaches_lateReturn, by rfl, by rfl, by decide, reaches_lateRun, by rfl, by rfl⟩

end Run

end Supervision
