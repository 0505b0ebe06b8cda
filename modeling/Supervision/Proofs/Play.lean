import Supervision.Proofs.Firings
import Supervision.Proofs.Turn

/-! A scenario moves a run only in ways in which runs move: whatever its caller sees is a state that the run can reach, and
its clock never jumps over a deadline. So what holds of every state that a run can reach holds of every scenario. -/

namespace Supervision

namespace Run

variable {settings : Settings} {services : List Service} {r : Run} {t : Task} {cur : Option Task}

/-! ### Deadlines -/

theorem Passes.deadline?_of_isOver (h : Passes settings services cur r) (finished : r.isOver t = true) :
    r.deadline? t = none := by
  cases t with
  | supervise =>
    rw [isOver] at finished
    cases stage : r.stage <;> simp_all [deadline?, Stage.hasReturned]
  | start e =>
    rw [isOver, isEnded_iff] at finished
    simp [deadline?, pause?, finished, CallState.pause?]
  | stop e =>
    rw [isOver, isEnded_iff] at finished
    simp [deadline?, pause?, finished, CallState.pause?]
  | restart e =>
    have idle : (r.member e).restarting = none := by
      by_cases he : e < settings.entries.length
      · exact (h.retired he finished).idle
      · rw [member_of_le (by rw [h.members_length]; omega)]
    simp [deadline?, pause?, idle]
  | watch | signal => rfl

theorem lets_of_deadline {p : Pause} {d : Nat} (h : p.deadline? = some d) (due : d ≤ r.now) (service : Nat) :
    r.lets service p = true := by
  cases p <;> simp_all [Pause.deadline?, lets]

theorem isDue_of_deadline {d : Nat} (h : r.deadline? t = some d) (due : d ≤ r.now) : r.isDue t = true := by
  cases t with
  | supervise =>
    cases stage : r.stage <;> simp_all [deadline?, isDue]
  | start e =>
    cases start : (r.member e).start <;> simp_all [deadline?, pause?, isDue, CallState.pause?, lets_of_deadline]
  | restart e =>
    cases restarting : (r.member e).restarting <;> simp_all [deadline?, pause?, isDue, lets_of_deadline]
  | stop e =>
    cases stop : (r.member e).stop <;> simp_all [deadline?, pause?, isDue, CallState.pause?, lets_of_deadline]
  | watch | signal => cases h

theorem Passes.now_lt {d : Nat} (h : Passes settings services none r) (settled : r.isSettled = true)
    (next : r.nextDeadline? = some d) : r.now < d := by
  obtain ⟨t, parked, deadline⟩ := exists_of_nextDeadline? next
  refine Nat.lt_of_not_le fun due => ?_
  rcases h.waits parked (by simp) with finished | still
  · rw [h.deadline?_of_isOver finished] at deadline
    cases deadline
  · rw [canGoOn, (isSettled_iff.mp settled).2, if_neg List.not_mem_nil, isDue_of_deadline deadline due] at still
    cases still

/-! ### The clock -/

theorem Settles.now (h : r.Settles r') (before : Passes settings services none r) : r'.now = r.now := by
  induction h with
  | refl => rfl
  | tail settles step ih =>
    rcases step with turn | rfl
    · exact ((before.reaches (Settles.reaches settles)).tick turn).2.trans ih
    · exact ih

theorem Passes.now_settle (before : Passes settings services none r) : r.settle.now = r.now :=
  (settles_settleFor roundLimit r).now before

/-- While there is anything to do the clock stands still, and otherwise it may be set as far as to the next deadline. -/
theorem reaches_advance {time : Nat} (later : r.isSettled = true → r.now ≤ time)
    (inTime : ∀ d, r.nextDeadline? = some d → time ≤ d) : r.Reaches (r.advance time) := by
  by_cases settled : r.isSettled = true
  · exact .single (.pass (later settled) inTime)
  · rw [advance, if_neg settled]
    exact .refl

theorem Passes.reaches_next {d target : Nat} (before : Passes settings services none r)
    (next : r.nextDeadline? = some d) (early : d < target) (later : r.now ≤ target) :
    r.Reaches (r.advance d).settle ∧ (r.advance d).settle.now ≤ target := by
  have moved : r.Reaches (r.advance d) := by
    refine reaches_advance (fun settled => Nat.le_of_lt (before.now_lt settled next)) fun d' next' => ?_
    rw [next] at next'
    exact Nat.le_of_eq (Option.some.inj next')
  refine ⟨moved.trans (reaches_settle _), ?_⟩
  rw [(before.reaches moved).now_settle, advance]
  split
  · exact Nat.le_of_lt early
  · exact later

/-- The clock moves from one deadline to the next, as long as that is before the time at which the caller goes on. -/
theorem Passes.reaches_wait {target : Nat} {next : Run → Run} (before : Passes settings services none r)
    (later : r.now ≤ target)
    (goes : ∀ {r : Run}, Passes settings services none r → r.now ≤ target → r.Reaches (next r)) :
    r.Reaches (match r.nextDeadline? with
      | some d => if d < target then next (r.advance d).settle else r.advance target
      | none => r.advance target) := by
  split
  · rename_i d deadline
    split
    · rename_i early
      obtain ⟨moved, later'⟩ := before.reaches_next deadline early later
      exact moved.trans (goes (before.reaches moved) later')
    · rename_i late
      refine reaches_advance (fun _ => later) fun d' deadline' => ?_
      rw [deadline] at deadline'
      exact Option.some.inj deadline' ▸ Nat.not_lt.mp late
  · rename_i none
    exact reaches_advance (fun _ => later) fun d deadline => by rw [none] at deadline; cases deadline

theorem Passes.reaches_passTo {target fuel : Nat} (before : Passes settings services none r) (later : r.now ≤ target) :
    r.Reaches (passTo target fuel r) := by
  induction fuel generalizing r with
  | zero => exact .refl
  | succ fuel ih => exact before.reaches_wait later ih

theorem Passes.reaches_elapse (before : Passes settings services none r) (ms : Nat) : r.Reaches (r.elapse ms) := by
  unfold elapse
  split
  · exact .refl
  · have settled := reaches_settle r
    exact settled.trans ((before.reaches settled).reaches_passTo (Nat.le_add_right _ ms))

theorem Passes.reaches_awaitReturnTo {target fuel : Nat} (before : Passes settings services none r)
    (later : r.now ≤ target) : r.Reaches (awaitReturnTo target fuel r) := by
  induction fuel generalizing r with
  | zero => exact .refl
  | succ fuel ih =>
    rw [awaitReturnTo]
    split
    · exact .refl
    · exact before.reaches_wait later ih

/-! ### Scenarios -/

theorem Passes.reaches_perform (before : Passes settings services none r) (a : Action) :
    r.Reaches (r.perform a).2 := by
  cases instant : a.isInstant with
  | true => exact .single (.act r a instant)
  | false =>
    cases a with
    | raise n =>
      unfold Run.perform
      dsimp only
      split
      · exact reaches_raise r n
      · exact .refl
    | wait ms => exact before.reaches_elapse ms
    | _ => cases instant

mutual

theorem Passes.reaches_take : ∀ {r : Run}, Passes settings services none r → ∀ s : Step, r.Reaches (r.take s).2
  | r, before, .act a => by
    rw [take]
    exact before.reaches_perform a
  | r, before, .burst steps => by
    rw [take]
    exact before.reaches_takeAll steps

theorem Passes.reaches_takeAll :
    ∀ {r : Run}, Passes settings services none r → ∀ steps : List Step, r.Reaches (r.takeAll steps).2
  | r, _, [] => by
    rw [takeAll]
    exact .refl
  | r, before, s :: rest => by
    have taken := before.reaches_take s
    rw [takeAll]
    exact taken.trans ((before.reaches taken).reaches_takeAll rest)

end

theorem Passes.reaches_step (before : Passes settings services none r) (s : Step) : r.Reaches (r.step s).2 :=
  (before.reaches_take s).trans (reaches_settle _)

theorem Passes.reaches_steps (before : Passes settings services none r) (ss : List Step) :
    r.Reaches (r.steps ss).2 ∧ ∀ seen ∈ (r.steps ss).1, ∃ r', r.Reaches r' ∧ seen.2 = r'.snapshot := by
  induction ss generalizing r with
  | nil => exact ⟨.refl, fun seen mem => by cases mem⟩
  | cons s rest ih =>
    have stepped := before.reaches_step s
    obtain ⟨last, looks⟩ := ih (before.reaches stepped)
    refine ⟨stepped.trans last, fun seen mem => ?_⟩
    rcases List.mem_cons.mp mem with rfl | later
    · exact ⟨_, stepped, rfl⟩
    · obtain ⟨r', reached, look⟩ := looks seen later
      exact ⟨r', stepped.trans reached, look⟩

/-- Whatever can be seen of a scenario is a state that the run can reach. -/
theorem reaches_play (s : Scenario) :
    (initial s.settings s.services).Reaches s.play.run ∧ s.play.final = s.play.run.snapshot ∧
      ∀ seen ∈ s.play.steps, ∃ r, (initial s.settings s.services).Reaches r ∧ seen.2 = r.snapshot := by
  have begun : Passes s.settings s.services none (initial s.settings s.services) := Passes.of_reaches .refl
  obtain ⟨reached, looks⟩ := begun.reaches_steps s.steps
  refine ⟨?_, rfl, looks⟩
  have after := begun.reaches reached
  have awaited : (initial s.settings s.services).Reaches
      (if ((initial s.settings s.services).steps s.steps).2.stage = .idle then
        ((initial s.settings s.services).steps s.steps).2
      else ((initial s.settings s.services).steps s.steps).2.awaitReturn s.limit) := by
    split
    · exact reached
    · exact reached.trans (after.reaches_awaitReturnTo (Nat.le_add_right _ _))
  exact awaited.trans (((begun.reaches awaited).reaches_elapse s.drain).trans (reaches_settle _))

end Run

end Supervision
