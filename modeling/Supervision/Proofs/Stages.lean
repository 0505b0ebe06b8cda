import Supervision.Proofs.StepInvariants

/-! How the stage of a run, its history and its cause go together: the stage tells whether the run was set up, has shut
down and has returned, the cause is that of the first shutdown, and a run that waits for its start calls has stopped
every entry. -/

namespace Supervision

def Verdict.isFault : Verdict → Bool
  | .fault _ => true
  | _ => false

theorem Verdict.isFault_ofFailures (fs : List Failure) : (Verdict.ofFailures fs).isFault = false := by
  cases fs <;> rfl

namespace Stage

/-- Whether the run was set up. -/
def isSetUp : Stage → Bool
  | .idle | .spawned => false
  | .returned v _ => !v.isFault
  | _ => true

/-- Whether the cause is fixed. -/
def hasShutDown : Stage → Bool
  | .stopping | .leaving _ => true
  | .returned v _ => !v.isFault
  | _ => false

/-- Whether the stop calls are over. -/
def hasStopped : Stage → Bool
  | .leaving _ => true
  | .returned v _ => !v.isFault
  | _ => false

theorem hasShutDown_of_hasStopped {s : Stage} (h : s.hasStopped = true) : s.hasShutDown = true := by
  cases s <;> simp_all [hasStopped, hasShutDown]

theorem isSetUp_of_hasShutDown {s : Stage} (h : s.hasShutDown = true) : s.isSetUp = true := by
  cases s <;> simp_all [isSetUp, hasShutDown]

end Stage

/-- The cause that a shutdown has. -/
def Occurrence.cause? : Occurrence → Option Cause
  | .shutDown c => some c
  | _ => none

theorem Occurrence.isMilestone_of_cause? {o : Occurrence} {c : Cause} (h : o.cause? = some c) : o.isMilestone = true := by
  cases o <;> simp_all [cause?, isMilestone]

namespace Stage.Step

variable {os : List Occurrence} {s s' : Stage}

theorem not_mem_of_quiet {o : Occurrence} (quiet : ∀ o ∈ os, o.isMilestone = false) (h : o.isMilestone = true) :
    o ∉ os :=
  fun mem => by simp [quiet o mem] at h

theorem setUp_iff (h : Stage.Step os s s') : s'.isSetUp = true ↔ s.isSetUp = true ∨ .setUp ∈ os := by
  cases h with
  | stay s quiet =>
    have absent : .setUp ∉ os := not_mem_of_quiet quiet rfl
    simp [absent]
  | shutDown => simp [isSetUp]
  | finish => simp [isSetUp, Verdict.isFault_ofFailures]
  | _ => simp [isSetUp, Verdict.isFault]

theorem returned_iff (h : Stage.Step os s s') : s'.hasReturned = true ↔ s.hasReturned = true ∨ .returned ∈ os := by
  cases h with
  | stay s quiet =>
    have absent : .returned ∉ os := not_mem_of_quiet quiet rfl
    simp [absent]
  | shutDown quiet =>
    have absent := not_mem_of_quiet (o := .returned) quiet rfl
    simp [hasReturned, absent]
  | _ => simp [hasReturned]

theorem shutDown_iff (h : Stage.Step os s s') :
    s'.hasShutDown = true ↔ s.hasShutDown = true ∨ ∃ c, .shutDown c ∈ os := by
  cases h with
  | stay s quiet =>
    have absent (c : Cause) : .shutDown c ∉ os := not_mem_of_quiet quiet rfl
    simp [absent]
  | shutDown => simp [hasShutDown]
  | finish => simp [hasShutDown, Verdict.isFault_ofFailures]
  | _ => simp [hasShutDown, Verdict.isFault]

end Stage.Step

namespace Run

variable {settings : Settings} {services : List Service} {r r' : Run} {t : Task} {cur : Option Task}
  {os : List Occurrence}

/-! ### What the history tells about the stage -/

/-- Whatever of the stage each step explains by the milestones reached at it is explained by the history. -/
theorem Passes.stage_iff {f : Stage → Bool} {q : Occurrence → Prop} (idle : f .idle = false) (spawned : f .spawned = false)
    (milestone : ∀ o, q o → o.isMilestone = true)
    (step : ∀ {os s s'}, Stage.Step os s s' → (f s' = true ↔ f s = true ∨ ∃ o ∈ os, q o))
    (h : Passes settings services cur r) : f r.stage = true ↔ ∃ o ∈ r.happened, q o := by
  refine h.invariant (P := fun r => f r.stage = true ↔ ∃ o ∈ r.happened, q o) ?_ (fun _ _ _ _ _ ih => ih) ?_ ?_
  · intro quota
    simp [Run.initial, idle, Run.happened]
  · intro os r r' _ h ih
    rw [h.stage_congr (spawned.trans idle.symm), ih, h.happened]
    constructor
    · rintro ⟨o, mem, hq⟩
      exact ⟨o, List.mem_append_left _ mem, hq⟩
    · rintro ⟨o, mem, hq⟩
      refine ⟨o, (List.mem_append.mp mem).resolve_right fun now => ?_, hq⟩
      have quiet := isMilestone_of_isAside (h.isAside o now)
      rw [milestone o hq] at quiet
      cases quiet
  · intro t os r r' _ h ih
    rw [step h.stage_step, ih, h.happened]
    simp [or_and_right, exists_or]

theorem Passes.isSetUp_iff (h : Passes settings services cur r) : r.stage.isSetUp = true ↔ .setUp ∈ r.happened := by
  rw [h.stage_iff (q := (· = .setUp)) rfl rfl (fun _ same => same ▸ rfl) fun step => by simpa using step.setUp_iff]
  simp

theorem Passes.hasReturned_iff (h : Passes settings services cur r) :
    r.stage.hasReturned = true ↔ .returned ∈ r.happened := by
  rw [h.stage_iff (q := (· = .returned)) rfl rfl (fun _ same => same ▸ rfl) fun step => by simpa using step.returned_iff]
  simp

theorem Passes.hasShutDown_iff (h : Passes settings services cur r) :
    r.stage.hasShutDown = true ↔ ∃ c, .shutDown c ∈ r.happened := by
  rw [h.stage_iff (q := fun o => ∃ c, o = .shutDown c) rfl rfl (fun _ ⟨_, same⟩ => same ▸ rfl) fun step => by
    rw [step.shutDown_iff]
    exact or_congr_right ⟨fun ⟨c, mem⟩ => ⟨_, mem, c, rfl⟩, fun ⟨_, mem, c, same⟩ => ⟨c, same ▸ mem⟩⟩]
  exact ⟨fun ⟨_, mem, c, same⟩ => ⟨c, same ▸ mem⟩, fun ⟨c, mem⟩ => ⟨_, mem, c, rfl⟩⟩

theorem Passes.not_setUp (h : Passes settings services cur r) (early : r.stage.isSetUp = false) :
    .setUp ∉ r.happened :=
  mt h.isSetUp_iff.mpr (Bool.eq_false_iff.mp early)

theorem Passes.not_shutDown (h : Passes settings services cur r) (early : r.stage.hasShutDown = false) (c : Cause) :
    .shutDown c ∉ r.happened := fun mem =>
  Bool.eq_false_iff.mp early (h.hasShutDown_iff.mpr ⟨c, mem⟩)

theorem Passes.not_returned (h : Passes settings services cur r) (early : r.stage.hasReturned = false) :
    .returned ∉ r.happened :=
  mt h.hasReturned_iff.mpr (Bool.eq_false_iff.mp early)

/-! ### The cause -/

theorem findSome?_cause?_of_quiet (quiet : ∀ o ∈ os, o.isMilestone = false) : os.findSome? Occurrence.cause? = none := by
  rw [List.findSome?_eq_none_iff]
  intro o mem
  cases cause : o.cause? with
  | none => rfl
  | some c =>
    have milestone := Occurrence.isMilestone_of_cause? cause
    rw [quiet o mem] at milestone
    cases milestone

theorem Act.cause_value (h : Act t os r r') :
    r'.cause.value = r.cause.value.or (os.findSome? Occurrence.cause?) := by
  cases h with
  | aside h =>
    rw [findSome?_cause?_of_quiet fun o ho => isMilestone_of_isAside (h.isAside o ho), h.spares.cause, Option.or_none]
  | shutDown _ reason =>
    simp only [announce, log, wake, mark, Latch.value_fire]
    cases reason <;> rfl
  | endStart | endRestart | endStop | takeFirings | deliver | fail | equip | receive | obey | finish | expire =>
    simp only [Run.endStart, Run.endRestart, Run.endStop, Run.takeFirings, Run.deliver, Run.fail, Run.equip, Run.finish,
      giveVerdict, update, report, markEnd, mark, log, spawn, wake]
    exact Option.or_none.symm
  | _ => exact Option.or_none.symm

/-- The cause is that of the first shutdown. -/
theorem Passes.cause_value (h : Passes settings services cur r) :
    r.cause.value = r.happened.findSome? Occurrence.cause? := by
  refine h.invariant (P := fun r => r.cause.value = r.happened.findSome? Occurrence.cause?) ?_ ?_ ?_ ?_
  · exact fun _ => rfl
  · exact fun _ _ _ _ _ ih => ih
  · intro os r r' _ h ih
    have quiet := findSome?_cause?_of_quiet fun o ho => isMilestone_of_isAside (h.isAside o ho)
    rw [h.keeps.cause, h.happened, List.findSome?_append, quiet, Option.or_none, ih]
  · intro t os r r' _ h ih
    rw [h.cause_value, h.happened, List.findSome?_append, ih]

theorem Passes.isFired_iff (h : Passes settings services cur r) :
    r.cause.isFired = true ↔ ∃ c, .shutDown c ∈ r.happened := by
  rw [Latch.isFired, h.cause_value, List.findSome?_isSome_iff]
  constructor
  · rintro ⟨o, mem, some⟩
    cases o <;> simp_all [Occurrence.cause?]
    exact ⟨_, mem⟩
  · rintro ⟨c, mem⟩
    exact ⟨_, mem, rfl⟩

theorem Passes.isFired_eq (h : Passes settings services cur r) : r.cause.isFired = r.stage.hasShutDown := by
  rw [Bool.eq_iff_iff, h.isFired_iff, h.hasShutDown_iff]

/-! ### Cancellation -/

theorem Effect.cancelled_iff (h : Effect os r r') : r'.cancelled = true ↔ r.cancelled = true ∨ .cancelled ∈ os := by
  cases h <;> simp [wake]

theorem Act.cancelled_iff (h : Act t os r r') : r'.cancelled = true ↔ r.cancelled = true ∨ .cancelled ∈ os := by
  cases h with
  | aside h =>
    cases h with
    | effect h => exact h.cancelled_iff
    | @note r o note =>
      have other : o ≠ .cancelled := by
        rintro rfl
        cases note
      simp [other.symm]
    | lend | spend | defer => simp
  | endStart | endRestart | endStop | takeFirings | deliver | fail | equip | receive | obey | finish | expire =>
    simp [Run.endStart, Run.endRestart, Run.endStop, Run.takeFirings, Run.deliver, Run.fail, Run.equip, Run.finish,
      giveVerdict, update, report, markEnd, mark, log, spawn, wake]
  | shutDown _ reason => cases reason <;> simp [announce, mark, log, wake]
  | _ => simp

theorem Outside.cancelled_iff (h : Outside os r r') : r'.cancelled = true ↔ r.cancelled = true ∨ .cancelled ∈ os := by
  cases h with
  | effect h => exact h.cancelled_iff
  | dropHandle | pass => simp [Run.dropHandle, wake]
  | takeUp => simp [Run.takeUp]
  | _ => simp

theorem Passes.cancelled_iff (h : Passes settings services cur r) : r.cancelled = true ↔ .cancelled ∈ r.happened := by
  refine h.invariant (P := fun r => r.cancelled = true ↔ .cancelled ∈ r.happened) ?_ (fun _ _ _ _ _ ih => ih) ?_ ?_
  · intro quota
    simp [Run.initial, Run.happened]
  · intro os r r' _ h ih
    rw [h.cancelled_iff, h.happened, List.mem_append, ih]
  · intro t os r r' _ h ih
    rw [h.cancelled_iff, h.happened, List.mem_append, ih]

theorem Passes.not_cancelled (h : Passes settings services cur r) (early : r.cancelled = false) :
    .cancelled ∉ r.happened :=
  mt h.cancelled_iff.mpr (Bool.eq_false_iff.mp early)

/-! ### Entries -/

/-- A member that is not there has nothing left to do, so nothing depends on which members there are. -/
theorem all_members_iff {p : Member → Bool} (absent : p { start := .ended, stop := .ended, retired := true } = true) :
    r.members.all p = true ↔ ∀ e, p (r.member e) = true := by
  rw [List.all_eq_true]
  constructor
  · intro all e
    by_cases he : e < r.members.length
    · simpa [member, he] using all _ (List.getElem_mem he)
    · rwa [member_of_le (Nat.not_lt.mp he)]
  · intro all m mem
    obtain ⟨e, he, rfl⟩ := List.mem_iff_getElem.mp mem
    simpa [member, he] using all e

theorem isEnded_iff {c : CallState} : c.isEnded = true ↔ c = .ended := by
  cases c <;> simp [CallState.isEnded]

theorem allStopped_iff : r.allStopped = true ↔ ∀ e, (r.member e).stop = .ended := by
  exact (all_members_iff (p := fun m => m.stop.isEnded) rfl).trans (forall_congr' fun _ => isEnded_iff)

theorem allExited_iff : r.allExited = true ↔ ∀ e, (r.member e).start = .ended := by
  exact (all_members_iff (p := fun m => m.start.isEnded) rfl).trans (forall_congr' fun _ => isEnded_iff)

theorem Act.start_ended {e : Nat} (h : Act t os r r') (ended : (r.member e).start = .ended) :
    (r'.member e).start = .ended := by
  rcases h.steps e with ⟨same, -⟩ | step
  · rw [same, ended]
  · generalize r.member e = m, r'.member e = m' at *
    cases step <;> simp_all

theorem Act.stop_ended {e : Nat} (h : Act t os r r') (ended : (r.member e).stop = .ended) :
    (r'.member e).stop = .ended := by
  rcases h.steps e with ⟨same, -⟩ | step
  · rw [same, ended]
  · generalize r.member e = m, r'.member e = m' at *
    cases step <;> simp_all

theorem Act.allStopped (h : Act t os r r') (stopped : r.allStopped = true) : r'.allStopped = true :=
  allStopped_iff.mpr fun e => h.stop_ended (allStopped_iff.mp stopped e)

theorem Act.allStopped_of_hasStopped (h : Act t os r r') (stopped : r'.stage.hasStopped = true) :
    r.allStopped = true ∨ r.stage.hasStopped = true := by
  cases h.advance with
  | stay same => exact .inr (same ▸ stopped)
  | leave _ all => exact .inl all
  | finish deadline leaving =>
    right
    rw [leaving]
    rfl
  | fail _ _ _ stage | equip _ stage | pass _ _ _ stage | shutDown _ _ _ _ stage =>
    rw [stage] at stopped
    cases stopped

/-- Nobody waits for the start calls, or has returned, before every stop call has ended. -/
theorem Passes.allStopped (h : Passes settings services cur r) (stopped : r.stage.hasStopped = true) :
    r.allStopped = true := by
  refine h.invariant (P := fun r => r.stage.hasStopped = true → r.allStopped = true) ?_ ?_ ?_ ?_ stopped
  · intro quota stopped
    cases stopped
  · exact fun _ _ _ _ _ ih => ih
  · intro os r r' _ h ih stopped
    rw [h.stage_congr (f := Stage.hasStopped) rfl] at stopped
    rw [Run.allStopped, h.keeps.members]
    exact ih stopped
  · intro t os r r' _ h ih stopped
    rcases h.allStopped_of_hasStopped stopped with all | before
    · exact h.allStopped all
    · exact h.allStopped (ih before)

end Run

end Supervision
