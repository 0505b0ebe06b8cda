import Supervision.Proofs.Stages

/-! No wake-up is lost. A parked task that is not over cannot go on as things are, since whatever could let it go on wakes
it; and every task that is not over is in the queue, parked, or at its turn. So when there is nothing left to do, nothing
that has come is still waited for. -/

namespace Supervision

namespace Run

variable {settings : Settings} {services : List Service} {r r' : Run} {t t' : Task} {cur : Option Task} {e : Nat}
  {os : List Occurrence}

/-! ### What is over -/

theorem Act.retired (h : Act t os r r') (retired : (r.member e).retired = true) : (r'.member e).retired = true := by
  rcases h.steps e with ⟨same, -⟩ | step
  · rw [same, retired]
  · generalize r.member e = m, r'.member e = m' at *
    cases step <;> simp_all

theorem Act.watches (h : Act t os r r') : r'.watches = r.watches ∨
    ∃ w c, r.cause.value = some c ∧ r'.watches = r.watches.set w (some (r.now, c)) := by
  cases h with
  | aside h => exact .inl h.spares.watches
  | learn cause => exact .inr ⟨_, _, cause, rfl⟩
  | endStart | endRestart | endStop | takeFirings | deliver | fail | equip | receive | obey | finish | expire =>
    left
    simp only [Run.endStart, Run.endRestart, Run.endStop, Run.takeFirings, Run.deliver, Run.fail, Run.equip, Run.finish,
      giveVerdict, update, report, markEnd, mark, log, spawn, wake]
  | shutDown _ reason => left; cases reason <;> simp only [announce, mark, log, wake]
  | _ => exact .inl rfl

theorem isOver_watch_set {w w' : Nat} {x : Nat × Cause} (h : r'.watches = r.watches.set w (some x))
    (finished : r.isOver (.watch w') = true) : r'.isOver (.watch w') = true := by
  simp only [isOver] at finished ⊢
  by_cases same : w = w'
  · subst same
    by_cases hw : w < r.watches.length
    · simp [h, hw]
    · simp [List.getElem?_eq_none (Nat.not_lt.mp hw)] at finished
  · rwa [h, List.getElem?_set_ne same]

theorem Act.isOver (h : Act t os r r') (finished : r.isOver t' = true) : r'.isOver t' = true := by
  cases t' with
  | supervise => exact h.stage_step.returned_iff.mpr (.inl finished)
  | start e => exact isEnded_iff.mpr (h.start_ended (isEnded_iff.mp finished))
  | restart e => exact h.retired finished
  | stop e => exact isEnded_iff.mpr (h.stop_ended (isEnded_iff.mp finished))
  | watch w =>
    rcases h.watches with same | ⟨w', c, -, set⟩
    · simpa only [Run.isOver, same] using finished
    · exact isOver_watch_set set finished
  | signal n => rfl

theorem Outside.isOver (h : Outside os r r') (finished : r.isOver t = true) : r'.isOver t = true := by
  cases t with
  | supervise =>
    exact (h.stage_congr (f := Stage.hasReturned) rfl).trans finished
  | start | restart | stop => simpa only [Run.isOver, member, h.keeps.members] using finished
  | watch w =>
    cases h with
    | effect h => simpa only [Run.isOver, h.spares.watches] using finished
    | watch =>
      simp only [Run.isOver] at finished ⊢
      have hw : w < r.watches.length := Nat.lt_of_not_le fun absent => by simp [List.getElem?_eq_none absent] at finished
      rwa [List.getElem?_append_left hw]
    | dropHandle | pass => simpa only [Run.dropHandle, Run.isOver, wake] using finished
    | _ => exact finished
  | signal n => rfl

/-! ### What the others do not notice -/

/-- Nothing is changed that a waiting call looks at, and nobody is put off. -/
structure Hushed (r r' : Run) : Prop where
  settings : r'.settings = r.settings
  now : r'.now = r.now
  deferred : r'.deferred = r.deferred
  cancelled : r'.cancelled = r.cancelled
  released : r'.released = r.released
  cause : r'.cause = r.cause

theorem Hushed.lets (h : Hushed r r') (e : Nat) (p : Pause) :
    r'.lets (r'.serviceOf e) p = r.lets (r.serviceOf e) p := by
  simp only [Run.lets, serviceOf, isReleased, h.settings, h.now, h.cancelled, h.released, h.cause]

theorem canGoOn_mono (still : r.canGoOn t = false) (deferred : t ∈ r'.deferred ↔ t ∈ r.deferred)
    (due : r'.isDue t = true → r.isDue t = true) (early : r'.isDueEarly t = true → r.isDueEarly t = true) :
    r'.canGoOn t = false := by
  refine eq_false_of_imp (fun going => ?_) still
  simp only [canGoOn, deferred] at going ⊢
  split
  · rename_i mem
    exact early (by simpa only [mem, if_true] using going)
  · rename_i absent
    exact due (by simpa only [absent, if_false] using going)

theorem Act.others (h : Act t os r r') (e : Nat) :
    (t ≠ .start e → (r'.member e).start = (r.member e).start) ∧
    (t ≠ .restart e → (r'.member e).restarting = (r.member e).restarting) ∧
    (t ≠ .stop e → (r'.member e).stop = (r.member e).stop) := by
  rcases h.steps e with ⟨same, -⟩ | step
  · rw [same]
    exact ⟨fun _ => rfl, fun _ => rfl, fun _ => rfl⟩
  · generalize r.member e = m, r'.member e = m' at *
    cases step <;> simp

theorem Act.start_ended_or (h : Act t os r r') (ended : (r'.member e).start = .ended) :
    (r.member e).start = .ended ∨ ∃ o flag, os = [.ended e .start o flag] := by
  rcases h.steps e with ⟨same, -⟩ | step
  · exact .inl (same ▸ ended)
  · generalize r.member e = m, r'.member e = m' at *
    cases step with
    | endStart h o flag => exact .inr ⟨o, flag, rfl⟩
    | _ => simp_all

theorem Act.stop_ended_or (h : Act t os r r') (ended : (r'.member e).stop = .ended) :
    (r.member e).stop = .ended ∨ ∃ o flag, os = [.ended e .stop o flag] := by
  rcases h.steps e with ⟨same, -⟩ | step
  · exact .inl (same ▸ ended)
  · generalize r.member e = m, r'.member e = m' at *
    cases step with
    | endStop h o flag => exact .inr ⟨o, flag, rfl⟩
    | _ => simp_all

theorem Act.supervise_still (h : Act t os r r') (same : Hushed r r') (stage : r'.stage = r.stage)
    (exit : r'.exit = r.exit) (called : ∀ listening, r'.isCalled listening = r.isCalled listening)
    (running : ∀ e phase o flag, os = [.ended e phase o flag] → phase = .restart)
    (still : r.canGoOn .supervise = false) : r'.canGoOn .supervise = false := by
  have stopped : r'.allStopped = true → r.allStopped = true := fun all => allStopped_iff.mpr fun e => by
    rcases h.stop_ended_or (allStopped_iff.mp all e) with ended | ⟨o, flag, now⟩
    · exact ended
    · cases running _ _ _ _ now
  have exited : r'.allExited = true → r.allExited = true := fun all => allExited_iff.mpr fun e => by
    rcases h.start_ended_or (allExited_iff.mp all e) with ended | ⟨o, flag, now⟩
    · exact ended
    · cases running _ _ _ _ now
  have early : r'.isDueEarly .supervise = r.isDueEarly .supervise := by
    simp only [isDueEarly, stage, exit, same.cancelled]
  have due : r'.isDue .supervise = true → r.isDue .supervise = true := by
    simp only [isDue, stage, called, same.now]
    cases r.stage with
    | leaving deadline =>
      cases deadline with
      | none => exact exited
      | some d =>
        simp only [Bool.or_eq_true]
        exact Or.imp_left exited
    | stopping => exact stopped
    | _ => exact id
  exact canGoOn_mono still (by rw [same.deferred]) due (by simp only [early, imp_self])

theorem Hushed.canGoOn (same : Hushed r r') (due : r'.isDue t = r.isDue t) (early : r'.isDueEarly t = r.isDueEarly t) :
    r'.canGoOn t = r.canGoOn t := by
  simp only [Run.canGoOn, same.deferred, due, early]

/-- What one task does without waking anybody lets no other task go on. -/
theorem Act.still (h : Act t os r r') (same : Hushed r r')
    (news : ∀ e, t' = .restart e → r'.restarts.hasNews e = r.restarts.hasNews e)
    (supervise : t' = .supervise → r.canGoOn .supervise = false → r'.canGoOn .supervise = false) (other : t' ≠ t)
    (still : r.canGoOn t' = false) : r'.canGoOn t' = false := by
  cases t' with
  | supervise => exact supervise rfl still
  | start e =>
    rw [same.canGoOn ?_ rfl, still]
    simp only [isDue, (h.others e).1 other.symm, same.lets]
  | restart e =>
    rw [same.canGoOn ?_ rfl, still]
    simp only [isDue, (h.others e).2.1 other.symm, same.lets, news e rfl]
  | stop e =>
    rw [same.canGoOn ?_ rfl, still]
    simp only [isDue, (h.others e).2.2 other.symm, same.lets, same.cause]
  | watch w =>
    rw [same.canGoOn ?_ rfl, still]
    simp only [isDue, same.cause]
  | signal n =>
    rw [same.canGoOn rfl rfl, still]

/-! ### Waiting -/

/-- A task that waits is over, or it cannot go on as things are. -/
def Waits (r : Run) (t : Task) : Prop :=
  r.isOver t = true ∨ r.canGoOn t = false

theorem waits_wake (parked : t ∈ r.wake.parked) : r.wake.Waits t :=
  .inr (not_canGoOn_of_mem_parked_wake parked)

theorem canGoOn_log (r : Run) (event : Event) : (r.log event).canGoOn = r.canGoOn := by
  funext t
  cases t <;> rfl

theorem canGoOn_giveVerdict (r : Run) (v : Verdict) (other : t ≠ .supervise) :
    (r.giveVerdict v).canGoOn t = r.canGoOn t := by
  cases t with
  | supervise => exact absurd rfl other
  | _ => rfl

theorem hushed_endRestart (r : Run) (e : Nat) (o : Outcome) : Hushed r (r.endRestart e o) := by
  simp only [endRestart, update, report, markEnd, mark]
  exact ⟨rfl, rfl, rfl, rfl, rfl, rfl⟩

theorem hushed_takeFirings (r : Run) (e n : Nat) (b : Broadcast) : Hushed r (r.takeFirings e n b) := by
  simp only [takeFirings, update]
  exact ⟨rfl, rfl, rfl, rfl, rfl, rfl⟩

theorem isDue_lend (held : r.handleHeld = true) (t : Task) : ({ r with lent := r.lent + 1 } : Run).isDue t = r.isDue t := by
  cases t with
  | supervise =>
    simp only [isDue, isCalled, orphaned, held, Bool.not_true, Bool.false_and]
    rfl
  | _ => rfl

theorem still_of_supervise (still : r.canGoOn t = false) (other : t ≠ .supervise) (deferred : r'.deferred = r.deferred)
    (due : r'.isDue t = r.isDue t) : r'.canGoOn t = false := by
  refine canGoOn_mono still (by rw [deferred]) (fun going => due ▸ going) (fun early => ?_)
  cases t with
  | supervise => exact absurd rfl other
  | _ => exact early

theorem Act.waits (before : Passes settings services (some t) r) (h : Act t os r r') (parked : t' ∈ r'.parked)
    (other : t' ≠ t) (waits : r.Waits t') : r'.Waits t' := by
  rcases waits with finished | still
  · exact .inl (h.isOver finished)
  have act := h
  cases h with
  | aside h =>
    cases h with
    | effect h => cases h <;> exact waits_wake parked
    | note | spend => exact .inr (canGoOn_mono still Iff.rfl (by cases t' <;> exact id) (by cases t' <;> exact id))
    | defer => exact .inr (canGoOn_mono still (by simp [other]) (by cases t' <;> exact id) (by cases t' <;> exact id))
    | lend held =>
      refine .inr (canGoOn_mono still Iff.rfl ?_ (by cases t' <;> exact id))
      rw [isDue_lend held]
      exact id
  | endStart | endStop | deliver | receive | obey => exact waits_wake parked
  | shutDown _ reason =>
    right
    show (Run.log (wake _) _).canGoOn t' = false
    rw [canGoOn_log]
    exact not_canGoOn_of_mem_parked_wake parked
  | finish | expire =>
    right
    show (giveVerdict (Run.log (wake _) _) _).canGoOn t' = false
    rw [canGoOn_giveVerdict _ _ other, canGoOn_log]
    exact not_canGoOn_of_mem_parked_wake parked
  | fail | pass | stopListening | leave =>
    refine .inr (still_of_supervise still other rfl ?_)
    cases t' with
    | supervise => exact absurd rfl other
    | _ => rfl
  | equip spawned =>
    -- none of the entries' tasks is there yet, so nobody reads from the new broadcast
    have known := before.knows (.inl (.inr (act.lines.2 parked)))
    have fresh : .setUp ∉ r.happened := before.not_setUp (by rw [spawned]; rfl)
    refine .inr (still_of_supervise still other rfl ?_)
    cases t' with
    | supervise => exact absurd rfl other
    | restart e => exact absurd known.1 fresh
    | _ => rfl
  | learn | miss => exact .inr (canGoOn_mono still Iff.rfl (by cases t' <;> exact id) (by cases t' <;> exact id))
  | takeFirings idle none h =>
    refine .inr (act.still (r.hushed_takeFirings _ _ _) (fun e' task => ?_) (fun _ => ?_) other still)
    · exact Broadcast.hasNews_next h fun same => other (by rw [task, same])
    · exact act.supervise_still (r.hushed_takeFirings _ _ _) rfl rfl (fun _ => rfl) (by simp)
  | endRestart h o =>
    refine .inr (act.still (r.hushed_endRestart _ o) (fun _ _ => ?_) (fun _ => ?_) other still)
    · simp only [Run.endRestart, update, report, markEnd, mark]
    · refine act.supervise_still (r.hushed_endRestart _ o) ?_ ?_ (fun _ => ?_) fun _ _ _ _ same => by cases same; rfl
      · simp only [Run.endRestart, update, report, markEnd, mark]
      · simp only [Run.endRestart, update, report, markEnd, mark]
      · simp only [isCalled, orphaned, Run.endRestart, update, report, markEnd, mark]
  | _ =>
    refine .inr (act.still ⟨rfl, rfl, rfl, rfl, rfl, rfl⟩ (fun _ _ => rfl) (fun _ => ?_) other still)
    exact act.supervise_still ⟨rfl, rfl, rfl, rfl, rfl, rfl⟩ rfl rfl (fun _ => rfl) (by simp)

theorem Outside.waits (h : Outside os r r') (parked : t ∈ r'.parked) (waits : r.Waits t) : r'.Waits t := by
  rcases waits with finished | still
  · exact .inl (h.isOver finished)
  cases h with
  | effect h => cases h <;> exact waits_wake parked
  | dropHandle | pass => exact waits_wake parked
  | newHandle idle =>
    refine .inr (canGoOn_mono still Iff.rfl (fun due => ?_) (by cases t <;> exact id))
    cases t with
    | supervise => simp [isDue, idle] at due
    | _ => exact due
  | watch held =>
    refine .inr (canGoOn_mono still Iff.rfl (fun due => ?_) (by cases t <;> exact id))
    rw [← isDue_lend held]
    cases t <;> exact due
  | run idle =>
    refine .inr (canGoOn_mono still Iff.rfl (fun due => ?_) fun early => ?_)
    · cases t with
      | supervise => cases due
      | _ => exact due
    · cases t <;> cases early
  | signal => exact .inr (canGoOn_mono still Iff.rfl (by cases t <;> exact id) (by cases t <;> exact id))
  | takeUp =>
    have taken : t ∉ r.deferred := by simpa using (List.mem_filter.mp parked).2
    rw [canGoOn, if_neg taken] at still
    right
    have same : r.takeUp.canGoOn t = r.isDue t := by
      simp only [canGoOn, Run.takeUp, List.not_mem_nil, if_false]
      cases t <;> rfl
    rw [same, still]

/-- No parked task that is not at its turn could go on. -/
theorem Passes.waits (h : Passes settings services cur r) (parked : t ∈ r.parked) (other : cur ≠ some t) :
    r.Waits t := by
  induction h with
  | initial => cases parked
  | outside _ h ih => exact h.waits parked (ih (h.lines.2 parked) other)
  | @turn r t₀ rest before ready ih =>
    have ne : t ≠ t₀ := fun same => other (same ▸ rfl)
    refine (ih parked (by simp)).imp (fun finished => ?_) (fun still => canGoOn_mono still (List.mem_erase_of_ne ne) ?_ ?_)
    · cases t <;> exact finished
    · cases t <;> exact id
    · cases t <;> exact id
  | act before h ih => exact h.waits before parked (fun same => other (same ▸ rfl)) (ih (h.lines.2 parked) other)
  | @finished r t₀ _ finished ih =>
    by_cases same : t₀ = t
    · exact .inl (same ▸ finished)
    · exact ih parked fun eq => same (Option.some.inj eq)
  | @park r t₀ _ _ _ still _ ih =>
    have waits : r.Waits t := by
      by_cases same : t₀ = t
      · exact .inr (same ▸ still)
      · refine ih ?_ fun eq => same (Option.some.inj eq)
        exact (mem_parked_park.mp parked).resolve_left fun own => same own.symm
    refine waits.imp (fun finished => ?_) (fun still => ?_)
    · cases t <;> exact finished
    · exact canGoOn_mono still Iff.rfl (by cases t <;> exact id) (by cases t <;> exact id)

/-! ### No task is lost -/

theorem Act.stage_ne_idle (h : Act t os r r') (spawned : r'.stage ≠ .idle) : r.stage ≠ .idle := fun idle => by
  have step := h.stage_step
  rw [idle] at step
  generalize r'.stage = s at *
  cases step
  exact spawned rfl

theorem Act.knew (h : Act t os r r') (known : r'.Knows t') : r.Knows t' ∨ r'.Holds t' := by
  have entry (e : Nat) (task : t' = .start e ∨ t' = .restart e ∨ t' = .stop e)
      (known : .setUp ∈ r'.happened ∧ e < r'.settings.entries.length) :
      (.setUp ∈ r.happened ∧ e < r.settings.entries.length) ∨ r'.Holds t' := by
    rw [h.steady.settings] at known
    rcases List.mem_append.mp (h.happened ▸ known.1) with earlier | now
    · exact .inl ⟨earlier, known.2⟩
    · obtain ⟨shutdown, restart, b, rfl⟩ := h.equip_of_setUp now
      exact .inr ((holds_equip ..).mpr (.inr (mem_entryTasks.mpr ⟨e, known.2, task⟩)))
  cases t' with
  | supervise | signal => exact .inl trivial
  | watch w =>
    rw [Knows, h.steady.watchers] at known
    exact .inl known
  | start e => exact entry e (.inl rfl) known
  | restart e => exact entry e (.inr (.inl rfl)) known
  | stop e => exact entry e (.inr (.inr rfl)) known

theorem Outside.knew (h : Outside os r r') (known : r'.Knows t) : r.Knows t ∨ r'.Holds t := by
  have entry (e : Nat) (known : .setUp ∈ r'.happened ∧ e < r'.settings.entries.length) :
      .setUp ∈ r.happened ∧ e < r.settings.entries.length := by
    rw [h.keeps.settings] at known
    refine ⟨(List.mem_append.mp (h.happened ▸ known.1)).resolve_right fun now => ?_, known.2⟩
    cases h.isAside _ now
  cases t with
  | supervise | signal => exact .inl trivial
  | start e | restart e | stop e => exact .inl (entry e known)
  | watch w =>
    cases h with
    | effect h =>
      rw [Knows, h.spares.watches] at known
      exact .inl known
    | dropHandle | pass => exact .inl known
    | watch held =>
      rw [Knows, List.length_append, List.length_singleton] at known
      by_cases old : w < r.watches.length
      · exact .inl old
      · have new : w = r.watches.length := by omega
        exact .inr (.inl (List.mem_append_right _ (List.mem_singleton.mpr (congrArg Task.watch new))))
    | _ => exact .inl known

theorem Outside.spawns (h : Outside os r r') (idle : r.stage = .idle) (spawned : r'.stage ≠ .idle) :
    .supervise ∈ r'.ready := by
  cases h with
  | effect h => exact absurd (h.spares.stage.trans idle) spawned
  | run => exact List.mem_append_right _ (List.mem_singleton_self _)
  | dropHandle | newHandle | watch | signal | takeUp | pass => exact absurd idle spawned

/-- Every task that is not over is in the queue, parked, or at its turn; the supervising task from when the supervisor
was handed over. -/
theorem Passes.held (h : Passes settings services cur r) (known : r.Knows t)
    (spawned : t = .supervise → r.stage ≠ .idle) (live : r.isOver t = false) : r.Holds t ∨ cur = some t := by
  induction h with
  | initial =>
    cases t with
    | supervise => exact absurd rfl (spawned rfl)
    | start | restart | stop => exact absurd known.1 List.not_mem_nil
    | watch => exact absurd known (Nat.not_lt_zero _)
    | signal => cases live
  | @outside os r r' _ h ih =>
    rcases h.knew known with old | held
    · have before : r.isOver t = false := eq_false_of_imp h.isOver live
      by_cases idle : t = .supervise ∧ r.stage = .idle
      · exact .inl (idle.1 ▸ .inl (h.spawns idle.2 (spawned idle.1)))
      · exact (ih old (fun task stage => idle ⟨task, stage⟩) before).imp h.holds fun none => by cases none
    · exact .inl held
  | turn _ ready ih =>
    rcases ih known spawned live with (inQueue | parked) | none
    · rcases List.mem_cons.mp (ready ▸ inQueue) with rfl | rest
      · exact .inr rfl
      · exact .inl (.inl rest)
    · exact .inl (.inr parked)
    · cases none
  | @act os r r' t' _ h ih =>
    rcases h.knew known with old | held
    · have before : r.isOver t = false := eq_false_of_imp h.isOver live
      exact (ih old (fun task => h.stage_ne_idle (spawned task)) before).imp_left h.holds
    · exact .inl held
  | finished _ finished ih =>
    rcases ih known spawned live with held | isCur
    · exact .inl held
    · cases isCur
      rw [finished] at live
      cases live
  | park _ _ _ _ ih =>
    rcases ih known spawned live with (inQueue | parked) | isCur
    · exact .inl (.inl inQueue)
    · exact .inl (.inr (mem_parked_park.mpr (.inr parked)))
    · cases isCur
      exact .inl (.inr (mem_parked_park.mpr (.inl rfl)))

theorem Passes.parked_of_settled (h : Passes settings services none r) (settled : r.isSettled = true) (known : r.Knows t)
    (spawned : t = .supervise → r.stage ≠ .idle) (live : r.isOver t = false) : t ∈ r.parked := by
  rcases h.held known spawned live with (inQueue | parked) | none
  · rw [(isSettled_iff.mp settled).1] at inQueue
    cases inQueue
  · exact parked
  · cases none

/-- When there is nothing left to do, whatever is not over waits for something that has not come. -/
theorem Passes.not_due (h : Passes settings services none r) (settled : r.isSettled = true) (known : r.Knows t)
    (spawned : t = .supervise → r.stage ≠ .idle) (live : r.isOver t = false) : r.isDue t = false := by
  rcases h.waits (h.parked_of_settled settled known spawned live) (by simp) with finished | still
  · rw [live] at finished
    cases finished
  · rwa [canGoOn, (isSettled_iff.mp settled).2, if_neg List.not_mem_nil] at still

/-! ### The next deadline -/

theorem foldl_least_le {d : Nat} {ds : List Nat} {least : Option Nat} (h : d ∈ ds ∨ ∃ l ≤ d, least = some l) :
    ∃ l ≤ d, ds.foldl (fun least d => some (match least with | some l => min l d | none => d)) least = some l := by
  induction ds generalizing least with
  | nil => exact h.resolve_left List.not_mem_nil
  | cons d' ds ih =>
    rw [List.foldl_cons]
    apply ih
    rcases h with mem | ⟨l, le, rfl⟩
    · rcases List.mem_cons.mp mem with rfl | later
      · right
        cases least with
        | none => exact ⟨d, Nat.le_refl d, rfl⟩
        | some l => exact ⟨min l d, Nat.min_le_right l d, rfl⟩
      · exact .inl later
    · exact .inr ⟨min l d', Nat.le_trans (Nat.min_le_left l d') le, rfl⟩

theorem nextDeadline?_le {d : Nat} (parked : t ∈ r.parked) (h : r.deadline? t = some d) :
    ∃ l ≤ d, r.nextDeadline? = some l :=
  foldl_least_le (.inl (List.mem_filterMap.mpr ⟨t, parked, h⟩))

theorem mem_of_foldl_least {d : Nat} {ds : List Nat} {least : Option Nat}
    (h : ds.foldl (fun least d => some (match least with | some l => min l d | none => d)) least = some d) :
    d ∈ ds ∨ least = some d := by
  induction ds generalizing least with
  | nil => exact .inr h
  | cons d' ds ih =>
    rcases ih h with later | now
    · exact .inl (List.mem_cons_of_mem d' later)
    · cases least with
      | none =>
        cases now
        exact .inl List.mem_cons_self
      | some l =>
        rcases Nat.le_total l d' with le | le
        · exact .inr (now ▸ congrArg some (Nat.min_eq_left le).symm)
        · have same : d' = d := (Nat.min_eq_right le).symm.trans (Option.some.inj now)
          exact .inl (same ▸ List.mem_cons_self)

theorem exists_of_nextDeadline? {d : Nat} (h : r.nextDeadline? = some d) : ∃ t ∈ r.parked, r.deadline? t = some d := by
  rcases mem_of_foldl_least h with mem | none
  · exact List.mem_filterMap.mp mem
  · cases none

end Run

end Supervision
