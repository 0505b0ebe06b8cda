import Supervision.Proofs.Precedence

/-! Every task has one place: it is in the queue, parked, or at its turn, and never in two places at once. Only signals may
be raised several times. So nobody but itself ends a task, and a parked task is not over and cannot go on as things are. -/

namespace Supervision

/-- How many turns of a signal are due is up to those who raise it. Every other task is there once. -/
def Task.isSingle : Task → Bool
  | .signal _ => false
  | _ => true

namespace Run

variable {settings : Settings} {services : List Service} {r r' : Run} {t t' : Task} {cur : Option Task} {e : Nat}
  {phase : Phase} {os : List Occurrence}

/-! ### Putting off -/

/-- At the turn of `t` nobody was put off, or `t` was, once. -/
def PutsOff (t : Task) (r r' : Run) : Prop :=
  r'.deferred = r.deferred ∨ r'.deferred = t :: r.deferred

theorem putsOff_deferIfSpent (r : Run) (t : Task) : PutsOff t r (r.deferIfSpent t) := by
  unfold deferIfSpent
  split
  · exact .inr rfl
  · exact .inl rfl

/-- A call puts its task off only where it pauses. -/
def PausesOff (e : Nat) (phase : Phase) (r : Run) : Progress × Run → Prop
  | (.paused _, r') => PutsOff (.ofCall e phase) r r'
  | (.ended _, r') => r'.deferred = r.deferred

theorem PausesOff.after {x : Progress × Run} (h : PausesOff e phase r' x) (same : r'.deferred = r.deferred) :
    PausesOff e phase r x := by
  obtain ⟨progress, r₂⟩ := x
  cases progress <;> simpa only [PausesOff, PutsOff, same] using h

theorem deferred_send (r : Run) (c : Command) : (r.send c).2.deferred = r.deferred := by
  unfold send
  split
  · rfl
  · split <;> rfl

theorem pausesOff_follow (e : Nat) (phase : Phase) (b : Behaviour) (r : Run) :
    PausesOff e phase r (follow e phase b r) := by
  induction b generalizing r with
  | done | fail | panic => exact rfl
  | never => exact .inl rfl
  | sleep ms next ih =>
    rw [follow]
    split
    · exact (ih r.spend).after rfl
    · exact putsOff_deferIfSpent r _
  | awaitRelease next ih | awaitCancel next ih =>
    rw [follow]
    split
    · exact ih r
    · exact .inl rfl
  | awaitReleaseFor ms next ih =>
    rw [follow]
    split
    · exact rfl
    · split
      · exact (ih r.spend).after rfl
      · exact putsOff_deferIfSpent r _
  | awaitCause next ih =>
    rw [follow]
    split
    · exact putsOff_deferIfSpent { r with lent := r.lent + 1 } _
    · exact ih r
  | release service next ih => exact (ih (r.release _)).after rfl
  | cancel next ih => exact (ih r.cancel).after rfl
  | command c next ih => exact (ih ((r.send c).2.mark _)).after (r.deferred_send c)
  | note next ih => exact (ih (r.mark _)).after rfl
  | ifCancelled yes no ihYes ihNo =>
    rw [follow]
    split
    · exact ihYes r
    · exact ihNo r

theorem pausesOff_resume (r : Run) (e : Nat) (phase : Phase) (p : Pause) :
    PausesOff e phase r (r.resume e phase p) := by
  unfold resume
  split
  · cases p with
    | never => exact .inl rfl
    | «until» d next => exact (pausesOff_follow e phase next r.spend).after rfl
    | release next | cancel next => exact pausesOff_follow e phase next r
    | releaseUntil d next =>
      dsimp only
      split
      · exact rfl
      · exact (pausesOff_follow e phase next r.spend).after rfl
    | cause next =>
      dsimp only
      split
      · exact putsOff_deferIfSpent r.spend _
      · exact .inl rfl
    | noting d c next => exact (pausesOff_follow e phase next (r.spend.mark _)).after rfl
  · exact .inl rfl

theorem putsOff_keepStart {x : Progress × Run} (h : PausesOff e .start r x) : PutsOff (.start e) r (keepStart e x) := by
  obtain ⟨progress, r₁⟩ := x
  cases progress with
  | paused => exact h
  | ended => exact .inl h

theorem putsOff_keepStop {x : Progress × Run} (h : PausesOff e .stop r x) : PutsOff (.stop e) r (keepStop e x) := by
  obtain ⟨progress, r₁⟩ := x
  cases progress with
  | paused => exact h
  | ended => exact .inl h

theorem putsOff_startTurn (r : Run) (e : Nat) : PutsOff (.start e) r (r.startTurn e) := by
  unfold startTurn
  split
  · exact putsOff_keepStart ((pausesOff_follow e .start _ _).after rfl)
  · exact putsOff_keepStart (r.pausesOff_resume e .start _)
  · exact .inl rfl

theorem putsOff_stopTurn (r : Run) (e : Nat) : PutsOff (.stop e) r (r.stopTurn e) := by
  unfold stopTurn
  split
  · split
    · refine putsOff_keepStop ((pausesOff_follow e .stop _ _).after ?_)
      split <;> rfl
    · exact .inl rfl
  · exact putsOff_keepStop (r.pausesOff_resume e .stop _)
  · exact .inl rfl

theorem putsOff_keepRestart (next : Run → Run) {x : Progress × Run} (h : PausesOff e .restart r x)
    (goes : ∀ r, PutsOff (.restart e) r (next r)) : PutsOff (.restart e) r (keepRestart e next x) := by
  obtain ⟨progress, r₁⟩ := x
  cases progress with
  | paused => exact h
  | ended o =>
    have same : (r₁.endRestart e o).deferred = r.deferred := h
    simpa only [keepRestart, PutsOff, same] using goes (r₁.endRestart e o)

theorem putsOff_restartLoop (e fuel : Nat) (r : Run) : PutsOff (.restart e) r (restartLoop e fuel r) := by
  induction fuel generalizing r with
  | zero => exact .inl rfl
  | succ fuel ih =>
    rw [restartLoop]
    split
    · split
      · exact .inr rfl
      · split
        · rename_i n b told
          have same : (r.spendReading.takeFirings e n b).deferred = r.deferred := by
            unfold spendReading
            split <;> rfl
          simpa only [PutsOff, same] using ih (r.spendReading.takeFirings e n b)
        · exact .inl rfl
        · exact .inl rfl
    · have begins : PausesOff e .restart r (r.beginRestart e) := (pausesOff_follow e .restart _ _).after rfl
      exact putsOff_keepRestart _ begins ih

theorem putsOff_restartTurn (r : Run) (e : Nat) : PutsOff (.restart e) r (r.restartTurn e) := by
  unfold restartTurn
  split
  · exact putsOff_restartLoop e _ r
  · rename_i p _
    exact putsOff_keepRestart (·.restartAll e) (r.pausesOff_resume e .restart p) fun r => putsOff_restartLoop e _ r

theorem deferred_leave (r : Run) (deadline : Option Nat) : (r.leave deadline).deferred = r.deferred := by
  unfold leave
  split
  · rfl
  · split
    · rfl
    · split <;> rfl

theorem deferred_awaitStops (r : Run) : r.awaitStops.deferred = r.deferred := by
  unfold awaitStops
  split
  · exact deferred_leave _ _
  · rfl

theorem putsOff_attend {fuel : Nat} {round : Round} (h : r.stage = .running round)
    (deaf : round.listening = false → r.commands = []) : PutsOff .supervise r (attend fuel r) := by
  induction fuel generalizing r round with
  | zero => exact .inl rfl
  | succ fuel ih =>
    have heeds := heeds_look h deaf
    simp only [attend, h]
    generalize r.look round = x at heeds ⊢
    obtain ⟨sight, r'⟩ := x
    cases sight with
    | cause c =>
      obtain ⟨-, r₁, -, os, acted, -, reason⟩ := heeds
      left
      show (r'.announce c).awaitStops.deferred = r.deferred
      rw [deferred_awaitStops, ← acted.deferred]
      cases reason <;> rfl
    | news =>
      obtain ⟨os, acted, -, round', stage, deaf', -⟩ := heeds
      simpa only [PutsOff, acted.deferred] using ih stage deaf'
    | nothing =>
      rcases heeds with spent | ⟨-, acted, -⟩
      · exact .inr spent
      · exact .inl acted.deferred

theorem Passes.putsOff_superviseTurn (h : Passes settings services cur r) : PutsOff .supervise r r.superviseTurn := by
  cases stage : r.stage with
  | idle | returned =>
    simp only [superviseTurn, stage]
    exact .inl rfl
  | spawned =>
    simp only [superviseTurn, stage, setUp]
    split
    · exact .inl rfl
    · exact putsOff_attend (show _ = Stage.running {} from rfl) (by simp)
  | running round =>
    simp only [superviseTurn, stage]
    exact putsOff_attend stage fun unlistening => (h.deaf stage unlistening).2
  | stopping =>
    simp only [superviseTurn, stage]
    exact .inl r.deferred_awaitStops
  | leaving deadline =>
    simp only [superviseTurn, stage]
    exact .inl (r.deferred_leave deadline)

theorem Passes.putsOff_act (h : Passes settings services cur r) (t : Task) : PutsOff t r (r.act t) := by
  cases t with
  | supervise => exact h.putsOff_superviseTurn
  | start e => exact r.putsOff_startTurn e
  | restart e => exact r.putsOff_restartTurn e
  | stop e => exact r.putsOff_stopTurn e
  | watch w =>
    left
    show (r.watchTurn w).deferred = r.deferred
    unfold watchTurn
    split <;> rfl
  | signal n =>
    left
    show (r.signalTurn n).deferred = r.deferred
    unfold signalTurn
    split <;> rfl

/-! ### Moving from one place to another -/

theorem perm_wake (r : Run) : (r.wake.ready ++ r.wake.parked).Perm (r.ready ++ r.parked) := by
  simp only [wake, List.append_assoc]
  exact (List.filter_append_perm r.canGoOn r.parked).append_left r.ready

theorem Effect.perm (h : Effect os r r') : (r'.ready ++ r'.parked).Perm (r.ready ++ r.parked) := by
  cases h <;> exact perm_wake _

theorem Reason.perm {c : Cause} (h : Reason os c r r') : (r'.ready ++ r'.parked).Perm (r.ready ++ r.parked) := by
  cases h <;> exact .refl _

/-- No act but that of setting up brings a task in, and none takes one out or doubles it. -/
theorem Act.perm_or_equip (h : Act t os r r') :
    (r'.ready ++ r'.parked).Perm (r.ready ++ r.parked) ∨
      t = .supervise ∧ r.stage = .spawned ∧ ∃ shutdown restart b, r' = r.equip shutdown restart b := by
  cases h with
  | equip spawned => exact .inr ⟨rfl, spawned, _, _, _, rfl⟩
  | aside h =>
    left
    cases h with
    | effect h => exact h.perm
    | note | lend | spend | defer => exact .refl _
  | endStart | endStop | deliver | receive | obey | finish | expire => exact .inl (perm_wake _)
  | shutDown _ reason => exact .inl ((perm_wake _).trans reason.perm)
  | _ => exact .inl (.refl _)

theorem Act.stage_other (h : Act t os r r') (other : t ≠ .supervise) : r'.stage = r.stage := by
  cases h with
  | aside h => exact h.spares.stage
  | fail | equip | pass | stopListening | receive | obey | shutDown | leave | finish | expire => exact absurd rfl other
  | _ => rfl

theorem Act.isOver_other (h : Act t os r r') (other : t' ≠ t) (finished : r'.isOver t' = true) : r.isOver t' = true := by
  cases t' with
  | supervise => rwa [Run.isOver, h.stage_other other.symm] at finished
  | start e => rwa [Run.isOver, (h.others e).1 other.symm] at finished
  | restart e => rwa [Run.isOver, (h.others_restart other.symm).2.2] at finished
  | stop e => rwa [Run.isOver, (h.others e).2.2 other.symm] at finished
  | watch w =>
    have same : r'.watches[w]? = r.watches[w]? := by
      cases h with
      | aside h => rw [h.spares.watches]
      | @learn _ w' =>
        have ne : w' ≠ w := fun same => other (congrArg Task.watch same.symm)
        exact List.getElem?_set_ne ne
      | shutDown _ reason => cases reason <;> rfl
      | _ => rfl
    rwa [Run.isOver, same] at finished
  | signal => rfl

theorem Acts.isOver_other (h : Acts t r r') (other : t' ≠ t) (finished : r'.isOver t' = true) : r.isOver t' = true := by
  induction h with
  | refl => exact finished
  | tail _ act ih =>
    obtain ⟨os, act⟩ := act
    exact ih (act.isOver_other other finished)

theorem Outside.isOver_before (h : Outside os r r') (finished : r'.isOver t = true) : r.isOver t = true := by
  cases t with
  | supervise => rwa [Run.isOver, h.stage_congr (f := Stage.hasReturned) rfl] at finished
  | start | restart | stop => simpa only [Run.isOver, member, h.keeps.members] using finished
  | watch w =>
    cases h with
    | effect h => rwa [Run.isOver, h.spares.watches] at finished
    | watch =>
      simp only [Run.isOver, List.getElem?_append] at finished ⊢
      split at finished
      · exact finished
      · cases gap : w - r.watches.length <;> simp [gap] at finished
    | dropHandle | pass => exact finished
    | _ => exact finished
  | signal => rfl

/-! ### A place kept -/

theorem unplaced_wake (free : r.place = none) : r.wake.place = none := by
  simp only [wake, placeAfter, free, Option.map_none]

theorem Act.unplaced (h : Act t os r r') (free : r.place = none) : r'.place = none := by
  cases h with
  | aside h =>
    cases h with
    | effect h => cases h <;> exact unplaced_wake free
    | note | lend | spend | defer => exact free
  | receive | obey => exact unplaced_wake free
  | endStart | endStop | deliver | finish | expire =>
    simp only [Run.endStart, Run.endStop, Run.deliver, Run.finish, giveVerdict, update, report, markEnd, mark, log]
    exact unplaced_wake free
  | shutDown _ reason =>
    simp only [announce, mark, log]
    cases reason <;> exact unplaced_wake free
  | _ => exact free

theorem Acts.unplaced (h : Acts t r r') (free : r.place = none) : r'.place = none := by
  induction h with
  | refl => exact free
  | tail _ act ih =>
    obtain ⟨os, act⟩ := act
    exact act.unplaced ih

/-- The supervising task leaves its place only when it is taken up. -/
theorem Outside.unplaced (h : Outside os r r') (stays : .supervise ∈ r'.parked) (free : r.place = none) :
    r'.place = none := by
  cases h with
  | effect h => cases h <;> exact unplaced_wake free
  | dropHandle | pass => exact unplaced_wake free
  | takeUp =>
    have undeferred : .supervise ∉ r.deferred := by simpa using (List.mem_filter.mp stays).2
    show r.placeLeft = _
    rw [placeLeft, if_neg fun left => undeferred left.1, placeAfter, free, Option.map_none]
  | _ => exact free

/-! ### One place for each -/

/-- Every task but a signal is in one place at most, also together with the one whose turn it is. -/
def Single (cur : Option Task) (r : Run) : Prop :=
  ∀ t : Task, t.isSingle = true → (r.ready ++ r.parked).count t + cur.toList.count t ≤ 1

theorem Single.of_perm (h : Single cur r) (perm : (r'.ready ++ r'.parked).Perm (r.ready ++ r.parked)) : Single cur r' :=
  fun t single => by
    rw [perm.count_eq]
    exact h t single

theorem nodup_entryTasks (n : Nat) : (entryTasks n).Nodup := by
  refine List.nodup_flatMap.mpr ⟨fun e _ => by simp, ?_⟩
  refine List.nodup_range.imp fun ne => ?_
  simp [Function.onFun, List.disjoint_left, ne]

theorem Act.single (before : Passes settings services (some t) r) (h : Act t os r r') (ih : Single (some t) r) :
    Single (some t) r' := by
  rcases h.perm_or_equip with perm | ⟨rfl, spawned, shutdown, restart, b, rfl⟩
  · exact ih.of_perm perm
  · intro t' single
    have grown : ((r.equip shutdown restart b).ready ++ (r.equip shutdown restart b).parked).count t' =
        (r.ready ++ r.parked).count t' + (entryTasks r.settings.entries.length).count t' := by
      show ((r.ready ++ entryTasks r.settings.entries.length) ++ r.parked).count t' = _
      simp only [List.count_append]
      omega
    rw [grown]
    by_cases new : t' ∈ entryTasks r.settings.entries.length
    · -- before it is set up, a run knows of no entry
      have unknown : ¬ r.Knows t' := by
        have fresh : .setUp ∉ r.happened := before.not_setUp (by rw [spawned]; rfl)
        obtain ⟨e, -, rfl | rfl | rfl⟩ := mem_entryTasks.mp new <;> exact fun known => fresh known.1
      have absent : t' ∉ r.ready ++ r.parked := fun held =>
        unknown (before.knows (.inl (List.mem_append.mp held)))
      have other : t' ∉ (some Task.supervise).toList := fun own =>
        unknown (before.knows (.inr (congrArg some (List.mem_singleton.mp own).symm)))
      rw [List.count_eq_zero.mpr absent, List.count_eq_zero.mpr other]
      have once := List.nodup_iff_count_le_one.mp (nodup_entryTasks r.settings.entries.length) t'
      omega
    · rw [List.count_eq_zero.mpr new]
      exact ih t' single

theorem Passes.single_acts (before : Passes settings services (some t) r) (h : Acts t r r') (ih : Single (some t) r) :
    Single (some t) r' := by
  induction h with
  | refl => exact ih
  | tail acts act ih' =>
    obtain ⟨os, act⟩ := act
    exact act.single (before.acts acts) ih'

/-- Where the tasks of a run are between two turns. -/
structure Lodged (r : Run) : Prop where
  single : Single none r
  once : ∀ t, r.deferred.count t ≤ 1
  live : ∀ t ∈ r.parked, r.isOver t = false
  idle : r.stage = .idle → .supervise ∉ r.ready ++ r.parked
  unplaced : .supervise ∈ r.parked → r.place = none

theorem Lodged.once_parked {before after : List Task} (h : Lodged r) (parked : r.parked = before ++ .supervise :: after) :
    .supervise ∉ before ∧ .supervise ∉ after := by
  have once := h.single .supervise rfl
  rw [parked] at once
  simp only [List.count_append, List.count_cons_self] at once
  exact ⟨List.count_eq_zero.mp (by omega), List.count_eq_zero.mp (by omega)⟩

theorem Lodged.alone {rest : List Task} (h : Lodged r) (ready : r.ready = t :: rest) (single : t.isSingle = true) :
    t ∉ rest ∧ t ∉ r.parked := by
  have once := h.single t single
  rw [ready, List.cons_append, List.count_cons_self, List.count_append] at once
  exact ⟨List.count_eq_zero.mp (by omega), List.count_eq_zero.mp (by omega)⟩

theorem Lodged.not_parked {rest : List Task} (h : Lodged r) (ready : r.ready = t :: rest) : t ∉ r.parked := fun parked => by
  cases single : t.isSingle with
  | true => exact (h.alone ready single).2 parked
  | false =>
    have live := h.live t parked
    cases t with
    | signal => cases live
    | _ => cases single

theorem Lodged.of_wake (h : Lodged r) (perm : (r'.ready ++ r'.parked).Perm (r.ready ++ r.parked))
    (parked : r'.parked ⊆ r.parked) (deferred : r'.deferred = r.deferred)
    (same : ∀ t, r'.isOver t = true → r.isOver t = true) (stage : r'.stage = .idle → r.stage = .idle)
    (unplaced : .supervise ∈ r'.parked → r.place = none → r'.place = none) : Lodged r' where
  single := h.single.of_perm perm
  once := deferred ▸ h.once
  live t mem := eq_false_of_imp (same t) (h.live t (parked mem))
  idle still mem := h.idle (stage still) (perm.mem_iff.mp mem)
  unplaced mem := unplaced mem (h.unplaced (parked mem))

theorem Lodged.push (h : Lodged r) (new : t.isSingle = true → t ∉ r.ready ++ r.parked) (ready : r'.ready = r.ready ++ [t])
    (parked : r'.parked = r.parked) (deferred : r'.deferred = r.deferred) (place : r'.place = r.place)
    (same : ∀ t, r'.isOver t = true → r.isOver t = true) (idle : r'.stage = .idle → r.stage = .idle ∧ t ≠ .supervise) :
    Lodged r' where
  single t' single := by
    have old := h.single t' single
    simp only [ready, parked, List.count_append, Option.toList_none, List.count_nil] at old ⊢
    by_cases own : t = t'
    · have none := List.count_eq_zero.mpr (own ▸ new (own ▸ single))
      rw [List.count_append] at none
      rw [own, List.count_singleton_self]
      omega
    · rw [List.count_singleton, beq_eq_false_iff_ne.mpr own]
      simpa using old
  once := deferred ▸ h.once
  live t mem := eq_false_of_imp (same t) (h.live t (parked ▸ mem))
  idle still mem := by
    obtain ⟨before, other⟩ := idle still
    rw [ready, parked] at mem
    have old := h.idle before
    simp_all
  unplaced mem := place ▸ h.unplaced (parked ▸ mem)

theorem count_takeUp (once : ∀ t, r.deferred.count t ≤ 1) (t : Task) :
    (r.takeUp.ready ++ r.takeUp.parked).count t ≤ (r.ready ++ r.parked).count t := by
  simp only [Run.takeUp, List.count_append]
  by_cases deferred : t ∈ r.deferred
  · have gone : (r.parked.filter (· ∉ r.deferred)).count t = 0 := List.count_eq_zero.mpr (by simp [deferred])
    rw [gone]
    by_cases parked : t ∈ r.parked
    · have some_there := List.count_pos_iff.mpr parked
      have few := List.Sublist.count_le t (List.filter_sublist (p := (· ∈ r.parked)) (l := r.deferred))
      have := once t
      omega
    · have none : (r.deferred.filter (· ∈ r.parked)).count t = 0 := List.count_eq_zero.mpr (by simp [parked])
      omega
  · have none : (r.deferred.filter (· ∈ r.parked)).count t = 0 := List.count_eq_zero.mpr (by simp [deferred])
    have few := List.Sublist.count_le t (List.filter_sublist (p := (· ∉ r.deferred)) (l := r.parked))
    omega

theorem Outside.lodged (before : Passes settings services none r) (h : Outside os r r') (ih : Lodged r) : Lodged r' := by
  have finished (t : Task) : r'.isOver t = true → r.isOver t = true := h.isOver_before
  have step := h
  cases h with
  | effect h => exact ih.of_wake h.perm step.lines.2 (by cases h <;> rfl) finished (h.spares.stage ▸ id) step.unplaced
  | dropHandle => exact ih.of_wake (perm_wake { r with handleHeld := false }) step.lines.2 rfl finished id step.unplaced
  | @pass _ time => exact ih.of_wake (perm_wake { r with now := time }) step.lines.2 rfl finished id step.unplaced
  | newHandle => exact ih.of_wake (.refl _) (fun _ mem => mem) rfl finished id step.unplaced
  | takeUp =>
    refine ⟨fun t single => ?_, fun t => Nat.zero_le 1, fun t mem => ?_, fun still mem => ?_,
      fun mem => step.unplaced mem (ih.unplaced (step.lines.2 mem))⟩
    · exact Nat.le_trans (Nat.add_le_add_right (count_takeUp ih.once t) _) (ih.single t single)
    · exact eq_false_of_imp (finished t) (ih.live t (step.lines.2 mem))
    · have held := (holds_takeUp r .supervise).mp (List.mem_append.mp mem)
      exact ih.idle still (List.mem_append.mpr held)
  | watch =>
    refine ih.push (fun _ mem => ?_) rfl rfl rfl rfl finished fun idle => ⟨idle, by simp⟩
    exact Nat.lt_irrefl _ (before.knows (.inl (List.mem_append.mp mem)))
  | run idle => exact ih.push (fun _ => ih.idle idle) rfl rfl rfl rfl finished (by simp)
  | signal => exact ih.push (by simp [Task.isSingle]) rfl rfl rfl rfl finished fun idle => ⟨idle, by simp⟩

theorem count_le_of_putsOff (h : PutsOff t { r with deferred := r.deferred.erase t } r')
    (once : ∀ t, r.deferred.count t ≤ 1) (t' : Task) : r'.deferred.count t' ≤ 1 := by
  have old := once t'
  rcases h with same | more
  · rw [same]
    exact Nat.le_trans (List.Sublist.count_le t' List.erase_sublist) old
  · rw [more]
    show List.count t' (t :: r.deferred.erase t) ≤ 1
    by_cases own : t = t'
    · rw [own, List.count_cons_self, List.count_erase_self]
      omega
    · rw [List.count_cons_of_ne own, List.count_erase_of_ne (Ne.symm own)]
      exact old

theorem Acts.lines (h : Acts t r r') : Lines r r' := by
  induction h with
  | refl => exact lines_of_eq rfl rfl
  | tail _ act ih =>
    obtain ⟨os, act⟩ := act
    exact ih.trans act.lines

/-- What a run that was not handed over holds, it held before. -/
theorem Act.idle (h : Act t os r r') (idle : r'.stage = .idle) :
    r.stage = .idle ∧ ∀ t', r'.Holds t' ↔ r.Holds t' := by
  refine ⟨?_, h.holds_iff_or_equip.resolve_right fun ⟨_, _, _, _, equipped⟩ => ?_⟩
  · have step := h.stage_step
    rw [idle] at step
    generalize r.stage = s at step
    cases step
    rfl
  · rw [equipped] at idle
    cases idle

theorem Acts.idle (h : Acts t r r') (idle : r'.stage = .idle) :
    r.stage = .idle ∧ ∀ t', r'.Holds t' ↔ r.Holds t' := by
  induction h with
  | refl => exact ⟨idle, fun _ => .rfl⟩
  | tail _ act ih =>
    obtain ⟨os, act⟩ := act
    obtain ⟨before, held⟩ := act.idle idle
    exact ⟨(ih before).1, fun t' => (held t').trans ((ih before).2 t')⟩

def atTurn (r : Run) (rest : List Task) (t : Task) : Run :=
  { r with ready := rest, budget := r.quota, deferred := r.deferred.erase t }

/-- The run when the task that had its turn waits again, unless it is over. -/
def afterTurn (r : Run) (t : Task) (kept : Option Nat) : Run :=
  { r with
    parked := if r.isOver t then r.parked else (r.park t kept).parked
    place := if r.isOver t then r.place else (r.park t kept).place }

theorem turn_eq_afterTurn (r : Run) (rest : List Task) (t : Task) :
    Run.turn { r with ready := rest } t = ((r.atTurn rest t).act t).afterTurn t (r.placeKept t) :=
  turn_eq _ t

theorem mem_parked_afterTurn {kept : Option Nat} (other : t' ≠ t) :
    t' ∈ (r.afterTurn t kept).parked ↔ t' ∈ r.parked := by
  unfold afterTurn
  dsimp only
  split
  · rfl
  · rw [mem_parked_park, or_iff_right other]

theorem count_afterTurn_le (r : Run) (t : Task) (kept : Option Nat) (t' : Task) :
    (r.afterTurn t kept).parked.count t' ≤ r.parked.count t' + [t].count t' := by
  unfold afterTurn
  dsimp only
  split
  · exact Nat.le_add_right _ _
  · refine Nat.le_of_eq ?_
    rw [(r.perm_park t kept).count_eq, List.count_cons, List.count_singleton]

theorem live_of_mem_afterTurn {kept : Option Nat} (parked : t ∈ (r.afterTurn t kept).parked) (absent : t ∉ r.parked) :
    r.isOver t = false := by
  cases live : r.isOver t with
  | false => rfl
  | true =>
    have same : (r.afterTurn t kept).parked = r.parked := if_pos live
    exact absurd (same ▸ parked) absent

/-- The supervising task gives up the place that it has kept where it waits again. -/
theorem unplaced_afterTurn {kept : Option Nat} (free : t ≠ .supervise → r.place = none)
    (stays : t = .supervise → r.isOver t = false) : (r.afterTurn t kept).place = none := by
  unfold afterTurn park
  by_cases own : t = .supervise
  · simp [own, own ▸ stays own]
  · simp [own, free own]

theorem Passes.lodged_tick (before : Passes settings services none r) (h : r.tick? = some r') (ih : Lodged r) :
    Lodged r' := by
  obtain ⟨t, rest, ready, rfl⟩ := tick_cases h
  let begun : Run := r.atTurn rest t
  have began : Passes settings services (some t) begun := before.turn ready
  have acts : Acts t begun (begun.act t) := (before.acts_turn ready).1
  -- to be at its turn counts as a place, which the task has instead of the head of the queue
  have single : Single (some t) begun := fun t' single => by
    have old := ih.single t' single
    rw [ready, List.cons_append, List.count_cons] at old
    show List.count t' (rest ++ r.parked) + List.count t' [t] ≤ 1
    rw [List.count_cons]
    simpa using old
  have after := began.single_acts acts single
  rw [turn_eq_afterTurn]
  have absent : t ∉ (begun.act t).parked := fun parked => ih.not_parked ready (acts.lines.2 parked)
  refine ⟨fun t' single' => ?_, count_le_of_putsOff (began.putsOff_act t) ih.once, fun t' mem => ?_, fun idle mem => ?_,
    fun mem => unplaced_afterTurn (fun other => ?_) fun own => ?_⟩
  · have old : List.count t' ((begun.act t).ready ++ (begun.act t).parked) + List.count t' [t] ≤ 1 := after t' single'
    have few := count_afterTurn_le (begun.act t) t (r.placeKept t) t'
    show List.count t' ((begun.act t).ready ++ ((begun.act t).afterTurn t (r.placeKept t)).parked) + List.count t' [] ≤ 1
    rw [List.count_append] at old ⊢
    rw [List.count_nil]
    omega
  · show (begun.act t).isOver t' = false
    by_cases own : t' = t
    · subst own
      exact live_of_mem_afterTurn mem absent
    · have old : t' ∈ (begun.act t).parked := (mem_parked_afterTurn own).mp mem
      exact eq_false_of_imp (acts.isOver_other own) (ih.live t' (acts.lines.2 old))
  · have idle : (begun.act t).stage = .idle := idle
    obtain ⟨stage, held⟩ := acts.idle idle
    have absent := ih.idle stage
    have other : t ≠ .supervise := fun same => absent (ready ▸ same ▸ List.mem_cons_self)
    refine absent ?_
    have old : (begun.act t).Holds .supervise :=
      (List.mem_append.mp mem).imp_right (mem_parked_afterTurn (Ne.symm other)).mp
    rcases (held _).mp old with inQueue | parked
    · exact List.mem_append_left _ (ready ▸ List.mem_cons_of_mem _ inQueue)
    · exact List.mem_append_right _ parked
  · have old : .supervise ∈ r.parked := acts.lines.2 ((mem_parked_afterTurn (Ne.symm other)).mp mem)
    exact acts.unplaced (ih.unplaced old)
  · subst own
    exact live_of_mem_afterTurn mem absent

theorem lodged_of_reaches (h : (initial settings services).Reaches r) : Lodged r := by
  refine (h.invariant (P := fun r => Passes settings services none r ∧ Lodged r)
    ⟨.initial (some turnQuota) (by decide), fun _ _ => Nat.zero_le 1, fun _ => Nat.zero_le 1, by simp [initial],
      by simp [initial], fun _ => rfl⟩ ?_ ?_).2
  · exact fun r₁ r₂ ih turn => ⟨(ih.1.tick turn).1, ih.1.lodged_tick turn ih.2⟩
  · exact fun os r₁ r₂ ih step => ⟨ih.1.outside step, step.lodged ih.1 ih.2⟩

theorem cannotGoOn_of_reaches (h : (initial settings services).Reaches r) (parked : t ∈ r.parked) :
    r.canGoOn t = false := by
  rcases (Passes.of_reaches h).waits parked (by simp) with finished | still
  · rw [(lodged_of_reaches h).live t parked] at finished
    cases finished
  · exact still

end Run

end Supervision
