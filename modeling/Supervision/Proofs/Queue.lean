import Supervision.Proofs.Act

/-! The history, and the tasks that a run holds in its queue or parked. The history only grows. No act takes a task out,
and none gets in from nowhere: a run brings in the tasks of its entries when it is set up, and no others. -/

namespace Supervision

namespace Run

variable {settings : Settings} {services : List Service} {r r' : Run} {t t' : Task} {cur : Option Task}
  {os os' : List Occurrence}

/-! ### What has happened -/

/-- The history without the times. -/
def happened (r : Run) : List Occurrence :=
  r.history.map Stamped.what

theorem historyWith_append (r : Run) (os os' : List Occurrence) :
    r.historyWith os ++ os'.map (Stamped.mk r.now) = r.historyWith (os ++ os') := by
  simp [historyWith]

theorem happened_of_history (h : r'.history = r.historyWith os) : r'.happened = r.happened ++ os := by
  simp [happened, h, historyWith, Function.comp_def]

theorem Effect.history (h : Effect os r r') : r'.history = r.historyWith os := by
  cases h <;> simp only [wake]

theorem Aside.history (h : Aside t os r r') : r'.history = r.historyWith os := by
  cases h with
  | effect h => exact h.history
  | note => rfl
  | lend | spend | defer => exact (List.append_nil r.history).symm

theorem Reason.history {c : Cause} (h : Reason os c r r') : r'.history = r.historyWith os := by
  cases h with
  | requested => rfl
  | cancelled | exited | signal => exact (List.append_nil r.history).symm

theorem Act.history (h : Act t os r r') : r'.history = r.historyWith os := by
  cases h with
  | aside h => exact h.history
  | beginStart | beginRestart | beginStop | miss => rfl
  | endStart | endRestart | endStop | deliver | fail | equip | receive | obey | finish | expire =>
    simp only [Run.endStart, Run.endRestart, Run.endStop, Run.deliver, Run.fail, Run.equip, Run.finish, giveVerdict,
      markEnd, report, update, mark, log, spawn, wake, historyWith, List.map_cons, List.map_nil]
  | shutDown _ reason =>
    simp only [announce, mark, log, wake]
    rw [reason.history, reason.steady.now]
    exact r.historyWith_append _ [_]
  | _ => exact (List.append_nil r.history).symm

theorem Act.happened (h : Act t os r r') : r'.happened = r.happened ++ os :=
  happened_of_history h.history

theorem Outside.history (h : Outside os r r') : r'.history = r.historyWith os := by
  cases h with
  | effect h => exact h.history
  | dropHandle | pass => exact (List.append_nil r.history).symm
  | _ => exact (List.append_nil r.history).symm

theorem Outside.happened (h : Outside os r r') : r'.happened = r.happened ++ os :=
  happened_of_history h.history

/-- Every occurrence of a history stands in this relation to those before it. -/
def Throughout (P : List Occurrence → Occurrence → Prop) (os : List Occurrence) : Prop :=
  ∀ earlier o later, os = earlier ++ o :: later → P earlier o

theorem Throughout.append {P : List Occurrence → Occurrence → Prop} (h : Throughout P os)
    (h' : ∀ earlier o later, os' = earlier ++ o :: later → P (os ++ earlier) o) : Throughout P (os ++ os') := by
  intro earlier o later split
  rcases List.append_eq_append_iff.mp split with ⟨between, rfl, rest⟩ | ⟨between, all, rest⟩
  · exact h' between o later rest
  · cases between with
    | nil =>
      rw [List.append_nil] at all
      subst all
      have holds := h' [] o later rest.symm
      rwa [List.append_nil] at holds
    | cons o' between =>
      obtain ⟨rfl, -⟩ := List.cons.inj rest
      exact h earlier o between all

theorem Throughout.of_append {P : List Occurrence → Occurrence → Prop} (h : Throughout P (os ++ os')) :
    Throughout P os :=
  fun earlier o later split => h earlier o (later ++ os') (by rw [split, List.append_assoc, List.cons_append])

/-! ### The tasks held -/

/-- The task is in the queue or parked. -/
def Holds (r : Run) (t : Task) : Prop :=
  t ∈ r.ready ∨ t ∈ r.parked

theorem holds_wake (r : Run) (t : Task) : r.wake.Holds t ↔ r.Holds t := by
  simp only [Holds, wake, List.mem_append, List.mem_filter]
  cases r.canGoOn t <;> simp

theorem holds_log (r : Run) (e : Event) (t : Task) : (r.log e).Holds t ↔ r.Holds t := by
  simp only [Holds, log]

theorem holds_giveVerdict (r : Run) (v : Verdict) (t : Task) : (r.giveVerdict v).Holds t ↔ r.Holds t := by
  simp only [Holds, giveVerdict, mark]

theorem holds_takeUp (r : Run) (t : Task) : r.takeUp.Holds t ↔ r.Holds t := by
  by_cases deferred : t ∈ r.deferred <;> simp [Holds, takeUp, deferred, or_comm]

theorem Effect.holds_iff (h : Effect os r r') (t : Task) : r'.Holds t ↔ r.Holds t := by
  cases h <;> rw [holds_wake] <;> simp only [Holds]

theorem Aside.holds_iff (h : Aside t os r r') (t' : Task) : r'.Holds t' ↔ r.Holds t' := by
  cases h with
  | effect h => exact h.holds_iff t'
  | note | lend | spend | defer => simp only [Holds]

theorem Reason.holds_iff {c : Cause} (h : Reason os c r r') (t : Task) : r'.Holds t ↔ r.Holds t := by
  cases h <;> simp only [Holds]

theorem holds_equip (r : Run) (shutdown restart : Inbox) (b : Broadcast) (t : Task) :
    (r.equip shutdown restart b).Holds t ↔ r.Holds t ∨ t ∈ entryTasks r.settings.entries.length := by
  simp [equip, Holds, spawn, mark, log, or_right_comm]

theorem mem_entryTasks {n : Nat} : t ∈ entryTasks n ↔ ∃ e < n, t = .start e ∨ t = .restart e ∨ t = .stop e := by
  simp [entryTasks]

/-- Setting the run up is the only act that brings tasks in, and none takes any out. -/
theorem Act.holds_iff_or_equip (h : Act t os r r') :
    (∀ t', r'.Holds t' ↔ r.Holds t') ∨ os = [.setUp] ∧ ∃ shutdown restart b, r' = r.equip shutdown restart b := by
  cases h with
  | equip _ has => exact .inr ⟨rfl, _, _, _, rfl⟩
  | aside h => exact .inl h.holds_iff
  | endStart | endStop | deliver | receive | obey =>
    left; intro t'
    simp only [Run.endStart, Run.endStop, Run.deliver, holds_wake]
    simp only [Holds, markEnd, report, update, mark]
  | finish | expire =>
    left; intro t'
    simp only [Run.finish, holds_giveVerdict, holds_log, holds_wake]
    simp only [Holds, log]
  | shutDown _ reason =>
    left; intro t'
    simp only [announce, holds_log, holds_wake]
    simpa only [Holds, mark] using reason.holds_iff t'
  | endRestart | takeFirings | fail =>
    left; intro t'
    simp only [Holds, Run.endRestart, Run.takeFirings, Run.fail, giveVerdict, markEnd, report, update, mark]
  | _ => left; intro t'; simp only [Holds]

theorem Act.holds (h : Act t os r r') (held : r.Holds t') : r'.Holds t' := by
  rcases h.holds_iff_or_equip with same | ⟨-, _, _, _, rfl⟩
  · exact (same t').mpr held
  · exact (holds_equip ..).mpr (.inl held)

theorem Outside.holds (h : Outside os r r') (held : r.Holds t) : r'.Holds t := by
  cases h with
  | effect h => exact (h.holds_iff t).mpr held
  | dropHandle => exact (holds_wake _ t).mpr held
  | pass => exact (holds_wake _ t).mpr held
  | takeUp => exact (holds_takeUp r t).mpr held
  | newHandle => exact held
  | watch | run | signal => exact held.imp_left (List.mem_append_left _)

theorem Act.equip_of_setUp (h : Act t os r r') (setUp : .setUp ∈ os) :
    ∃ shutdown restart b, r' = r.equip shutdown restart b := by
  cases h with
  | equip => exact ⟨_, _, _, rfl⟩
  | aside h => cases h.isAside _ setUp
  | shutDown _ reason => cases reason <;> simp at setUp
  | _ => simp at setUp

/-! ### The order of the queue -/

/-- Nothing gets into the queue before what is there already, and nothing parks. -/
def Lines (r r' : Run) : Prop :=
  (∃ more, r'.ready = r.ready ++ more) ∧ r'.parked ⊆ r.parked

theorem lines_of_eq (ready : r'.ready = r.ready) (parked : r'.parked = r.parked) : Lines r r' :=
  ⟨⟨[], by rw [ready, List.append_nil]⟩, fun _ mem => parked ▸ mem⟩

theorem lines_wake (r : Run) : Lines r r.wake := by
  unfold wake
  exact ⟨⟨_, rfl⟩, fun _ mem => (List.mem_filter.mp mem).1⟩

theorem Lines.trans {r'' : Run} (h : Lines r r') (h' : Lines r' r'') : Lines r r'' := by
  obtain ⟨⟨more, ready⟩, parked⟩ := h
  obtain ⟨⟨more', ready'⟩, parked'⟩ := h'
  exact ⟨⟨more ++ more', by rw [ready', ready, List.append_assoc]⟩, fun _ mem => parked (parked' mem)⟩

theorem Effect.lines (h : Effect os r r') : Lines r r' := by
  cases h <;> exact .trans (lines_of_eq rfl rfl) (lines_wake _)

theorem Reason.lines {c : Cause} (h : Reason os c r r') : Lines r r' := by
  cases h <;> exact lines_of_eq rfl rfl

theorem Act.lines (h : Act t os r r') : Lines r r' := by
  cases h with
  | aside h =>
    cases h with
    | effect h => exact h.lines
    | note | lend | spend | defer => exact lines_of_eq rfl rfl
  | receive | obey => exact .trans (lines_of_eq rfl rfl) (lines_wake _)
  | endStart | endStop | deliver | finish | expire =>
    simp only [Run.endStart, Run.endStop, Run.deliver, Run.finish, giveVerdict, update, report, markEnd, mark, log]
    exact .trans (lines_of_eq rfl rfl) (lines_wake _)
  | equip => exact ⟨⟨_, rfl⟩, fun _ mem => mem⟩
  | shutDown _ reason =>
    simp only [announce, mark, log]
    exact reason.lines.trans (.trans (lines_of_eq rfl rfl) (lines_wake _))
  | endRestart | takeFirings | fail =>
    simp only [Run.endRestart, Run.takeFirings, Run.fail, giveVerdict, update, report, markEnd, mark]
    exact lines_of_eq rfl rfl
  | _ => exact lines_of_eq rfl rfl

theorem Outside.lines (h : Outside os r r') : Lines r r' := by
  cases h with
  | effect h => exact h.lines
  | dropHandle | pass => exact .trans (lines_of_eq rfl rfl) (lines_wake _)
  | newHandle => exact lines_of_eq rfl rfl
  | watch | run | signal => exact ⟨⟨_, rfl⟩, fun _ mem => mem⟩
  | takeUp =>
    unfold Run.takeUp
    exact ⟨⟨_, rfl⟩, fun _ mem => (List.mem_filter.mp mem).1⟩

/-! ### The tasks known -/

/-- Whether a task has any business in the run. -/
def Knows (r : Run) : Task → Prop
  | .supervise | .signal _ => True
  | .watch w => w < r.watches.length
  | .start e | .restart e | .stop e => .setUp ∈ r.happened ∧ e < r.settings.entries.length

theorem Knows.mono (h : r.Knows t) (settings : r'.settings = r.settings)
    (watchers : r.watches.length ≤ r'.watches.length) (grows : r'.happened = r.happened ++ os) : r'.Knows t := by
  cases t with
  | supervise | signal => trivial
  | watch w => exact Nat.lt_of_lt_of_le h watchers
  | start | restart | stop => exact ⟨grows ▸ List.mem_append_left os h.1, settings ▸ h.2⟩

theorem Act.knows (h : Act t os r r') (known : r.Knows t') : r'.Knows t' :=
  known.mono h.steady.settings (Nat.le_of_eq h.steady.watchers.symm) h.happened

theorem Act.knows_of_holds (h : Act t os r r') (held : r'.Holds t') : r.Holds t' ∨ r'.Knows t' := by
  rcases h.holds_iff_or_equip with same | ⟨rfl, _, _, _, rfl⟩
  · exact .inl ((same t').mp held)
  · have setUp : .setUp ∈ Run.happened (r.equip _ _ _) := h.happened ▸ List.mem_append_right _ (List.mem_singleton_self _)
    refine ((holds_equip ..).mp held).imp_right fun new => ?_
    obtain ⟨e, he, rfl | rfl | rfl⟩ := mem_entryTasks.mp new <;> exact ⟨setUp, he⟩

theorem Outside.watchers (h : Outside os r r') : r.watches.length ≤ r'.watches.length := by
  cases h with
  | effect h => exact Nat.le_of_eq (congrArg List.length h.spares.watches.symm)
  | dropHandle | pass => simp only [Run.dropHandle, wake, Nat.le_refl]
  | watch => simp
  | _ => exact Nat.le_refl _

theorem Outside.knows (h : Outside os r r') (known : r.Knows t) : r'.Knows t :=
  known.mono h.keeps.settings h.watchers h.happened

theorem Outside.knows_of_holds (h : Outside os r r') (held : r'.Holds t) : r.Holds t ∨ r'.Knows t := by
  cases h with
  | effect h => exact .inl ((h.holds_iff t).mp held)
  | dropHandle => exact .inl ((holds_wake { r with handleHeld := false } t).mp held)
  | @pass _ time => exact .inl ((holds_wake { r with now := time } t).mp held)
  | takeUp => exact .inl ((holds_takeUp r t).mp held)
  | newHandle => exact .inl held
  | watch | run | signal =>
    rcases held with ready | parked
    · rcases List.mem_append.mp ready with old | new
      · exact .inl (.inl old)
      · right
        rw [List.mem_singleton.mp new]
        simp [Knows]
    · exact .inl (.inr parked)

/-- Every task that a run holds has business in it, and so has the one whose turn it is. -/
theorem Passes.knows (h : Passes settings services cur r) (ht : r.Holds t ∨ cur = some t) : r.Knows t := by
  induction h generalizing t with
  | initial =>
    rcases ht with (inQueue | parked) | none
    · cases inQueue
    · cases parked
    · cases none
  | outside _ h ih =>
    rcases ht with held | none
    · rcases h.knows_of_holds held with old | known
      · exact h.knows (ih (.inl old))
      · exact known
    · cases none
  | turn _ ready ih =>
    refine ih (.inl ?_)
    rcases ht with (inQueue | parked) | isCur
    · exact .inl (ready ▸ List.mem_cons_of_mem _ inQueue)
    · exact .inr parked
    · cases isCur
      exact .inl (ready ▸ List.mem_cons_self)
  | act _ h ih =>
    rcases ht with held | isCur
    · rcases h.knows_of_holds held with old | known
      · exact h.knows (ih (.inl old))
      · exact known
    · exact h.knows (ih (.inr isCur))
  | finished _ _ ih =>
    rcases ht with held | none
    · exact ih (.inl held)
    · cases none
  | park _ _ _ _ ih =>
    rcases ht with (inQueue | parked) | none
    · exact ih (.inl (.inl inQueue))
    · rcases mem_parked_park.mp parked with rfl | old
      · exact ih (.inr rfl)
      · exact ih (.inl (.inr old))
    · cases none

end Run

end Supervision
