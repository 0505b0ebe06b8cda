import Supervision.Proofs.Stages
import Supervision.Proofs.Turn

/-! The calls of one entry in the course of a run. Every entry has one start call and one stop call at most, the start
call comes first, the stop call waits for the shutdown, and restart calls do not overlap; when a run that was set up
returns, every entry has been started and stopped. -/

namespace Supervision

/-! ### Calls in a history -/

def Occurrence.ends (e : Nat) (phase : Phase) : Occurrence → Bool
  | .ended e' phase' _ _ => e' = e && phase' = phase
  | _ => false

def begunCalls (os : List Occurrence) (e : Nat) (phase : Phase) : Nat :=
  os.count (.began e phase)

def endedCalls (os : List Occurrence) (e : Nat) (phase : Phase) : Nat :=
  os.countP (·.ends e phase)

theorem begunCalls_append (os os' : List Occurrence) (e : Nat) (phase : Phase) :
    begunCalls (os ++ os') e phase = begunCalls os e phase + begunCalls os' e phase :=
  List.count_append

theorem endedCalls_append (os os' : List Occurrence) (e : Nat) (phase : Phase) :
    endedCalls (os ++ os') e phase = endedCalls os e phase + endedCalls os' e phase :=
  List.countP_append

theorem begunCalls_eq_zero {os : List Occurrence} {e : Nat} (h : ∀ o ∈ os, o.entry? ≠ some e) (phase : Phase) :
    begunCalls os e phase = 0 :=
  List.count_eq_zero.mpr fun mem => h _ mem rfl

theorem endedCalls_eq_zero {os : List Occurrence} {e : Nat} (h : ∀ o ∈ os, o.entry? ≠ some e) (phase : Phase) :
    endedCalls os e phase = 0 := by
  refine List.countP_eq_zero.mpr fun o mem ends => h o mem ?_
  cases o <;> simp_all [Occurrence.ends, Occurrence.entry?]

@[simp] theorem begunCalls_nil (e : Nat) (phase : Phase) : begunCalls [] e phase = 0 :=
  rfl

@[simp] theorem endedCalls_nil (e : Nat) (phase : Phase) : endedCalls [] e phase = 0 :=
  rfl

@[simp] theorem begunCalls_began (e : Nat) (p phase : Phase) :
    begunCalls [.began e p] e phase = if p = phase then 1 else 0 := by
  simp [begunCalls, List.count_singleton]

@[simp] theorem endedCalls_began (e : Nat) (p phase : Phase) : endedCalls [.began e p] e phase = 0 := by
  simp [endedCalls, Occurrence.ends]

@[simp] theorem begunCalls_ended (e : Nat) (p phase : Phase) (o : Outcome) (c : Bool) :
    begunCalls [.ended e p o c] e phase = 0 := by
  simp [begunCalls]

@[simp] theorem endedCalls_ended (e : Nat) (p phase : Phase) (o : Outcome) (c : Bool) :
    endedCalls [.ended e p o c] e phase = if p = phase then 1 else 0 := by
  simp [endedCalls, Occurrence.ends, List.countP_cons]

namespace Member

def begun (m : Member) : Phase → Nat
  | .start => m.start.begun
  | .restart => m.restarts
  | .stop => m.stop.begun

def ongoing (m : Member) : Phase → Nat
  | .start => m.start.pause?.isSome.toNat
  | .restart => m.restarting.isSome.toNat
  | .stop => m.stop.pause?.isSome.toNat

variable {e : Nat} {t : Task} {m m' : Member} {os os' : List Occurrence}

theorem Step.begun_eq (h : Member.Step e t os m m') (phase : Phase) :
    m'.begun phase = m.begun phase + begunCalls os e phase := by
  cases h with
  | beginStart h | pauseStart h | endStart h | beginStop h | pauseStop h | endStop h =>
    cases phase <;> simp [begun, CallState.begun, h]
  | beginRestart | endRestart => cases phase <;> simp [begun]
  | takeFirings | retire | pauseRestart | awaitStop => cases phase <;> rfl

theorem Step.ongoing_eq (h : Member.Step e t os m m') (phase : Phase) :
    m'.ongoing phase + endedCalls os e phase = m.ongoing phase + begunCalls os e phase := by
  cases h with
  | beginStart h | pauseStart h | endStart h | beginStop h | pauseStop h | endStop h =>
    cases phase <;> simp [ongoing, CallState.pause?, h]
  | beginRestart h | pauseRestart h | endRestart h =>
    cases phase <;> simp [ongoing, h]
  | takeFirings | retire | awaitStop => cases phase <;> rfl

end Member

/-- The member has kept count of the calls of its entry. -/
structure Tally (e : Nat) (m : Member) (os : List Occurrence) : Prop where
  begun : ∀ phase, begunCalls os e phase = m.begun phase
  ended : ∀ phase, endedCalls os e phase + m.ongoing phase = m.begun phase

theorem Tally.of_free {e : Nat} {m : Member} {os os' : List Occurrence} (h : Tally e m os)
    (free : ∀ o ∈ os', o.entry? ≠ some e) : Tally e m (os ++ os') where
  begun phase := by rw [begunCalls_append, begunCalls_eq_zero free, h.begun, Nat.add_zero]
  ended phase := by rw [endedCalls_append, endedCalls_eq_zero free, Nat.add_zero, h.ended]

theorem Tally.of_step {e : Nat} {t : Task} {m m' : Member} {os os' : List Occurrence} (h : Tally e m os)
    (step : Member.Step e t os' m m') : Tally e m' (os ++ os') where
  begun phase := by rw [begunCalls_append, step.begun_eq, h.begun]
  ended phase := by
    have ongoing := step.ongoing_eq phase
    have ended := h.ended phase
    rw [endedCalls_append, step.begun_eq]
    omega

/-! ### The order of calls -/

/-- What must have come before. A call begins once everything that it waits for has occurred, and its end tells whether
the run was cancelled by then. -/
def Occurrence.Follows (earlier : List Occurrence) : Occurrence → Prop
  | .began e .restart => .began e .start ∈ earlier ∧ endedCalls earlier e .restart = begunCalls earlier e .restart
  | .began e .stop => .began e .start ∈ earlier ∧ ∃ c, .shutDown c ∈ earlier
  | .ended _ _ _ flag => flag = true ↔ .cancelled ∈ earlier
  | _ => True

def InOrder (os : List Occurrence) : Prop :=
  Run.Throughout (fun earlier o => o.Follows earlier) os

/-- A restart call begins only when those before it have ended, so no two of them overlap. -/
theorem InOrder.restarts_apart {os : List Occurrence} (h : InOrder os) (e : Nat) :
    begunCalls os e .restart ≤ endedCalls os e .restart + 1 := by
  suffices apart : ∀ rest past, InOrder (past ++ rest) →
      begunCalls past e .restart ≤ endedCalls past e .restart + 1 →
      begunCalls (past ++ rest) e .restart ≤ endedCalls (past ++ rest) e .restart + 1 from
    apart os [] h (Nat.zero_le _)
  intro rest
  induction rest with
  | nil => exact fun past _ le => by rwa [List.append_nil]
  | cons o rest ih =>
    intro past ordered le
    rw [List.append_cons] at ordered ⊢
    refine ih (past ++ [o]) ordered ?_
    rw [begunCalls_append, endedCalls_append]
    by_cases began : o = .began e .restart
    · subst began
      obtain ⟨-, even⟩ := Run.Throughout.of_append ordered past (.began e .restart) [] rfl
      simp [even]
    · have none : begunCalls [o] e .restart = 0 := by simpa [begunCalls, List.count_eq_zero] using Ne.symm began
      omega

namespace Run

variable {settings : Settings} {services : List Service} {r r' : Run} {t : Task} {cur : Option Task} {e : Nat}
  {os : List Occurrence}

/-! ### Counting -/

theorem Act.tally (h : Act t os r r') (tally : Tally e (r.member e) r.happened) :
    Tally e (r'.member e) r'.happened := by
  rw [h.happened]
  rcases h.steps e with ⟨same, free⟩ | step
  · rw [same]
    exact tally.of_free free
  · exact tally.of_step step

theorem Passes.tally (h : Passes settings services cur r) (he : e < settings.entries.length) :
    Tally e (r.member e) r.happened := by
  refine h.invariant (P := fun r => Tally e (r.member e) r.happened) ?_ ?_ ?_ ?_
  · intro quota
    have fresh : ({ Run.initial settings services with quota := quota } : Run).member e = {} := by
      simp [Run.member, Run.initial, he]
    rw [fresh]
    constructor <;> intro phase <;> cases phase <;> rfl
  · exact fun _ _ _ _ _ ih => ih
  · intro os r r' _ h ih
    rw [member_of_members h.keeps.members, h.happened]
    exact ih.of_free fun o ho => by simp [entry?_of_isAside (h.isAside o ho)]
  · exact fun _ h ih => h.tally ih

/-! ### The start call first -/

theorem Act.start_unbegun (h : Act t os r r') (unbegun : (r'.member e).start = .unbegun) :
    (r.member e).start = .unbegun := by
  rcases h.steps e with ⟨same, -⟩ | step
  · rwa [same] at unbegun
  · generalize r.member e = m, r'.member e = m' at *
    cases step <;> simp_all

/-- The start task of an entry stands in the queue, and no other task of the entry before it. -/
def StartFirst (e : Nat) (queue parked : List Task) : Prop :=
  (∃ before after, queue = before ++ .start e :: after ∧ .restart e ∉ before ∧ .stop e ∉ before) ∧
    .restart e ∉ parked ∧ .stop e ∉ parked

theorem StartFirst.lines {queue : List Task} (h : StartFirst e (queue ++ r.ready) r.parked) (lines : Lines r r') :
    StartFirst e (queue ++ r'.ready) r'.parked := by
  obtain ⟨⟨before, after, split, noRestart, noStop⟩, restart, stop⟩ := h
  obtain ⟨⟨more, ready⟩, parked⟩ := lines
  refine ⟨⟨before, after ++ more, ?_, noRestart, noStop⟩, fun mem => restart (parked mem), fun mem => stop (parked mem)⟩
  rw [ready, ← List.append_assoc, split, List.append_assoc, List.cons_append]

theorem startFirst_entryTasks {n : Nat} (he : e < n) : StartFirst e (entryTasks n) [] := by
  refine ⟨?_, List.not_mem_nil, List.not_mem_nil⟩
  induction n with
  | zero => omega
  | succ n ih =>
    have tasks : entryTasks (n + 1) = entryTasks n ++ [.start n, .restart n, .stop n] := by
      simp [entryTasks, List.range_succ]
    rw [tasks]
    by_cases last : e = n
    · subst last
      exact ⟨entryTasks e, [.restart e, .stop e], rfl, by simp [mem_entryTasks], by simp [mem_entryTasks]⟩
    · obtain ⟨before, after, split, absent⟩ := ih (by omega)
      exact ⟨before, after ++ [.start n, .restart n, .stop n], by rw [split, List.append_assoc, List.cons_append], absent⟩

theorem StartFirst.tail {queue parked : List Task} (h : StartFirst e (t :: queue) parked) (ne : t ≠ .start e) :
    StartFirst e queue parked ∧ t ≠ .restart e ∧ t ≠ .stop e := by
  obtain ⟨⟨before, after, split, noRestart, noStop⟩, absent⟩ := h
  cases before with
  | nil => exact absurd (List.cons.inj split).1 ne
  | cons t' before =>
    obtain ⟨head, rest⟩ := List.cons.inj split
    subst head
    exact ⟨⟨⟨before, after, rest, fun mem => noRestart (List.mem_cons_of_mem _ mem),
      fun mem => noStop (List.mem_cons_of_mem _ mem)⟩, absent⟩,
      fun same => noRestart (same ▸ List.mem_cons_self), fun same => noStop (same ▸ List.mem_cons_self)⟩

theorem Passes.startFirst_equip (before : Passes settings services (some t) r) (he : e < settings.entries.length)
    (fresh : .setUp ∉ r.happened) (shutdown restart : Inbox) (b : Broadcast) :
    StartFirst e ([t] ++ (r.equip shutdown restart b).ready) (r.equip shutdown restart b).parked := by
  have absent (t' : Task) (entry : t' = .restart e ∨ t' = .stop e) : t' ∉ t :: r.ready ∧ t' ∉ r.parked := by
    have unknown : ¬ r.Knows t' := by
      rcases entry with rfl | rfl <;> exact fun known => fresh known.1
    refine ⟨fun mem => ?_, fun mem => unknown (before.knows (.inl (.inr mem)))⟩
    rcases List.mem_cons.mp mem with rfl | mem
    · exact unknown (before.knows (.inr rfl))
    · exact unknown (before.knows (.inl (.inl mem)))
  obtain ⟨noRestart, restartParked⟩ := absent (.restart e) (.inl rfl)
  obtain ⟨noStop, stopParked⟩ := absent (.stop e) (.inr rfl)
  obtain ⟨⟨ahead, after, split, restartAhead, stopAhead⟩, -⟩ := startFirst_entryTasks (before.settings_eq ▸ he)
  refine ⟨⟨t :: r.ready ++ ahead, after, ?_, ?_, ?_⟩, restartParked, stopParked⟩
  · simp [Run.equip, spawn, mark, log, split]
  · exact fun mem => (List.mem_append.mp mem).elim noRestart restartAhead
  · exact fun mem => (List.mem_append.mp mem).elim noStop stopAhead

/-- Until its start call has begun, the start task of an entry is ahead of the entry's other tasks. -/
theorem Passes.startFirst (h : Passes settings services cur r) (he : e < settings.entries.length)
    (setUp : .setUp ∈ r.happened) (unbegun : (r.member e).start = .unbegun) :
    StartFirst e (cur.toList ++ r.ready) r.parked := by
  induction h with
  | initial => cases setUp
  | @outside os r₀ r' _ h ih =>
    have earlier : .setUp ∈ r₀.happened := by
      rcases List.mem_append.mp (h.happened ▸ setUp) with earlier | now
      · exact earlier
      · cases h.isAside _ now
    exact (ih earlier (member_of_members h.keeps.members e ▸ unbegun)).lines h.lines
  | turn _ ready ih =>
    have first := ih setUp unbegun
    rwa [ready] at first
  | @act os r₀ r' t before h ih =>
    by_cases earlier : .setUp ∈ r₀.happened
    · exact (ih earlier (h.start_unbegun unbegun)).lines h.lines
    · have now := (List.mem_append.mp (h.happened ▸ setUp)).resolve_left earlier
      obtain ⟨shutdown, restart, b, rfl⟩ := h.equip_of_setUp now
      exact before.startFirst_equip he earlier shutdown restart b
  | finished _ finished ih =>
    refine ((ih setUp unbegun).tail ?_).1
    rintro rfl
    simp [isOver, unbegun, CallState.isEnded] at finished
  | @park r t _ _ _ _ may ih =>
    -- the start task does not park before its call has begun, so whoever parks is another
    have other : t ≠ .start e := by
      rintro rfl
      exact may unbegun
    obtain ⟨⟨queue, restart, stop⟩, notRestart, notStop⟩ := (ih setUp unbegun).tail other
    refine ⟨queue, fun mem => ?_, fun mem => ?_⟩
    · exact (mem_parked_park.mp mem).elim (fun own => notRestart own.symm) restart
    · exact (mem_parked_park.mp mem).elim (fun own => notStop own.symm) stop

/-- At a turn of another task of the entry its start call has begun. -/
theorem Passes.start_began (h : Passes settings services (some t) r) (task : t = .restart e ∨ t = .stop e) :
    .began e .start ∈ r.happened := by
  obtain ⟨setUp, he⟩ : .setUp ∈ r.happened ∧ e < settings.entries.length := by
    rcases task with rfl | rfl
    · exact h.registered .restart
    · exact h.registered .stop
  have begun : (r.member e).start ≠ .unbegun := fun unbegun => by
    obtain ⟨-, notRestart, notStop⟩ := (h.startFirst he setUp unbegun).tail (by rcases task with rfl | rfl <;> simp)
    exact task.elim notRestart notStop
  have counted := (h.tally he).begun .start
  refine List.count_pos_iff.mp ?_
  rw [← begunCalls, counted]
  cases start : (r.member e).start <;> simp_all [Member.begun, CallState.begun]

/-! ### The whole history -/

theorem Act.begins {phase : Phase} (h : Act t os r r') (mem : .began e phase ∈ os) :
    os = [.began e phase] ∧ t = .ofCall e phase ∧ (phase = .restart → (r.member e).restarting = none) ∧
      (phase = .stop → r.cause.isFired = true) := by
  cases h with
  | beginStart | beginRestart | beginStop =>
    cases List.mem_singleton.mp mem
    simp_all [Task.ofCall]
  | aside h => cases h.isAside _ mem
  | shutDown _ reason => cases reason <;> simp at mem
  | _ => simp at mem

theorem Act.ends {phase : Phase} {o : Outcome} {cancelled : Bool} (h : Act t os r r')
    (mem : .ended e phase o cancelled ∈ os) :
    os = [.ended e phase o cancelled] ∧ t = .ofCall e phase ∧ cancelled = r.cancelled := by
  cases h with
  | endStart | endRestart | endStop =>
    cases List.mem_singleton.mp mem
    exact ⟨rfl, rfl, rfl⟩
  | aside h => cases h.isAside _ mem
  | shutDown _ reason => cases reason <;> simp at mem
  | _ => simp at mem

theorem eq_nil_of_singleton {o : Occurrence} {earlier later : List Occurrence} (h : [o] = earlier ++ o :: later) :
    earlier = [] := by
  cases earlier <;> simp_all

theorem Act.follows (before : Passes settings services (some t) r) (h : Act t os r r') :
    ∀ earlier o later, os = earlier ++ o :: later → o.Follows (r.happened ++ earlier) := by
  intro earlier o later split
  have mem : o ∈ os := split ▸ List.mem_append_right _ List.mem_cons_self
  cases o with
  | began e phase =>
    obtain ⟨alone, task, idle, fired⟩ := h.begins mem
    obtain rfl := eq_nil_of_singleton (alone ▸ split)
    rw [List.append_nil]
    cases phase with
    | start => trivial
    | restart =>
      subst task
      have tally := before.tally (before.registered _).2
      have even := tally.ended .restart
      rw [← tally.begun .restart, Member.ongoing, idle rfl] at even
      exact ⟨before.start_began (.inl rfl), even⟩
    | stop => exact ⟨before.start_began (.inr task), before.isFired_iff.mp (fired rfl)⟩
  | ended e phase outcome cancelled =>
    obtain ⟨alone, -, flag⟩ := h.ends mem
    obtain rfl := eq_nil_of_singleton (alone ▸ split)
    rw [List.append_nil, Occurrence.Follows, flag]
    exact before.cancelled_iff
  | _ => trivial

theorem Passes.inOrder (h : Passes settings services cur r) : InOrder r.happened := by
  refine h.invariant (P := fun r => InOrder r.happened) ?_ (fun _ _ _ _ _ ih => ih) ?_ ?_
  · intro quota earlier o later split
    simp [Run.happened, Run.initial] at split
  · intro os r r' _ h ih
    rw [h.happened]
    refine Throughout.append ih fun earlier o later split => ?_
    have aside := h.isAside o (split ▸ by simp)
    cases o <;> trivial
  · intro t os r r' before h ih
    rw [h.happened]
    exact Throughout.append ih (h.follows before)

/-- The calls of entry `e` up to now are those of one life: started once at most, stopped once at most and only after the
start and the shutdown, restarted only after the start and never twice at a time. -/
structure Orderly (r : Run) (e : Nat) : Prop where
  start_once : begunCalls r.happened e .start ≤ 1
  stop_once : begunCalls r.happened e .stop ≤ 1
  stop_gated : 0 < begunCalls r.happened e .stop → r.cause.isFired = true
  stop_after : ∀ earlier later, r.happened = earlier ++ .began e .stop :: later →
    .began e .start ∈ earlier ∧ ∃ c, .shutDown c ∈ earlier
  restart_after : ∀ earlier later, r.happened = earlier ++ .began e .restart :: later → .began e .start ∈ earlier
  restarts_apart : ∀ earlier later, r.happened = earlier ++ later →
    begunCalls earlier e .restart ≤ endedCalls earlier e .restart + 1

structure Completed (r : Run) (e : Nat) : Prop where
  start_once : begunCalls r.happened e .start = 1
  stop_once : begunCalls r.happened e .stop = 1
  stop_ended : endedCalls r.happened e .stop = 1

theorem begun_le_one (c : CallState) : c.begun ≤ 1 := by
  cases c <;> simp [CallState.begun]

theorem Passes.orderly (h : Passes settings services cur r) (he : e < settings.entries.length) : r.Orderly e where
  start_once := (h.tally he).begun .start ▸ begun_le_one _
  stop_once := (h.tally he).begun .stop ▸ begun_le_one _
  stop_gated begun := by
    obtain ⟨earlier, later, split⟩ := List.append_of_mem (List.count_pos_iff.mp begun)
    obtain ⟨-, c, shutDown⟩ := h.inOrder earlier _ later split
    exact h.isFired_iff.mpr ⟨c, split ▸ List.mem_append_left _ shutDown⟩
  stop_after earlier later split := h.inOrder earlier _ later split
  restart_after earlier later split := (h.inOrder earlier _ later split).1
  restarts_apart earlier later split := InOrder.restarts_apart (Throughout.of_append (split ▸ h.inOrder)) e

theorem Passes.completed (h : Passes settings services cur r) (stopped : r.allStopped = true)
    (he : e < settings.entries.length) : r.Completed e := by
  have tally := h.tally he
  have orderly := h.orderly he
  have ended : (r.member e).stop = .ended := allStopped_iff.mp stopped e
  have stops : begunCalls r.happened e .stop = 1 := by
    rw [tally.begun, Member.begun, ended]
    rfl
  refine ⟨?_, stops, ?_⟩
  · obtain ⟨earlier, later, split⟩ := List.append_of_mem (List.count_pos_iff.mp (Nat.lt_of_lt_of_eq Nat.one_pos stops.symm))
    have started : .began e .start ∈ r.happened := split ▸ List.mem_append_left _ (orderly.stop_after _ _ split).1
    exact Nat.le_antisymm orderly.start_once (List.count_pos_iff.mpr started)
  · have all := tally.ended .stop
    rwa [← tally.begun, stops, Member.ongoing, ended] at all

/-- In every state of a run the calls of every entry are in order, and once a run that was set up has returned every
entry has been started once and stopped once. -/
theorem orderly_calls (h : (initial settings services).Reaches r) :
    (∀ e < settings.entries.length, r.Orderly e) ∧
      ∀ v time, r.stage = .returned v time → v.isFault = false → ∀ e < settings.entries.length, r.Completed e := by
  have passes := Passes.of_reaches h
  refine ⟨fun e he => passes.orderly he, fun v time returned sound e he => ?_⟩
  exact passes.completed (passes.allStopped (by simp [returned, Stage.hasStopped, sound])) he

theorem orderly_calls_pair : (∀ e < 2, pairRun.Orderly e) ∧ ∀ e < 2, pairRun.Completed e := by
  obtain ⟨orderly, completed⟩ := orderly_calls reaches_pairRun
  have returned : pairRun.stage = .returned (.failures [⟨"second", .stop, .panic "stuck"⟩]) 0 := by rfl
  exact ⟨orderly, completed _ _ returned rfl⟩

end Run

end Supervision
