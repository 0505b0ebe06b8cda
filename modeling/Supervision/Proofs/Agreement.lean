import Supervision.Proofs.Commands

/-! Everybody is told the same cause. The cause is fixed in the same moment in which the commands are closed, and neither
is ever taken back; whoever waits for the cause waits until then, and whoever was told a cause was told this one. -/

namespace Supervision

def Member.pause? (m : Member) : Phase → Option Pause
  | .start => m.start.pause?
  | .restart => m.restarting
  | .stop => m.stop.pause?

namespace Run

variable {settings : Settings} {services : List Service} {r r' : Run} {t t' : Task} {cur : Option Task} {e : Nat}
  {os : List Occurrence} {c : Cause} {p : Pause}

/-! ### What has happened stays -/

theorem Passes.happened_tick (h : Passes settings services none r) (turn : r.tick? = some r') :
    r.happened <+: r'.happened := by
  obtain ⟨t, rest, ready, rfl⟩ := tick_cases turn
  rw [turn_eq]
  exact (h.acts_turn ready).1.happened_grows

theorem Passes.happened_grows (h : Passes settings services none r) (later : r.Reaches r') :
    r.happened <+: r'.happened := by
  refine (later.invariant (P := fun r' => Passes settings services none r' ∧ r.happened <+: r'.happened)
    ⟨h, List.prefix_refl _⟩ ?_ ?_).2
  · intro r₁ r₂ ⟨passed, grown⟩ turn
    exact ⟨(passed.tick turn).1, grown.trans (passed.happened_tick turn)⟩
  · intro os r₁ r₂ ⟨passed, grown⟩ step
    refine ⟨passed.outside step, ?_⟩
    rw [step.happened]
    exact grown.trans (List.prefix_append _ os)

theorem Passes.cause_stays (h : Passes settings services none r) (cause : r.cause.value = some c) (later : r.Reaches r') :
    r'.cause.value = some c :=
  (h.reaches later).cause_eq_iff.mpr ((h.happened_grows later).subset (h.cause_eq_iff.mp cause))

theorem Act.cause_stays (h : Act t os r r') (cause : r.cause.value = some c) : r'.cause.value = some c := by
  rw [h.cause_value, cause]
  rfl

/-! ### What is told -/

theorem pause?_ofCall (r : Run) (e : Nat) (phase : Phase) : r.pause? (.ofCall e phase) = (r.member e).pause? phase := by
  cases phase <;> rfl

theorem exists_ofCall_of_pause? (h : r.pause? t = some p) : ∃ e phase, t = .ofCall e phase := by
  cases t with
  | start e => exact ⟨e, .start, rfl⟩
  | restart e => exact ⟨e, .restart, rfl⟩
  | stop e => exact ⟨e, .stop, rfl⟩
  | supervise | watch | signal => cases h

theorem pause?_of_members (h : r'.members = r.members) (t : Task) : r'.pause? t = r.pause? t := by
  cases t with
  | start e | restart e | stop e => simp only [pause?, member_of_members h]
  | supervise | watch | signal => rfl

theorem mayAwait_of_modify {f : Member → Member} (h : r'.members = r.members.modify e f)
    (may : ∀ phase p, (f (r.member e)).pause? phase = some p → r.MayAwait (.ofCall e phase) p)
    (paused : r'.pause? t = some p) : r.MayAwait t p := by
  obtain ⟨e', phase, rfl⟩ := exists_ofCall_of_pause? paused
  rw [pause?_ofCall] at paused
  by_cases same : e' = e
  · subst same
    by_cases he : e' < r.members.length
    · rw [member_modify h he] at paused
      exact may phase p paused
    · rw [member_of_le (by simpa [h] using he)] at paused
      cases phase <;> cases paused
  · rw [member_modify_ne h same] at paused
    exact .inl ((pause?_ofCall r e' phase).trans paused)

theorem mayAwait_of_same {phase : Phase} (same : (r.member e).pause? phase = some p) : r.MayAwait (.ofCall e phase) p :=
  .inl ((pause?_ofCall r e phase).trans same)

/-- A call that is in progress after an act waits for what it may await. -/
theorem Act.mayAwait (h : Act t os r r') (paused : r'.pause? t' = some p) : r.MayAwait t' p := by
  have unmoved (members : r'.members = r.members) : r.MayAwait t' p := .inl (pause?_of_members members t' ▸ paused)
  cases h with
  | aside h => exact unmoved h.spares.members
  | beginStart | retire | beginRestart | awaitStop | beginStop =>
    refine mayAwait_of_modify rfl (fun phase p paused => ?_) paused
    cases phase <;> first
      | exact mayAwait_of_same paused
      | cases paused; exact mayAwait_of_none rfl
  | pauseStart _ may | pauseRestart _ may | pauseStop _ may =>
    refine mayAwait_of_modify rfl (fun phase p paused => ?_) paused
    cases phase <;> first
      | exact mayAwait_of_same paused
      | cases paused; exact may
  | takeFirings =>
    refine mayAwait_of_modify (r.members_takeFirings _ _ _) (fun phase p paused => ?_) paused
    cases phase <;> exact mayAwait_of_same paused
  | endStart _ o =>
    refine mayAwait_of_modify (r.members_endStart _ o) (fun phase p paused => ?_) paused
    cases phase <;> first
      | exact mayAwait_of_same paused
      | cases paused
  | endRestart _ o =>
    refine mayAwait_of_modify (r.members_endRestart _ o) (fun phase p paused => ?_) paused
    cases phase <;> first
      | exact mayAwait_of_same paused
      | cases paused
  | endStop _ o =>
    refine mayAwait_of_modify (r.members_endStop _ o) (fun phase p paused => ?_) paused
    cases phase <;> first
      | exact mayAwait_of_same paused
      | cases paused
  | deliver | fail | equip | receive | obey | finish | expire =>
    refine unmoved ?_
    simp only [Run.deliver, Run.fail, Run.equip, Run.finish, giveVerdict, mark, log, spawn, wake]
  | shutDown _ reason =>
    refine unmoved ?_
    cases reason <;> simp only [announce, mark, log, wake]
  | learn | miss | pass | stopListening | leave => exact unmoved rfl

theorem Act.tells {o : Occurrence} (h : Act t os r r') (mem : o ∈ os) (note : o.isNote = true) : r.Tells o := by
  cases h with
  | aside h =>
    cases h with
    | note o' _ tells => exact List.mem_singleton.mp mem ▸ tells
    | effect h => cases h <;> cases List.mem_singleton.mp mem <;> cases note
    | lend | spend | defer => cases mem
  | receive | obey =>
    simp only [List.mem_cons, List.not_mem_nil, or_false] at mem
    rcases mem with rfl | rfl <;> cases note
  | shutDown _ reason =>
    rcases List.mem_append.mp mem with reasons | last
    · cases reason with
      | requested =>
        cases List.mem_singleton.mp reasons
        cases note
      | cancelled | exited | signal => cases reasons
    · cases List.mem_singleton.mp last
      cases note
  | beginStart | endStart | beginRestart | endRestart | beginStop | endStop | deliver | miss | fail | equip | finish |
      expire =>
    cases List.mem_singleton.mp mem
    cases note
  | _ => cases mem

/-- The cause that a call was told. -/
def toldBy : Occurrence → Option Cause
  | .learned _ _ c | .noted _ _ _ (.cause c) => some c
  | _ => none

theorem cause_of_view (h : r.view = .cause c) : r.cause.value = some c := by
  unfold view at h
  split at h
  · split at h
    · rename_i c' cause
      cases h
      exact cause
    · cases h
  · cases h

theorem cause_of_toldBy_noted {phase : Phase} {flag : Bool} (h : toldBy (.noted e phase flag r.view) = some c) :
    r.cause.value = some c := by
  refine cause_of_view ?_
  cases view : r.view with
  | cause c' =>
    rw [view] at h
    cases h
    rfl
  | noHandle | «open» =>
    rw [view] at h
    cases h

/-- Whatever cause is told is the cause. -/
structure Informs (r : Run) : Prop where
  paused : ∀ t p c, r.pause? t = some p → p.cause? = some c → r.cause.value = some c
  told : ∀ o ∈ r.happened, ∀ c, toldBy o = some c → r.cause.value = some c

theorem isNote_of_toldBy {o : Occurrence} (h : toldBy o = some c) : o.isNote = true := by
  cases o with
  | learned | noted => rfl
  | _ => cases h

theorem Informs.tells {o : Occurrence} (h : r.Informs) (tells : r.Tells o) (told : toldBy o = some c) :
    r.cause.value = some c := by
  cases o with
  | learned e phase c' =>
    obtain ⟨p, paused, knows⟩ := tells
    cases told
    exact h.paused _ p _ paused knows
  | noted e phase flag view =>
    cases tells
    exact cause_of_toldBy_noted told
  | _ => cases told

theorem Act.informs (h : Act t os r r') (ih : r.Informs) : r'.Informs where
  paused t' p c paused knows := by
    refine h.cause_stays ?_
    rcases h.mayAwait paused with before | known
    · exact ih.paused t' p c before knows
    · exact known c knows
  told o mem c told := by
    refine h.cause_stays ?_
    rcases List.mem_append.mp (h.happened ▸ mem) with old | now
    · exact ih.told o old c told
    · exact ih.tells (h.tells now (isNote_of_toldBy told)) told

theorem Outside.not_isNote {o : Occurrence} (h : Outside os r r') (mem : o ∈ os) : o.isNote = false := by
  cases h with
  | effect h => cases h <;> cases List.mem_singleton.mp mem <;> rfl
  | _ => cases mem

theorem pause?_initial (settings : Settings) (services : List Service) (t : Task) :
    (Run.initial settings services).pause? t = none := by
  cases t with
  | start e | restart e | stop e =>
    by_cases he : e < settings.entries.length <;> simp [pause?, Run.initial, member, he, CallState.pause?]
  | supervise | watch | signal => rfl

theorem Passes.informs (h : Passes settings services cur r) : r.Informs := by
  refine h.invariant (P := Informs) (fun quota => ?_) (fun _ _ _ _ _ ih => ?_) (fun _ h ih => ?_) fun _ h ih => h.informs ih
  · refine ⟨fun t p c paused => ?_, fun o mem => by cases mem⟩
    cases ((pause?_of_members rfl t).trans (pause?_initial settings services t)).symm.trans paused
  · exact ⟨fun t p c paused => ih.paused t p c (pause?_of_members rfl t ▸ paused), ih.told⟩
  · refine ⟨fun t p c paused => ?_, fun o mem c told => ?_⟩
    · rw [h.keeps.cause]
      exact ih.paused t p c (pause?_of_members h.keeps.members t ▸ paused)
    · rw [h.keeps.cause]
      refine ih.told o ((List.mem_append.mp (h.happened ▸ mem)).resolve_right fun now => ?_) c told
      have note := isNote_of_toldBy told
      rw [h.not_isNote now] at note
      cases note

/-! ### Nobody waits in vain -/

theorem ongoing_of_pause? {call : CallState} (h : call.pause? = some p) : call = .ongoing p := by
  cases call <;> simp_all [CallState.pause?]

theorem isDue_of_awaits {phase : Phase} {next : Behaviour} (fired : r.cause.isFired = true)
    (awaits : (r.member e).pause? phase = some (.cause next)) : r.isDue (.ofCall e phase) = true := by
  cases phase with
  | start => simp [Task.ofCall, isDue, ongoing_of_pause? awaits, lets, fired]
  | restart => simp [Task.ofCall, isDue, show (r.member e).restarting = _ from awaits, lets, fired]
  | stop => simp [Task.ofCall, isDue, ongoing_of_pause? awaits, lets, fired]

theorem Passes.live_of_paused {phase : Phase} (h : Passes settings services cur r) (he : e < settings.entries.length)
    (paused : (r.member e).pause? phase = some p) : r.isOver (.ofCall e phase) = false := by
  cases phase with
  | start => simp [Task.ofCall, isOver, ongoing_of_pause? paused, CallState.isEnded]
  | stop => simp [Task.ofCall, isOver, ongoing_of_pause? paused, CallState.isEnded]
  | restart =>
    cases retired : (r.member e).retired with
    | false => exact retired
    | true => cases (h.retired he retired).idle.symm.trans paused

theorem Passes.lt_of_paused {phase : Phase} (h : Passes settings services cur r)
    (paused : (r.member e).pause? phase = some p) : e < settings.entries.length := by
  rw [← h.members_length]
  refine Nat.lt_of_not_le fun absent => ?_
  rw [member_of_le absent] at paused
  cases phase <;> cases paused

/-- When there is a cause and nothing is left to do, nobody waits for the cause any more. -/
theorem Passes.all_told (h : Passes settings services none r) (settled : r.isSettled = true)
    (fired : r.cause.isFired = true) : none ∉ r.watches ∧ ∀ t next, r.pause? t ≠ some (.cause next) := by
  refine ⟨fun mem => ?_, fun t next paused => ?_⟩
  · obtain ⟨w, hw, waits⟩ := List.mem_iff_getElem.mp mem
    have due : r.isDue (.watch w) = false := h.not_due settled hw (by simp) (by simp [isOver, hw, waits])
    rw [isDue, fired] at due
    cases due
  · obtain ⟨e, phase, rfl⟩ := exists_ofCall_of_pause? paused
    rw [pause?_ofCall] at paused
    have he := h.lt_of_paused paused
    have setUp : .setUp ∈ r.happened := h.isSetUp_iff.mp (Stage.isSetUp_of_hasShutDown (h.isFired_eq ▸ fired))
    have known : r.Knows (.ofCall e phase) := by
      cases phase <;> exact ⟨setUp, h.settings_eq.symm ▸ he⟩
    have due := h.not_due settled known (by cases phase <;> simp [Task.ofCall]) (h.live_of_paused he paused)
    rw [isDue_of_awaits fired paused] at due
    cases due

/-! ### One cause -/

/-- Handles agree with one another, and with what they say at any other time. -/
structure Agrees (r : Run) : Prop where
  /-- Until the run is polled, commands are accepted and there is no cause. -/
  early : r.stage = .idle ∨ r.stage = .spawned → r.commandsClosed = false ∧ r.cause.value = none
  closed : .setUp ∈ r.happened → (r.commandsClosed = true ↔ r.cause.value.isSome = true)
  answered : .setUp ∈ r.happened → r.handleHeld = true → ∀ command,
    (r.send command).1 = if r.cause.value.isSome then .refused else .sent
  /-- A cause is never taken back and never exchanged for another. -/
  kept : ∀ c, r.cause.value = some c → ∀ r', r.Reaches r' → r'.cause.value = some c
  /-- Whatever watchers were told, and whatever calls were told or are about to note, is the cause. -/
  watched : ∀ time c, some (time, c) ∈ r.watches → r.cause.value = some c
  informed : r.Informs
  /-- Nobody waits for the cause once there is one and nothing is left to do. -/
  heard : r.isSettled = true → r.cause.value.isSome = true → none ∉ r.watches ∧ ∀ t next, r.pause? t ≠ some (.cause next)

theorem Passes.closed_iff (h : Passes settings services cur r) (setUp : .setUp ∈ r.happened) :
    r.commandsClosed = true ↔ r.cause.value.isSome = true := by
  have isSetUp := h.isSetUp_iff.mpr setUp
  rw [h.commandsClosed, ← Latch.isFired, h.isFired_eq]
  cases stage : r.stage <;> simp_all [Stage.isSetUp, Stage.isClosed, Stage.hasShutDown, Stage.hasReturned]

theorem answer_of_held (held : r.handleHeld = true) (command : Command) :
    (r.send command).1 = if r.commandsClosed then .refused else .sent := by
  unfold send
  cases closed : r.commandsClosed <;> simp [held]

/-- One cause at most comes of a run. It is fixed when the commands are closed, it is there for good, and it is what
everybody is told who asks for it, sooner or later. -/
theorem one_cause_for_all (h : (initial settings services).Reaches r) : r.Agrees := by
  have passes := Passes.of_reaches h
  exact {
    early := fun early => by
      have unfired : r.cause.isFired = false := by
        rw [passes.isFired_eq]
        rcases early with stage | stage <;> rw [stage] <;> rfl
      refine ⟨?_, by simpa [Latch.isFired] using unfired⟩
      rw [passes.commandsClosed]
      rcases early with stage | stage <;> rw [stage] <;> rfl
    closed := passes.closed_iff
    answered := fun setUp held command => by
      rw [answer_of_held held]
      exact if_congr (passes.closed_iff setUp) rfl rfl
    kept := fun c cause r' later => passes.cause_stays cause later
    watched := fun time c mem => passes.learned mem
    informed := passes.informs
    heard := passes.all_told }

def watchedShutDown : Run :=
  (((((initial pairSettings eagerServices).perform .watch).2.perform .run).2.serve 20).perform
    (.command .shutdown 1)).2.serve 20

/-- Later somebody else begins to watch, and the run is cancelled. -/
def watchedRun : Run :=
  ((((watchedShutDown.advance 2).serve 20).perform .watch).2.perform .cancel).2.serve 20

theorem reaches_watchedRun : (initial pairSettings eagerServices).Reaches watchedRun := by
  have shutDown : (initial pairSettings eagerServices).Reaches watchedShutDown :=
    ((((Reaches.rfl.act .watch rfl).act .run rfl).serve 20).act (.command .shutdown 1) rfl).serve 20
  have inTime : ∀ d, watchedShutDown.nextDeadline? = some d → 2 ≤ d := by decide
  exact ((((shutDown.advance (by decide) inTime).serve 20).act .watch rfl).act .cancel rfl).serve 20

theorem one_cause_for_all_watched :
    watchedRun.Agrees ∧ watchedRun.cause.value = some .requested ∧ watchedRun.cancelled = true ∧
      watchedRun.watches = [some (0, .requested), some (2, .requested)] ∧
      .learned 0 .start .requested ∈ watchedRun.happened :=
  ⟨one_cause_for_all reaches_watchedRun, by decide, by decide, by decide, by decide⟩

end Run

end Supervision
