import Supervision.Proofs.Acquisition
import Supervision.Proofs.Verdict
import Supervision.Proofs.Waking

/-! A run is set up as a whole or not at all. The supervising task tries at its first turn, before any call can begin. If
anything cannot be had, the run returns at that turn, and from then on it is as if it had never been: no call begins,
nobody learns of a cause, and every handle is refused. -/

namespace Supervision

def Verdict.listed : Verdict → List Failure
  | .failures fs => fs
  | _ => []

def Stage.isClosed (s : Stage) : Bool :=
  s.hasShutDown || s.hasReturned

theorem Stage.Step.spawned {os : List Occurrence} {s s' : Stage} (h : Stage.Step os s s') (spawned : s' = .spawned) :
    s = .spawned := by
  cases h with
  | stay => exact spawned
  | _ => cases spawned

namespace Run

variable {settings : Settings} {services : List Service} {r r' : Run} {t : Task} {cur : Option Task} {e : Nat}
  {os : List Occurrence} {f : SetupFault} {v : Verdict} {time : Nat} {c : Cause}

/-! ### The first turn -/

/-- From when the supervisor was handed over until its first turn, the supervising task is in the queue. -/
theorem Passes.queued (h : Passes settings services cur r) (spawned : r.stage = .spawned) :
    .supervise ∈ r.ready ∨ cur = some .supervise := by
  -- only its own turn takes the task from the queue, and at the end of that the run is past this stage
  induction h with
  | initial => cases spawned
  | outside _ h ih =>
    left
    rcases h.stage_eq with same | ⟨idle, -⟩
    · obtain ⟨⟨more, ready⟩, -⟩ := h.lines
      rw [ready]
      exact List.mem_append_left more ((ih (same ▸ spawned)).resolve_right (by simp))
    · exact h.spawns idle (by simp [spawned])
  | turn _ ready ih =>
    rcases ih spawned with waiting | none
    · rcases List.mem_cons.mp (ready ▸ waiting) with own | later
      · exact .inr (congrArg some own.symm)
      · exact .inl later
    · cases none
  | act _ h ih =>
    have earlier := h.stage_step.spawned spawned
    obtain ⟨⟨more, ready⟩, -⟩ := h.lines
    rw [ready]
    exact (ih earlier).imp_left (List.mem_append_left more)
  | finished _ finished ih =>
    rcases ih spawned with waiting | own
    · exact .inl waiting
    · cases own
      simp [isOver, spawned, Stage.hasReturned] at finished
  | park _ _ _ place ih =>
    rcases ih spawned with waiting | own
    · exact .inl waiting
    · cases own
      exact absurd spawned place

theorem stage_superviseTurn_of_lacks (spawned : r.stage = .spawned) (lacks : acquire r.settings = .error f) :
    r.superviseTurn.stage = .returned (.fault f) r.now := by
  simp only [superviseTurn, spawned, setUp, lacks]
  rfl

theorem Acts.happened_grows (h : Acts t r r') : r.happened <+: r'.happened := by
  induction h with
  | refl => exact List.prefix_refl _
  | tail _ act ih =>
    obtain ⟨os, act⟩ := act
    rw [act.happened]
    exact ih.trans (List.prefix_append _ os)

theorem setUp_superviseTurn {streams : Inbox × Inbox × Broadcast} (spawned : r.stage = .spawned)
    (has : acquire r.settings = .ok streams) : .setUp ∈ r.superviseTurn.happened := by
  obtain ⟨shutdown, restart, b⟩ := streams
  simp only [superviseTurn, spawned, setUp, has]
  have equipped : Act .supervise [.setUp] r (r.equip shutdown restart b) := .equip spawned has
  have running : (r.equip shutdown restart b).stage = .running {} := rfl
  obtain ⟨acts, -⟩ := acts_attend running (fun _ => rfl) (rank_lt_attendSteps _ {})
  apply acts.happened_grows.subset
  rw [equipped.happened]
  exact List.mem_append_right _ (List.mem_singleton_self _)

/-- At its first turn the supervising task sets the run up, or the run returns with what it lacks. -/
theorem tick_spawned {rest : List Task} (spawned : r.stage = .spawned) (ready : r.ready = .supervise :: rest) :
    ∃ r', r.tick? = some r' ∧
      (∀ streams, acquire r.settings = .ok streams → .setUp ∈ r'.happened) ∧
      ∀ f, acquire r.settings = .error f → r'.stage = .returned (.fault f) r.now := by
  refine ⟨turn { r with ready := rest } .supervise, by rw [tick?, ready], fun streams has => ?_, fun f lacks => ?_⟩
  · rw [turn_eq]
    exact setUp_superviseTurn (by exact spawned) has
  · rw [turn_eq]
    exact stage_superviseTurn_of_lacks (by exact spawned) lacks

/-! ### What a run lacks -/

theorem Act.has_of_setUp (h : Act t os r r') (setUp : .setUp ∈ os) : ∃ streams, acquire r.settings = .ok streams := by
  cases h with
  | equip _ has => exact ⟨_, has⟩
  | aside h => cases h.isAside _ setUp
  | shutDown _ reason => cases reason <;> simp at setUp
  | _ => simp at setUp

theorem Passes.has_of_setUp (h : Passes settings services cur r) (setUp : .setUp ∈ r.happened) :
    ∃ streams, acquire settings = .ok streams := by
  obtain ⟨t, os, r₁, r₂, before, act, now, -⟩ := h.act_of_mem setUp rfl
  rw [← before.settings_eq]
  exact act.has_of_setUp now

theorem Passes.not_setUp_of_lacks (h : Passes settings services cur r) (lacks : acquire settings = .error f) :
    .setUp ∉ r.happened := by
  intro setUp
  obtain ⟨streams, has⟩ := h.has_of_setUp setUp
  rw [lacks] at has
  cases has

theorem Passes.verdict_of_lacks (h : Passes settings services cur r) (lacks : acquire settings = .error f)
    (returned : r.stage = .returned v time) : v = .fault f := by
  rcases h.verdict returned with ⟨f', rfl, lacks'⟩ | rfl
  · rw [lacks] at lacks'
    cases lacks'
    rfl
  · have setUp : r.stage.isSetUp = true := by
      rw [returned, Stage.isSetUp, Verdict.isFault_ofFailures]
      rfl
    exact absurd (h.isSetUp_iff.mp setUp) (h.not_setUp_of_lacks lacks)

theorem Passes.stage_of_lacks (h : Passes settings services cur r) (lacks : acquire settings = .error f) :
    r.stage = .idle ∨ r.stage = .spawned ∨ ∃ time, r.stage = .returned (.fault f) time := by
  have early : r.stage.isSetUp ≠ true := mt h.isSetUp_iff.mp (h.not_setUp_of_lacks lacks)
  cases stage : r.stage with
  | idle => exact .inl rfl
  | spawned => exact .inr (.inl rfl)
  | returned v time => exact .inr (.inr ⟨time, by rw [h.verdict_of_lacks lacks stage]⟩)
  | running | stopping | leaving => simp [stage, Stage.isSetUp] at early

theorem Passes.hasShutDown_of_lacks (h : Passes settings services cur r) (lacks : acquire settings = .error f) :
    r.stage.hasShutDown = false := by
  rcases h.stage_of_lacks lacks with stage | stage | ⟨time, stage⟩ <;> rw [stage] <;> rfl

theorem Passes.failures_of_lacks (h : Passes settings services cur r) (lacks : acquire settings = .error f) :
    r.failures = [] := by
  rw [h.failures, List.filterMap_eq_nil_iff]
  intro o mem
  cases call : o.entry? with
  | none => exact Occurrence.failure?_of_entry? call
  | some e => exact absurd (h.registered_of_call mem call).1 (h.not_setUp_of_lacks lacks)

theorem Outside.mem_watches {x : Nat × Cause} (h : Outside os r r') (mem : some x ∈ r'.watches) :
    some x ∈ r.watches := by
  cases h with
  | effect h => rwa [h.spares.watches] at mem
  | watch => simpa using mem
  | dropHandle | pass => simpa only [Run.dropHandle, wake] using mem
  | _ => exact mem

theorem Passes.learned {x : Nat × Cause} (h : Passes settings services cur r) (mem : some x ∈ r.watches) :
    r.cause.value = some x.2 := by
  refine h.invariant (P := fun r => some x ∈ r.watches → r.cause.value = some x.2) ?_ (fun _ _ _ _ _ ih => ih) ?_ ?_ mem
  · intro quota mem
    cases mem
  · intro os r r' _ h ih mem
    rw [h.keeps.cause]
    exact ih (h.mem_watches mem)
  · intro t os r r' _ h ih mem
    have cause : r.cause.value = some x.2 := by
      rcases h.watches with same | ⟨w, c, cause, set⟩
      · exact ih (same ▸ mem)
      · rw [set] at mem
        rcases List.mem_or_eq_of_mem_set mem with earlier | now
        · exact ih earlier
        · cases now
          exact cause
    rw [h.cause_value, cause]
    rfl

/-! ### Handles -/

/-- Commands are refused from the shutdown on, or from when the run returned with a fault. -/
theorem Act.commandsClosed (h : Act t os r r') :
    (r'.commandsClosed = true ∧ r'.stage.isClosed = true) ∨
      r'.commandsClosed = r.commandsClosed ∧ r'.stage.isClosed = r.stage.isClosed := by
  cases h with
  | aside h => exact .inr ⟨h.spares.commandsClosed, congrArg Stage.isClosed h.spares.stage⟩
  | fail => exact .inl ⟨rfl, rfl⟩
  | shutDown =>
    left
    rw [stage_announce]
    exact ⟨by simp only [announce, log, wake], rfl⟩
  | finish leaving | expire leaving =>
    right
    rw [leaving]
    refine ⟨by simp only [Run.finish, giveVerdict, mark, log, wake], ?_⟩
    simp [Run.finish, giveVerdict, Stage.isClosed, Stage.hasReturned, Stage.hasShutDown]
  | endStart | endRestart | endStop | takeFirings | deliver | receive | obey =>
    right
    simp only [Run.endStart, Run.endRestart, Run.endStop, Run.takeFirings, Run.deliver, update, report, markEnd, mark,
      wake, and_self]
  | equip before | pass before | stopListening before | leave before =>
    right
    rw [before]
    exact ⟨rfl, rfl⟩
  | _ => exact .inr ⟨rfl, rfl⟩

theorem Passes.commandsClosed (h : Passes settings services cur r) : r.commandsClosed = r.stage.isClosed := by
  refine h.invariant (P := fun r => r.commandsClosed = r.stage.isClosed) (fun _ => rfl) (fun _ _ _ _ _ ih => ih) ?_ ?_
  · intro os r r' _ h ih
    rw [h.stage_congr (f := Stage.isClosed) rfl, h.keeps.commandsClosed, ih]
  · intro t os r r' _ h ih
    rcases h.commandsClosed with ⟨closed, stage⟩ | ⟨closed, stage⟩
    · rw [closed, stage]
    · rw [closed, stage, ih]

theorem send_of_closed (closed : r.commandsClosed = true) (c : Command) :
    r.send c = (if r.handleHeld then .refused else .noHandle, r) := by
  unfold send
  cases r.handleHeld <;> simp [closed]

/-! ### All or nothing -/

/-- The run has been set up, or is about to be. -/
structure Admitted (r : Run) : Prop where
  queued : r.stage = .spawned → .supervise ∈ r.ready
  atOnce : ∀ rest, r.stage = .spawned → r.ready = .supervise :: rest → ∃ r', r.tick? = some r' ∧ .setUp ∈ r'.happened
  setUp : r.stage = .idle ∨ r.stage = .spawned ∨ .setUp ∈ r.happened
  unfailed : ∀ f time, r.stage ≠ .returned (.fault f) time

/-- The run has returned with a fault, or is about to, and there has been nothing else of it. -/
structure Barred (f : SetupFault) (r : Run) : Prop where
  queued : r.stage = .spawned → .supervise ∈ r.ready
  atOnce : ∀ rest, r.stage = .spawned → r.ready = .supervise :: rest →
    ∃ r', r.tick? = some r' ∧ r'.stage = .returned (.fault f) r.now
  returned : r.stage = .idle ∨ r.stage = .spawned ∨ ∃ time, r.stage = .returned (.fault f) time
  uncalled : ∀ e phase, .began e phase ∉ r.happened
  unfired : r.cause.value = none ∧ ∀ c, .shutDown c ∉ r.happened
  unlearned : ∀ w ∈ r.watches, w = none
  refused : r.stage.hasReturned = true →
    r.commandsClosed = true ∧ ∀ c, r.send c = (if r.handleHeld then .refused else .noHandle, r)
  unlisted : r.failures = [] ∧ ∀ v time, r.stage = .returned v time → v.listed = []

theorem Passes.admitted (h : Passes settings services none r) {streams : Inbox × Inbox × Broadcast}
    (has : acquire settings = .ok streams) : r.Admitted where
  queued spawned := (h.queued spawned).resolve_right (by simp)
  atOnce rest spawned ready := by
    obtain ⟨r', turn, setUp, -⟩ := tick_spawned spawned ready
    exact ⟨r', turn, setUp streams (h.settings_eq.symm ▸ has)⟩
  setUp := by
    cases stage : r.stage with
    | idle => exact .inl rfl
    | spawned => exact .inr (.inl rfl)
    | running | stopping | leaving => exact .inr (.inr (h.isSetUp_iff.mp (by rw [stage]; rfl)))
    | returned v time =>
      rcases h.verdict stage with ⟨f, -, lacks⟩ | rfl
      · rw [has] at lacks
        cases lacks
      · refine .inr (.inr (h.isSetUp_iff.mp ?_))
        rw [stage, Stage.isSetUp, Verdict.isFault_ofFailures]
        rfl
  unfailed f time returned := by
    rcases h.verdict returned with ⟨f', -, lacks⟩ | tells
    · rw [has] at lacks
      cases lacks
    · have sound := Verdict.isFault_ofFailures (failuresAtReturn settings.entries r.happened)
      rw [← tells] at sound
      cases sound

theorem Passes.barred (h : Passes settings services none r) (lacks : acquire settings = .error f) : r.Barred f where
  queued spawned := (h.queued spawned).resolve_right (by simp)
  atOnce rest spawned ready := by
    obtain ⟨r', turn, -, returned⟩ := tick_spawned spawned ready
    exact ⟨r', turn, returned f (h.settings_eq.symm ▸ lacks)⟩
  returned := h.stage_of_lacks lacks
  uncalled e phase mem := h.not_setUp_of_lacks lacks (h.registered_of_call mem rfl).1
  unfired := by
    have shutDown := h.hasShutDown_of_lacks lacks
    have unfired : r.cause.isFired = false := h.isFired_eq.trans shutDown
    exact ⟨by simpa [Latch.isFired] using unfired, h.not_shutDown shutDown⟩
  unlearned w mem := by
    cases w with
    | none => rfl
    | some x =>
      have fired : r.cause.isFired = true := by simp [Latch.isFired, h.learned mem]
      rw [h.isFired_eq, h.hasShutDown_of_lacks lacks] at fired
      cases fired
  refused returned := by
    have closed : r.commandsClosed = true := h.commandsClosed.trans (by simp [Stage.isClosed, returned])
    exact ⟨closed, send_of_closed closed⟩
  unlisted := by
    refine ⟨h.failures_of_lacks lacks, fun v time returned => ?_⟩
    rw [h.verdict_of_lacks lacks returned]
    rfl

/-- Streams that are too large keep a run from being set up, else the first signal listed that is refused, else a backlog
that is too large. Then the run returns at the first turn of its supervising task, and neither before nor ever after does
a call begin or anybody learn of a cause; handles are refused, and no stream of anybody else has more or less in it than
if the run had not been tried. If nothing is in the way, the run is set up at that turn. -/
theorem setUp_all_or_nothing (settings : Settings) (services : List Service) :
    (settings.setupFault? = none → ∀ r, (initial settings services).Reaches r → r.Admitted) ∧
    ∀ f, settings.setupFault? = some f →
      (f.isPanic = true ↔ streamLimit < settings.signals.capacity ∨
        SetupFault.ofSignals? (settings.signals.shutdown ++ settings.signals.restart) = none) ∧
      (∀ r, (initial settings services).Reaches r → r.Barred f) ∧
      ∀ (others : SignalSettings) (before after : List SignalStep),
        let s := (SignalSession.play { settings := others } before).2
        let attempt := s.acquire settings
        attempt.1 = .error f ∧ (attempt.2.play after).1 = (s.play after).1 ∧
          ∀ i, (attempt.2.play after).2.stream? i = (s.play after).2.stream? i := by
  refine ⟨fun possible r reached => ?_,
    fun f fault => ⟨isPanic_iff fault, fun r reached => ?_, fun others before after => ?_⟩⟩
  · obtain ⟨streams, has⟩ := acquire_ok_iff.mpr possible
    exact (Passes.of_reaches reached).admitted has
  · exact (Passes.of_reaches reached).barred (acquire_error_iff.mpr fault)
  · have tuned := (SignalSession.tuned_initial others).play before
    obtain ⟨s', attempt, spares⟩ := SignalSession.acquire_error (acquire_error_iff.mpr fault) tuned
    simp only [attempt]
    obtain ⟨answers, agrees⟩ := spares.agrees.play tuned spares.tuned after
    exact ⟨trivial, answers.symm, fun i => (agrees.look i).symm⟩

def refusedSettings : Settings :=
  { pairSettings with
    signals := { restart := [1, 9, 64, 0], capacity_pos := Nat.one_pos }, restartBacklog := backlogLimit + 1 }

/-- A restart is asked for and somebody waits for the cause before the run is tried, and a shutdown is asked for
afterwards. -/
def refusedRun : Run :=
  ((((((initial refusedSettings pairServices).perform (.command .restart 1)).2.perform .watch).2.perform .run).2.serve
    20).perform (.command .shutdown 1)).2

theorem reaches_refusedRun : (initial refusedSettings pairServices).Reaches refusedRun :=
  ((((Reaches.rfl.act (.command .restart 1) rfl).act .watch rfl).act .run rfl).serve 20).act (.command .shutdown 1) rfl

theorem setUp_all_or_nothing_refused :
    refusedRun.Barred (.refused 9 (.forbidden 9)) ∧
      refusedRun.stage = .returned (.fault (.refused 9 (.forbidden 9))) 0 ∧ refusedRun.commands = [.restart] ∧
      ((SignalSession.play { settings := {} } [.listen .shutdown, .raise 15]).2.acquire refusedSettings).2.listeners =
        [⟨2, 0⟩, ⟨15, 0⟩, ⟨2, 1⟩, ⟨15, 1⟩, ⟨1, 2⟩] ∧
      (((SignalSession.play { settings := {} } [.listen .shutdown, .raise 15]).2.acquire refusedSettings).2.play
        [.raise 1, .receive 0, .raise 2, .receive 0]).1 = [.raised, .received (some 15), .raised, .received (some 2)] ∧
      pairRun.Admitted := by
  have fault : refusedSettings.setupFault? = some (.refused 9 (.forbidden 9)) := by decide
  obtain ⟨-, barred, unheard⟩ := (setUp_all_or_nothing refusedSettings pairServices).2 _ fault
  obtain ⟨-, answers, -⟩ := unheard {} [.listen .shutdown, .raise 15] [.raise 1, .receive 0, .raise 2, .receive 0]
  refine ⟨barred _ reaches_refusedRun, by decide, by decide, by decide, answers.trans rfl, ?_⟩
  exact (setUp_all_or_nothing pairSettings pairServices).1 (by decide) _ reaches_pairRun

end Run

end Supervision
