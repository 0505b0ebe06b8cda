import Mathlib.Logic.Function.Iterate
import Supervision.Proofs.Commands

/-! One turn of the supervising task, told by what it finds: cancellation comes before the exit of a service, that before
a shutdown signal, and that before restart signals and commands, of which all are acted on up to the first command to
shut down. The turn ends with a cause, or with nothing left to act on, unless its budget runs out before. -/

namespace Supervision

namespace Run

variable {r r' r'' : Run} {t : Task} {round round' : Round} {os os' : List Occurrence} {c : Cause}

/-! ### What there is to do -/

/-- What the run fires for at a turn of its supervising task, and the cause for which it then shuts down, if there is
any. -/
def agenda (r : Run) : List Occurrence × Option Cause :=
  if r.cancelled then ([], some .cancelled)
  else match r.exit.value with
    | some name => ([], some (.exited name))
    | none => match r.shutdownInbox.queue with
      | n :: _ => ([], some (.signal n))
      | [] => (r.restartInbox.queue.map .received ++ (r.commands.takeWhile (· = .restart)).map .obeyed,
          if .shutdown ∈ r.commands then some .requested else none)

structure Calm (r : Run) : Prop where
  uncancelled : r.cancelled = false
  unexited : r.exit.value = none
  unsignalled : r.shutdownInbox.queue = []

theorem Calm.agenda (calm : r.Calm) :
    r.agenda = (r.restartInbox.queue.map .received ++ (r.commands.takeWhile (· = .restart)).map .obeyed,
      if .shutdown ∈ r.commands then some .requested else none) := by
  simp only [Run.agenda, calm.uncancelled, calm.unexited, calm.unsignalled]
  rfl

theorem Calm.isFired_exit (calm : r.Calm) : r.exit.isFired = false := by
  rw [Latch.isFired, calm.unexited]
  rfl

/-- The run has fired for each of `os` in turn, and nothing else has become of it but what that wakes and costs. -/
structure Acted (os : List Occurrence) (r r' : Run) : Prop where
  happened : r'.happened = r.happened ++ os.flatMap fun o => [o, .fired]
  restarts : r'.restarts = Broadcast.fire^[os.length] r.restarts
  queue : r.restartInbox.queue = receivedIn os ++ r'.restartInbox.queue
  commands : r.commands = obeyedIn os ++ r'.commands
  settings : r'.settings = r.settings
  now : r'.now = r.now
  cancelled : r'.cancelled = r.cancelled
  exit : r'.exit = r.exit
  cause : r'.cause = r.cause
  shutdownInbox : r'.shutdownInbox = r.shutdownInbox
  orphaned : r'.orphaned = r.orphaned
  members : r'.members = r.members
  failures : r'.failures = r.failures
  deferred : r'.deferred = r.deferred

theorem Acted.refl (r : Run) : Acted [] r r :=
  ⟨(List.append_nil _).symm, rfl, rfl, rfl, rfl, rfl, rfl, rfl, rfl, rfl, rfl, rfl, rfl, rfl⟩

theorem Acted.trans (h : Acted os r r') (h' : Acted os' r' r'') : Acted (os ++ os') r r'' where
  happened := by rw [h'.happened, h.happened, List.flatMap_append, List.append_assoc]
  restarts := by rw [h'.restarts, h.restarts, List.length_append, Nat.add_comm, Function.iterate_add_apply]
  queue := by rw [h.queue, h'.queue, receivedIn_append, List.append_assoc]
  commands := by rw [h.commands, h'.commands, obeyedIn_append, List.append_assoc]
  settings := h'.settings.trans h.settings
  now := h'.now.trans h.now
  cancelled := h'.cancelled.trans h.cancelled
  exit := h'.exit.trans h.exit
  cause := h'.cause.trans h.cause
  shutdownInbox := h'.shutdownInbox.trans h.shutdownInbox
  orphaned := h'.orphaned.trans h.orphaned
  members := h'.members.trans h.members
  failures := h'.failures.trans h.failures
  deferred := h'.deferred.trans h.deferred

theorem Acted.calm (h : Acted os r r') (calm : r.Calm) : r'.Calm :=
  ⟨h.cancelled.trans calm.uncancelled, h.exit ▸ calm.unexited, h.shutdownInbox ▸ calm.unsignalled⟩

/-! ### One look -/

/-- A look finds what comes first: a cause, or something else to act on with the rest left to do, or nothing; or it is put
off for want of budget. -/
def Heeds (r : Run) (round : Round) : Sight × Run → Prop
  | (.cause c, r') => r.agenda = ([], some c) ∧
      ∃ r₁ round₁ os, Acted [] r r₁ ∧ r₁.stage = .running round₁ ∧ Reason os c r₁ r'
  | (.news, r') => ∃ os, Acted os r r' ∧ r.agenda = (os ++ r'.agenda.1, r'.agenda.2) ∧
      ∃ round', r'.stage = .running round' ∧ (round'.listening = false → r'.commands = []) ∧
        r'.rank round' < r.rank round
  | (.nothing, r') => r'.deferred = .supervise :: r.deferred ∨
      r.agenda = ([], none) ∧ Acted [] r r' ∧
        ∃ round', r'.stage = .running round' ∧ round'.listening = round.listening ∧ r'.isCalled round'.listening = false

theorem Heeds.after {x : Sight × Run} (h' : Heeds r' round' x) (h : Acted [] r r') (calm : r.Calm)
    (queue : r'.restartInbox = r.restartInbox) (listening : round'.listening = round.listening) : Heeds r round x := by
  have commands : r'.commands = r.commands := h.commands.symm
  have agenda : r'.agenda = r.agenda := by rw [(h.calm calm).agenda, calm.agenda, queue, commands]
  have rank : r'.rank round' = r.rank round := by rw [rank, rank, queue, commands, listening]
  obtain ⟨sight, r₂⟩ := x
  cases sight with
  | cause c =>
    obtain ⟨all, r₁, round₁, os, acted, reason⟩ := h'
    exact ⟨agenda ▸ all, r₁, round₁, os, h.trans acted, reason⟩
  | news =>
    obtain ⟨os, acted, rest, round₂, stage, deaf, less⟩ := h'
    exact ⟨os, h.trans acted, agenda ▸ rest, round₂, stage, deaf, rank ▸ less⟩
  | nothing =>
    rcases h' with spent | ⟨all, acted, round₂, stage, same, uncalled⟩
    · exact .inl (spent.trans (congrArg _ h.deferred))
    · exact .inr ⟨agenda ▸ all, h.trans acted, round₂, stage, same.trans listening, uncalled⟩

/-- The run with its round got beyond a stream, which changes nothing that is looked at later. -/
def getPast (r : Run) (round : Round) : Run :=
  { r.spend with stage := .running round }

theorem acted_getPast (r : Run) (round : Round) : Acted [] r (r.getPast round) :=
  ⟨(List.append_nil _).symm, rfl, rfl, rfl, rfl, rfl, rfl, rfl, rfl, rfl, rfl, rfl, rfl, rfl⟩

def prompted (r : Run) (round : Round) (o : Occurrence) (event : Event) (queue : List Int) (commands : List Command) : Run :=
  wake { r.spend with
    restartInbox := { r.restartInbox with queue := queue }
    commands := commands
    stage := .running round.next
    restarts := r.restarts.fire
    history := r.historyWith [o, .fired]
    trace := r.trace ++ [event] }

theorem acted_prompted {o : Occurrence} {queue : List Int} {commands : List Command}
    (received : r.restartInbox.queue = receivedIn [o] ++ queue) (obeyed : r.commands = obeyedIn [o] ++ commands)
    (round : Round) (event : Event) : Acted [o] r (r.prompted round o event queue commands) where
  happened := happened_of_history rfl
  restarts := rfl
  queue := received
  commands := obeyed
  settings := rfl
  now := rfl
  cancelled := rfl
  exit := rfl
  cause := rfl
  shutdownInbox := rfl
  orphaned := rfl
  members := rfl
  failures := rfl
  deferred := rfl

theorem lookAtRestarts_of_queue {n : Int} {rest : List Int} (queue : r.restartInbox.queue = n :: rest)
    (affords : (!round.restartPassed && r.isSpent) = false) :
    r.lookAtRestarts round = (.news, r.prompted round (.received n) (.restartSignal n) rest r.commands) := by
  simp only [lookAtRestarts, affords, Inbox.receive, queue, fire_log_mark]
  rfl

theorem lookAtCommands_of_restart {rest : List Command} (listening : round.listening = true)
    (affords : r.isSpent = false) (commands : r.commands = .restart :: rest) :
    r.lookAtCommands round =
      (.news, r.prompted round (.obeyed .restart) .restartRequested r.restartInbox.queue rest) := by
  simp only [lookAtCommands, listening, affords, commands, fire_log_mark]
  rfl

theorem heeds_spent (r : Run) (round : Round) : Heeds r round (.nothing, r.defer .supervise) :=
  .inl rfl

theorem heeds_nothing (h : r.stage = .running round) (calm : r.Calm) (received : r.restartInbox.queue = [])
    (empty : r.commands = []) (quiet : (round.listening && r.orphaned) = false) : Heeds r round (.nothing, r) := by
  refine .inr ⟨by simp [calm.agenda, received, empty], .refl r, round, h, rfl, ?_⟩
  simp [isCalled, calm.uncancelled, calm.isFired_exit, calm.unsignalled, received, empty, quiet]

theorem heeds_commands (h : r.stage = .running round) (deaf : round.listening = false → r.commands = []) (calm : r.Calm)
    (received : r.restartInbox.queue = []) : Heeds r round (r.lookAtCommands round) := by
  cases listening : round.listening with
  | false =>
    rw [lookAtCommands, if_pos (by simp [listening])]
    exact heeds_nothing h calm received (deaf listening) (by simp [listening])
  | true =>
    cases spent : r.isSpent with
    | true =>
      simp only [lookAtCommands, listening, spent]
      exact heeds_spent r round
    | false =>
      cases commands : r.commands with
      | nil =>
        simp only [lookAtCommands, listening, spent, commands]
        cases orphaned : r.orphaned with
        | false => exact heeds_nothing h calm received commands (by simp [orphaned])
        | true =>
          have acted := acted_getPast r { round.next with listening := false }
          refine ⟨[], acted, rfl, _, rfl, fun _ => commands, ?_⟩
          simp [rank, spend, listening]
      | cons c rest =>
        cases c with
        | restart =>
          rw [lookAtCommands_of_restart listening spent commands]
          have acted : Acted [.obeyed .restart] r (r.prompted round _ .restartRequested r.restartInbox.queue rest) :=
            acted_prompted rfl commands round .restartRequested
          refine ⟨_, acted, ?_, round.next, rfl, fun unlistening => ?_, ?_⟩
          · rw [calm.agenda, (acted.calm calm).agenda]
            simp [prompted, wake, received, commands]
          · cases listening.symm.trans unlistening
          · simp [rank, prompted, wake, spend, commands, Round.next, listening]
        | shutdown =>
          simp only [lookAtCommands, listening, spent, commands]
          exact ⟨by simp [calm.agenda, received, commands], r, round, _, .refl r, h, .requested commands⟩

theorem heeds_restarts (h : r.stage = .running round) (deaf : round.listening = false → r.commands = []) (calm : r.Calm) :
    Heeds r round (r.lookAtRestarts round) := by
  cases affords : !round.restartPassed && r.isSpent with
  | true =>
    rw [lookAtRestarts, if_pos affords]
    exact heeds_spent r round
  | false =>
    cases queue : r.restartInbox.queue with
    | cons n rest =>
      rw [lookAtRestarts_of_queue queue affords]
      have acted : Acted [.received n] r (r.prompted round _ (.restartSignal n) rest r.commands) :=
        acted_prompted queue rfl round (.restartSignal n)
      refine ⟨_, acted, ?_, round.next, rfl, deaf, ?_⟩
      · rw [calm.agenda, (acted.calm calm).agenda, queue]
        rfl
      · simp [rank, prompted, wake, spend, queue, Round.next]
    | nil =>
      rw [lookAtRestarts, if_neg (by simp [affords])]
      simp only [Inbox.receive, queue]
      split
      · let passed : Round := { round with restartPassed := true }
        have stage : (r.getPast passed).stage = .running passed := rfl
        have acted := acted_getPast r passed
        exact (heeds_commands stage deaf (acted.calm calm) queue).after acted calm rfl rfl
      · exact heeds_commands h deaf calm queue

theorem heeds_shutdowns (h : r.stage = .running round) (deaf : round.listening = false → r.commands = [])
    (uncancelled : r.cancelled = false) (unexited : r.exit.value = none) :
    Heeds r round (r.lookAtShutdowns round) := by
  cases queue : r.shutdownInbox.queue with
  | cons n rest =>
    simp only [lookAtShutdowns, Inbox.receive, queue]
    refine ⟨?_, r, round, [], .refl r, h, .signal queue⟩
    simp only [agenda, uncancelled, unexited, queue]
    rfl
  | nil =>
    have calm : r.Calm := ⟨uncancelled, unexited, queue⟩
    simp only [lookAtShutdowns, Inbox.receive, queue]
    split
    · let passed : Round := { round with shutdownPassed := true }
      have stage : (r.getPast passed).stage = .running passed := rfl
      have acted := acted_getPast r passed
      exact (heeds_restarts stage deaf (acted.calm calm)).after acted calm rfl rfl
    · exact heeds_restarts h deaf calm

theorem heeds_look (h : r.stage = .running round) (deaf : round.listening = false → r.commands = []) :
    Heeds r round (r.look round) := by
  unfold look
  split
  · exact heeds_spent r round
  · cases cancelled : r.cancelled with
    | true => exact ⟨by simp [agenda, cancelled], r, round, [], .refl r, h, .cancelled cancelled⟩
    | false =>
      cases exit : r.exit.value with
      | some name => exact ⟨by simp [agenda, cancelled, exit], r, round, [], .refl r, h, .exited cancelled exit⟩
      | none => exact heeds_shutdowns h deaf cancelled exit

/-! ### A whole turn -/

/-- How the turn ends that acts on what there is to do: with the shutdown for which there is a cause, or with nothing left
that calls the run. -/
def Concludes (r : Run) : Option Cause → Run → Prop
  | some c, r' => ∃ os r₂, Reason os c r r₂ ∧ r' = r₂.shutDown c
  | none, r' => r' = r ∧ ∃ round, r.stage = .running round ∧ r.isCalled round.listening = false ∧
      (round.listening = false → r.commands = [])

theorem attend_heeds {fuel : Nat} (h : r.stage = .running round) (deaf : round.listening = false → r.commands = [])
    (enough : r.rank round < fuel) (lasts : (attend fuel r).deferred = r.deferred) :
    ∃ r₁, Acted r.agenda.1 r r₁ ∧ Concludes r₁ r.agenda.2 (attend fuel r) := by
  induction fuel generalizing r round with
  | zero => exact absurd enough (Nat.not_lt_zero _)
  | succ fuel ih =>
    have heeds := heeds_look h deaf
    simp only [attend, h] at lasts ⊢
    generalize r.look round = x at heeds lasts ⊢
    obtain ⟨sight, r'⟩ := x
    cases sight with
    | cause c =>
      obtain ⟨agenda, r₁, round₁, os, acted, -, reason⟩ := heeds
      rw [agenda]
      exact ⟨r₁, acted, os, r', reason, rfl⟩
    | news =>
      obtain ⟨os, acted, agenda, round', stage, deaf', less⟩ := heeds
      obtain ⟨r₁, acted', concludes⟩ := ih stage deaf' (by omega) (lasts.trans acted.deferred.symm)
      rw [agenda]
      exact ⟨r₁, acted.trans acted', concludes⟩
    | nothing =>
      rcases heeds with spent | ⟨agenda, acted, round', stage, listening, uncalled⟩
      · exact absurd (congrArg List.length (spent.symm.trans lasts)) (by simp)
      · rw [agenda]
        exact ⟨r', acted, rfl, round', stage, uncalled, fun unlistening =>
          acted.commands.symm.trans (deaf (listening ▸ unlistening))⟩

theorem attend_enough {fuel fuel' : Nat} (h : r.stage = .running round) (deaf : round.listening = false → r.commands = [])
    (enough : r.rank round < fuel) (enough' : r.rank round < fuel') : attend fuel r = attend fuel' r := by
  -- every round with news leaves less to do
  induction fuel generalizing r round fuel' with
  | zero => exact absurd enough (Nat.not_lt_zero _)
  | succ fuel ih =>
    cases fuel' with
    | zero => exact absurd enough' (Nat.not_lt_zero _)
    | succ fuel' =>
      have heeds := heeds_look h deaf
      simp only [attend, h]
      generalize r.look round = x at heeds ⊢
      obtain ⟨sight, r'⟩ := x
      cases sight with
      | news =>
        obtain ⟨os, -, -, round', stage, deaf', less⟩ := heeds
        exact ih stage deaf' (by omega) (by omega)
      | cause | nothing => rfl

/-! ### What comes after a cause -/

/-- Beyond its shutdown a run waits for its calls, and changes nothing else before it returns. -/
structure WindsUp (r r' : Run) : Prop where
  happened : r'.happened = r.happened ∨ r'.happened = r.happened ++ [.returned]
  stage : r'.stage.hasShutDown = true
  cause : r'.cause = r.cause
  commands : r'.commands = r.commands
  fired : r'.restarts.fired = r.restarts.fired

theorem windsUp_stage {s : Stage} (r : Run) (shutDown : s.hasShutDown = true) : WindsUp r { r with stage := s } :=
  ⟨.inl rfl, shutDown, rfl, rfl, rfl⟩

theorem windsUp_finish (r : Run) : WindsUp r r.finish where
  happened := .inr (by simp [finish, giveVerdict, mark, log, wake, happened])
  stage := by
    simp only [finish, giveVerdict, Stage.hasShutDown, Verdict.isFault_ofFailures]
    rfl
  cause := rfl
  commands := rfl
  fired := rfl

theorem windsUp_leave (h : r.stage.hasShutDown = true) (deadline : Option Nat) : WindsUp r (r.leave deadline) := by
  unfold leave
  split
  · exact windsUp_finish r
  · split
    · exact windsUp_stage r h
    · split
      · have winds := windsUp_finish (r.log (.graceExpired r.stillRunning))
        exact ⟨winds.happened, winds.stage, winds.cause, winds.commands, winds.fired⟩
      · exact windsUp_stage r h

theorem windsUp_awaitStops (h : r.stage.hasShutDown = true) : WindsUp r r.awaitStops := by
  have left : ({ r with stage := .leaving r.graceEnd? } : Run).stage.hasShutDown = true := rfl
  unfold awaitStops
  split
  · have winds := windsUp_leave left r.graceEnd?
    exact ⟨winds.happened, winds.stage, winds.cause, winds.commands, winds.fired⟩
  · exact windsUp_stage r h

theorem windsUp_shutDown (r : Run) (c : Cause) :
    WindsUp { r with cause := r.cause.fire c, history := r.historyWith [.shutDown c] } (r.shutDown c) := by
  have winds := windsUp_awaitStops (r := r.announce c) (by rw [stage_announce]; rfl)
  exact ⟨winds.happened, winds.stage, winds.cause, winds.commands, winds.fired⟩

theorem Act.not_obeyed (h : Act t os r r') (shutDown : r.stage.hasShutDown = true) (command : Command) :
    .obeyed command ∉ os := by
  intro mem
  cases h with
  | aside h => cases h.isAside _ mem
  | obey running | shutDown running =>
    rw [running] at shutDown
    cases shutDown
  | _ => simp at mem

theorem Acts.not_obeyed (h : Acts t r r') (shutDown : r.stage.hasShutDown = true) :
    r'.stage.hasShutDown = true ∧ obeyedIn r'.happened = obeyedIn r.happened := by
  induction h with
  | refl => exact ⟨shutDown, rfl⟩
  | tail _ act ih =>
    obtain ⟨os, act⟩ := act
    refine ⟨act.stage_step.shutDown_iff.mpr (.inl ih.1), ?_⟩
    rw [act.happened, obeyedIn_append, obeyedIn_eq_nil (act.not_obeyed ih.1), List.append_nil, ih.2]

/-- Once there is a cause, the turn of a task is made of acts in whatever state it begins. -/
theorem acts_act_of_hasShutDown (shutDown : r.stage.hasShutDown = true) (t : Task) :
    Acts t r (r.act t) ∨ (r.act t).stage = r.stage ∧ (r.act t).happened = r.happened := by
  cases t with
  | supervise =>
    show Acts _ r r.superviseTurn ∨ r.superviseTurn.stage = r.stage ∧ r.superviseTurn.happened = r.happened
    cases stage : r.stage with
    | idle | spawned | running => simp [stage, Stage.hasShutDown] at shutDown
    | stopping =>
      simp only [superviseTurn, stage]
      exact .inl (acts_awaitStops stage).1
    | leaving deadline =>
      simp only [superviseTurn, stage]
      exact .inl (acts_leave stage).1
    | returned =>
      simp only [superviseTurn, stage]
      exact .inl .refl
  | start e => exact .inl (acts_startTurn r e).1
  | restart e => exact .inl (acts_restartTurn r e).1
  | stop e => exact .inl (acts_stopTurn r e).1
  | signal n => exact .inl (acts_signalTurn r n).1
  | watch w =>
    right
    show (r.watchTurn w).stage = r.stage ∧ (r.watchTurn w).happened = r.happened
    unfold watchTurn
    split <;> exact ⟨rfl, rfl⟩

theorem turn_not_obeyed (shutDown : r.stage.hasShutDown = true) (t : Task) :
    (r.turn t).stage.hasShutDown = true ∧ obeyedIn (r.turn t).happened = obeyedIn r.happened := by
  let begun : Run := { r with budget := r.quota, deferred := r.deferred.erase t }
  have begins : begun.stage.hasShutDown = true := shutDown
  rw [turn_eq]
  rcases acts_act_of_hasShutDown begins t with acts | ⟨stage, happened⟩
  · exact acts.not_obeyed begins
  · exact ⟨(congrArg _ stage).trans begins, congrArg obeyedIn happened⟩

theorem not_obeyed_of_reaches (h : r.Reaches r') (shutDown : r.stage.hasShutDown = true) :
    obeyedIn r'.happened = obeyedIn r.happened := by
  refine (h.invariant (P := fun r' => r'.stage.hasShutDown = true ∧ obeyedIn r'.happened = obeyedIn r.happened)
    ⟨shutDown, rfl⟩ ?_ ?_).2
  · intro r₁ r₂ ih turn
    obtain ⟨t, rest, -, rfl⟩ := tick_cases turn
    obtain ⟨stage, obeyed⟩ := turn_not_obeyed (r := { r₁ with ready := rest }) ih.1 t
    exact ⟨stage, obeyed.trans ih.2⟩
  · intro os r₁ r₂ ih step
    rw [step.hasShutDown, step.happened, obeyedIn_append, step.obeyedIn_eq_nil, List.append_nil]
    exact ih

/-! ### The turn in closed form -/

/-- After the turn the run shuts down for `c`, having fired for each of `prompts`. The commands left are never acted
on. -/
structure ShutsDown (prompts : List Occurrence) (c : Cause) (r r' : Run) : Prop where
  happened : ∃ more ∈ [[], [.returned]], r'.happened = r.happened ++ (prompts.flatMap fun o => [o, .fired]) ++
    (if c = .requested then [.obeyed .shutdown] else []) ++ .shutDown c :: more
  restarts : r'.restarts.fired = (Broadcast.fire^[prompts.length] r.restarts).fired
  cause : r'.cause = r.cause.fire c
  stage : r'.stage.hasShutDown = true
  left : r.commands = obeyedIn prompts ++ (if c = .requested then [.shutdown] else []) ++ r'.commands
  never : ∀ later, r'.Reaches later → obeyedIn later.happened = obeyedIn r'.happened

structure StaysUp (prompts : List Occurrence) (r r' : Run) : Prop where
  acted : Acted prompts r r'
  running : ∃ round, r'.stage = .running round
  received : r'.restartInbox.queue = []
  obeyed : r'.commands = []
  waits : r'.isDue .supervise = false

theorem Reason.notice (h : Reason os c r r') :
    os = (if c = .requested then [.obeyed .shutdown] else []) ∧ r'.cause = r.cause ∧ r'.restarts = r.restarts ∧
      r.commands = (if c = .requested then [.shutdown] else []) ++ r'.commands := by
  cases h with
  | requested commands => exact ⟨rfl, rfl, rfl, commands⟩
  | cancelled | exited | signal => exact ⟨rfl, rfl, rfl, rfl⟩

theorem Acted.shutsDown {prompts : List Occurrence} (h : Acted prompts r r') (reason : Reason os c r' r'') :
    ShutsDown prompts c r (r''.shutDown c) := by
  obtain ⟨notice, cause, restarts, commands⟩ := reason.notice
  have winds := windsUp_shutDown r'' c
  have happened : Run.happened { r'' with cause := r''.cause.fire c, history := r''.historyWith [.shutDown c] } =
      r.happened ++ (prompts.flatMap fun o => [o, .fired]) ++ (if c = .requested then [.obeyed .shutdown] else []) ++
        [.shutDown c] := by
    rw [← notice, ← h.happened, ← happened_of_history reason.history]
    exact happened_of_history rfl
  refine ⟨?_, ?_, ?_, winds.stage, ?_, fun later reached => not_obeyed_of_reaches reached winds.stage⟩
  · rcases winds.happened with same | returned
    · exact ⟨[], by simp, same.trans happened⟩
    · refine ⟨[.returned], by simp, returned.trans ?_⟩
      rw [happened, List.append_assoc]
      rfl
  · rw [winds.fired, ← h.restarts, ← restarts]
  · rw [winds.cause, cause, h.cause]
  · rw [winds.commands, h.commands, commands, List.append_assoc]

/-- A turn of the supervising task does what there is to do, in the order of precedence, and comes to an end by itself:
with the first cause there is, or waiting with nothing left to receive or to obey. Every run that can be reached has no
commands once it has stopped to listen for them. -/
theorem superviseTurn_precedence (h : r.stage = .running round) (deaf : round.listening = false → r.commands = [])
    (lasts : r.superviseTurn.deferred = r.deferred) :
    (∀ fuel, r.attendSteps ≤ fuel → attend fuel r = r.superviseTurn) ∧
    match r.agenda with
    | (prompts, some c) => ShutsDown prompts c r r.superviseTurn
    | (prompts, none) => StaysUp prompts r r.superviseTurn := by
  have enough := r.rank_lt_attendSteps round
  have turn : r.superviseTurn = attend r.attendSteps r := by simp only [superviseTurn, h]
  rw [turn] at lasts ⊢
  refine ⟨fun fuel more => attend_enough h deaf (by omega) enough, ?_⟩
  obtain ⟨r₁, acted, concludes⟩ := attend_heeds h deaf enough lasts
  generalize attend r.attendSteps r = r' at concludes
  generalize r.agenda = agenda at acted concludes
  obtain ⟨prompts, cause⟩ := agenda
  cases cause with
  | some c =>
    obtain ⟨os, r₂, reason, rfl⟩ := concludes
    exact acted.shutsDown reason
  | none =>
    obtain ⟨rfl, round', stage, uncalled, deaf'⟩ := concludes
    have quiet := uncalled
    simp only [isCalled, Bool.or_eq_false_iff, Bool.not_eq_false', List.isEmpty_iff, Bool.and_eq_false_iff] at quiet
    refine ⟨acted, ⟨round', stage⟩, quiet.1.2, ?_, by simp only [isDue, stage, uncalled]⟩
    exact quiet.2.elim deaf' And.left

def doubledSettings : Settings :=
  { pairSettings with signals := { shutdown := [2], restart := [1, 1], capacity := 2 } }

/-- The pair at a turn of its supervising task, which finds a restart signal that was delivered twice and four commands. -/
def laden : Run :=
  let r := ((initial doubledSettings pairServices).perform .run).2.serve 20
  let r := (r.spawn [.signal 1]).serve 1
  let r := ((r.perform (.command .restart 2)).2.perform (.command .shutdown 1)).2
  { (r.perform (.command .restart 1)).2 with ready := [], budget := some turnQuota }

theorem superviseTurn_precedence_laden :
    ShutsDown [.received 1, .received 1, .obeyed .restart, .obeyed .restart] .requested laden laden.superviseTurn ∧
      laden.superviseTurn.commands = [.restart] := by
  have precedence := (@superviseTurn_precedence laden {} (by decide) (by decide) (by decide)).2
  have agenda : laden.agenda =
      ([.received 1, .received 1, .obeyed .restart, .obeyed .restart], some .requested) := by decide
  rw [agenda] at precedence
  exact ⟨precedence, by decide⟩

end Run

end Supervision
