import Supervision.Proofs.UnusedHandle
import Supervision.Proofs.RoundProgress

/-! The turn of the supervising task in a run beside itself without its handle. Until all that was sent is obeyed, both go
the same way; then the run without a handle goes one round more, in which it notices that nobody is left to send
anything, and no longer listens. -/

namespace Supervision

def Round.hearing (listening : Bool) (round : Round) : Round :=
  { round with listening := listening }

namespace Run

variable {settings : Settings} {services : List Service} {r r' k d : Run} {l : Bool} {round : Round} {t : Task}
  {cur : Option Task} {c : Cause}

/-! ### What is the same without the handle -/

theorem wake_without (absent : .supervise ∉ k.parked) : (k.without l).wake = k.wake.without l := by
  have same (t : Task) (parked : t ∈ k.parked) : (k.without l).canGoOn t = k.canGoOn t := by
    cases t with
    | supervise => exact absurd parked absent
    | _ => rfl
  have goes : k.parked.filter (k.without l).canGoOn = k.parked.filter k.canGoOn := List.filter_congr same
  have stays : (k.parked.filter fun t => !(k.without l).canGoOn t) = k.parked.filter fun t => !k.canGoOn t :=
    List.filter_congr fun t parked => by rw [same t parked]
  show ({ k.without l with
    ready := k.ready ++ k.parked.filter (k.without l).canGoOn
    parked := k.parked.filter fun t => !(k.without l).canGoOn t
    place := k.placeAfter (k.without l).canGoOn } : Run) = _
  rw [goes, stays, placeAfter_congr same]
  rfl

theorem finish_without (absent : .supervise ∉ k.parked) : (k.without l).finish = k.finish.without l := by
  have closed : wake { k.without l with restarts := k.restarts.close } =
      (wake { k with restarts := k.restarts.close }).without l :=
    wake_without (k := { k with restarts := k.restarts.close }) absent
  show (Run.log (wake { k.without l with restarts := k.restarts.close }) _).giveVerdict _ = _
  rw [closed]
  rfl

theorem leave_without (absent : .supervise ∉ k.parked) (deadline : Option Nat) :
    (k.without l).leave deadline = (k.leave deadline).without l := by
  unfold leave
  have exited : (k.without l).allExited = k.allExited := rfl
  rw [exited]
  split
  · exact finish_without absent
  · cases deadline with
    | none => rfl
    | some time =>
      have now : (k.without l).now = k.now := rfl
      dsimp only
      rw [now]
      split
      · exact finish_without (k := k.log (.graceExpired k.stillRunning)) absent
      · rfl

theorem awaitStops_without (absent : .supervise ∉ k.parked) : (k.without l).awaitStops = k.awaitStops.without l := by
  unfold awaitStops
  have stopped : (k.without l).allStopped = k.allStopped := rfl
  rw [stopped]
  split
  · exact leave_without (k := { k with stage := .leaving k.graceEnd? }) absent k.graceEnd?
  · rfl

theorem shutDown_without (absent : .supervise ∉ k.parked) (c : Cause) :
    (k.without l).shutDown c = (k.shutDown c).without l := by
  have announced : (k.without l).announce c = (k.announce c).without l := by
    have woken := wake_without (l := l)
      (k := { k.mark (.shutDown c) with commandsClosed := true, cause := k.cause.fire c, stage := .stopping }) absent
    exact congrArg (fun r => Run.log r (.shuttingDown c)) woken
  have parked : .supervise ∉ (k.announce c).parked := fun mem => absent (List.mem_filter.mp mem).1
  rw [shutDown, shutDown, announced, awaitStops_without parked]

theorem prompted_without (absent : .supervise ∉ k.parked) (round : Round) (o : Occurrence) (event : Event)
    (queue : List Int) (commands : List Command) :
    (k.without l).prompted (round.hearing l) o event queue commands =
      (k.prompted round o event queue commands).without l :=
  wake_without (l := l) (k := { k.spend with
    restartInbox := { k.restartInbox with queue := queue }
    commands := commands
    stage := .running round.next
    restarts := k.restarts.fire
    history := k.historyWith [o, .fired]
    trace := k.trace ++ [event] }) absent

theorem stage_without (h : k.stage = .running round) (l : Bool) : (k.without l).stage = .running (round.hearing l) := by
  show k.stage.hearing l = _
  rw [h]
  rfl

theorem stage_without_other {s : Stage} (h : k.stage = s) (deaf : s.hearing l = s) : (k.without l).stage = s := by
  show k.stage.hearing l = s
  rw [h, deaf]

theorem summons_without (r : Run) (l : Bool) :
    (r.without l).summons = r.summons.map (Prod.map id (without l)) := by
  have cancelled : (r.without l).cancelled = r.cancelled := rfl
  have exit : (r.without l).exit = r.exit := rfl
  have inbox : (r.without l).shutdownInbox = r.shutdownInbox := rfl
  rw [summons, summons, cancelled, exit, inbox]
  split
  · rfl
  · cases r.exit.value with
    | some name => rfl
    | none => cases r.shutdownInbox.queue <;> rfl

/-! ### Rounds that go the same way -/

/-- What is seen of one round without the handle is what is seen with it. -/
def SameSight (l : Bool) (x y : Sight × Run) : Prop :=
  y = Prod.map id (without l) x

theorem sameSight_restarts (h : k.stage = .running round) (absent : .supervise ∉ k.parked)
    (commands : k.restartInbox.queue = [] → (!round.restartPassed && k.isSpent) = false →
      let k' := k.inRound (k.pastRestarts round) (k.afterRestarts round)
      SameSight l (k'.lookAtCommands (k.pastRestarts round))
        ((k'.without l).lookAtCommands ((k.pastRestarts round).hearing l))) :
    SameSight l (k.lookAtRestarts round) ((k.without l).lookAtRestarts (round.hearing l)) := by
  cases affords : !round.restartPassed && k.isSpent with
  | true =>
    rw [lookAtRestarts, lookAtRestarts, if_pos affords, if_pos (by exact affords)]
    rfl
  | false =>
    cases queue : k.restartInbox.queue with
    | cons n rest =>
      have other : (k.without l).lookAtRestarts (round.hearing l) =
          (.news, (k.without l).prompted (round.hearing l) (.received n) (.restartSignal n) rest k.commands) :=
        lookAtRestarts_of_queue queue affords
      rw [lookAtRestarts_of_queue queue affords, other, prompted_without absent]
      rfl
    | nil =>
      rw [lookAtRestarts_of_nil h queue affords, lookAtRestarts_of_nil (stage_without h l) queue affords]
      exact commands queue affords

theorem sameSight_look (h : k.stage = .running round) (absent : .supervise ∉ k.parked)
    (commands : k.restartInbox.queue = [] → k.isSpent = false →
      (!round.restartPassed && (k.atRestarts round).isSpent) = false →
      SameSight l ((k.atCommands round).lookAtCommands (k.past round))
        (((k.atCommands round).without l).lookAtCommands ((k.past round).hearing l))) :
    SameSight l (k.look round) ((k.without l).look (round.hearing l)) := by
  cases spent : k.isSpent with
  | true =>
    rw [look, look, if_pos spent, if_pos (by exact spent)]
    rfl
  | false =>
    rw [look_eq h spent, look_eq (stage_without h l) spent, summons_without]
    cases k.summons with
    | some x => rfl
    | none => exact sameSight_restarts (k := k.atRestarts round) rfl absent fun none affords => commands none spent affords

theorem sameSight_commands (listening : round.listening = true) (held : k.handleHeld = true)
    (absent : .supervise ∉ k.parked) (heard : 0 < k.lent ∨ k.commands ≠ []) :
    SameSight true (k.lookAtCommands round) ((k.without true).lookAtCommands (round.hearing true)) := by
  have listening' : (round.hearing true).listening = true := rfl
  cases spent : k.isSpent with
  | true =>
    have spent' : (k.without true).isSpent = true := spent
    rw [lookAtCommands_of_spent listening spent, lookAtCommands_of_spent listening' spent']
    rfl
  | false =>
    have spent' : (k.without true).isSpent = false := spent
    cases commands : k.commands with
    | nil =>
      have lent : 0 < k.lent := heard.resolve_right fun some => some commands
      have attached : k.orphaned = false := by rw [orphaned, held]; rfl
      have attached' : (k.without true).orphaned = false := by
        show (!false && k.lent == 0) = false
        simpa using Nat.ne_of_gt lent
      rw [lookAtCommands_of_nil listening spent commands, attached, lookAtCommands_of_nil listening' spent' commands,
        attached']
      rfl
    | cons c rest =>
      cases c with
      | restart =>
        rw [lookAtCommands_of_restart listening spent commands, lookAtCommands_of_restart listening' spent' commands,
          prompted_without absent]
        rfl
      | shutdown =>
        rw [lookAtCommands_of_shutdown listening spent commands, lookAtCommands_of_shutdown listening' spent' commands]
        rfl

theorem sameSight_no_commands (listening : round.listening = true) (held : k.handleHeld = true)
    (unspent : k.isSpent = false) (none : k.commands = []) :
    SameSight false (k.lookAtCommands round) ((k.without false).lookAtCommands (round.hearing false)) := by
  have attached : k.orphaned = false := by rw [orphaned, held]; rfl
  rw [lookAtCommands_of_nil listening unspent none, attached, lookAtCommands_of_deaf rfl]
  rfl

/-! ### What there is news of -/

/-- As long as the handle is held, there is news only of signals and commands, and the run goes on listening. -/
def Prompts (k : Run) (k' : Run) : Prop :=
  ∃ round b o event queue commands, k' = (k.inRound round b).prompted round o event queue commands ∧
    round.listening = true ∧ (k.restartInbox.queue ≠ [] ∨ k.commands ≠ [])

theorem prompts_commands (h : k.stage = .running round) (listening : round.listening = true) (held : k.handleHeld = true)
    (news : k.lookAtCommands round = (.news, k')) : Prompts k k' := by
  cases spent : k.isSpent with
  | true =>
    rw [lookAtCommands_of_spent listening spent] at news
    cases news
  | false =>
    cases commands : k.commands with
    | nil =>
      have attached : k.orphaned = false := by rw [orphaned, held]; rfl
      rw [lookAtCommands_of_nil listening spent commands, attached] at news
      cases news
    | cons c rest =>
      cases c with
      | restart =>
        rw [lookAtCommands_of_restart listening spent commands] at news
        cases news
        refine ⟨round, k.budget, _, _, _, _, by rw [inRound_self h], listening, .inr (by simp [commands])⟩
      | shutdown =>
        rw [lookAtCommands_of_shutdown listening spent commands] at news
        cases news

theorem Prompts.of_inRound {b : Option Nat} (h : Prompts (k.inRound round b) k') : Prompts k k' :=
  h

theorem prompts_restarts (h : k.stage = .running round) (listening : round.listening = true) (held : k.handleHeld = true)
    (news : k.lookAtRestarts round = (.news, k')) : Prompts k k' := by
  cases affords : !round.restartPassed && k.isSpent with
  | true =>
    rw [lookAtRestarts, if_pos affords] at news
    cases news
  | false =>
    cases queue : k.restartInbox.queue with
    | cons n rest =>
      rw [lookAtRestarts_of_queue queue affords] at news
      cases news
      exact ⟨round, k.budget, _, _, _, _, by rw [inRound_self h], listening, .inl (by simp [queue])⟩
    | nil =>
      rw [lookAtRestarts_of_nil h queue affords] at news
      have prompts :=
        prompts_commands (k := k.inRound (k.pastRestarts round) (k.afterRestarts round)) rfl listening held news
      exact prompts.of_inRound

theorem prompts_look (h : k.stage = .running round) (listening : round.listening = true) (held : k.handleHeld = true)
    (news : k.look round = (.news, k')) : Prompts k k' := by
  cases spent : k.isSpent with
  | true =>
    rw [look, if_pos spent] at news
    cases news
  | false =>
    rw [look_eq h spent] at news
    cases reason : k.summons with
    | some x =>
      rw [reason] at news
      cases news
    | none =>
      rw [reason] at news
      exact (prompts_restarts (k := k.atRestarts round) rfl listening held news).of_inRound

/-! ### A turn that goes the same way -/

/-- How the run without its handle can go on as the other does: another handle is lent, or it no longer listens, and
neither would get any command. -/
inductive Unhindered (k : Run) : Bool → Prop
  | lent (h : 0 < k.lent) : Unhindered k true
  | deaf (none : k.commands = [])
      (affords : k.restartInbox.kinds.isEmpty = true → k.restartInbox.queue = [] ∧ ∃ b, k.budget = some b ∧ 3 ≤ b) :
      Unhindered k false

theorem passage_le (b : Inbox) : passage b ≤ 1 := by
  unfold passage
  split <;> omega

theorem Unhindered.sameSight (unhindered : Unhindered k l) (h : k.stage = .running round) (fair : round.Fair k)
    (listening : round.listening = true) (held : k.handleHeld = true) (absent : .supervise ∉ k.parked) :
    SameSight l (k.look round) ((k.without l).look (round.hearing l)) := by
  refine sameSight_look h absent fun _ _ affords => ?_
  cases unhindered with
  | lent lent => exact sameSight_commands (k := k.atCommands round) listening held absent (.inl lent)
  | deaf none enough =>
    refine sameSight_no_commands (k := k.atCommands round) listening held ?_ none
    cases empty : k.restartInbox.kinds.isEmpty with
    | true =>
      obtain ⟨-, b, budget, enough⟩ := enough empty
      obtain ⟨b', left, more⟩ := atCommands_ge budget round
      have := passage_le k.shutdownInbox
      have := passage_le k.restartInbox
      exact isSpent_of_budget left (by omega)
    | false =>
      have ahead : round.restartPassed = false := eq_false_of_imp fair.restart empty
      have same : (k.atCommands round).budget = (k.atRestarts round).budget := by
        show toll (k.restartInbox.kinds.isEmpty && _) _ = _
        rw [empty]
        rfl
      rw [isSpent, same, ← isSpent]
      simpa [ahead] using affords

/-- What the run without its handle has heard of, when the supervising task has nothing more to do. -/
def Heard (k : Run) (l : Bool) : Prop :=
  k.stage.isClosed = true ∨ (l = true ∧ 0 < k.lent) ∨ l = false ∧ k.commands = [] ∧ ∃ round, k.stage = .running round

theorem isClosed_shutDown (k : Run) (c : Cause) : (k.shutDown c).stage.isClosed = true := by
  rw [Stage.isClosed, show (k.shutDown c).stage.hasShutDown = true from (windsUp_shutDown k c).stage]
  rfl

theorem Unhindered.heard (unhindered : Unhindered k l) (h : k'.stage = .running round) (looked : Looked k k') :
    Heard k' l := by
  cases unhindered with
  | lent lent => exact .inr (.inl ⟨rfl, looked.lent ▸ lent⟩)
  | deaf none =>
    obtain ⟨obeyed, commands⟩ := looked.commands
    rw [none] at commands
    exact .inr (.inr ⟨rfl, (List.append_eq_nil_iff.mp commands.symm).2, round, h⟩)

theorem Unhindered.after (unhindered : Unhindered k l) (left : k.restartInbox.queue ≠ [] ∨ k.commands ≠ [])
    (looked : Looked k k') : Unhindered k' l := by
  cases unhindered with
  | lent lent => exact .lent (looked.lent ▸ lent)
  | deaf none enough =>
    obtain ⟨obeyed, commands⟩ := looked.commands
    rw [none] at commands
    refine .deaf (List.append_eq_nil_iff.mp commands.symm).2 fun empty => ?_
    rw [looked.restart] at empty
    exact absurd (enough empty).1 (left.resolve_right fun some => some none)

theorem Unhindered.attend (fuel : Nat) (unhindered : Unhindered k l) (h : k.stage = .running round) (fair : round.Fair k)
    (listening : round.listening = true) (held : k.handleHeld = true) (absent : .supervise ∉ k.parked) :
    attend fuel (k.without l) = (attend fuel k).without l ∧ Heard (attend fuel k) l := by
  induction fuel generalizing k round with
  | zero => exact ⟨rfl, unhindered.heard h looked_sparing⟩
  | succ fuel ih =>
    have same := unhindered.sameSight h fair listening held absent
    have looked := looked_look h
    have gets := gets_look h fair
    have prompts (k' : Run) (news : k.look round = (.news, k')) := prompts_look h listening held news
    simp only [Run.attend, h, stage_without h l]
    generalize k.look round = x, (k.without l).look (round.hearing l) = y at same looked gets prompts ⊢
    obtain ⟨sight, k'⟩ := x
    obtain rfl : y = (sight, k'.without l) := same
    have absent' : .supervise ∉ k'.parked := fun mem => absent (looked.parked mem)
    cases sight with
    | cause c => exact ⟨shutDown_without absent' c, .inl (isClosed_shutDown k' c)⟩
    | news =>
      obtain ⟨round₁, b, o, event, queue, commands, rfl, listens, left⟩ := prompts k' rfl
      exact ih (unhindered.after left looked) (show _ = Stage.running round₁.next from rfl) (.of_unpassed rfl rfl) listens
        held absent'
    | nothing =>
      obtain ⟨round', running, -⟩ := gets
      exact ⟨rfl, unhindered.heard running looked⟩

/-! ### The turn that notices -/

/-- What it costs at most to act on one signal or command. -/
def outlay (k : Run) : Nat :=
  1 + passage k.shutdownInbox + passage k.restartInbox

def backlog (k : Run) : Nat :=
  k.restartInbox.queue.length + k.commands.length

/-- In the end the run without its handle has heard as much as it can. -/
def Notices (k d : Run) : Prop :=
  ∃ l b, d = { k.without l with budget := b } ∧ Heard k l

theorem notices_shutDown (absent : .supervise ∉ k.parked) (c : Cause) :
    Notices (k.shutDown c) ((k.without true).shutDown c) :=
  ⟨true, (k.shutDown c).budget, by rw [shutDown_without absent]; rfl, .inl (isClosed_shutDown k c)⟩

def lastRound : Round :=
  { listening := false }

section Alone

variable {b : Nat} (h : k.stage = .running round) (calm : k.summons = none) (received : k.restartInbox.queue = [])
  (obeyed : k.commands = []) (left : k.budget = some b) (fits : k.outlay + passage k.shutdownInbox < b)
include h calm received obeyed left fits

theorem look_attached (listening : round.listening = true) (held : k.handleHeld = true) :
    k.look round = (.nothing, k.atCommands round) := by
  unfold outlay at fits
  obtain ⟨b₁, left₁, more₁⟩ := atCommands_ge left round
  have unspent : (k.atCommands round).isSpent = false := isSpent_of_budget left₁ (by omega)
  have attached : (k.atCommands round).orphaned = false := by
    show (!k.handleHeld && _) = false
    rw [held]
    rfl
  have listens : (k.past round).listening = true := listening
  rw [look_of_calm h calm received left (by omega), lookAtCommands_of_nil listens unspent obeyed, attached]
  rfl

theorem look_orphaned (alone : k.lent = 0) : (k.without true).look (round.hearing true) =
    (.news, ((k.atCommands round).without true).getPast lastRound) := by
  unfold outlay at fits
  obtain ⟨b₁, left₁, more₁⟩ := atCommands_ge left round
  have unspent : ((k.atCommands round).without true).isSpent = false := isSpent_of_budget (b := b₁) left₁ (by omega)
  have orphaned : ((k.atCommands round).without true).orphaned = true := by
    show (!false && k.lent == 0) = true
    rw [alone]
    rfl
  have calm' : (k.without true).summons = none := by rw [summons_without, calm]; rfl
  have listens : ((k.past round).hearing true).listening = true := rfl
  have looks : ((k.atCommands round).without true).lookAtCommands ((k.past round).hearing true) =
      (.news, ((k.atCommands round).without true).getPast lastRound) := by
    rw [lookAtCommands_of_nil listens unspent obeyed, orphaned]
    rfl
  have enough : passage k.shutdownInbox < b := by omega
  rw [look_of_calm (stage_without h true) calm' received left enough]
  exact looks

/-- With nothing left to obey, the run without its handle goes one round more. -/
theorem attend_alone (fuel : Nat) (fair : round.Fair k) (listening : round.listening = true) (held : k.handleHeld = true)
    (alone : k.lent = 0) : attend (fuel + 2) k = k.atCommands round ∧
      ∃ b', attend (fuel + 2) (k.without true) = { (k.atCommands round).without false with budget := b' } := by
  have stays := look_attached h calm received obeyed left fits listening held
  let second : Run := ((k.atCommands round).without true).getPast lastRound
  have notices : (k.without true).look (round.hearing true) = (.news, second) :=
    look_orphaned h calm received obeyed left fits alone
  unfold outlay at fits
  obtain ⟨b₁, left₁, more₁⟩ := atCommands_ge left round
  have left₂ : second.budget = some (b₁ - 1) := by
    show Option.map _ (k.atCommands round).budget = _
    rw [left₁]
    rfl
  have rests : second.look lastRound = (.nothing, second.atCommands lastRound) := by
    have calm₂ : second.summons = none := summons_eq_none.mpr ⟨(summons_eq_none.mp calm).uncancelled,
      (summons_eq_none.mp calm).unexited, (summons_eq_none.mp calm).unsignalled⟩
    have enough₂ : passage second.shutdownInbox < b₁ - 1 := by
      show passage k.shutdownInbox < b₁ - 1
      omega
    rw [look_of_calm rfl calm₂ received left₂ enough₂]
    exact lookAtCommands_of_deaf rfl
  have same : second.past lastRound = (k.past round).hearing false := by
    have shutdown : (k.past round).shutdownPassed = k.shutdownInbox.kinds.isEmpty := passed_or _ _ fair.shutdown
    have restart : (k.past round).restartPassed = k.restartInbox.kinds.isEmpty := passed_or _ _ fair.restart
    rw [Round.hearing, shutdown, restart]
    rfl
  refine ⟨?_, (second.atCommands lastRound).budget, ?_⟩
  · simp only [attend, h, stays]
  · have running : second.stage = .running lastRound := rfl
    simp only [attend, stage_without h true, notices, running, rests]
    rw [atCommands, inRound, same]
    rfl

end Alone

/-- The budget is enough for all that waits to be acted on, and for a last round. -/
def Affords (k : Run) (b : Nat) : Prop :=
  (k.backlog + 1) * k.outlay + passage k.shutdownInbox < b

theorem notices_summons {fuel : Nat} (h : k.stage = .running round) (absent : .supervise ∉ k.parked)
    (unspent : k.isSpent = false) (reason : k.summons = some (c, r)) :
    Notices (attend (fuel + 1) k) (attend (fuel + 1) (k.without true)) := by
  have reason' : (k.without true).summons = some (c, r.without true) := by rw [summons_without, reason]; rfl
  have unspent' : (k.without true).isSpent = false := unspent
  have running' := stage_without h true
  have absent' : .supervise ∉ r.parked := fun mem => absent ((looked_summons reason).parked mem)
  simp only [attend, h, running', look_eq h unspent, look_eq running' unspent', reason, reason']
  exact notices_shutDown absent' c

theorem notices_prompted {fuel : Nat} {next : Round} {b : Option Nat} {o : Occurrence} {event : Event} {queue : List Int}
    {commands : List Command} (h : k.stage = .running round) (absent : .supervise ∉ k.parked)
    (looks : k.look round = (.news, (k.inRound next b).prompted next o event queue commands))
    (looks' : (k.without true).look (round.hearing true) =
      (.news, ((k.inRound next b).without true).prompted (next.hearing true) o event queue commands))
    (rest : Notices (attend fuel ((k.inRound next b).prompted next o event queue commands))
      (attend fuel (((k.inRound next b).prompted next o event queue commands).without true))) :
    Notices (attend (fuel + 1) k) (attend (fuel + 1) (k.without true)) := by
  rw [← prompted_without (k := k.inRound next b) absent] at rest
  simp only [attend, h, stage_without h true, looks, looks']
  exact rest

theorem Affords.prompted {b b₁ : Nat} {left : Option Nat} {queue : List Int} {commands : List Command}
    (affords : k.Affords b) (next : Round) (o : Occurrence) (event : Event) (left₁ : left = some b₁)
    (pays : b ≤ b₁ + passage k.shutdownInbox + passage k.restartInbox)
    (less : k.backlog = queue.length + commands.length + 1) :
    let k' := (k.inRound next left).prompted next o event queue commands
    k'.budget = some (b₁ - 1) ∧ k'.Affords (b₁ - 1) ∧ k'.backlog + 1 = k.backlog := by
  refine ⟨?_, ?_, less.symm⟩
  · show Option.map _ left = _
    rw [left₁]
    rfl
  · show (queue.length + commands.length + 1) * k.outlay + passage k.shutdownInbox < b₁ - 1
    rw [← less]
    unfold Affords at affords
    have step : (k.backlog + 1) * k.outlay = k.backlog * k.outlay + k.outlay := Nat.succ_mul _ _
    have outlay : k.outlay = 1 + passage k.shutdownInbox + passage k.restartInbox := rfl
    omega

/-- Whichever signal or command is acted on, the turns that begin with it come to the same in the end. -/
def NoticesNext (fuel : Nat) (k : Run) (b : Nat) : Prop :=
  ∀ {next : Round} {left : Option Nat} {b₁ : Nat} {o : Occurrence} {event : Event} {queue : List Int}
    {commands : List Command}, next.listening = true → left = some b₁ →
    b ≤ b₁ + passage k.shutdownInbox + passage k.restartInbox → k.backlog = queue.length + commands.length + 1 →
    Notices (attend fuel ((k.inRound next left).prompted next o event queue commands))
      (attend fuel (((k.inRound next left).prompted next o event queue commands).without true))

theorem notices_command {b fuel : Nat} {c : Command} {rest : List Command} (h : k.stage = .running round)
    (listening : round.listening = true) (absent : .supervise ∉ k.parked) (left : k.budget = some b)
    (first : k.outlay + passage k.shutdownInbox < b) (calm : k.summons = none) (queue : k.restartInbox.queue = [])
    (commands : k.commands = c :: rest) (after : k.NoticesNext fuel b) :
    Notices (attend (fuel + 1) k) (attend (fuel + 1) (k.without true)) := by
  have outlay : k.outlay = 1 + passage k.shutdownInbox + passage k.restartInbox := rfl
  have enough : passage k.shutdownInbox < b := by omega
  obtain ⟨b₁, left₁, more₁⟩ := atCommands_ge left round
  have running' := stage_without h true
  have calm' : (k.without true).summons = none := by rw [summons_without, calm]; rfl
  have listens : (k.past round).listening = true := listening
  have listens' : ((k.past round).hearing true).listening = true := rfl
  have unspent : (k.atCommands round).isSpent = false := isSpent_of_budget left₁ (by omega)
  have unspent' : ((k.atCommands round).without true).isSpent = false := unspent
  have looks := look_of_calm h calm queue left enough
  have looks' : (k.without true).look (round.hearing true) =
      ((k.atCommands round).without true).lookAtCommands ((k.past round).hearing true) :=
    look_of_calm running' calm' queue left enough
  cases c with
  | restart =>
    rw [lookAtCommands_of_restart listens unspent commands] at looks
    rw [lookAtCommands_of_restart listens' unspent' commands] at looks'
    refine notices_prompted h absent looks looks' (after listens left₁ more₁ ?_)
    rw [backlog, commands, List.length_cons]
    rfl
  | shutdown =>
    rw [lookAtCommands_of_shutdown listens unspent commands] at looks
    rw [lookAtCommands_of_shutdown listens' unspent' commands] at looks'
    simp only [attend, h, running', looks, looks']
    exact notices_shutDown (k := Run.mark { k.atCommands round with commands := rest } (.obeyed .shutdown)) absent _

theorem attend_notices {b fuel : Nat} (h : k.stage = .running round) (fair : round.Fair k)
    (listening : round.listening = true) (held : k.handleHeld = true) (alone : k.lent = 0) (absent : .supervise ∉ k.parked)
    (left : k.budget = some b) (affords : k.Affords b) (enough : k.backlog + 2 ≤ fuel) :
    Notices (attend fuel k) (attend fuel (k.without true)) := by
  induction fuel generalizing k round b with
  | zero => exact absurd enough (by omega)
  | succ fuel ih =>
    have outlay : k.outlay = 1 + passage k.shutdownInbox + passage k.restartInbox := rfl
    have first : k.outlay + passage k.shutdownInbox < b := by
      unfold Affords at affords
      have step : (k.backlog + 1) * k.outlay = k.backlog * k.outlay + k.outlay := Nat.succ_mul _ _
      omega
    cases calm : k.summons with
    | some x => exact notices_summons h absent (isSpent_of_budget left (by omega)) calm
    | none =>
      -- every round that acts on something leaves less to act on, and budget enough for that
      have after : k.NoticesNext fuel b := fun listens left₁ pays less => by
        obtain ⟨budget, affords', backlog⟩ := affords.prompted _ _ _ left₁ pays less
        exact ih rfl (.of_unpassed rfl rfl) listens held alone (fun mem => absent (List.mem_filter.mp mem).1) budget affords'
          (by omega)
      cases queue : k.restartInbox.queue with
      | cons n rest =>
        obtain ⟨b₁, left₁, more₁⟩ := afterShutdowns_ge left round
        have enough' : passage k.shutdownInbox < b := by omega
        have calm' : (k.without true).summons = none := by rw [summons_without, calm]; rfl
        refine notices_prompted h absent (look_of_signal h calm queue left enough')
          (look_of_signal (stage_without h true) calm' queue left enough') (after listening left₁ (by omega) ?_)
        rw [backlog, queue, List.length_cons]
        omega
      | nil =>
        cases commands : k.commands with
        | nil =>
          obtain ⟨fuel', rfl⟩ : ∃ fuel', fuel = fuel' + 1 := ⟨fuel - 1, by omega⟩
          obtain ⟨stays, b', hears⟩ := attend_alone h calm queue commands left first fuel' fair listening held alone
          exact ⟨false, b', by rw [hears, stays], .inr (.inr ⟨rfl, by rw [stays]; exact commands, k.past round,
            by rw [stays]; rfl⟩)⟩
        | cons c rest => exact notices_command h listening absent left first calm queue commands after

/-! ### A whole turn -/

theorem setUp_without (k : Run) : (k.without true).setUp = k.setUp.without true := by
  have settings : (k.without true).settings = k.settings := rfl
  rw [setUp, setUp, settings]
  split <;> rfl

theorem outlay_eq (shutdown : k.shutdownInbox.kinds = k.settings.signals.shutdown)
    (restart : k.restartInbox.kinds = k.settings.signals.restart) : k.outlay = roundCost k.settings := by
  rw [outlay, roundCost, passage, passage, shutdown, restart]

/-- What fits the budget of a turn in the long run does so now. -/
theorem Passes.fits (h : Passes settings services cur k) (running : k.stage = .running round) (fits : k.Fits) :
    k.Affords turnQuota := by
  have setUp : .setUp ∈ k.happened := h.isSetUp_iff.mp (by rw [running]; rfl)
  have shutdown := (h.attentive.kinds setUp).1
  obtain ⟨restart, capacity⟩ := h.restartInbox setUp
  rw [← h.settings_eq] at shutdown restart capacity
  have few : k.backlog ≤ k.mayWait := by
    have tidy := h.tidy
    rw [backlog, mayWait, running, Nat.add_comm]
    cases empty : k.restartInbox.kinds.isEmpty with
    | true =>
      rw [tidy.deaf empty]
      exact Nat.le_add_right _ _
    | false =>
      rw [restart] at empty
      rw [if_pos (by rw [empty]; rfl), ← capacity]
      exact Nat.add_le_add_left tidy.fits _
  unfold Fits at fits
  rw [Affords, outlay_eq shutdown restart]
  have less := Nat.mul_le_mul_right (roundCost k.settings) (Nat.add_le_add_right few 1)
  have toll : passage k.shutdownInbox = if k.settings.signals.shutdown.isEmpty then 1 else 0 := by
    rw [passage, shutdown]
    rfl
  omega

theorem fits_equip {shutdown restart : Inbox} {b : Broadcast} (spawned : k.stage = .spawned)
    (has : acquire k.settings = .ok (shutdown, restart, b)) (fits : k.Fits) :
    (k.equip shutdown restart b).Affords turnQuota := by
  obtain ⟨hears, hearsToo, -, -⟩ := acquire_ok has
  have shutdown_eq := listen_spec hears
  have restart_eq := listen_spec hearsToo
  have backlog : (k.equip shutdown restart b).backlog = k.mayWait := by
    show restart.queue.length + k.commands.length = k.mayWait
    rw [restart_eq, mayWait, spawned, Nat.add_comm]
    rfl
  have outlay : (k.equip shutdown restart b).outlay = roundCost k.settings := by
    refine outlay_eq ?_ ?_
    · show shutdown.kinds = _
      rw [shutdown_eq]
      rfl
    · show restart.kinds = _
      rw [restart_eq]
      rfl
  have toll : passage (k.equip shutdown restart b).shutdownInbox =
      if k.settings.signals.shutdown.isEmpty then 1 else 0 := by
    show passage shutdown = _
    rw [shutdown_eq]
    rfl
  rw [Affords, backlog, outlay, toll]
  exact fits

theorem Passes.listens (h : Passes settings services cur k) (held : k.handleHeld = true)
    (running : k.stage = .running round) : round.listening = true := by
  cases listening : round.listening with
  | true => rfl
  | false =>
    rw [(h.deaf running listening).1] at held
    cases held

theorem Unhindered.notices {fuel : Nat} (unhindered : Unhindered k l) (h : k.stage = .running round) (fair : round.Fair k)
    (listening : round.listening = true) (held : k.handleHeld = true) (absent : .supervise ∉ k.parked) :
    Notices (Run.attend fuel k) (Run.attend fuel (k.without l)) := by
  obtain ⟨same, heard⟩ := unhindered.attend fuel h fair listening held absent
  exact ⟨l, (Run.attend fuel k).budget, same, heard⟩

theorem notices_spawned (stage : k.stage = .spawned) (lack : Lack k l) (held : k.handleHeld = true)
    (absent : .supervise ∉ k.parked) (budget : k.budget = some turnQuota) :
    Notices k.superviseTurn (k.without l).superviseTurn := by
  have stage' : (k.without l).stage = .spawned := stage_without_other stage rfl
  have heard : l = true := by
    cases lack with
    | lent | unaware => rfl
    | late late => rw [stage] at late; cases late
    | aware running => rw [stage] at running; cases running
  subst heard
  simp only [superviseTurn, stage, stage', setUp_without]
  rw [setUp]
  split
  · exact ⟨true, k.budget, rfl, .inl rfl⟩
  · rename_i shutdown restart b has
    have listens : ({} : Round).listening = true := rfl
    have fresh : Round.Fair (k.equip shutdown restart b) {} := .of_unpassed rfl rfl
    by_cases lent : 0 < k.lent
    · have unhindered : Unhindered (k.equip shutdown restart b) true := .lent lent
      exact unhindered.notices rfl fresh listens held absent
    · have fits : k.Fits := by
        cases lack with
        | lent some_lent => exact absurd some_lent lent
        | late late => rw [stage] at late; cases late
        | unaware _ _ fits => exact fits
      exact attend_notices rfl fresh listens held (Nat.eq_zero_of_not_pos lent) absent budget
        (fits_equip stage has fits) (Nat.le_refl _)

theorem Passes.notices_running (h : Passes settings services cur k) (stage : k.stage = .running round) (lack : Lack k l)
    (held : k.handleHeld = true) (absent : .supervise ∉ k.parked) (fair : round.Fair k)
    (budget : k.budget = some turnQuota) : Notices k.superviseTurn (k.without l).superviseTurn := by
  have listening := h.listens held stage
  simp only [superviseTurn, stage, stage_without stage l]
  show Notices (attend k.attendSteps k) (attend k.attendSteps (k.without l))
  cases lack with
  | lent lent => exact (Unhindered.lent lent).notices stage fair listening held absent
  | late late => rw [stage] at late; cases late
  | unaware _ _ fits =>
    by_cases lent : 0 < k.lent
    · exact (Unhindered.lent lent).notices stage fair listening held absent
    · exact attend_notices stage fair listening held (Nat.eq_zero_of_not_pos lent) absent budget (h.fits stage fits)
        (Nat.le_refl _)
  | aware _ empty =>
    have unhindered : Unhindered k false := .deaf empty fun none => ⟨h.tidy.deaf none, turnQuota, budget, by decide⟩
    exact unhindered.notices stage fair listening held absent

/-- At a turn of the supervising task both runs come to the same, except that the one without its handle may have heard
that nobody is left to send anything. -/
theorem Passes.superviseTurn_notices (h : Passes settings services (some .supervise) k) (lack : Lack k l)
    (spawned : k.stage ≠ .idle) (held : k.handleHeld = true) (absent : .supervise ∉ k.parked)
    (fair : ∀ round, k.stage = .running round → round.Fair k) (budget : k.budget = some turnQuota) :
    Notices k.superviseTurn (k.without l).superviseTurn := by
  have closes {d' k' : Run} (same : d' = k'.without l) (winds : WindsUp k k') : Notices k' d' :=
    ⟨l, k'.budget, same, .inl (by rw [Stage.isClosed, winds.stage]; rfl)⟩
  cases stage : k.stage with
  | idle => exact absurd stage spawned
  | spawned => exact notices_spawned stage lack held absent budget
  | running round => exact h.notices_running stage lack held absent (fair round stage) budget
  | stopping =>
    have stage' : (k.without l).stage = .stopping := stage_without_other stage rfl
    simp only [superviseTurn, stage, stage']
    exact closes (awaitStops_without absent) (windsUp_awaitStops (by rw [stage]; rfl))
  | leaving deadline =>
    have stage' : (k.without l).stage = .leaving deadline := stage_without_other stage rfl
    simp only [superviseTurn, stage, stage']
    exact closes (leave_without absent deadline) (windsUp_leave (by rw [stage]; rfl) deadline)
  | returned v time =>
    have stage' : (k.without l).stage = .returned v time := stage_without_other stage rfl
    simp only [superviseTurn, stage, stage']
    exact ⟨l, k.budget, rfl, .inl (by rw [stage]; simp [Stage.isClosed, Stage.hasReturned])⟩

end Run

end Supervision
