import Supervision.Proofs.Raising
import Supervision.Proofs.OnePlacePerTask

/-! A round of the supervising task in closed form, as long as its budget lasts. Besides, what a round keeps: it gets beyond
a stream only if nobody listens there, and a task that waits with nothing left to act on has got beyond all of those. -/

namespace Supervision

namespace Inbox

/-- A stream holds no more than it has room for, and nothing without listeners. -/
structure Tidy (b : Inbox) : Prop where
  fits : b.queue.length ≤ b.capacity
  deaf : b.kinds.isEmpty = true → b.queue = []

variable {b : Inbox}

theorem length_queue_offer (n : Int) (copies : Nat) (fits : b.queue.length ≤ b.capacity) :
    (offer n copies b).2.queue.length ≤ (offer n copies b).2.capacity := by
  rw [capacity_offer, queue_offer n copies fits, List.length_append, List.length_replicate]
  omega

theorem Tidy.deliver (h : b.Tidy) (n : Int) : (b.deliver n).2.Tidy where
  fits := length_queue_offer n _ h.fits
  deaf none := by
    have kinds : b.kinds = [] := by simpa [Inbox.deliver, kinds_offer] using none
    rw [deliver_of_not_mem (by simp [kinds])]
    exact h.deaf (by simp [kinds])

theorem Tidy.take {n : Int} {rest : List Int} (h : b.Tidy) (queue : b.queue = n :: rest) :
    Tidy { b with queue := rest } where
  fits := by
    have := h.fits
    rw [queue, List.length_cons] at this
    exact Nat.le_of_succ_le this
  deaf none := by
    have empty := h.deaf none
    rw [queue] at empty
    cases empty

end Inbox

/-- The round got beyond a stream only if nobody listens there. -/
structure Round.Fair (r : Run) (round : Round) : Prop where
  shutdown : round.shutdownPassed = true → r.shutdownInbox.kinds.isEmpty = true
  restart : round.restartPassed = true → r.restartInbox.kinds.isEmpty = true

theorem Round.Fair.of_unpassed {r : Run} {round : Round} (shutdown : round.shutdownPassed = false)
    (restart : round.restartPassed = false) : Fair r round :=
  ⟨fun passed => (Bool.false_ne_true (shutdown ▸ passed)).elim,
    fun passed => (Bool.false_ne_true (restart ▸ passed)).elim⟩

/-- The round got beyond every stream where nobody listens. -/
structure Round.Thorough (r : Run) (round : Round) : Prop where
  shutdown : round.shutdownPassed = r.shutdownInbox.kinds.isEmpty
  restart : round.restartPassed = r.restartInbox.kinds.isEmpty

theorem Round.Thorough.fair {r : Run} {round : Round} (h : Thorough r round) : Fair r round :=
  ⟨fun passed => h.shutdown ▸ passed, fun passed => h.restart ▸ passed⟩

namespace Run

variable {settings : Settings} {services : List Service} {r r' : Run} {t : Task} {cur : Option Task} {round : Round}
  {os : List Occurrence} {n : Int}

/-! ### A look in closed form -/

/-- The reason to shut down that goes before restarts and commands, if there is one, and the run with it taken from where
it waited. -/
def summons (r : Run) : Option (Cause × Run) :=
  if r.cancelled then some (.cancelled, r)
  else match r.exit.value with
    | some name => some (.exited name, r)
    | none => match r.shutdownInbox.queue with
      | n :: rest => some (.signal n, { r with shutdownInbox := { r.shutdownInbox with queue := rest } })
      | [] => none

theorem summons_eq_none : r.summons = none ↔ r.Calm := by
  unfold summons
  constructor
  · intro none
    split at none
    · cases none
    · rename_i uncancelled
      split at none
      · cases none
      · rename_i unexited
        split at none
        · cases none
        · rename_i unsignalled
          exact ⟨by simpa using uncancelled, unexited, unsignalled⟩
  · intro calm
    simp [calm.uncancelled, calm.unexited, calm.unsignalled]

def inRound (r : Run) (round : Round) (b : Option Nat) : Run :=
  { r with budget := b, stage := .running round }

def toll (due : Bool) (b : Option Nat) : Option Nat :=
  if due then b.map (· - 1) else b

def pastShutdowns (r : Run) (round : Round) : Round :=
  { round with shutdownPassed := round.shutdownPassed || r.shutdownInbox.kinds.isEmpty }

def pastRestarts (r : Run) (round : Round) : Round :=
  { round with restartPassed := round.restartPassed || r.restartInbox.kinds.isEmpty }

/-- The round beyond both streams, as far as nobody listens there. -/
def past (r : Run) (round : Round) : Round :=
  r.pastRestarts (r.pastShutdowns round)

def afterShutdowns (r : Run) (round : Round) : Option Nat :=
  toll (r.shutdownInbox.kinds.isEmpty && !round.shutdownPassed) r.budget

def afterRestarts (r : Run) (round : Round) : Option Nat :=
  toll (r.restartInbox.kinds.isEmpty && !round.restartPassed) r.budget

/-- The run when it gets to look at the restart signals. -/
def atRestarts (r : Run) (round : Round) : Run :=
  r.inRound (r.pastShutdowns round) (r.afterShutdowns round)

def atCommands (r : Run) (round : Round) : Run :=
  (r.atRestarts round).inRound (r.past round) ((r.atRestarts round).afterRestarts (r.pastShutdowns round))

theorem inRound_self (h : r.stage = .running round) : r.inRound round r.budget = r := by
  rw [inRound, ← h]

theorem lookAtShutdowns_of_nil (h : r.stage = .running round) (none : r.shutdownInbox.queue = []) :
    r.lookAtShutdowns round = (r.atRestarts round).lookAtRestarts (r.pastShutdowns round) := by
  simp only [lookAtShutdowns, Inbox.receive, none, atRestarts, afterShutdowns]
  split
  · rename_i passes
    have passes' := passes
    simp only [Bool.and_eq_true, Bool.not_eq_true'] at passes'
    rw [toll, if_pos passes, pastShutdowns, passes'.1, passes'.2]
    rfl
  · rename_i stays
    have same : r.pastShutdowns round = round := by
      rw [pastShutdowns]
      cases round
      simp_all
    rw [toll, if_neg stays, same, inRound_self h]

theorem lookAtRestarts_of_nil (h : r.stage = .running round) (none : r.restartInbox.queue = [])
    (affords : (!round.restartPassed && r.isSpent) = false) :
    r.lookAtRestarts round =
      (r.inRound (r.pastRestarts round) (r.afterRestarts round)).lookAtCommands (r.pastRestarts round) := by
  simp only [lookAtRestarts, affords, Inbox.receive, none, afterRestarts]
  split
  · rename_i spent
    cases spent
  · split
    · rename_i passes
      have passes' := passes
      simp only [Bool.and_eq_true, Bool.not_eq_true'] at passes'
      rw [toll, if_pos passes, pastRestarts, passes'.1, passes'.2]
      rfl
    · rename_i stays
      have same : r.pastRestarts round = round := by
        rw [pastRestarts]
        cases round
        simp_all
      rw [toll, if_neg stays, same, inRound_self h]

theorem lookAtCommands_of_deaf (deaf : round.listening = false) : r.lookAtCommands round = (.nothing, r) := by
  rw [lookAtCommands, deaf]
  rfl

theorem lookAtCommands_of_spent (listening : round.listening = true) (spent : r.isSpent = true) :
    r.lookAtCommands round = (.nothing, r.defer .supervise) := by
  rw [lookAtCommands, listening, spent]
  rfl

theorem lookAtCommands_of_shutdown {rest : List Command} (listening : round.listening = true) (affords : r.isSpent = false)
    (commands : r.commands = .shutdown :: rest) :
    r.lookAtCommands round = (.cause .requested, { r with commands := rest }.mark (.obeyed .shutdown)) := by
  simp only [lookAtCommands, listening, affords, commands]
  rfl

theorem lookAtCommands_of_nil (listening : round.listening = true) (affords : r.isSpent = false) (none : r.commands = []) :
    r.lookAtCommands round = if r.orphaned then (.news, r.getPast { round.next with listening := false })
      else (.nothing, r) := by
  simp only [lookAtCommands, listening, affords, none]
  rfl

/-- A look with budget finds a reason to shut down, or goes on to restarts and commands. -/
theorem look_eq (h : r.stage = .running round) (affords : r.isSpent = false) :
    r.look round = match r.summons with
      | some (c, r') => (.cause c, r')
      | none => (r.atRestarts round).lookAtRestarts (r.pastShutdowns round) := by
  rw [look, affords, if_neg Bool.false_ne_true, summons]
  split
  · rfl
  · cases exit : r.exit.value with
    | some name => rfl
    | none =>
      cases queue : r.shutdownInbox.queue with
      | cons n rest => simp only [lookAtShutdowns, Inbox.receive, queue]
      | nil => exact lookAtShutdowns_of_nil h queue

/-! ### What it costs -/

def passage (b : Inbox) : Nat :=
  if b.kinds.isEmpty then 1 else 0

theorem toll_ge (inbox : Inbox) (passed : Bool) (b : Nat) :
    ∃ b', toll (inbox.kinds.isEmpty && !passed) (some b) = some b' ∧ b ≤ b' + passage inbox := by
  rw [toll, passage]
  split
  · rename_i due
    simp only [Bool.and_eq_true] at due
    exact ⟨b - 1, rfl, by rw [if_pos due.1]; omega⟩
  · exact ⟨b, rfl, Nat.le_add_right _ _⟩

theorem afterShutdowns_ge {b : Nat} (left : r.budget = some b) (round : Round) :
    ∃ b', r.afterShutdowns round = some b' ∧ b ≤ b' + passage r.shutdownInbox := by
  rw [afterShutdowns, left]
  exact toll_ge _ _ b

theorem afterRestarts_ge {b : Nat} (left : r.budget = some b) (round : Round) :
    ∃ b', r.afterRestarts round = some b' ∧ b ≤ b' + passage r.restartInbox := by
  rw [afterRestarts, left]
  exact toll_ge _ _ b

theorem isSpent_of_budget {b : Nat} (left : r.budget = some b) (some_left : 0 < b) : r.isSpent = false := by
  rw [isSpent, left]
  simpa using Nat.ne_of_gt some_left

/-- With budget, a calm run with a restart signal acts on it. -/
theorem look_of_signal {b : Nat} {rest : List Int} (h : r.stage = .running round) (calm : r.summons = none)
    (queue : r.restartInbox.queue = n :: rest) (left : r.budget = some b) (enough : passage r.shutdownInbox < b) :
    r.look round = (.news, (r.atRestarts round).prompted (r.pastShutdowns round) (.received n) (.restartSignal n) rest
      r.commands) := by
  obtain ⟨b', left', more⟩ := afterShutdowns_ge left round
  have unspent : (r.atRestarts round).isSpent = false := isSpent_of_budget (b := b') left' (by omega)
  rw [look_eq h (isSpent_of_budget left (by omega)), calm]
  exact lookAtRestarts_of_queue (r := r.atRestarts round) queue (by rw [unspent, Bool.and_false])

theorem look_of_calm {b : Nat} (h : r.stage = .running round) (calm : r.summons = none) (none : r.restartInbox.queue = [])
    (left : r.budget = some b) (enough : passage r.shutdownInbox < b) :
    r.look round = (r.atCommands round).lookAtCommands (r.past round) := by
  obtain ⟨b', left', more⟩ := afterShutdowns_ge left round
  have unspent : (r.atRestarts round).isSpent = false := isSpent_of_budget (b := b') left' (by omega)
  rw [look_eq h (isSpent_of_budget left (by omega)), calm]
  exact lookAtRestarts_of_nil (r := r.atRestarts round) rfl none (by rw [unspent, Bool.and_false])

theorem atCommands_ge {b : Nat} (left : r.budget = some b) (round : Round) :
    ∃ b', (r.atCommands round).budget = some b' ∧ b ≤ b' + passage r.shutdownInbox + passage r.restartInbox := by
  obtain ⟨b₁, left₁, more₁⟩ := afterShutdowns_ge left round
  obtain ⟨b₂, left₂, more₂⟩ := afterRestarts_ge (r := r.atRestarts round) left₁ (r.pastShutdowns round)
  have more₂ : b₁ ≤ b₂ + passage r.restartInbox := more₂
  exact ⟨b₂, left₂, by omega⟩

/-! ### What a look leaves -/

/-- What becomes of a run at a look. -/
structure Looked (r r' : Run) : Prop where
  handleHeld : r'.handleHeld = r.handleHeld
  lent : r'.lent = r.lent
  commands : ∃ obeyed, r.commands = obeyed ++ r'.commands
  parked : r'.parked ⊆ r.parked
  shutdown : r'.shutdownInbox.kinds = r.shutdownInbox.kinds
  restart : r'.restartInbox.kinds = r.restartInbox.kinds

theorem looked_sparing {budget : Option Nat} {deferred : List Task} {stage : Stage} {queue : List Int} :
    Looked r { r with
      budget := budget, deferred := deferred, stage := stage
      shutdownInbox := { r.shutdownInbox with queue := queue } } :=
  ⟨rfl, rfl, ⟨[], rfl⟩, List.Subset.refl _, rfl, rfl⟩

theorem looked_prompted {queue : List Int} {commands : List Command} (obeyed : List Command) (round : Round)
    (o : Occurrence) (event : Event) (obeys : r.commands = obeyed ++ commands) :
    Looked r (r.prompted round o event queue commands) :=
  ⟨rfl, rfl, ⟨obeyed, obeys⟩, List.filter_subset_self _, rfl, rfl⟩

theorem Looked.of_inRound {round : Round} {b : Option Nat} (h : Looked (r.inRound round b) r') : Looked r r' :=
  ⟨h.handleHeld, h.lent, h.commands, h.parked, h.shutdown, h.restart⟩

theorem looked_summons {c : Cause} (h : r.summons = some (c, r')) : Looked r r' := by
  unfold summons at h
  split at h
  · cases h
    exact looked_sparing
  · split at h
    · cases h
      exact looked_sparing
    · split at h
      · cases h
        exact looked_sparing
      · cases h

theorem looked_commands (r : Run) (round : Round) : Looked r (r.lookAtCommands round).2 := by
  cases listening : round.listening with
  | false =>
    rw [lookAtCommands_of_deaf listening]
    exact looked_sparing
  | true =>
    cases spent : r.isSpent with
    | true =>
      rw [lookAtCommands_of_spent listening spent]
      exact looked_sparing
    | false =>
      cases commands : r.commands with
      | nil =>
        rw [lookAtCommands_of_nil listening spent commands]
        split <;> exact looked_sparing
      | cons c rest =>
        cases c with
        | restart =>
          rw [lookAtCommands_of_restart listening spent commands]
          exact looked_prompted [.restart] round _ _ commands
        | shutdown =>
          rw [lookAtCommands_of_shutdown listening spent commands]
          exact ⟨rfl, rfl, ⟨[.shutdown], commands⟩, List.Subset.refl _, rfl, rfl⟩

theorem looked_restarts (h : r.stage = .running round) : Looked r (r.lookAtRestarts round).2 := by
  cases affords : !round.restartPassed && r.isSpent with
  | true =>
    rw [lookAtRestarts, if_pos affords]
    exact looked_sparing
  | false =>
    cases queue : r.restartInbox.queue with
    | cons n rest =>
      rw [lookAtRestarts_of_queue queue affords]
      exact looked_prompted [] round _ _ rfl
    | nil =>
      rw [lookAtRestarts_of_nil h queue affords]
      exact (looked_commands _ _).of_inRound

theorem looked_look (h : r.stage = .running round) : Looked r (r.look round).2 := by
  cases spent : r.isSpent with
  | true =>
    rw [look, if_pos spent]
    exact looked_sparing
  | false =>
    rw [look_eq h spent]
    cases reason : r.summons with
    | some x =>
      obtain ⟨c, r'⟩ := x
      exact looked_summons reason
    | none => exact (looked_restarts (r := r.atRestarts round) rfl).of_inRound

/-! ### How far a round gets -/

/-- After a look the supervising task is at a new round, or it was put off, or it got beyond every stream without
listeners. -/
def Gets (r : Run) : Sight × Run → Prop
  | (.cause _, _) => True
  | (.news, r') => ∃ round', r'.stage = .running round' ∧ round'.Fair r
  | (.nothing, r') => ∃ round', r'.stage = .running round' ∧ round'.Fair r ∧
      (.supervise ∈ r'.deferred ∨ round'.Thorough r)

theorem Gets.of_inRound {b : Option Nat} {x : Sight × Run} (h : Gets (r.inRound round b) x) : Gets r x := by
  obtain ⟨sight, r'⟩ := x
  cases sight with
  | cause => trivial
  | news =>
    obtain ⟨round', stage, fair⟩ := h
    exact ⟨round', stage, fair.shutdown, fair.restart⟩
  | nothing =>
    obtain ⟨round', stage, fair, far⟩ := h
    exact ⟨round', stage, ⟨fair.shutdown, fair.restart⟩, far.imp_right fun all => ⟨all.shutdown, all.restart⟩⟩

theorem gets_commands (h : r.stage = .running round) (thorough : round.Thorough r) :
    Gets r (r.lookAtCommands round) := by
  cases listening : round.listening with
  | false =>
    rw [lookAtCommands_of_deaf listening]
    exact ⟨round, h, thorough.fair, .inr thorough⟩
  | true =>
    cases spent : r.isSpent with
    | true =>
      rw [lookAtCommands_of_spent listening spent]
      exact ⟨round, h, thorough.fair, .inl List.mem_cons_self⟩
    | false =>
      cases commands : r.commands with
      | nil =>
        rw [lookAtCommands_of_nil listening spent commands]
        split
        · exact ⟨_, rfl, .of_unpassed rfl rfl⟩
        · exact ⟨round, h, thorough.fair, .inr thorough⟩
      | cons c rest =>
        cases c with
        | restart =>
          rw [lookAtCommands_of_restart listening spent commands]
          exact ⟨round.next, rfl, .of_unpassed rfl rfl⟩
        | shutdown =>
          rw [lookAtCommands_of_shutdown listening spent commands]
          trivial

theorem passed_or (passed empty : Bool) (fair : passed = true → empty = true) : (passed || empty) = empty := by
  cases passed with
  | false => rfl
  | true => exact (fair rfl).symm

theorem gets_restarts (h : r.stage = .running round) (fair : round.Fair r)
    (shutdown : round.shutdownPassed = r.shutdownInbox.kinds.isEmpty) : Gets r (r.lookAtRestarts round) := by
  cases affords : !round.restartPassed && r.isSpent with
  | true =>
    rw [lookAtRestarts, if_pos affords]
    exact ⟨round, h, fair, .inl List.mem_cons_self⟩
  | false =>
    cases queue : r.restartInbox.queue with
    | cons n rest =>
      rw [lookAtRestarts_of_queue queue affords]
      exact ⟨round.next, rfl, .of_unpassed rfl rfl⟩
    | nil =>
      rw [lookAtRestarts_of_nil h queue affords]
      have thorough : (r.pastRestarts round).Thorough (r.inRound (r.pastRestarts round) (r.afterRestarts round)) :=
        ⟨shutdown, passed_or _ _ fair.restart⟩
      exact (gets_commands rfl thorough).of_inRound

theorem gets_look (h : r.stage = .running round) (fair : round.Fair r) : Gets r (r.look round) := by
  cases spent : r.isSpent with
  | true =>
    rw [look, if_pos spent]
    exact ⟨round, h, fair, .inl List.mem_cons_self⟩
  | false =>
    rw [look_eq h spent]
    cases reason : r.summons with
    | some x => trivial
    | none =>
      have same : (r.pastShutdowns round).shutdownPassed = r.shutdownInbox.kinds.isEmpty := passed_or _ _ fair.shutdown
      exact (gets_restarts (r := r.atRestarts round) rfl ⟨fun passed => same ▸ passed, fair.restart⟩ same).of_inRound

/-- Where the rounds of a run stand. -/
structure Paced (r : Run) : Prop where
  fair : ∀ round, r.stage = .running round → round.Fair r
  thorough : ∀ round, r.stage = .running round → .supervise ∈ r.parked → .supervise ∉ r.deferred → round.Thorough r

theorem Looked.fair (h : Looked r r') (fair : round.Fair r) : round.Fair r' :=
  ⟨fun passed => h.shutdown ▸ fair.shutdown passed, fun passed => h.restart ▸ fair.restart passed⟩

theorem Looked.thorough (h : Looked r r') (thorough : round.Thorough r) : round.Thorough r' :=
  ⟨thorough.shutdown.trans (congrArg _ h.shutdown.symm), thorough.restart.trans (congrArg _ h.restart.symm)⟩

/-- A turn of the supervising task ends beyond every stream without listeners, unless it is put off. -/
theorem attend_paced {fuel : Nat} (h : r.stage = .running round) (deaf : round.listening = false → r.commands = [])
    (fair : round.Fair r) (enough : r.rank round < fuel) :
    ∀ round', (attend fuel r).stage = .running round' → round'.Fair (attend fuel r) ∧
      (.supervise ∈ (attend fuel r).deferred ∨ round'.Thorough (attend fuel r)) := by
  induction fuel generalizing r round with
  | zero => exact absurd enough (Nat.not_lt_zero _)
  | succ fuel ih =>
    have heeds := heeds_look h deaf
    have looked := looked_look h
    have gets := gets_look h fair
    simp only [attend, h]
    generalize r.look round = x at heeds looked gets ⊢
    obtain ⟨sight, r'⟩ := x
    cases sight with
    | cause c =>
      intro round' running
      have shut := (windsUp_shutDown r' c).stage
      rw [show (r'.shutDown c).stage = .running round' from running] at shut
      cases shut
    | news =>
      obtain ⟨os, -, -, round', stage, deaf', less⟩ := heeds
      obtain ⟨round'', stage', fair'⟩ := gets
      cases Stage.running.inj (stage.symm.trans stage')
      exact ih stage deaf' (looked.fair fair') (by omega)
    | nothing =>
      obtain ⟨round', stage, fair', far⟩ := gets
      intro round'' running
      cases Stage.running.inj (stage.symm.trans running)
      exact ⟨looked.fair fair', far.imp_right looked.thorough⟩

theorem Passes.superviseTurn_paced (h : Passes settings services cur r)
    (fair : ∀ round, r.stage = .running round → round.Fair r) :
    ∀ round, r.superviseTurn.stage = .running round → round.Fair r.superviseTurn ∧
      (.supervise ∈ r.superviseTurn.deferred ∨ round.Thorough r.superviseTurn) := by
  have winds {r' : Run} (winds : WindsUp r r') (round : Round) (running : r'.stage = .running round) : False := by
    have shut := winds.stage
    rw [running] at shut
    cases shut
  cases stage : r.stage with
  | idle | returned =>
    simp only [superviseTurn, stage]
    exact fun _ running => by cases running
  | spawned =>
    simp only [superviseTurn, stage, setUp]
    split
    · exact fun _ running => by cases running
    · rename_i shutdown restart b _
      exact attend_paced (r := r.equip shutdown restart b) (show _ = Stage.running {} from rfl) (by simp)
        (.of_unpassed rfl rfl) (rank_lt_attendSteps _ {})
  | running round =>
    simp only [superviseTurn, stage]
    exact attend_paced stage (fun unlistening => (h.deaf stage unlistening).2) (fair round stage)
      (r.rank_lt_attendSteps round)
  | stopping =>
    simp only [superviseTurn, stage]
    exact fun round running => (winds (windsUp_awaitStops (by rw [stage]; rfl)) round running).elim
  | leaving deadline =>
    simp only [superviseTurn, stage]
    exact fun round running => (winds (windsUp_leave (by rw [stage]; rfl) deadline) round running).elim

theorem Acts.streams_other (h : Acts t r r') (other : t ≠ .supervise) : r'.stage = r.stage ∧
    r'.shutdownInbox.kinds = r.shutdownInbox.kinds ∧ r'.restartInbox.kinds = r.restartInbox.kinds := by
  induction h with
  | refl => exact ⟨rfl, rfl, rfl⟩
  | @tail r₁ r₂ _ act ih =>
    obtain ⟨os, act⟩ := act
    obtain ⟨stage, shutdown, restart⟩ := ih
    have kinds : r₂.shutdownInbox.kinds = r₁.shutdownInbox.kinds ∧ r₂.restartInbox.kinds = r₁.restartInbox.kinds := by
      cases act with
      | aside h => rw [h.spares.shutdownInbox, h.spares.restartInbox]; exact ⟨rfl, rfl⟩
      | deliver => exact ⟨Inbox.kinds_offer _ _ _, Inbox.kinds_offer _ _ _⟩
      | fail | equip | pass | stopListening | receive | obey | shutDown | leave | finish | expire => exact absurd rfl other
      | _ => exact ⟨rfl, rfl⟩
    exact ⟨(act.stage_other other).trans stage, kinds.1.trans shutdown, kinds.2.trans restart⟩

theorem Paced.of_same (h : Paced r) (stage : ∀ round, r'.stage = .running round → r.stage = .running round)
    (shutdown : r'.shutdownInbox.kinds = r.shutdownInbox.kinds) (restart : r'.restartInbox.kinds = r.restartInbox.kinds)
    (waits : .supervise ∈ r'.parked → .supervise ∉ r'.deferred → .supervise ∈ r.parked ∧ .supervise ∉ r.deferred) :
    Paced r' where
  fair round running := by
    have fair := h.fair round (stage round running)
    exact ⟨fun passed => shutdown ▸ fair.shutdown passed, fun passed => restart ▸ fair.restart passed⟩
  thorough round running parked undeferred := by
    obtain ⟨parked, undeferred⟩ := waits parked undeferred
    have thorough := h.thorough round (stage round running) parked undeferred
    exact ⟨shutdown ▸ thorough.shutdown, restart ▸ thorough.restart⟩

theorem Outside.paced (h : Outside os r r') (ih : Paced r) : Paced r' := by
  have keeps := h.keeps
  have step := h
  refine ih.of_same (fun round running => ?_) (by rw [keeps.shutdownInbox]) (by rw [keeps.restartInbox])
    fun parked undeferred => ⟨step.lines.2 parked, fun mem => ?_⟩
  · cases h with
    | effect h => exact h.spares.stage ▸ running
    | run => cases running
    | _ => exact running
  · cases h with
    | effect h => exact undeferred (by cases h <;> exact mem)
    | takeUp =>
      have taken : .supervise ∉ r.deferred := by simpa using (List.mem_filter.mp parked).2
      exact taken mem
    | _ => exact undeferred mem

theorem Passes.paced_tick (before : Passes settings services none r) (h : r.tick? = some r') (ih : Paced r) :
    Paced r' := by
  obtain ⟨t, rest, ready, rfl⟩ := tick_cases h
  let begun : Run := r.atTurn rest t
  have began : Passes settings services (some t) begun := before.turn ready
  have acts : Acts t begun (begun.act t) := (before.acts_turn ready).1
  rw [turn_eq_afterTurn]
  by_cases supervises : t = .supervise
  · subst supervises
    have fair (round : Round) (running : begun.stage = .running round) : round.Fair begun :=
      ⟨(ih.fair round running).shutdown, (ih.fair round running).restart⟩
    have turned := began.superviseTurn_paced fair
    refine ⟨fun round running => ?_, fun round running _ undeferred => ?_⟩
    · exact ⟨(turned round running).1.shutdown, (turned round running).1.restart⟩
    · have thorough := (turned round running).2.resolve_left undeferred
      exact ⟨thorough.shutdown, thorough.restart⟩
  · obtain ⟨stage, shutdown, restart⟩ := acts.streams_other supervises
    refine ih.of_same (fun round running => stage ▸ running) shutdown restart fun parked undeferred => ⟨?_, fun mem => ?_⟩
    · exact acts.lines.2 ((mem_parked_afterTurn (Ne.symm supervises)).mp parked)
    · have left : .supervise ∈ begun.deferred := (List.mem_erase_of_ne (Ne.symm supervises)).mpr mem
      rcases began.putsOff_act t with same | more
      · exact undeferred (same ▸ left)
      · exact undeferred (more ▸ List.mem_cons_of_mem t left)

theorem paced_of_reaches (h : (initial settings services).Reaches r) : Paced r := by
  have idle (round : Round) : (initial settings services).stage ≠ .running round := nofun
  have start : Paced (initial settings services) :=
    ⟨fun round running => absurd running (idle round), fun round running => absurd running (idle round)⟩
  refine (h.invariant (P := fun r => Passes settings services none r ∧ Paced r)
    ⟨.initial (some turnQuota) (by decide), start⟩ ?_ ?_).2
  · exact fun r₁ r₂ ⟨passed, ih⟩ turn => ⟨(passed.tick turn).1, passed.paced_tick turn ih⟩
  · exact fun os r₁ r₂ ⟨passed, ih⟩ step => ⟨passed.outside step, step.paced ih⟩

theorem Passes.tidy (h : Passes settings services cur r) : r.restartInbox.Tidy := by
  refine h.invariant (P := fun r => r.restartInbox.Tidy) (fun _ => ⟨Nat.zero_le _, fun _ => rfl⟩) (fun _ _ _ _ _ ih => ih)
    ?_ ?_
  · intro os r r' _ h ih
    rw [h.keeps.restartInbox]
    exact ih
  · intro t os r r' _ h ih
    cases h with
    | aside h =>
      rw [h.spares.restartInbox]
      exact ih
    | equip _ has =>
      have listens := (acquire_ok has).2.1
      show Inbox.Tidy _
      rw [listen_spec listens]
      exact ⟨Nat.zero_le _, fun _ => rfl⟩
    | deliver => exact ih.deliver _
    | receive _ queue => exact ih.take queue
    | shutDown _ reason => cases reason <;> exact ih
    | _ => exact ih

end Run

end Supervision
