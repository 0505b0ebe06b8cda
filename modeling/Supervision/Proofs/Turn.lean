import Supervision.Proofs.Calls

/-! Every turn is made of acts. The supervising task looks at what has come and acts on it until nothing is left, its
fuel suffices, and it parks only when it cannot go on. So what the acts preserve, and what the caller preserves between
two turns, holds of every state that a run can reach. -/

namespace Supervision

namespace Run

variable {settings : Settings} {services : List Service} {r r' : Run}

/-! ### The supervising task -/

theorem acts_leave {deadline : Option Nat} (h : r.stage = .leaving deadline) :
    Acts .supervise r (r.leave deadline) ∧ (r.leave deadline).Rests .supervise := by
  unfold leave
  split
  · rename_i exited
    exact ⟨.single ⟨_, .finish h exited⟩, .inl rfl⟩
  · rename_i left
    have left : r.allExited = false := by simpa using left
    cases deadline with
    | none => exact ⟨.refl, .inr ⟨canGoOn_of_not_isDue (by simp only [isDue, h, left]), by simp [h]⟩⟩
    | some d =>
      dsimp only
      split
      · rename_i due
        exact ⟨.single ⟨_, .expire h left due⟩, .inl rfl⟩
      · rename_i waits
        exact ⟨.refl, .inr ⟨canGoOn_of_not_isDue (by simp [isDue, h, left, waits]), by simp [h]⟩⟩

theorem acts_awaitStops (h : r.stage = .stopping) :
    Acts .supervise r r.awaitStops ∧ r.awaitStops.Rests .supervise := by
  unfold awaitStops
  split
  · rename_i stopped
    have left : ({ r with stage := .leaving r.graceEnd? } : Run).stage = .leaving r.graceEnd? := rfl
    obtain ⟨acts, rests⟩ := acts_leave left
    exact ⟨acts.head ⟨_, .leave h stopped⟩, rests⟩
  · rename_i stopping
    exact ⟨.refl, .inr ⟨canGoOn_of_not_isDue (by simpa [isDue, h] using stopping), by simp [h]⟩⟩

/-- How much the supervising task has before it: what it can receive, what it can obey, and to find that nobody is left
to send commands. -/
def rank (r : Run) (round : Round) : Nat :=
  r.restartInbox.queue.length + r.commands.length + round.listening.toNat

/-- A look gets by acts to a reason for a shutdown, to a new round with less before it, or to rest. -/
def Looks (r : Run) (round : Round) : Sight × Run → Prop
  | (.cause c, r') => ∃ r₁ round₁ os, Acts .supervise r r₁ ∧ r₁.stage = .running round₁ ∧ Reason os c r₁ r'
  | (.news, r') => Acts .supervise r r' ∧
      ∃ round', r'.stage = .running round' ∧ round'.isUnderWay = false ∧ r'.rank round' < r.rank round
  | (.nothing, r') => Acts .supervise r r' ∧ r'.Rests .supervise

theorem Looks.after {round round' : Round} {x : Sight × Run} (h : Acts .supervise r r')
    (rank : r'.rank round' = r.rank round) (h' : Looks r' round' x) : Looks r round x := by
  obtain ⟨sight, r₂⟩ := x
  cases sight with
  | cause c =>
    obtain ⟨r₁, round₁, os, acts, h'⟩ := h'
    exact ⟨r₁, round₁, os, h.trans acts, h'⟩
  | news =>
    obtain ⟨acts, round₂, stage, fresh, less⟩ := h'
    exact ⟨h.trans acts, round₂, stage, fresh, rank ▸ less⟩
  | nothing => exact ⟨h.trans h'.1, h'.2⟩

theorem looks_spent {round : Round} (h : r.stage = .running round)
    (fresh : round.isUnderWay = true → r.cancelled = false ∧ r.exit.isFired = false) :
    Looks r round (.nothing, r.defer .supervise) := by
  refine ⟨.single ⟨_, .aside (.defer r)⟩, .inr ⟨canGoOn_of_mem_deferred (by simp [defer]) ?_, by simp [defer, h]⟩⟩
  simp only [isDueEarly, defer, h]
  cases underWay : round.isUnderWay with
  | false => rfl
  | true => simp [fresh underWay]

theorem acts_pass {round round' : Round} (h : r.stage = .running round) (same : round'.listening = round.listening) :
    Acts .supervise r { r.spend with stage := .running round' } := by
  have running : r.spend.stage = .running round := h
  exact (Relation.ReflTransGen.single ⟨_, .aside (.spend r)⟩).tail ⟨_, .pass running round' same⟩

theorem fire_log_mark (r : Run) (o : Occurrence) (event : Event) :
    ((r.mark o).log event).fire = wake { r with
      restarts := r.restarts.fire
      history := r.historyWith [o, .fired]
      trace := r.trace ++ [event] } := by
  simp only [fire, log, mark, historyWith, List.append_assoc, List.map_cons, List.map_nil, List.cons_append,
    List.nil_append]

theorem looks_commands {round : Round} (h : r.stage = .running round) (uncancelled : r.cancelled = false)
    (unfired : r.exit.isFired = false) (noShutdown : r.shutdownInbox.queue = []) (noRestart : r.restartInbox.queue = []) :
    Looks r round (r.lookAtCommands round) := by
  have rests (quiet : (round.listening && (!r.commands.isEmpty || r.orphaned)) = false) :
      Looks r round (.nothing, r) :=
    ⟨.refl, .inr ⟨canGoOn_of_not_isDue (by
      simp [isDue, h, isCalled, uncancelled, unfired, noShutdown, noRestart, quiet]), by simp [h]⟩⟩
  unfold lookAtCommands
  split
  · rename_i deaf
    exact rests (by simp_all)
  · rename_i listening
    have listening : round.listening = true := by simpa using listening
    split
    · exact looks_spent h fun _ => ⟨uncancelled, unfired⟩
    · split
      · rename_i rest queue
        have passed : Acts .supervise r { r.spend with stage := .running round.next } := acts_pass h rfl
        have obeyed : Act .supervise [.obeyed .restart, .fired] { r.spend with stage := .running round.next } _ :=
          .obey rfl queue
        refine ⟨?_, round.next, ?_, rfl, ?_⟩
        · dsimp only
          rw [fire_log_mark]
          exact passed.tail ⟨_, obeyed⟩
        · rw [fire_log_mark]
          simp only [wake]
        · rw [fire_log_mark]
          simp [rank, wake, spend, queue, Round.next, listening]
      · rename_i rest queue
        exact ⟨r, round, _, .refl, h, .requested queue⟩
      · rename_i empty
        split
        · rename_i orphaned
          refine ⟨(Relation.ReflTransGen.single ⟨_, .aside (.spend r)⟩).tail ⟨_, .stopListening h empty orphaned⟩,
            _, rfl, rfl, ?_⟩
          simp [rank, spend, listening]
        · rename_i attached
          exact rests (by simp [empty, attached])

theorem looks_restarts {round : Round} (h : r.stage = .running round) (uncancelled : r.cancelled = false)
    (unfired : r.exit.isFired = false) (noShutdown : r.shutdownInbox.queue = []) :
    Looks r round (r.lookAtRestarts round) := by
  unfold lookAtRestarts
  split
  · exact looks_spent h fun _ => ⟨uncancelled, unfired⟩
  · cases queue : r.restartInbox.queue with
    | cons n rest =>
      simp only [Inbox.receive, queue]
      have passed : Acts .supervise r { r.spend with stage := .running round.next } := acts_pass h rfl
      have received : Act .supervise [.received n, .fired] { r.spend with stage := .running round.next } _ :=
        .receive rfl queue
      refine ⟨?_, round.next, ?_, rfl, ?_⟩
      · rw [fire_log_mark]
        exact passed.tail ⟨_, received⟩
      · rw [fire_log_mark]
        simp only [wake]
      · rw [fire_log_mark]
        simp only [rank, wake, spend, queue, Round.next, List.length_cons]
        omega
    | nil =>
      simp only [Inbox.receive, queue]
      split
      · let round' : Round := { round with restartPassed := true }
        have passed : Acts .supervise r { r.spend with stage := .running round' } := acts_pass h rfl
        have running : ({ r.spend with stage := .running round' } : Run).stage = .running round' := rfl
        exact (looks_commands running uncancelled unfired noShutdown queue).after passed rfl
      · exact looks_commands h uncancelled unfired noShutdown queue

theorem looks_shutdowns {round : Round} (h : r.stage = .running round) (uncancelled : r.cancelled = false)
    (unfired : r.exit.isFired = false) : Looks r round (r.lookAtShutdowns round) := by
  unfold lookAtShutdowns
  cases queue : r.shutdownInbox.queue with
  | cons n rest =>
    simp only [Inbox.receive, queue]
    exact ⟨r, round, _, .refl, h, .signal queue⟩
  | nil =>
    simp only [Inbox.receive, queue]
    split
    · let round' : Round := { round with shutdownPassed := true }
      have passed : Acts .supervise r { r.spend with stage := .running round' } := acts_pass h rfl
      have running : ({ r.spend with stage := .running round' } : Run).stage = .running round' := rfl
      exact (looks_restarts running uncancelled unfired queue).after passed rfl
    · exact looks_restarts h uncancelled unfired queue

theorem looks_look {round : Round} (h : r.stage = .running round)
    (fresh : r.isSpent = true → round.isUnderWay = false) : Looks r round (r.look round) := by
  unfold look
  split
  · rename_i spent
    exact looks_spent h fun underWay => by simp [fresh spent] at underWay
  · split
    · rename_i cancelled
      exact ⟨r, round, _, .refl, h, .cancelled cancelled⟩
    · rename_i uncancelled
      have uncancelled : r.cancelled = false := by simpa using uncancelled
      cases exit : r.exit.value with
      | some name => exact ⟨r, round, _, .refl, h, .exited uncancelled exit⟩
      | none => exact looks_shutdowns h uncancelled (by simp [Latch.isFired, exit])

/-- No round but the last leaves as much before it, so the rounds suffice. -/
theorem acts_attend {fuel : Nat} {round : Round} (h : r.stage = .running round)
    (fresh : r.isSpent = true → round.isUnderWay = false) (enough : r.rank round < fuel) :
    Acts .supervise r (attend fuel r) ∧ (attend fuel r).Rests .supervise := by
  induction fuel generalizing r round with
  | zero => omega
  | succ fuel ih =>
    have looks := looks_look h fresh
    simp only [attend, h]
    split
    · rename_i c r' sees
      rw [sees] at looks
      obtain ⟨r₁, round₁, os, acts, running, reason⟩ := looks
      obtain ⟨acts', rests⟩ := acts_awaitStops (stage_announce r' c)
      exact ⟨(acts.tail ⟨_, .shutDown running reason⟩).trans acts', rests⟩
    · rename_i r' sees
      rw [sees] at looks
      obtain ⟨acts, round', running, notUnderWay, less⟩ := looks
      obtain ⟨acts', rests⟩ := ih running (fun _ => notUnderWay) (by omega)
      exact ⟨acts.trans acts', rests⟩
    · rename_i r' sees
      rw [sees] at looks
      exact looks

theorem rank_lt_attendSteps (r : Run) (round : Round) : r.rank round < r.attendSteps := by
  have := round.listening.toNat_le
  unfold rank attendSteps
  omega

theorem acts_superviseTurn (fresh : r.isSpent = false) :
    Acts .supervise r r.superviseTurn ∧ r.superviseTurn.Rests .supervise := by
  cases h : r.stage with
  | idle =>
    simp only [superviseTurn, h]
    exact ⟨.refl, .inr ⟨canGoOn_of_not_isDue (by simp [isDue, h]), by simp [h]⟩⟩
  | spawned =>
    simp only [superviseTurn, h, setUp]
    cases has : acquire r.settings with
    | error f =>
      refine ⟨.single ⟨_, .fail h has⟩, .inl rfl⟩
    | ok streams =>
      obtain ⟨shutdown, restart, b⟩ := streams
      have running : (r.equip shutdown restart b).stage = .running {} := rfl
      obtain ⟨acts, rests⟩ := acts_attend running (fun _ => rfl) (rank_lt_attendSteps _ {})
      exact ⟨acts.head ⟨_, .equip h has⟩, rests⟩
  | running round =>
    simp only [superviseTurn, h]
    exact acts_attend h (by simp [fresh]) (rank_lt_attendSteps r round)
  | stopping =>
    simp only [superviseTurn, h]
    exact acts_awaitStops h
  | leaving deadline =>
    simp only [superviseTurn, h]
    exact acts_leave h
  | returned v time =>
    simp only [superviseTurn, h]
    exact ⟨.refl, .inl (by simp [isOver, h, Stage.hasReturned])⟩

/-! ### Every turn -/

theorem acts_act {t : Task} (fresh : r.isSpent = false) (watched : ∀ w, t = .watch w → w < r.watches.length) :
    Acts t r (r.act t) ∧ (r.act t).Rests t := by
  cases t with
  | supervise => exact acts_superviseTurn fresh
  | start e => exact acts_startTurn r e
  | restart e => exact acts_restartTurn r e
  | stop e => exact acts_stopTurn r e
  | watch w => exact acts_watchTurn (watched w rfl)
  | signal n => exact acts_signalTurn r n

theorem Passes.quota_ne {cur : Option Task} (h : Passes settings services cur r) : r.quota ≠ some 0 := by
  induction h with
  | initial quota h => exact h
  | outside _ h ih => exact h.keeps.quota ▸ ih
  | turn _ _ ih => exact ih
  | act _ h ih => exact h.steady.quota ▸ ih
  | finished _ _ ih => exact ih
  | park _ _ _ _ ih => exact ih

theorem turn_eq (r : Run) (t : Task) :
    let acted := act { r with budget := r.quota, deferred := r.deferred.erase t } t
    r.turn t = { acted with
      parked := if acted.isOver t then acted.parked else (acted.park t (r.placeKept t)).parked
      place := if acted.isOver t then acted.place else (acted.park t (r.placeKept t)).place } := by
  unfold turn
  dsimp only
  split <;> rfl

theorem mem_parked_turn {t t' : Task} (parked : t' ∈ (r.turn t).parked) :
    t' = t ∨ t' ∈ (act { r with budget := r.quota, deferred := r.deferred.erase t } t).parked := by
  rw [turn_eq] at parked
  dsimp only at parked
  split at parked
  · exact .inr parked
  · exact mem_parked_park.mp parked

/-- A turn is made of acts, and ends in rest. -/
theorem Passes.acts_turn {t : Task} {rest : List Task} (before : Passes settings services none r)
    (ready : r.ready = t :: rest) :
    let begun : Run := { r with ready := rest, budget := r.quota, deferred := r.deferred.erase t }
    Acts t begun (begun.act t) ∧ (begun.act t).Rests t := by
  refine acts_act ?_ fun w watch => ?_
  · simpa [isSpent] using before.quota_ne
  · have known := before.knows (.inl (.inl (ready ▸ List.mem_cons_self)))
    rwa [watch] at known

theorem Passes.tick (before : Passes settings services none r) (h : r.tick? = some r') :
    Passes settings services none r' ∧ r'.now = r.now := by
  obtain ⟨t, rest, ready, rfl⟩ := tick_cases h
  have began := before.turn ready
  obtain ⟨acts, rests⟩ := before.acts_turn ready
  have now := acts.steady.now
  rw [Run.turn]
  split
  · rename_i finished
    exact ⟨(began.acts acts).finished finished, now⟩
  · rename_i waits
    rcases rests with finished | ⟨cannot, may⟩
    · exact absurd finished waits
    · exact ⟨(began.acts acts).park (by simpa using waits) cannot may, now⟩

def Outsides : Run → Run → Prop :=
  Relation.ReflTransGen fun r r' => ∃ os, Outside os r r'

theorem Outside.outsides {os : List Occurrence} (h : Outside os r r') : Outsides r r' :=
  .single ⟨os, h⟩

theorem outsides_sendTimes (c : Command) (times : Nat) (answer : Answer) (r : Run) :
    Outsides r (Run.sendTimes c times (answer, r)).2 := by
  induction times generalizing r answer with
  | zero => exact .refl
  | succ times ih =>
    have sent : Outsides r (r.send c).2 := by
      rcases effect_send r c with same | effect
      · rw [same]
        exact .refl
      · exact (Outside.effect effect).outsides
    exact sent.trans (ih _ _)

theorem outsides_perform {a : Action} (r : Run) (h : a.isInstant = true) : Outsides r (r.perform a).2 := by
  cases a with
  | raise | wait => cases h
  | run =>
    unfold Run.perform
    dsimp only
    split
    · rename_i idle
      exact (Outside.run idle).outsides
    · exact .refl
  | cancel => exact (Outside.effect (.cancel r)).outsides
  | command c times =>
    unfold Run.perform
    exact outsides_sendTimes c times _ r
  | release service =>
    unfold Run.perform
    dsimp only
    split
    · exact (Outside.effect (.release r _)).outsides
    · exact .refl
  | dropHandle => exact (Outside.dropHandle r).outsides
  | newHandle =>
    unfold Run.perform
    dsimp only
    split
    · rename_i idle
      exact (Outside.newHandle idle).outsides
    · exact .refl
  | watch =>
    unfold Run.perform
    dsimp only
    split
    · rename_i held
      exact (Outside.watch held).outsides
    · exact .refl
  | unknown => exact .refl

/-- A move is a turn, or made of what happens between two turns. -/
theorem Move.turn_or_outsides (h : Move r r') : r.tick? = some r' ∨ Outsides r r' := by
  cases h with
  | turn h => exact .inl h
  | takeUp => exact .inr (Outside.takeUp r).outsides
  | pass later inTime =>
    right
    unfold advance
    split
    · rename_i settled
      exact (Outside.pass settled later inTime).outsides
    · exact .refl
  | signal n => exact .inr (Outside.signal r n).outsides
  | act a h => exact .inr (outsides_perform r h)

theorem Reaches.invariant {P : Run → Prop} (h : r.Reaches r') (start : P r)
    (turn : ∀ r r', P r → r.tick? = some r' → P r') (outside : ∀ os r r', P r → Outside os r r' → P r') : P r' := by
  induction h with
  | refl => exact start
  | tail _ move ih =>
    rcases move.turn_or_outsides with turned | outsides
    · exact turn _ _ ih turned
    · clear move
      induction outsides with
      | refl => exact ih
      | tail _ step ih =>
        obtain ⟨os, step⟩ := step
        exact outside os _ _ ih step

theorem Passes.reaches (before : Passes settings services none r) (h : r.Reaches r') :
    Passes settings services none r' :=
  h.invariant before (fun _ _ before turn => (before.tick turn).1) fun _ _ _ before => before.outside

/-- What holds of every state passed holds of every state that a run can reach. -/
theorem Passes.of_reaches (h : (Run.initial settings services).Reaches r) : Passes settings services none r :=
  Passes.reaches (.initial (some turnQuota) (by decide)) h

end Run

end Supervision
