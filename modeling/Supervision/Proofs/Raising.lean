import Supervision.Proofs.Fanout
import Supervision.Proofs.Agreement
import Supervision.Proofs.Precedence

/-! What comes of one raised signal. It reaches both streams at once, the supervising task is the next to have its turn, and
what the run does then depends on nothing but the lists: it shuts down, or fires for each delivery that was kept, or does
nothing. A turn of the supervising task lasts for so many firings and no more; whatever is left has to wait until the
services have had their turns. -/

namespace Supervision

namespace Inbox

variable {b : Inbox} {n : Int}

theorem queue_offer (n : Int) (copies : Nat) (fits : b.queue.length ≤ b.capacity) :
    (offer n copies b).2.queue = b.queue ++ List.replicate (min copies (b.capacity - b.queue.length)) n := by
  induction copies generalizing b with
  | zero => simp [offer]
  | succ copies ih =>
    have pushed := ih (length_queue_push fits n)
    rw [capacity_push] at pushed
    refine pushed.trans ?_
    cases full : b.isFull with
    | true =>
      have full : b.capacity ≤ b.queue.length := by simpa [isFull] using full
      simp [push, isFull, full, Nat.sub_eq_zero_of_le full]
    | false =>
      have free : b.queue.length < b.capacity := by simpa [isFull] using full
      rw [push, full, show min (copies + 1) (b.capacity - b.queue.length) =
        min copies (b.capacity - (b.queue ++ [n]).length) + 1 by simp; omega]
      simp [List.replicate_succ]

theorem queue_deliver (empty : b.queue = []) :
    (b.deliver n).2.queue = List.replicate (min (b.kinds.count n) b.capacity) n := by
  rw [deliver, queue_offer n _ (by simp [empty]), empty]
  simp

theorem deliver_of_not_mem (unlisted : n ∉ b.kinds) : b.deliver n = (0, b) := by
  rw [deliver, List.count_eq_zero.mpr unlisted]
  rfl

end Inbox

namespace Run

variable {settings : Settings} {services : List Service} {r r' r'' : Run} {t : Task} {cur : Option Task} {round : Round}
  {os : List Occurrence} {n : Int}

/-! ### The stream of restart signals -/

theorem Act.restartInbox (h : Act t os r r') :
    (.setUp ∉ os ∧ r'.restartInbox.kinds = r.restartInbox.kinds ∧ r'.restartInbox.capacity = r.restartInbox.capacity) ∨
      Inbox.listen r.settings.signals .restart = .ok r'.restartInbox := by
  cases h with
  | aside h =>
    refine .inl ⟨fun mem => ?_, by rw [h.spares.restartInbox], by rw [h.spares.restartInbox]⟩
    cases h.isAside _ mem
  | equip _ has => exact .inr (acquire_ok has).2.1
  | @deliver r n =>
    refine .inl ⟨by simp, ?_, ?_⟩
    · exact Inbox.kinds_offer n _ r.restartInbox
    · exact Inbox.capacity_offer n _ r.restartInbox
  | shutDown _ reason =>
    left
    cases reason <;> exact ⟨by simp, rfl, rfl⟩
  | _ => exact .inl ⟨by simp, rfl, rfl⟩

theorem Passes.restartInbox (h : Passes settings services cur r) (setUp : .setUp ∈ r.happened) :
    r.restartInbox.kinds = settings.signals.restart ∧ r.restartInbox.capacity = settings.signals.capacity := by
  refine h.invariant (P := fun r => .setUp ∈ r.happened → r.restartInbox.kinds = settings.signals.restart ∧
    r.restartInbox.capacity = settings.signals.capacity) (fun _ setUp => by cases setUp) (fun _ _ _ _ _ ih => ih) ?_ ?_ setUp
  · intro os r r' _ h ih setUp
    rw [h.keeps.restartInbox]
    rw [h.happened] at setUp
    exact ih ((List.mem_append.mp setUp).resolve_right fun now => by cases h.isAside _ now)
  · intro t os r r' before h ih setUp
    rcases h.restartInbox with ⟨notNow, kinds, capacity⟩ | listens
    · rw [kinds, capacity]
      rw [h.happened] at setUp
      exact ih ((List.mem_append.mp setUp).resolve_right notNow)
    · rw [listen_spec listens, before.settings_eq]
      exact ⟨rfl, rfl⟩

/-! ### Turns alone -/

/-- Nobody but the tasks has done anything from one state to the other: no signal has come, and the restart signals that are
gone were received. -/
structure Undisturbed (r r' : Run) : Prop where
  happened : ∃ os, r'.happened = r.happened ++ os ∧ (∀ m, .raised m ∉ os) ∧
    r.restartInbox.queue = receivedIn os ++ r'.restartInbox.queue
  setUp : r'.stage.isSetUp = true
  unsignalled : ∀ m, ¬ r'.Holds (.signal m)

theorem Undisturbed.trans (h : Undisturbed r r') (h' : Undisturbed r' r'') : Undisturbed r r'' := by
  obtain ⟨os, happened, unraised, flow⟩ := h.happened
  obtain ⟨os', happened', unraised', flow'⟩ := h'.happened
  refine ⟨⟨os ++ os', by rw [happened', happened, List.append_assoc], fun m mem => ?_, ?_⟩, h'.setUp, h'.unsignalled⟩
  · exact (List.mem_append.mp mem).elim (unraised m) (unraised' m)
  · rw [flow, flow', receivedIn_append, List.append_assoc]

theorem undisturbed_of_eq (happened : r'.happened = r.happened) (inbox : r'.restartInbox = r.restartInbox)
    (setUp : r'.stage.isSetUp = true) (unsignalled : ∀ m, ¬ r'.Holds (.signal m)) : Undisturbed r r' :=
  ⟨⟨[], by rw [happened, List.append_nil], by simp, by rw [inbox]; rfl⟩, setUp, unsignalled⟩

theorem receivedIn_eq_nil {os : List Occurrence} (h : ∀ m, .received m ∉ os) : receivedIn os = [] := by
  refine List.filterMap_eq_nil_iff.mpr fun o mem => ?_
  cases o with
  | received m => exact absurd mem (h m)
  | _ => rfl

theorem receivedIn_replicate (j : Nat) (n : Int) : receivedIn (List.replicate j (.received n)) = List.replicate j n := by
  rw [receivedIn, List.filterMap_replicate]
  rfl

theorem Act.restart_flow (h : Act t os r r') (unsignalled : ∀ m, t ≠ .signal m) (setUp : r.stage.isSetUp = true) :
    (∀ m, .raised m ∉ os) ∧ r.restartInbox.queue = receivedIn os ++ r'.restartInbox.queue := by
  cases h with
  | aside h =>
    have absent {o : Occurrence} (own : o.isAside = false) : o ∉ os := fun mem => by simp [h.isAside o mem] at own
    rw [receivedIn_eq_nil fun m => absent rfl, h.spares.restartInbox]
    exact ⟨fun m => absent rfl, rfl⟩
  | deliver | miss => exact absurd rfl (unsignalled _)
  | equip spawned => simp [spawned, Stage.isSetUp] at setUp
  | receive _ queue => exact ⟨by simp, queue⟩
  | shutDown _ reason => cases reason <;> exact ⟨by simp, rfl⟩
  | _ => exact ⟨by simp, rfl⟩

theorem Acts.undisturbed (h : Acts t r r') (unsignalled : ∀ m, t ≠ .signal m) (setUp : r.stage.isSetUp = true)
    (none : ∀ m, ¬ r.Holds (.signal m)) : Undisturbed r r' := by
  induction h with
  | refl => exact undisturbed_of_eq rfl rfl setUp none
  | tail _ act ih =>
    obtain ⟨os, act⟩ := act
    obtain ⟨unraised, flow⟩ := act.restart_flow unsignalled ih.setUp
    refine ih.trans ⟨⟨os, act.happened, unraised, flow⟩, act.stage_step.setUp_iff.mpr (.inl ih.setUp), fun m => ?_⟩
    rcases act.holds_iff_or_equip with same | ⟨rfl, equipped⟩
    · rw [same]
      exact ih.unsignalled m
    · obtain ⟨_, _, _, rfl⟩ := equipped
      rw [holds_equip]
      rintro (held | entry)
      · exact ih.unsignalled m held
      · obtain ⟨e, -, same⟩ := mem_entryTasks.mp entry
        simp at same

theorem Passes.undisturbed_turn {rest : List Task} (before : Passes settings services none r) (ready : r.ready = t :: rest)
    (setUp : r.stage.isSetUp = true) (none : ∀ m, ¬ r.Holds (.signal m)) :
    Undisturbed r (Run.turn { r with ready := rest } t) := by
  have other (m : Int) : t ≠ .signal m := by
    rintro rfl
    exact none m (.inl (ready ▸ List.mem_cons_self))
  have undisturbed := (before.acts_turn ready).1.undisturbed other setUp fun m held =>
    none m (held.imp_left fun waits => ready ▸ List.mem_cons_of_mem _ waits)
  have holds (m : Int) : ¬ (Run.turn { r with ready := rest } t).Holds (.signal m) := by
    rintro (inQueue | parked)
    · rw [turn_eq] at inQueue
      exact undisturbed.unsignalled m (.inl inQueue)
    · rcases mem_parked_turn parked with own | before
      · exact other m own.symm
      · exact undisturbed.unsignalled m (.inr before)
  rw [turn_eq] at holds ⊢
  exact ⟨undisturbed.happened, undisturbed.setUp, holds⟩

theorem Settles.undisturbed (h : r.Settles r') (before : Passes settings services none r) (setUp : r.stage.isSetUp = true)
    (none : ∀ m, ¬ r.Holds (.signal m)) : Undisturbed r r' := by
  induction h with
  | refl => exact undisturbed_of_eq rfl rfl setUp none
  | @tail r₁ r₂ settles step ih =>
    refine ih.trans ?_
    rcases step with turn | rfl
    · obtain ⟨t, rest, ready, rfl⟩ := tick_cases turn
      exact (before.reaches (Settles.reaches settles)).undisturbed_turn ready ih.setUp ih.unsignalled
    · refine undisturbed_of_eq rfl rfl ih.setUp fun m => ?_
      rw [holds_takeUp]
      exact ih.unsignalled m

/-! ### Nothing left to do -/

/-- A run that still goes on when nothing is left to do waits for the tasks that it holds. -/
theorem Passes.isDue_of_running (h : Passes settings services none r) (settled : r.isSettled = true)
    (running : r.stage = .running round) (held : r.Holds t) : r.isDue t = false := by
  have known := h.knows (.inl held)
  have unfired : r.cause.isFired = false := by
    rw [h.isFired_eq, running]
    rfl
  cases finished : r.isOver t with
  | false => exact h.not_due settled known (by simp [running]) finished
  | true =>
    cases t with
    | supervise => simp [isOver, running, Stage.hasReturned] at finished
    | start e =>
      rw [isOver, isEnded_iff] at finished
      simp only [isDue, finished]
    | restart e =>
      have closed := (h.retired (h.settings_eq ▸ known.2) finished).closed
      have returned := h.returned_of_closed closed
      rw [running] at returned
      cases returned
    | stop e =>
      rw [isOver, isEnded_iff] at finished
      simp only [isDue, finished]
    | watch w => exact unfired
    | signal => rfl

theorem Passes.supervise_parked (h : Passes settings services none r) (settled : r.isSettled = true)
    (running : r.stage = .running round) : .supervise ∈ r.parked :=
  h.parked_of_settled settled trivial (by simp [running]) (by simp [isOver, running, Stage.hasReturned])

theorem Passes.calm (h : Passes settings services none r) (settled : r.isSettled = true)
    (running : r.stage = .running round) : r.Calm ∧ r.restartInbox.queue = [] ∧ r.commands = [] ∧
      (round.listening && r.orphaned) = false := by
  have uncalled := h.not_called settled running
  simp only [isCalled, Bool.or_eq_false_iff, Bool.not_eq_false', List.isEmpty_iff] at uncalled
  obtain ⟨⟨⟨⟨uncancelled, unexited⟩, unsignalled⟩, received⟩, commands⟩ := uncalled
  refine ⟨⟨uncancelled, ?_, unsignalled⟩, received, ?_, ?_⟩
  · simpa [Latch.isFired] using unexited
  · cases listening : round.listening with
    | false => exact (h.deaf running listening).2
    | true => exact (by simpa [listening] using commands : r.commands = [] ∧ r.orphaned = false).1
  · cases listening : round.listening with
    | false => rfl
    | true => simp_all

theorem Passes.signal_not_parked (h : Passes settings services cur r) (n : Int) : .signal n ∉ r.parked := by
  induction h with
  | initial => exact List.not_mem_nil
  | outside _ h ih => exact fun mem => ih (h.lines.2 mem)
  | turn _ _ ih => exact ih
  | act _ h ih => exact fun mem => ih (h.lines.2 mem)
  | finished _ _ ih => exact ih
  | park _ live _ _ ih =>
    refine fun mem => (mem_parked_park.mp mem).elim (fun own => ?_) ih
    rw [← own] at live
    cases live

/-! ### The arrival of a signal -/

/-- The run after a signal has come to both streams at a turn of its own. -/
def arrival (r : Run) (n : Int) : Run :=
  Run.deliver { r with budget := r.quota } n

theorem serve_of_ready_nil (h : r.ready = []) (turns : Nat) : r.serve turns = r := by
  cases turns with
  | zero => rfl
  | succ turns => simp only [serve, tick?, h]

theorem takeUp_of_deferred_nil (h : r.deferred = []) : r.takeUp = r := by
  have place : r.placeLeft = r.place := by
    rw [placeLeft, h, if_neg (by simp), placeAfter_of_nobody (by simp)]
  rw [takeUp, place, h]
  obtain ⟨⟩ := r
  simp_all

theorem tick_spawn_signal (settled : r.isSettled = true) (hears : r.stage.hearsSignals = true) (n : Int) :
    (r.spawn [.signal n]).tick? = some (r.arrival n) := by
  rw [isSettled_iff] at settled
  obtain ⟨⟩ := r
  obtain ⟨rfl, rfl⟩ := settled
  have hears : _ = true := hears
  simp only [spawn, tick?, List.nil_append, Run.turn, act, signalTurn, isOver, if_pos]
  simp only [hears, if_pos]
  rfl

theorem raise_eq (settled : r.isSettled = true) (hears : r.stage.hearsSignals = true) (n : Int) :
    r.raise n = settleFor (roundLimit - 1) ((r.arrival n).serve (lookAfter - 1)).takeUp := by
  have first := tick_spawn_signal settled hears n
  have unsettled : (r.spawn [.signal n]).isSettled = false := by simp [isSettled, spawn]
  rw [isSettled_iff] at settled
  rw [raise, serve_of_ready_nil settled.1, takeUp_of_deferred_nil (by exact settled.2), settle,
    show roundLimit = roundLimit - 1 + 1 from rfl, settleFor, unsettled, if_neg Bool.false_ne_true,
    show lookAfter = lookAfter - 1 + 1 from rfl, serve, first]
  rfl

theorem settles_raise (settled : r.isSettled = true) (hears : r.stage.hearsSignals = true) (n : Int) {r' : Run}
    (turn : (r.arrival n).tick? = some r') : r'.Settles (r.raise n) := by
  have served : (r.arrival n).serve (lookAfter - 1) = r'.serve (lookAfter - 2) := by
    rw [show lookAfter - 1 = lookAfter - 2 + 1 from rfl, serve, turn]
  rw [raise_eq settled hears, served]
  exact ((settles_serve _ r').tail (.inr rfl)).trans (settles_settleFor _ _)

theorem settleFor_of_settled (settled : r.isSettled = true) (rounds : Nat) : settleFor rounds r = r := by
  cases rounds with
  | zero => rfl
  | succ rounds => rw [settleFor, if_pos settled]

theorem Passes.inboxes (h : Passes settings services none r) (running : r.stage = .running round) :
    r.shutdownInbox.kinds = settings.signals.shutdown ∧ 0 < r.shutdownInbox.capacity ∧
      r.restartInbox.kinds = settings.signals.restart ∧ r.restartInbox.capacity = settings.signals.capacity := by
  have setUp : .setUp ∈ r.happened := h.isSetUp_iff.mp (by rw [running]; rfl)
  obtain ⟨kinds, capacity⟩ := h.attentive.kinds setUp
  exact ⟨kinds, capacity, h.restartInbox setUp⟩

theorem Passes.arrival_unlisted (h : Passes settings services none r) (settled : r.isSettled = true)
    (running : r.stage = .running round) (noShutdown : n ∉ r.shutdownInbox.kinds) (noRestart : n ∉ r.restartInbox.kinds) :
    r.arrival n = { r with budget := r.quota, history := r.historyWith [.raised n] } := by
  have undeferred : r.deferred = [] := (isSettled_iff.mp settled).2
  have still (t : Task) (parked : t ∈ r.parked) :
      canGoOn { r with budget := r.quota, history := r.historyWith [.raised n] } t = false := by
    rw [canGoOn, if_neg (by simp [undeferred])]
    have due := h.isDue_of_running settled running (.inr parked)
    cases t <;> exact due
  have same : r.arrival n = wake { r with budget := r.quota, history := r.historyWith [.raised n] } := by
    simp only [arrival, Run.deliver, Inbox.deliver_of_not_mem noShutdown, Inbox.deliver_of_not_mem noRestart]
    simp [mark, historyWith]
  rw [same]
  exact wake_of_still still

theorem Passes.ready_arrival (h : Passes settings services none r) (settled : r.isSettled = true)
    (running : r.stage = .running round)
    (listed : n ∈ settings.signals.shutdown ∨ n ∈ settings.signals.restart) :
    ∃ more, (r.arrival n).ready = .supervise :: more := by
  obtain ⟨kinds, capacity, kinds', capacity'⟩ := h.inboxes running
  obtain ⟨idle, undeferred⟩ := isSettled_iff.mp settled
  let raised : Run := { Run.mark { r with budget := r.quota } (.raised n) with
    shutdownInbox := (r.shutdownInbox.deliver n).2
    restartInbox := (r.restartInbox.deliver n).2
    trace := r.trace ++ List.replicate ((r.shutdownInbox.deliver n).1 + (r.restartInbox.deliver n).1) (.deliveryDropped n) }
  have ready : (r.arrival n).ready = r.parked.filter raised.canGoOn := by
    show r.ready ++ r.parked.filter raised.canGoOn = _
    rw [idle, List.nil_append]
  have called : raised.canGoOn .supervise = true := by
    rw [canGoOn, if_neg (by simp [raised, mark, undeferred])]
    have queue : (r.shutdownInbox.deliver n).2.queue ≠ [] ∨ (r.restartInbox.deliver n).2.queue ≠ [] :=
      listed.imp (fun mem => Inbox.queue_deliver_ne_nil (.inr ⟨kinds ▸ mem, capacity⟩))
        fun mem => Inbox.queue_deliver_ne_nil (.inr ⟨kinds' ▸ mem, capacity' ▸ settings.signals.capacity_pos⟩)
    rcases queue with waiting | waiting <;> simp [isDue, raised, mark, running, isCalled, waiting]
  have only (t : Task) (mem : t ∈ (r.arrival n).ready) : t = .supervise := by
    rw [ready] at mem
    obtain ⟨parked, goesOn⟩ := List.mem_filter.mp mem
    rw [canGoOn, if_neg (by simp [raised, mark, undeferred])] at goesOn
    have due := h.isDue_of_running settled running (.inr parked)
    cases t with
    | supervise => rfl
    | _ => exact absurd (due.symm.trans goesOn) Bool.false_ne_true
  have there : .supervise ∈ (r.arrival n).ready := by
    rw [ready]
    exact List.mem_filter.mpr ⟨h.supervise_parked settled running, called⟩
  cases queue : (r.arrival n).ready with
  | nil =>
    rw [queue] at there
    cases there
  | cons t more => exact ⟨more, by rw [only t (queue ▸ List.mem_cons_self)]⟩

theorem Passes.arrival (h : Passes settings services none r) (settled : r.isSettled = true)
    (running : r.stage = .running round) (n : Int) : Passes settings services none (r.arrival n) :=
  ((h.outside (.signal r n)).tick (tick_spawn_signal settled (by rw [running]; rfl) n)).1

theorem Passes.unsignalled_arrival (h : Passes settings services none r) (settled : r.isSettled = true) (n m : Int) :
    ¬ (r.arrival n).Holds (.signal m) := by
  rw [Run.arrival, Run.deliver, holds_wake]
  simp only [Holds, mark, (isSettled_iff.mp settled).1]
  exact fun held => held.elim (by simp) (h.signal_not_parked m)

/-! ### A volley of firings -/

/-- What it costs at most to receive a restart signal: as much again if the stream of shutdown signals has no listeners
and has to be passed. -/
def stride (r : Run) : Nat :=
  if r.shutdownInbox.kinds.isEmpty then 2 else 1

theorem isSpent_of_affords {k : Nat} (affords : ∀ b, r.budget = some b → k + 1 ≤ b) : r.isSpent = false := by
  cases budget : r.budget with
  | none => simp [isSpent, budget]
  | some b =>
    have left := affords b budget
    simp [isSpent, budget]
    omega

theorem affords_spend {k : Nat} (affords : ∀ b, r.budget = some b → k + 1 ≤ b) (b : Nat) (left : r.spend.budget = some b) :
    k ≤ b := by
  simp only [spend, Option.map_eq_some_iff] at left
  obtain ⟨b', budget, rfl⟩ := left
  have := affords b' budget
  omega

theorem look_receipt {k : Nat} {rest : List Int} (round : Round) (calm : r.Calm) (queue : r.restartInbox.queue = n :: rest)
    (affords : ∀ b, r.budget = some b → k + r.stride ≤ b) :
    ∃ r', r.look round = (.news, r') ∧ Acted [.received n] r r' ∧ r'.stage = .running round.next ∧
      ∀ b, r'.budget = some b → k ≤ b := by
  have stride_pos : 0 < r.stride := by
    unfold stride
    split <;> omega
  have unspent : r.isSpent = false :=
    isSpent_of_affords (k := k + r.stride - 1) fun b budget => by have := affords b budget; omega
  have looks : r.look round = r.lookAtShutdowns round := by
    simp [look, unspent, calm.uncancelled, calm.unexited]
  rw [looks, lookAtShutdowns, Inbox.receive, calm.unsignalled]
  dsimp only
  split
  · rename_i passes
    have empty : r.shutdownInbox.kinds.isEmpty = true := by simp_all
    have two : r.stride = 2 := by simp [stride, empty]
    have affords : ∀ b, r.budget = some b → k + 1 + 1 ≤ b := by rwa [two] at affords
    let passed : Round := { round with shutdownPassed := true }
    have left := affords_spend affords
    have pays : (!passed.restartPassed && (r.getPast passed).isSpent) = false := by
      rw [isSpent_of_affords (r := r.getPast passed) left, Bool.and_false]
    refine ⟨_, lookAtRestarts_of_queue (r := r.getPast passed) queue pays, ?_, rfl, ?_⟩
    · exact (acted_getPast r passed).trans (acted_prompted queue rfl passed (.restartSignal n))
    · exact affords_spend (r := r.getPast passed) left
  · refine ⟨_, lookAtRestarts_of_queue queue (by rw [unspent, Bool.and_false]), ?_, rfl, ?_⟩
    · exact acted_prompted queue rfl round (.restartSignal n)
    · exact affords_spend fun b budget => by have := affords b budget; omega

theorem stride_of_acted (h : Acted os r r') : r'.stride = r.stride := by
  rw [stride, stride, h.shutdownInbox]

/-- As long as its budget lasts, a turn of the supervising task fires for one restart signal after the other. -/
theorem attend_receipts {j : Nat} (h : r.stage = .running round) (calm : r.Calm) (enough : j ≤ r.restartInbox.queue.length)
    (affords : ∀ b, r.budget = some b → j * r.stride ≤ b) (fresh : r.isSpent = true → round.isUnderWay = false) :
    ∃ r' round', Acted ((r.restartInbox.queue.take j).map .received) r r' ∧ r'.stage = .running round' ∧
      (r'.isSpent = true → round'.isUnderWay = false) ∧ ∀ fuel, attend (fuel + j) r = attend fuel r' := by
  induction j generalizing r round with
  | zero => exact ⟨r, round, .refl r, h, fresh, fun _ => rfl⟩
  | succ j ih =>
    cases queue : r.restartInbox.queue with
    | nil => simp [queue] at enough
    | cons n rest =>
      obtain ⟨r₁, looks, acted, stage, left⟩ := look_receipt round calm queue
        (fun b budget => by have := affords b budget; rwa [Nat.succ_mul] at this)
      have rest_eq : rest = r₁.restartInbox.queue := by
        have := acted.queue
        rw [queue] at this
        exact (List.cons.inj this).2
      obtain ⟨r', round', acted', stage', fresh', attends⟩ := ih stage (acted.calm calm)
        (by rw [← rest_eq]; simpa [queue] using enough) (by rw [stride_of_acted acted]; exact left) (fun _ => rfl)
      refine ⟨r', round', ?_, stage', fresh', fun fuel => ?_⟩
      · rw [rest_eq]
        exact acted.trans acted'
      · rw [← attends fuel, ← Nat.add_assoc, attend]
        simp only [h, looks]

def volley (j : Nat) (n : Int) : List Occurrence :=
  (List.replicate j (.received n)).flatMap fun o => [o, .fired]

/-- For how many restart signals a single turn of the supervising task can fire. -/
def volleyLimit (s : Settings) : Nat :=
  turnQuota / if s.signals.shutdown.isEmpty then 2 else 1

theorem Passes.quota_tick (before : Passes settings services none r) (h : r.tick? = some r') : r'.quota = r.quota := by
  obtain ⟨t, rest, ready, rfl⟩ := tick_cases h
  rw [turn_eq]
  exact (before.acts_turn ready).1.steady.quota

theorem quota_of_reaches (h : (initial settings services).Reaches r) : r.quota = some turnQuota := by
  refine (h.invariant (P := fun r => Passes settings services none r ∧ r.quota = some turnQuota)
    ⟨Passes.of_reaches .rfl, rfl⟩ ?_ ?_).2
  · intro r₁ r₂ ⟨passed, quota⟩ turn
    exact ⟨(passed.tick turn).1, (passed.quota_tick turn).trans quota⟩
  · intro os r₁ r₂ ⟨passed, quota⟩ step
    exact ⟨passed.outside step, step.keeps.quota.trans quota⟩

/-- The turn of the supervising task that a signal brings about, and what comes of it. -/
structure Alarm (settings : Settings) (services : List Service) (r : Run) (n : Int) (begun : Run) : Prop where
  stage : begun.stage = r.stage
  budget : begun.budget = r.quota
  cancelled : begun.cancelled = r.cancelled
  exit : begun.exit = r.exit
  commands : begun.commands = r.commands
  shutdownInbox : begun.shutdownInbox = (r.shutdownInbox.deliver n).2
  restartInbox : begun.restartInbox = (r.restartInbox.deliver n).2
  happened : begun.happened = r.happened ++ [.raised n]
  /-- The turn is a part of what comes of the signal. -/
  comes : begun.superviseTurn.happened <+: (r.raise n).happened
  undisturbed : Undisturbed begun (r.raise n)

theorem Passes.alarm (h : Passes settings services none r) (settled : r.isSettled = true)
    (running : r.stage = .running round) (listed : n ∈ settings.signals.shutdown ∨ n ∈ settings.signals.restart) :
    ∃ begun, Alarm settings services r n begun := by
  obtain ⟨more, ready⟩ := h.ready_arrival settled running listed
  have arrived := h.arrival settled running n
  have turn : (r.arrival n).tick? = some (Run.turn { r.arrival n with ready := more } .supervise) := by
    rw [tick?, ready]
  have settles := settles_raise settled (by rw [running]; rfl) n turn
  have unsignalled := h.unsignalled_arrival settled n
  have setUp : (r.arrival n).stage.isSetUp = true := by
    show r.stage.isSetUp = true
    rw [running]
    rfl
  have turned := arrived.undisturbed_turn ready setUp unsignalled
  have after := (arrived.tick turn).1
  refine ⟨{ r.arrival n with
    ready := more, budget := r.quota, deferred := (r.arrival n).deferred.erase .supervise }, ?_⟩
  refine ⟨rfl, rfl, rfl, rfl, rfl, rfl, rfl, ?_, ?_, ?_⟩
  · exact happened_of_history rfl
  · have grows := after.happened_grows settles.reaches
    rwa [turn_eq] at grows
  · obtain ⟨happened, setUp, unsignalled⟩ := turned.trans (settles.undisturbed after turned.setUp turned.unsignalled)
    exact ⟨happened, setUp, unsignalled⟩

theorem Alarm.unspent {begun : Run} (alarm : Alarm settings services r n begun) (quota : r.quota = some turnQuota) :
    begun.isSpent = false := by
  rw [isSpent, alarm.budget, quota]
  rfl

theorem Alarm.calm {begun : Run} (alarm : Alarm settings services r n begun) (calm : r.Calm)
    (unlisted : n ∉ r.shutdownInbox.kinds) : begun.Calm where
  uncancelled := alarm.cancelled.trans calm.uncancelled
  unexited := (congrArg Latch.value alarm.exit).trans calm.unexited
  unsignalled := by
    rw [alarm.shutdownInbox, Inbox.deliver_of_not_mem unlisted]
    exact calm.unsignalled

theorem Alarm.shuts {begun : Run} {m : Int} {rest : List Int} (alarm : Alarm settings services r n begun)
    (running : r.stage = .running round) (calm : r.Calm) (unspent : begun.isSpent = false)
    (queue : begun.shutdownInbox.queue = m :: rest) :
    r.happened ++ [.raised n, .shutDown (.signal m)] <+: (r.raise n).happened := by
  have running : begun.stage = .running round := alarm.stage.trans running
  have looks : begun.look round =
      (.cause (.signal m), { begun with shutdownInbox := { begun.shutdownInbox with queue := rest } }) := by
    simp [look, unspent, alarm.cancelled, alarm.exit, calm.uncancelled, calm.unexited, lookAtShutdowns, Inbox.receive,
      queue]
  have turn : begun.superviseTurn =
      shutDown { begun with shutdownInbox := { begun.shutdownInbox with queue := rest } } (.signal m) := by
    simp only [superviseTurn, running, attendSteps, attend, looks]
  have comes := alarm.comes
  rw [turn] at comes
  refine .trans ?_ comes
  have winds := windsUp_shutDown { begun with shutdownInbox := { begun.shutdownInbox with queue := rest } } (.signal m)
  have happened : Run.happened { begun with
      shutdownInbox := { begun.shutdownInbox with queue := rest }
      cause := begun.cause.fire (.signal m)
      history := begun.historyWith [.shutDown (.signal m)] } = r.happened ++ [.raised n, .shutDown (.signal m)] := by
    refine (happened_of_history rfl).trans ?_
    rw [show Run.happened { begun with shutdownInbox := _ } = begun.happened from rfl, alarm.happened, List.append_assoc]
    rfl
  rcases winds.happened with same | returned
  · exact (same.trans happened) ▸ List.prefix_refl _
  · rw [returned]
    exact happened ▸ List.prefix_append _ _

theorem Alarm.fires {begun : Run} {kept j : Nat} (alarm : Alarm settings services r n begun)
    (running : r.stage = .running round) (calm : begun.Calm) (unspent : begun.isSpent = false)
    (queue : begun.restartInbox.queue = List.replicate kept n) (commands : r.commands = []) (enough : j ≤ kept)
    (affords : ∀ b, begun.budget = some b → j * begun.stride ≤ b) :
    r.happened ++ .raised n :: volley j n <+: (r.raise n).happened := by
  have running : begun.stage = .running round := alarm.stage.trans running
  obtain ⟨r', round', acted, stage, fresh, attends⟩ := attend_receipts (j := j) running calm (by simpa [queue] using enough)
    affords (by simp [unspent])
  have received : (begun.restartInbox.queue.take j).map Occurrence.received = List.replicate j (.received n) := by
    rw [queue, List.take_replicate, List.map_replicate, Nat.min_eq_left enough]
  rw [received] at acted
  have turn : begun.superviseTurn = attend (kept - j + 2) r' := by
    rw [← attends]
    simp only [superviseTurn, running, attendSteps, queue, List.length_replicate, alarm.commands, commands,
      List.length_nil]
    congr 1
    omega
  have rest : r'.restartInbox.queue.length = kept - j := by
    have kept := congrArg List.length acted.queue
    rw [queue, List.length_append, List.length_replicate, receivedIn_replicate, List.length_replicate] at kept
    omega
  have noCommands : r'.commands = [] := by
    have all := acted.commands
    rw [alarm.commands, commands] at all
    exact (List.append_eq_nil_iff.mp all.symm).2
  have acts := (@acts_attend r' (kept - j + 2) round' stage fresh (by
    rw [rank, rest, noCommands]
    have := Bool.toNat_le round'.listening
    simp only [List.length_nil]
    omega)).1
  have comes := acts.happened_grows.trans (turn ▸ alarm.comes)
  rwa [acted.happened, alarm.happened, List.append_assoc] at comes

/-! ### What comes of a signal -/

/-- What comes of a restart signal of which so many deliveries are kept, `later` being what happens after it was raised. -/
structure Restarts (settings : Settings) (r : Run) (n : Int) (kept : Nat) (r' : Run) (later : List Occurrence) : Prop where
  /-- The first turn fires for as many of them as it can. -/
  atOnce : volley (min kept (volleyLimit settings)) n <+: later
  received : ∃ j ≤ kept, receivedIn later = List.replicate j n
  /-- What else is fired for are commands of the services. -/
  fired : later.count .fired = (obeyedIn later).count .restart + (receivedIn later).length
  all : kept ≤ volleyLimit settings ∨ r'.isSettled = true ∧ r'.cause.value = none → receivedIn later = List.replicate kept n
  /-- Every entry was restarted for each firing, or owes a restart for it, or is still to read it. -/
  seen : ∀ e < settings.entries.length, begunCalls r'.happened e .restart + (r'.member e).owed + r'.restarts.unread e =
    r.happened.count .fired + later.count .fired
  /-- If the run shuts down, that is for what the services have done since. -/
  gate : ∀ c, r'.cause.value = some c → (∀ m, c ≠ .signal m) ∧
    (.cancelled ∈ later ∨ (∃ e o flag, .ended e .start o flag ∈ later) ∨ .accepted .shutdown ∈ later)

theorem Passes.fired_since (before : Passes settings services cur r) (after : Passes settings services cur r')
    (happened : r'.happened = r.happened ++ os) :
    os.count .fired = (obeyedIn os).count .restart + (receivedIn os).length := by
  have total := after.firesInTurn.count
  have earlier := before.firesInTurn.count
  rw [happened, obeyedIn_append, receivedIn_append, List.count_append, List.count_append, List.length_append] at total
  omega

theorem receivedIn_volley (j : Nat) (n : Int) : receivedIn (volley j n) = List.replicate j n := by
  induction j with
  | zero => rfl
  | succ j ih =>
    rw [volley, List.replicate_succ, List.flatMap_cons, receivedIn_append, ← volley, ih]
    rfl

theorem Passes.gate_of_services {c : Cause} {later : List Occurrence} (before : Passes settings services none r)
    (settled : r.isSettled = true) (running : r.stage = .running round) (unlisted : n ∉ settings.signals.shutdown)
    (after : Passes settings services none r') (happened : r'.happened = r.happened ++ .raised n :: later)
    (unraised : ∀ m, .raised m ∉ later) (cause : r'.cause.value = some c) : (∀ m, c ≠ .signal m) ∧
      (.cancelled ∈ later ∨ (∃ e o flag, .ended e .start o flag ∈ later) ∨ .accepted .shutdown ∈ later) := by
  have setUp : .setUp ∈ r.happened := before.isSetUp_iff.mp (by rw [running]; rfl)
  have untriggered : ¬ Triggered settings r.happened := before.not_triggered settled setUp (by
    rw [before.isFired_eq, running]
    rfl)
  obtain ⟨earlier, more, split, -, justified⟩ := after.cause_justified cause
  have mem {o : Occurrence} (old : o ∉ r.happened) (other : o ≠ .raised n) (mem : o ∈ earlier) : o ∈ later := by
    have mem : o ∈ r.happened ++ .raised n :: later := happened ▸ split ▸ List.mem_append_left _ mem
    simpa [old, other] using mem
  cases c with
  | cancelled => exact ⟨nofun, .inl (mem (fun old => untriggered (.inl old)) nofun justified)⟩
  | requested =>
    exact ⟨nofun, .inr (.inr (mem (fun old => untriggered (.inr (.inr (.inr old)))) nofun justified))⟩
  | exited name =>
    obtain ⟨earlier', later', e, entry, o, rfl, -⟩ := justified
    refine ⟨nofun, .inr (.inl ⟨e, o, false, mem (fun old => ?_) nofun (by simp)⟩)⟩
    exact untriggered (.inr (.inr (.inl ⟨e, o, false, old⟩)))
  | signal m =>
    obtain ⟨listed, raised⟩ := justified
    have mem : .raised m ∈ sinceSetUp r'.happened := split ▸ mem_sinceSetUp_append raised
    rw [happened, sinceSetUp_append_of_mem setUp, List.mem_append, List.mem_cons] at mem
    rcases mem with old | same | new
    · exact absurd (.inr (.inl ⟨m, listed, old⟩)) untriggered
    · cases same
      exact absurd listed unlisted
    · exact absurd new (unraised m)

/-- A restart signal that is no shutdown signal is fired for once for each delivery that was kept. -/
theorem Passes.restarts_of_raise (h : Passes settings services none r) (settled : r.isSettled = true)
    (running : r.stage = .running round) (quota : r.quota = some turnQuota) (unlisted : n ∉ settings.signals.shutdown)
    (listed : n ∈ settings.signals.restart) : ∃ later, (r.raise n).happened = r.happened ++ .raised n :: later ∧
      Restarts settings r n (min (settings.signals.restart.count n) settings.signals.capacity) (r.raise n) later := by
  obtain ⟨begun, alarm⟩ := h.alarm settled running (.inr listed)
  obtain ⟨calm, received, commands, -⟩ := h.calm settled running
  obtain ⟨kinds, -, kinds', capacity'⟩ := h.inboxes running
  have after : Passes settings services none (r.raise n) := h.reaches (reaches_raise r n)
  have queue : begun.restartInbox.queue =
      List.replicate (min (settings.signals.restart.count n) settings.signals.capacity) n := by
    rw [alarm.restartInbox, Inbox.queue_deliver received, kinds', capacity']
  generalize min (settings.signals.restart.count n) settings.signals.capacity = kept at queue ⊢
  obtain ⟨later, happened, unraised, flow⟩ := alarm.undisturbed.happened
  rw [alarm.happened, List.append_assoc, List.singleton_append] at happened
  have flow : List.replicate kept n = receivedIn later ++ (r.raise n).restartInbox.queue := queue ▸ flow
  have stride : begun.stride = if settings.signals.shutdown.isEmpty then 2 else 1 := by
    rw [Run.stride, alarm.shutdownInbox, Inbox.deliver_of_not_mem (kinds ▸ unlisted), kinds]
  -- as many firings as one turn can pay for come right after the signal
  have atOnce : volley (min kept (volleyLimit settings)) n <+: later := by
    have fires := alarm.fires (j := min kept (volleyLimit settings)) running (alarm.calm calm (kinds ▸ unlisted))
      (alarm.unspent quota) queue commands (Nat.min_le_left _ _) fun b is => by
        rw [alarm.budget, quota, Option.some.injEq] at is
        rw [stride, ← is]
        exact Nat.le_trans (Nat.mul_le_mul_right _ (Nat.min_le_right _ _)) (Nat.div_mul_le_self _ _)
    rw [happened, List.prefix_append_right_inj] at fires
    exact (List.cons_prefix_cons.mp fires).2
  have raised_ne : Occurrence.raised n ≠ .fired := by simp
  have kept_prefix : receivedIn later <+: List.replicate kept n := ⟨_, flow.symm⟩
  refine ⟨later, happened, atOnce, ?_, ?_, ?_, ?_, fun c => ?_⟩
  · exact ⟨_, (List.prefix_replicate_iff.mp kept_prefix).1, (List.prefix_replicate_iff.mp kept_prefix).2⟩
  · have since := h.fired_since after happened
    rwa [List.count_cons_of_ne raised_ne] at since
  · rintro (few | ⟨settled', unfired⟩)
    · have least : receivedIn (volley kept n) <+: receivedIn later :=
        (Nat.min_eq_left few ▸ atOnce).filterMap Occurrence.received?
      rw [receivedIn_volley] at least
      exact kept_prefix.eq_of_length_le least.length_le
    · obtain ⟨round', running'⟩ := after.running_of_unfired (after.isSetUp_iff.mp alarm.undisturbed.setUp)
        (by rw [Latch.isFired, unfired]; rfl)
      rw [(after.calm settled' running').2.1, List.append_nil] at flow
      exact flow.symm
  · intro e he
    have accounted := (after.fanned he).accounted
    rw [Member.told, ← show _ = ((r.raise n).member e).restarts from (after.tally he).begun .restart] at accounted
    rw [← accounted, happened, List.count_append, List.count_cons_of_ne raised_ne]
  · exact h.gate_of_services settled running unlisted after happened unraised

theorem Passes.shutDown_of_raise (h : Passes settings services none r) (settled : r.isSettled = true)
    (running : r.stage = .running round) (quota : r.quota = some turnQuota) (listed : n ∈ settings.signals.shutdown) :
    ∃ later, (r.raise n).happened = r.happened ++ .raised n :: .shutDown (.signal n) :: later ∧ .fired ∉ later ∧
      (r.raise n).cause.value = some (.signal n) := by
  obtain ⟨begun, alarm⟩ := h.alarm settled running (.inl listed)
  have calm := (h.calm settled running).1
  obtain ⟨kinds, capacity, -, -⟩ := h.inboxes running
  have after : Passes settings services none (r.raise n) := h.reaches (reaches_raise r n)
  obtain ⟨copies, some_copies⟩ : ∃ copies, min (r.shutdownInbox.kinds.count n) r.shutdownInbox.capacity = copies + 1 := by
    have := List.count_pos_iff.mpr (kinds ▸ listed)
    exact Nat.exists_eq_add_one.mpr (by omega)
  have queue : begun.shutdownInbox.queue = n :: List.replicate copies n := by
    rw [alarm.shutdownInbox, Inbox.queue_deliver calm.unsignalled, some_copies, List.replicate_succ]
  obtain ⟨later, happened⟩ := alarm.shuts running calm (alarm.unspent quota) queue
  have happened : (r.raise n).happened = r.happened ++ .raised n :: .shutDown (.signal n) :: later := by
    rw [← happened, List.append_assoc]
    rfl
  refine ⟨later, happened, fun mem => ?_, after.cause_eq_iff.mpr (by simp [happened])⟩
  obtain ⟨before, more, rfl⟩ := List.append_of_mem mem
  have split : (r.raise n).happened =
      (r.happened ++ .raised n :: .shutDown (.signal n) :: before) ++ .fired :: more := by simp [happened]
  exact (after.fires_inTime _ _ _ split rfl).2 (.signal n) (by simp)

theorem Passes.raise_unlisted (h : Passes settings services none r) (settled : r.isSettled = true)
    (running : r.stage = .running round) (noShutdown : n ∉ settings.signals.shutdown)
    (noRestart : n ∉ settings.signals.restart) :
    r.raise n = { r with budget := r.quota, history := r.historyWith [.raised n] } := by
  obtain ⟨kinds, -, kinds', -⟩ := h.inboxes running
  have arrives := h.arrival_unlisted settled running (n := n) (kinds ▸ noShutdown) (kinds' ▸ noRestart)
  obtain ⟨idle, undeferred⟩ := isSettled_iff.mp settled
  rw [raise_eq settled (by rw [running]; rfl), arrives, serve_of_ready_nil (by exact idle),
    takeUp_of_deferred_nil (by exact undeferred)]
  exact settleFor_of_settled (by exact settled) _

/-- What a signal does to a run with nothing else to do. If it is listed for the shutdown, the run shuts down for it
without a firing. If it is listed for restarts only, the run fires for every delivery that is kept, unless its task has to
give up its turn in between and the services shut it down before its next. If it is not listed, nothing comes of it. -/
theorem signal_effect (h : (initial settings services).Reaches r) (settled : r.isSettled = true)
    (running : r.stage = .running round) (n : Int) :
    (n ∈ settings.signals.shutdown →
      ∃ later, (r.raise n).happened = r.happened ++ .raised n :: .shutDown (.signal n) :: later ∧ .fired ∉ later ∧
        (r.raise n).cause.value = some (.signal n)) ∧
    (n ∉ settings.signals.shutdown → n ∈ settings.signals.restart →
      ∃ later, (r.raise n).happened = r.happened ++ .raised n :: later ∧
        Restarts settings r n (min (settings.signals.restart.count n) settings.signals.capacity) (r.raise n) later) ∧
    (n ∉ settings.signals.shutdown → n ∉ settings.signals.restart →
      r.raise n = { r with budget := r.quota, history := r.historyWith [.raised n] }) :=
  have passes := Passes.of_reaches h
  have quota := quota_of_reaches h
  ⟨passes.shutDown_of_raise settled running quota, passes.restarts_of_raise settled running quota,
    passes.raise_unlisted settled running⟩

/-- The pair with two listeners for one restart signal, when nothing is left to do. -/
def doubledRun : Run :=
  ((initial doubledSettings pairServices).perform .run).2.serve 20

theorem reaches_doubledRun : (initial doubledSettings pairServices).Reaches doubledRun :=
  (Reaches.rfl.act .run rfl).serve 20

theorem signal_effect_doubled :
    (doubledRun.raise 2).cause.value = some (.signal 2) ∧
      (∃ later, (doubledRun.raise 1).happened = doubledRun.happened ++ .raised 1 :: later ∧
        Restarts doubledSettings doubledRun 1 2 (doubledRun.raise 1) later) ∧
      doubledRun.raise 3 =
        { doubledRun with budget := doubledRun.quota, history := doubledRun.historyWith [.raised 3] } := by
  have effect := @signal_effect _ _ _ {} reaches_doubledRun (by decide) (by decide)
  obtain ⟨later, -, -, cause⟩ := (effect 2).1 (by decide)
  exact ⟨cause, (effect 1).2.1 (by decide) (by decide), (effect 3).2.2 (by decide) (by decide)⟩

def crowdedSettings : Settings :=
  { signals := { shutdown := [], restart := List.replicate 66 1, capacity := 66 }, entries := [⟨"only", 0⟩] }

/-- The service cancels the run when it is restarted. -/
def crowdedServices : List Service :=
  [{ start := .awaitCause .done, restarts := [.cancel .done], stop := .done }]

def crowdedRun : Run :=
  ((initial crowdedSettings crowdedServices).perform .run).2.serve 20

/-- Of the sixty-six deliveries that are kept the supervising task gets through sixty-four in one turn. Then the service
has its turn and cancels the run, which shuts down without firing for the last two. -/
theorem volley_cut_short :
    (initial crowdedSettings crowdedServices).Reaches crowdedRun ∧ crowdedRun.isSettled = true ∧
      (∃ round, crowdedRun.stage = .running round) ∧ 1 ∉ crowdedSettings.signals.shutdown ∧
      min (crowdedSettings.signals.restart.count 1) crowdedSettings.signals.capacity = 66 ∧
      crowdedRun.happened.count .fired = 0 ∧ (crowdedRun.raise 1).isSettled = true ∧
      (crowdedRun.raise 1).happened.count .fired = 64 := by
  refine ⟨(Reaches.rfl.act .run rfl).serve 20, by decide, ⟨{ shutdownPassed := true }, by decide⟩, by decide, by decide,
    by decide, ?_⟩
  decide +kernel

end Run

end Supervision
