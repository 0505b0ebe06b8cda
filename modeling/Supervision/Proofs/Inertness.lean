import Supervision.Proofs.DroppedHandleLockstep

/-! To drop a handle that is not used again makes no difference to the run, except for the place of its supervising task
among those that wait: the last handle wakes it where it waits, to notice that nobody is left to send anything, and it goes
to wait again behind the others. That shows only if the token is cancelled while a call that it is now behind waits for
that. -/

namespace Supervision

namespace Run

variable {strict : Bool} {settings : Settings} {services : List Service} {r k d : Run} {t : Task} {round : Round}

/-! ### The same life -/

/-- Two runs make the same calls at the same times, fire for the same restarts, and come to the same cause, failures and
end; they may differ in whether they listen for commands. -/
structure SameLife (k d : Run) : Prop where
  now : d.now = k.now
  history : d.history = k.history
  trace : d.trace = k.trace
  members : d.members = k.members
  restarts : d.restarts = k.restarts
  commands : d.commands = k.commands
  cause : d.cause = k.cause
  failures : d.failures = k.failures
  watches : d.watches = k.watches
  stage : ∃ listening, d.stage = k.stage.hearing listening
  ending : Scenario.ending d = Scenario.ending k
  doneAt : d.doneAt = k.doneAt

/-- The caller of the second run, who has no handle, gets the same answers and sees the same of it, and it lives the same
life. -/
def Unaffected (x y : List (Answer × Snapshot) × Run) : Prop :=
  y.1 = x.1.map (Prod.map id Snapshot.unheld) ∧ SameLife x.2 y.2

theorem Beside.sameLife (h : Beside strict settings services k d) : SameLife k d := by
  obtain ⟨b, l, p, rfl, -⟩ := h.twin
  refine ⟨rfl, rfl, rfl, rfl, rfl, rfl, rfl, rfl, rfl, ⟨l, rfl⟩, ?_, ?_⟩
  · simp only [Scenario.ending, without]
    cases k.stage <;> rfl
  · simp only [doneAt, without]
    cases k.stage <;> rfl

theorem Beside.unaffected {later : List Step} (h : Beside strict settings services k d)
    (spares : sparesHandles later = true) (quiet : (k.steps later).2.stirs strict = k.stirs strict) :
    Unaffected (k.steps later) (d.steps later) := by
  obtain ⟨seen, beside⟩ := h.steps spares quiet
  exact ⟨seen, beside.sameLife⟩

/-! ### Where nobody is woken -/

theorem hearing_of_listens {s : Stage} (listens : ∀ round, s = .running round → round.listening = true) :
    s.hearing true = s := by
  cases s with
  | running round =>
    have listening := listens round rfl
    rw [Stage.hearing, ← listening]
  | _ => rfl

theorem Passes.unheld_eq (h : Passes settings services none r) (held : r.handleHeld = true) :
    { r with handleHeld := false } = r.without true := by
  rw [without, hearing_of_listens fun round running => h.listens held running]

/-- The supervising task is to look anew. It does not wait for something to happen, unless its turn only ended for want of
budget, and it does not go on with a round for which nothing has come. -/
def Engaged (r : Run) : Prop :=
  (∀ round, r.stage = .running round → .supervise ∈ r.parked → .supervise ∈ r.deferred) ∧ r.goesOn = false

/-- Why nobody minds that the handle is dropped: another is lent, or no command is accepted any more, or the supervising
task has not looked yet and can deal with all that may wait for it in one turn. -/
def Unminded (r : Run) : Prop :=
  0 < r.lent ∨ r.stage.isClosed = true ∨ r.Engaged ∧ r.Fits

theorem Unminded.lack (h : r.Unminded) : Lack r true := by
  rcases h with lent | closed | ⟨engaged, fits⟩
  · exact .lent lent
  · exact .late closed
  · exact .unaware engaged.1 engaged.2 fits

theorem dropHandle_of_unminded (h : (initial settings services).Reaches r) (held : r.handleHeld = true)
    (unminded : r.Unminded) : r.dropHandle = r.without true := by
  have passes := Passes.of_reaches h
  have still (t : Task) (parked : t ∈ r.parked) : (r.without true).canGoOn t = false :=
    (Bereft.canGoOn (p := r.parked) held (fun _ running => passes.listens held running) unminded.lack parked).trans
      (cannotGoOn_of_reaches h parked)
  rw [dropHandle, passes.unheld_eq held]
  exact wake_of_still still

theorem beside_of_unminded (h : (initial settings services).Reaches r) (held : r.handleHeld = true)
    (unminded : r.Unminded) : Beside strict settings services r (r.perform .dropHandle).2 :=
  ⟨h, r.budget, true, r.parked, dropHandle_of_unminded h held unminded, held,
    fun _ running => (Passes.of_reaches h).listens held running, by simp, unminded.lack, .same rfl⟩

/-! ### Where the supervising task is woken -/

theorem past_of_thorough (thorough : round.Thorough r) : r.past round = round := by
  obtain ⟨shutdown, restart⟩ := thorough
  cases round
  simp_all [Run.past, pastRestarts, pastShutdowns]

theorem wake_of_one {before after : List Task} (parked : r.parked = before ++ t :: after) (goes : r.canGoOn t = true)
    (still : ∀ t' ∈ before ++ after, r.canGoOn t' = false) (unplaced : r.place = none) :
    r.wake = { r with ready := r.ready ++ [t], parked := before ++ after } := by
  have nobody (ts : List Task) (some_still : ∀ t' ∈ ts, r.canGoOn t' = false) : ts.filter r.canGoOn = [] :=
    List.filter_eq_nil_iff.mpr fun t' mem => by simp [some_still t' mem]
  have everybody (ts : List Task) (some_still : ∀ t' ∈ ts, r.canGoOn t' = false) :
      (ts.filter fun t => !r.canGoOn t) = ts := List.filter_eq_self.mpr fun t' mem => by simp [some_still t' mem]
  have stillBefore (t' : Task) (mem : t' ∈ before) := still t' (List.mem_append_left _ mem)
  have stillAfter (t' : Task) (mem : t' ∈ after) := still t' (List.mem_append_right _ mem)
  rw [wake, parked, List.filter_append, List.filter_append, List.filter_cons_of_pos goes,
    List.filter_cons_of_neg (by simp [goes]), nobody before stillBefore, nobody after stillAfter,
    everybody before stillBefore, everybody after stillAfter, placeAfter, unplaced]
  rfl

theorem dropHandle_eq {before after : List Task} (h : (initial settings services).Reaches r) (settled : r.isSettled = true)
    (running : r.stage = .running round) (held : r.handleHeld = true) (alone : r.lent = 0)
    (parked : r.parked = before ++ .supervise :: after) :
    r.dropHandle = { r.without true with ready := [.supervise], parked := before ++ after } := by
  have passes := Passes.of_reaches h
  have listening := passes.listens held running
  obtain ⟨idle, undeferred⟩ := isSettled_iff.mp settled
  obtain ⟨first, last⟩ := (lodged_of_reaches h).once_parked parked
  have called : (r.without true).canGoOn .supervise = true := by
    have undeferred' : (r.without true).deferred = [] := undeferred
    rw [canGoOn, undeferred', if_neg List.not_mem_nil, isDue, stage_without running true]
    simp [isCalled, orphaned, without, alone, Round.hearing]
  have still (t : Task) (mem : t ∈ before ++ after) : (r.without true).canGoOn t = false := by
    have waiting : t ∈ r.parked := by
      rw [parked]
      exact (List.mem_append.mp mem).elim (List.mem_append_left _) fun mem =>
        List.mem_append_right _ (List.mem_cons_of_mem _ mem)
    have waits := cannotGoOn_of_reaches h waiting
    cases t with
    | supervise => exact absurd mem (by simp [first, last])
    | _ => exact waits
  have unplaced : r.place = none := (lodged_of_reaches h).unplaced (by rw [parked]; simp)
  rw [dropHandle, passes.unheld_eq held, wake_of_one (r := r.without true) parked called still unplaced]
  show ({ r.without true with ready := r.ready ++ [.supervise], parked := before ++ after } : Run) = _
  rw [idle]
  rfl

theorem settle_of_one (ready : r.ready = [t]) (waits : (Run.turn { r with ready := [] } t).ready = [])
    (lasts : (Run.turn { r with ready := [] } t).deferred = []) : r.settle = Run.turn { r with ready := [] } t := by
  have unsettled : r.isSettled = false := by rw [isSettled, ready]; rfl
  have tick : r.tick? = some (Run.turn { r with ready := [] } t) := r.tick?_of_ready ready
  have served : r.serve lookAfter = Run.turn { r with ready := [] } t := by
    rw [show lookAfter = lookAfter - 1 + 1 from rfl, serve, tick]
    exact serve_of_ready_nil waits _
  rw [settle, show roundLimit = roundLimit - 1 + 1 from rfl, settleFor, unsettled, if_neg Bool.false_ne_true, served,
    takeUp_of_deferred_nil lasts]
  exact settleFor_of_settled (isSettled_iff.mpr ⟨waits, lasts⟩) _

theorem superviseTurn_alone (running : k.stage = .running round) (thorough : round.Thorough k)
    (listening : round.listening = true) (held : k.handleHeld = true) (alone : k.lent = 0) (calm : k.summons = none)
    (received : k.restartInbox.queue = []) (obeyed : k.commands = []) (budget : k.budget = some turnQuota) :
    ∃ b, (k.without true).superviseTurn = { k.without false with budget := b } := by
  have fits : k.outlay + passage k.shutdownInbox < turnQuota := by
    have := passage_le k.shutdownInbox
    have := passage_le k.restartInbox
    unfold outlay turnQuota
    omega
  obtain ⟨-, b, notices⟩ := attend_alone running calm received obeyed budget fits 0 thorough.fair listening held alone
  have steps : (k.without true).attendSteps = 0 + 2 := by
    show k.restartInbox.queue.length + k.commands.length + 2 = _
    rw [received, obeyed]
    rfl
  refine ⟨b, ?_⟩
  simp only [superviseTurn, stage_without running true]
  rw [steps, notices, atCommands, inRound, past_of_thorough thorough, ← running]
  rfl

theorem step_dropHandle {before after : List Task} (h : (initial settings services).Reaches r)
    (settled : r.isSettled = true) (running : r.stage = .running round) (held : r.handleHeld = true) (alone : r.lent = 0)
    (parked : r.parked = before ++ .supervise :: after) : ∃ b, (r.step (.act .dropHandle)).2 =
      { ({ r with budget := b } : Run).without false with parked := before ++ (after ++ [.supervise]) } := by
  have passes := Passes.of_reaches h
  obtain ⟨idle, undeferred⟩ := isSettled_iff.mp settled
  obtain ⟨calm, received, obeyed, -⟩ := passes.calm settled running
  have waits : .supervise ∈ r.parked := by rw [parked]; simp
  have thorough := (paced_of_reaches h).thorough round running waits (by rw [undeferred]; exact List.not_mem_nil)
  have unplaced : r.place = none := (lodged_of_reaches h).unplaced waits
  -- the run as it would be if the supervising task had a turn with the handle held
  let begun : Run := ({ r with parked := before ++ after } : Run).atTurn [] .supervise
  have calm' : begun.summons = none := summons_eq_none.mpr ⟨calm.uncancelled, calm.unexited, calm.unsignalled⟩
  obtain ⟨b, turned⟩ := superviseTurn_alone (k := begun) running ⟨thorough.shutdown, thorough.restart⟩
    (passes.listens held running) held alone calm' received obeyed (quota_of_reaches h)
  have same : begun = { r with parked := before ++ after, budget := r.quota } := by
    show ({ r with
      ready := [], parked := before ++ after, budget := r.quota, deferred := r.deferred.erase .supervise } : Run) = _
    rw [undeferred, idle]
    rfl
  let woken : Run := { r.without true with ready := [.supervise], parked := before ++ after }
  have settles : Run.turn { woken with ready := [] } .supervise =
      { ({ r with budget := b } : Run).without false with parked := before ++ after ++ [.supervise] } := by
    have live : ({ begun.without false with budget := b } : Run).isOver .supervise = false := by
      show (begun.stage.hearing false).hasReturned = false
      rw [hasReturned_hearing, show begun.stage = .running round from running]
      rfl
    have kept : woken.placeKept .supervise = none := by
      rw [placeKept, show woken.place = none from unplaced, ite_self]
    rw [turn_eq_afterTurn, kept]
    show afterTurn (begun.without true).superviseTurn .supervise none = _
    rw [turned, afterTurn, live, parked_park_none, same]
    show ({ ({ r with budget := b } : Run).without false with
      parked := before ++ after ++ [.supervise], place := none } : Run) = _
    rw [← unplaced]
    rfl
  refine ⟨b, ?_⟩
  show r.dropHandle.settle = _
  rw [dropHandle_eq h settled running held alone parked, settle_of_one (r := woken) rfl (by rw [settles]; exact idle)
    (by rw [settles]; exact undeferred), settles, List.append_assoc]

def awaitsToken (r : Run) (t : Task) : Bool :=
  match r.pause? t with
  | some (.cancel _) => true
  | _ => false

/-- No call that began to wait behind the supervising task waits for the token. -/
def NoneBehind (r : Run) : Prop :=
  ∀ t ∈ r.parked.dropWhile (· ≠ .supervise), r.awaitsToken t = false

instance : Decidable r.NoneBehind :=
  inferInstanceAs (Decidable (∀ t ∈ r.parked.dropWhile (· ≠ .supervise), r.awaitsToken t = false))

theorem beside_of_waiting (h : (initial settings services).Reaches r) (held : r.handleHeld = true)
    (settled : r.isSettled = true) (running : r.stage = .running round) :
    Beside true settings services r (r.step (.act .dropHandle)).2 := by
  by_cases alone : r.lent = 0
  · have passes := Passes.of_reaches h
    obtain ⟨idle, undeferred⟩ := isSettled_iff.mp settled
    obtain ⟨-, -, obeyed, -⟩ := passes.calm settled running
    have waits := passes.supervise_parked settled running
    obtain ⟨before, after, parked⟩ := List.append_of_mem waits
    obtain ⟨b, dropped⟩ := step_dropHandle h settled running held alone parked
    have last : .supervise ∉ after := ((lodged_of_reaches h).once_parked parked).2
    have still (t : Task) (parked : t ∈ r.parked) : r.canGoOn t = false := cannotGoOn_of_reaches h parked
    have unqueued (t : Task) : t ∉ r.ready := by rw [idle]; exact List.not_mem_nil
    have patient (t : Task) (behind : t ∈ after) : Bystander true none { r with budget := b } t := by
      have waiting : t ∈ r.parked := parked ▸ List.mem_append_right _ (List.mem_cons_of_mem _ behind)
      exact ⟨fun same => last (same ▸ behind), unqueued t, by simp, still t waiting, fun _ _ => rfl⟩
    have dormant : Dormant { r with budget := b } :=
      ⟨unqueued _, by rw [show Run.deferred { r with budget := b } = [] from undeferred]; exact List.not_mem_nil,
        (lodged_of_reaches h).unplaced waits, still _ waits⟩
    have order : Order true none { r with budget := b } (before ++ (after ++ [.supervise])) :=
      .behind running (by rw [List.append_nil]; exact parked) dormant patient
    exact ⟨h, b, false, _, dropped, held, fun _ running => passes.listens held running, by simp, .aware running obeyed,
      order⟩
  · have unminded : r.Unminded := .inl (Nat.pos_of_ne_zero alone)
    have stays : (r.step (.act .dropHandle)).2 = (r.perform .dropHandle).2 := by
      show r.dropHandle.settle = r.dropHandle
      rw [dropHandle_of_unminded h held unminded]
      exact settleFor_of_settled (r := r.without true) settled _
    rw [stays]
    exact beside_of_unminded h held unminded

theorem Beside.loosen (h : Beside true settings services k d) (noneBehind : k.NoneBehind) :
    Beside false settings services k d := by
  obtain ⟨b, l, p, rfl, held, attentive, other, lack, order⟩ := h.twin
  refine ⟨h.reached, b, l, p, rfl, held, attentive, other, lack, ?_⟩
  cases order with
  | same same => exact .same same
  | @behind round before passed after running parked dormant patient =>
    refine .behind running parked dormant fun t mem => ?_
    obtain ⟨other, unqueued, absent, still, -⟩ := patient t mem
    refine ⟨other, unqueued, absent, still, fun next pauses => ?_⟩
    have first : .supervise ∉ before := ((lodged_of_reaches h.reached).once_parked parked).1
    have others (t' : Task) (mem : t' ∈ before) : decide (t' ≠ .supervise) = true :=
      decide_eq_true fun same => first (same ▸ mem)
    have behind : t ∈ k.parked.dropWhile (· ≠ .supervise) := by
      rw [show k.parked = _ from parked, List.dropWhile_append_of_pos others, List.dropWhile_cons_of_neg (by simp)]
      exact List.mem_cons_of_mem _ (List.mem_append_left _ mem)
    have none := noneBehind t behind
    rw [awaitsToken, show k.pause? t = some (.cancel next) from pauses] at none
    cases none

/-! ### Before the run, while it runs, while it shuts down -/

/-- If these steps cancel the token at all, there was a time before when no call waited for it behind the supervising
task. -/
def CancelsInOrder (r : Run) (later : List Step) : Prop :=
  ∃ early late, later = early ++ late ∧ (r.steps early).2.cancelled = false ∧
    (late = [] ∨ (r.steps early).2.NoneBehind)

theorem steps_append (r : Run) (early late : List Step) : r.steps (early ++ late) =
    ((r.steps early).1 ++ ((r.steps early).2.steps late).1, ((r.steps early).2.steps late).2) := by
  induction early generalizing r with
  | nil => rfl
  | cons s rest ih => simp only [List.cons_append, steps, ih]

theorem sparesHandles_append (early late : List Step) :
    sparesHandles (early ++ late) = (sparesHandles early && sparesHandles late) := by
  induction early with
  | nil => rfl
  | cons s rest ih => rw [List.cons_append, sparesHandles, sparesHandles, ih, Bool.and_assoc]

theorem Passes.stirs_of_uncancelled (h : Passes settings services none r) (uncancelled : r.cancelled = false) :
    r.stirs true = r.uses := by
  have same : r.happened.countP (Occurrence.stirs true) = r.happened.countP (Occurrence.stirs false) :=
    List.countP_congr fun o mem => by
      cases o with
      | cancelled => exact absurd mem (h.not_cancelled uncancelled)
      | _ => rfl
  rw [stirs, same]
  rfl

theorem Beside.unaffected_in_order {later : List Step} (h : Beside true settings services k d)
    (uncancelled : k.cancelled = false) (spares : sparesHandles later = true) (quiet : (k.steps later).2.uses = k.uses)
    (cancels : k.CancelsInOrder later) : Unaffected (k.steps later) (d.steps later) := by
  obtain ⟨early, late, rfl, uncancelled', ending⟩ := cancels
  rw [sparesHandles_append, Bool.and_eq_true] at spares
  rw [steps_append] at quiet
  have reached := (h.passes.reaches_steps early).1
  have passes := h.passes.reaches reached
  obtain ⟨first, rest⟩ := quiet_of_le (h.passes.stirs_le reached) (passes.stirs_le (passes.reaches_steps late).1) quiet
  have quiet₁ : (k.steps early).2.stirs true = k.stirs true := by
    rw [passes.stirs_of_uncancelled uncancelled', h.passes.stirs_of_uncancelled uncancelled]
    exact first
  obtain ⟨seen₁, beside₁⟩ := h.steps spares.1 quiet₁
  rcases ending with rfl | noneBehind
  · rw [List.append_nil]
    exact ⟨seen₁, beside₁.sameLife⟩
  · obtain ⟨seen₂, life⟩ := (beside₁.loosen noneBehind).unaffected spares.2 rest
    rw [steps_append, steps_append]
    exact ⟨by rw [seen₁, seen₂, List.map_append], life⟩

def trioSettings : Settings :=
  { signals := .silent, entries := [⟨"first", 0⟩, ⟨"second", 1⟩, ⟨"third", 2⟩] }

/-- The first service releases the second one once it is cancelled, and the second one the third. The third takes its
time to stop if it has not been released by then. -/
def relayServices (first : Behaviour → Behaviour) : List Service :=
  [{ start := first (.awaitCancel (.release (some 1) .done)), restarts := [.never], stop := .done },
    { start := .awaitRelease (.release (some 2) .done), restarts := [.never], stop := .done },
    { start := .awaitRelease .done, restarts := [.never]
      stop := .awaitReleaseFor 0 (.sleep 100 (.release none .done)) }]

def lastSteps : List Step :=
  [.act (.wait 2), .act .cancel, .act (.wait 300)]

def askedRun : Run :=
  ((initial trioSettings (relayServices id)).step (.act (.command .restart 1))).2

def askedAgain : Run :=
  ((askedRun.step (.act .run)).2.step (.act (.command .restart 1))).2

def waitingRun : Run :=
  ((initial trioSettings (relayServices id)).step (.act .run)).2

def endSteps : List Step :=
  [.act (.wait 2), .act (.release 1), .act (.wait 9000)]

def goingRun : Run :=
  (((initial trioSettings (relayServices .awaitRelease)).step (.act .run)).2.perform (.release 0)).2

def busyRun : Run :=
  let settings := { trioSettings with signals := { restart := [], capacity_pos := Nat.one_pos } }
  ((initial settings (relayServices id)).step (.act (.command .restart 63))).2

/-- The trio, asked for so many restarts that the first turn ends in the middle of the round that finds no more. -/
def interruptedRun : Run :=
  (((initial trioSettings (relayServices id)).step (.act (.command .restart 42))).2.perform .run).2.serve 1

end Run

end Supervision
