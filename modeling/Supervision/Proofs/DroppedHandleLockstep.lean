import Supervision.Proofs.LostHandleNoticed
import Supervision.Proofs.Play

/-! A run beside itself without its handle, from turn to turn and from step to step. Whatever happens between two turns
happens to both alike, and a turn that uses no handle keeps them beside each other; so a whole scenario that uses none
does. -/

namespace Supervision

/-- What the caller sees who has no handle. -/
def Snapshot.unheld (s : Snapshot) : Snapshot :=
  { s with closed := none, cause := .noHandle }

/-- Whether the caller does this without touching a handle. -/
def Action.sparesHandle : Action → Bool
  | .command _ _ | .dropHandle | .newHandle | .watch => false
  | _ => true

mutual

def Step.sparesHandle : Step → Bool
  | .act a => a.sparesHandle
  | .burst steps => sparesHandles steps

def sparesHandles : List Step → Bool
  | [] => true
  | s :: rest => s.sparesHandle && sparesHandles rest

end

namespace Run

variable {strict : Bool} {settings : Settings} {services : List Service} {r r' k k' d d' : Run} {l : Bool} {p : List Task}
  {t : Task} {cur : Option Task} {os : List Occurrence}

/-! ### Uses of a handle -/

theorem Act.stirs_le (h : Act t os r r') : r.stirs strict ≤ r'.stirs strict := by
  have lent : r.lent ≤ r'.lent := by
    cases h with
    | aside h =>
      cases h with
      | effect h => cases h <;> exact Nat.le_refl _
      | lend => exact Nat.le_succ _
      | _ => exact Nat.le_refl _
    | shutDown _ reason => cases reason <;> exact Nat.le_refl _
    | _ => exact Nat.le_refl _
  rw [stirs, stirs, h.happened, List.countP_append]
  omega

theorem Acts.stirs_le (h : Acts t r r') : r.stirs strict ≤ r'.stirs strict := by
  induction h with
  | refl => exact Nat.le_refl _
  | tail _ act ih =>
    obtain ⟨os, act⟩ := act
    exact Nat.le_trans ih act.stirs_le

theorem Outside.stirs_le (h : Outside os r r') : r.stirs strict ≤ r'.stirs strict := by
  have lent : r.lent ≤ r'.lent := by
    cases h with
    | effect h => cases h <;> exact Nat.le_refl _
    | watch => exact Nat.le_succ _
    | _ => exact Nat.le_refl _
  rw [stirs, stirs, h.happened, List.countP_append]
  omega

/-- What was used was used. -/
theorem Passes.stirs_le (h : Passes settings services none r) (reached : r.Reaches r') :
    r.stirs strict ≤ r'.stirs strict := by
  refine (reached.invariant (P := fun r' => Passes settings services none r' ∧ r.stirs strict ≤ r'.stirs strict)
    ⟨h, Nat.le_refl _⟩ ?_ ?_).2
  · intro r₁ r₂ ⟨passed, ih⟩ turn
    obtain ⟨t, rest, ready, rfl⟩ := tick_cases turn
    refine ⟨(passed.tick turn).1, Nat.le_trans ih ?_⟩
    rw [turn_eq]
    exact (passed.acts_turn ready).1.stirs_le
  · exact fun os r₁ r₂ ⟨passed, ih⟩ step => ⟨passed.outside step, Nat.le_trans ih step.stirs_le⟩

theorem stirs_advance (r : Run) (time : Nat) : (r.advance time).stirs strict = r.stirs strict := by
  unfold advance
  split <;> rfl

/-! ### From one turn to the next -/

theorem Lack.begin {rest : List Task} (h : Lack k l) (other : t ≠ .supervise ∨ .supervise ∉ k.parked) :
    Lack (k.atTurn rest t) l := by
  cases h with
  | lent lent => exact .lent lent
  | late late => exact .late late
  | unaware queued anew fits =>
    refine .unaware (fun round running parked => ?_) anew fits
    exact (List.mem_erase_of_ne (Ne.symm (other.resolve_right fun absent => absent parked))).mpr
      (queued round running parked)
  | aware running empty => exact .aware running empty

theorem Bereft.begin {rest : List Task} (h : Bereft strict none k l p) (ready : k.ready = t :: rest)
    (other : t ≠ .supervise) :
    Bereft strict (some t) (k.atTurn rest t) l p where
  held := h.held
  attentive := h.attentive
  other := fun same => other (Option.some.inj same)
  lack := h.lack.begin (.inl other)
  order := by
    have still {t' : Task} (ne : t' ≠ t) (still : k.canGoOn t' = false) : (k.atTurn rest t).canGoOn t' = false :=
      canGoOn_mono still (List.mem_erase_of_ne ne) (by cases t' <;> exact id) (by cases t' <;> exact id)
    have waits {t' : Task} (unqueued : t' ∉ k.ready) : t' ≠ t ∧ t' ∉ rest := by
      rw [ready, List.mem_cons, not_or] at unqueued
      exact unqueued
    refine h.order.keep rfl rfl (fun _ _ asleep => ⟨(waits asleep.unqueued).2,
      fun mem => asleep.undeferred (List.mem_of_mem_erase mem), asleep.unplaced, still (Ne.symm other) asleep.still⟩)
      fun _ _ t' _ old => ?_
    obtain ⟨ne, unqueued⟩ := waits old.unqueued
    exact old.mono unqueued (fun same => ne (Option.some.inj same).symm) (still ne old.still) (by cases t' <;> rfl)

theorem Bereft.park {ts : List Task} (h : Bereft strict cur k l p) (others : .supervise ∉ ts) :
    Bereft strict none { k with parked := k.parked ++ ts } l (p ++ ts) where
  held := h.held
  attentive := h.attentive
  other := by simp
  lack := by
    cases h.lack with
    | lent lent => exact .lent lent
    | late late => exact .late late
    | unaware queued anew fits =>
      refine .unaware (fun round running parked => queued round running ?_) anew fits
      exact (List.mem_append.mp parked).resolve_right others
    | aware running empty => exact .aware running empty
  order := by
    have same (t : Task) : Run.canGoOn { k with parked := k.parked ++ ts } t = k.canGoOn t := by cases t <;> rfl
    exact h.order.append ts rfl rfl (fun _ _ asleep => ⟨asleep.unqueued, asleep.undeferred, asleep.unplaced,
      (same _).trans asleep.still⟩) fun _ _ t _ old =>
        old.mono old.unqueued (by simp) ((same t).trans old.still) (by cases t <;> rfl)

theorem Twin.atTurn {rest : List Task} {b : Option Nat} (h : Twin strict none { k with budget := b } d)
    (ready : k.ready = t :: rest) (other : t ≠ .supervise) : Twin strict (some t) (k.atTurn rest t) (d.atTurn rest t) := by
  obtain ⟨l, p, rfl, bereft⟩ := h
  exact ⟨l, p, rfl, bereft.begin (k := { k with budget := b }) ready other⟩

/-- A task other than the supervising one parks behind all others. -/
theorem afterTurn_of_other (r : Run) (other : t ≠ .supervise) :
    r.afterTurn t none = { r with parked := r.parked ++ if r.isOver t then [] else [t] } := by
  rw [Run.afterTurn, parked_park_none, Run.park, if_neg other]
  dsimp only
  split
  · rw [List.append_nil]
  · rfl

theorem Twin.afterTurn (h : Twin strict (some t) k d) (other : t ≠ .supervise) :
    Twin strict none (k.afterTurn t none) (d.afterTurn t none) := by
  obtain ⟨l, p, rfl, bereft⟩ := h
  have ends : ({ k.without l with parked := p } : Run).isOver t = k.isOver t := by
    cases t with
    | supervise => exact absurd rfl other
    | _ => rfl
  have others : .supervise ∉ if k.isOver t then [] else [t] := by
    split
    · exact List.not_mem_nil
    · exact fun mem => other (List.mem_singleton.mp mem).symm
  rw [afterTurn_of_other _ other, afterTurn_of_other _ other, ends]
  exact ⟨l, _, rfl, bereft.park others⟩

theorem Heard.lack (h : Heard k l) (stage : k'.stage = k.stage) (lent : k'.lent = k.lent)
    (commands : k'.commands = k.commands) : Lack k' l := by
  rcases h with closed | ⟨rfl, some_lent⟩ | ⟨rfl, none, round, running⟩
  · exact .late (stage ▸ closed)
  · exact .lent (lent ▸ some_lent)
  · exact .aware (stage.trans running) (commands.trans none)

theorem hasReturned_hearing (l : Bool) (s : Stage) : (s.hearing l).hasReturned = s.hasReturned := by
  cases s <;> rfl

/-! ### Between two turns -/

theorem Twin.takeUp (h : Twin strict none k d) : Twin strict none k.takeUp d.takeUp := by
  obtain ⟨l, p, rfl, bereft⟩ := h
  have mem (t : Task) : t ∈ p ↔ t ∈ k.parked := bereft.order.mem_iff
  have taken : k.deferred.filter (· ∈ p) = k.deferred.filter (· ∈ k.parked) := List.filter_congr fun t _ => by simp [mem]
  refine ⟨l, p.filter (· ∉ k.deferred), ?_, bereft.held, bereft.attentive, by simp, ?_, ?_⟩
  · show ({ k.without l with
      ready := k.ready ++ k.deferred.filter (· ∈ p), parked := p.filter (· ∉ k.deferred), deferred := []
      place := Run.placeLeft { k with parked := p } } : Run) = _
    rw [taken, bereft.order.placeLeft]
    rfl
  · cases bereft.lack with
    | lent lent => exact .lent lent
    | late late => exact .late late
    | unaware queued anew fits =>
      refine .unaware (fun round running left => ?_) anew fits
      obtain ⟨parked, undeferred⟩ := List.mem_filter.mp left
      exact absurd (queued round running parked) (by simpa using undeferred)
    | aware running empty => exact .aware running empty
  · have still {t : Task} (undeferred : t ∉ k.deferred) (still : k.canGoOn t = false) : k.takeUp.canGoOn t = false :=
      canGoOn_mono still (by simp [Run.takeUp, undeferred]) (by cases t <;> exact id) (by cases t <;> exact id)
    have waits {t : Task} (unqueued : t ∉ k.ready) (undeferred : t ∉ k.deferred) : t ∉ k.takeUp.ready := fun mem =>
      (List.mem_append.mp mem).elim unqueued fun now => undeferred (List.mem_filter.mp now).1
    refine bereft.order.filter _ rfl rfl (fun _ _ asleep => ?_) fun _ _ t _ old remains => ?_
    · have place : k.takeUp.place = none := by
        show k.placeLeft = none
        rw [Run.placeLeft, if_neg fun taken => asleep.undeferred taken.1, placeAfter, asleep.unplaced, Option.map_none]
      exact ⟨by simp [asleep.undeferred], waits asleep.unqueued asleep.undeferred, List.not_mem_nil, place,
        still asleep.undeferred asleep.still⟩
    · have undeferred : t ∉ k.deferred := by simpa using remains
      exact old.mono (waits old.unqueued undeferred) (by simp) (still undeferred old.still) (by cases t <;> rfl)

/-- A task that is not yet waiting gets into the queue. -/
theorem Twin.spawn (h : Twin strict none k d) (new : ∀ t ∈ k.parked, t ≠ t') (other : t' ≠ .supervise) :
    Twin strict none (k.spawn [t']) (d.spawn [t']) := by
  obtain ⟨l, p, rfl, bereft⟩ := h
  have same (t : Task) : (k.spawn [t']).canGoOn t = k.canGoOn t := by cases t <;> rfl
  refine ⟨l, p, rfl, bereft.held, bereft.attentive, by simp, ?_, ?_⟩
  · cases bereft.lack with
    | lent lent => exact .lent lent
    | late late => exact .late late
    | unaware queued anew fits => exact .unaware queued anew fits
    | aware running empty => exact .aware running empty
  · have waits {t : Task} (unqueued : t ∉ k.ready) (ne : t ≠ t') : t ∉ (k.spawn [t']).ready := fun mem =>
      (List.mem_append.mp mem).elim unqueued fun now => ne (List.mem_singleton.mp now)
    exact bereft.order.keep rfl rfl (fun _ _ asleep => ⟨waits asleep.unqueued other.symm, asleep.undeferred, asleep.unplaced,
      (same _).trans asleep.still⟩) fun _ _ t parked old =>
        old.mono (waits old.unqueued (new t parked)) (by simp) ((same t).trans old.still) (by cases t <;> rfl)

/-- The supervisor is handed over. -/
theorem Twin.handOver (h : Twin strict none k d) (idle : k.stage = .idle) :
    Twin strict none ({ k with stage := .spawned }.spawn [.supervise])
      ({ d with stage := .spawned }.spawn [.supervise]) := by
  obtain ⟨l, p, rfl, bereft⟩ := h
  refine ⟨l, p, rfl, bereft.held, fun _ running => (by cases running), by simp, ?_, ?_⟩
  · cases bereft.lack with
    | lent lent => exact .lent lent
    | late late => rw [idle] at late; cases late
    | unaware queued _ fits =>
      refine .unaware (fun _ running => by cases running) rfl ?_
      simpa [Fits, mayWait, idle, Stage.isSetUp, Run.spawn] using fits
    | aware running => rw [idle] at running; cases running
  · cases bereft.order with
    | same same => exact .same same
    | behind running => rw [idle] at running; cases running

/-- As long as the run waits for something to happen, its supervising task has no deadline. -/
theorem Twin.pass (h : Twin strict none k d) (time : Nat) :
    Twin strict none (wake { k with now := time }) (wake { d with now := time }) := by
  refine h.rouse (x := { k with now := time }) ⟨frame_surroundings fun _ => id, fun round running still => .inl ?_⟩
    (by rintro l p rfl; rfl)
  have same : Run.canGoOn { k with now := time } .supervise = k.canGoOn .supervise :=
    canGoOn_supervise running rfl .rfl rfl rfl rfl
  exact same.trans still

/-- Who waits until when does not depend on the order in which they wait. -/
theorem nextDeadline?_congr (parked : ∀ t, t ∈ r'.parked ↔ t ∈ r.parked) (same : ∀ t, r'.deadline? t = r.deadline? t) :
    r'.nextDeadline? = r.nextDeadline? := by
  have least {r r' : Run} (parked : ∀ t, t ∈ r'.parked ↔ t ∈ r.parked) (same : ∀ t, r'.deadline? t = r.deadline? t)
      {time : Nat} (next : r.nextDeadline? = some time) : ∃ l ≤ time, r'.nextDeadline? = some l := by
    obtain ⟨t, mem, deadline⟩ := exists_of_nextDeadline? next
    exact nextDeadline?_le ((parked t).mpr mem) ((same t).trans deadline)
  have back {time : Nat} (next : r'.nextDeadline? = some time) : ∃ l ≤ time, r.nextDeadline? = some l :=
    least (fun t => (parked t).symm) (fun t => (same t).symm) next
  cases next : r.nextDeadline? with
  | none =>
    cases next' : r'.nextDeadline? with
    | none => rfl
    | some time =>
      obtain ⟨l, -, some_next⟩ := back next'
      rw [next] at some_next
      cases some_next
  | some time =>
    obtain ⟨l, le, next'⟩ := least parked same next
    obtain ⟨l', le', again⟩ := back next'
    rw [next] at again
    rw [next', Nat.le_antisymm le (Option.some.inj again ▸ le')]

theorem tick?_of_ready (r : Run) {rest : List Task} (ready : r.ready = t :: rest) :
    r.tick? = some (Run.turn { r with ready := rest } t) := by
  rw [tick?, ready]

/-- Between two turns the second run is the first without the handle, with whatever its last turn left of its budget. -/
structure Beside (strict : Bool) (settings : Settings) (services : List Service) (k d : Run) : Prop where
  reached : (initial settings services).Reaches k
  twin : ∃ b, Twin strict none { k with budget := b } d

namespace Beside

variable (h : Beside strict settings services k d)
include h

theorem passes : Passes settings services none k :=
  Passes.of_reaches h.reached

theorem ready : d.ready = k.ready := by
  obtain ⟨b, l, p, rfl, -⟩ := h.twin
  rfl

theorem tick_none (idle : k.tick? = none) : d.tick? = none := by
  have ready : k.ready = [] := by
    unfold tick? at idle
    split at idle
    · assumption
    · cases idle
  rw [tick?, h.ready, ready]

/-- The supervising task is at its turn in both, so it had the same place among those that wait. -/
theorem turn_supervise {rest : List Task} (ready : k.ready = .supervise :: rest) :
    ∃ b, Twin strict none
      { ((k.atTurn rest .supervise).act .supervise).afterTurn .supervise (k.placeKept .supervise) with budget := b }
      (((d.atTurn rest .supervise).act .supervise).afterTurn .supervise (d.placeKept .supervise)) := by
  obtain ⟨b, l, p, rfl, bereft⟩ := h.twin
  let begun : Run := k.atTurn rest .supervise
  let kept : Option Nat := k.placeKept .supervise
  have began : Passes settings services (some .supervise) begun := h.passes.turn ready
  have passes : Passes settings services none ((begun.act .supervise).afterTurn .supervise kept) := by
    have ticked := (h.passes.tick (k.tick?_of_ready ready)).1
    rwa [turn_eq_afterTurn] at ticked
  have place : p = k.parked := by
    cases bereft.order with
    | same same => exact same
    | behind _ _ dormant => exact absurd (ready ▸ List.mem_cons_self) dormant.unqueued
  subst place
  have keeps : Run.placeKept { ({ k with budget := b } : Run).without l with parked := k.parked } .supervise = kept := by
    show Run.placeKept (Run.without l { k with budget := b }) .supervise = k.placeKept .supervise
    simp only [Run.placeKept, bereft.goesOn]
    rfl
  have lodged := lodged_of_reaches h.reached
  have absent : .supervise ∉ k.parked := (lodged.alone ready rfl).2
  have spawned : begun.stage ≠ .idle := fun idle =>
    lodged.idle idle (List.mem_append_left _ (ready ▸ List.mem_cons_self))
  have fair (round : Round) (running : begun.stage = .running round) : round.Fair begun := by
    have fair := (paced_of_reaches h.reached).fair round running
    exact ⟨fair.shutdown, fair.restart⟩
  obtain ⟨l', b', same, heard⟩ := began.superviseTurn_notices (bereft.lack.begin (.inr absent)) spawned bereft.held absent
    fair (quota_of_reaches h.reached)
  have same : Run.act (begun.without l) .supervise = { (begun.act .supervise).without l' with budget := b' } := same
  have ends : ({ (begun.act .supervise).without l' with budget := b' } : Run).isOver .supervise =
      (begun.act .supervise).isOver .supervise := hasReturned_hearing l' (begun.act .supervise).stage
  have held : (begun.act .supervise).handleHeld = true :=
    (h.passes.acts_turn ready).1.steady.handleHeld.trans bereft.held
  rw [keeps]
  show ∃ b, Twin strict none _ ((Run.act (begun.without l) .supervise).afterTurn .supervise kept)
  rw [same, afterTurn, afterTurn, ends]
  exact ⟨b', l', _, rfl, held, fun round running => passes.listens held running, by simp, heard.lack rfl rfl rfl,
    .same rfl⟩

theorem tick (turn : k.tick? = some k') (quiet : k'.stirs strict = k.stirs strict) :
    ∃ d', d.tick? = some d' ∧ Beside strict settings services k' d' := by
  have reached : (initial settings services).Reaches k' := h.reached.tail (.turn turn)
  obtain ⟨t, rest, ready, rfl⟩ := tick_cases turn
  refine ⟨_, d.tick?_of_ready (h.ready.trans ready), reached, ?_⟩
  rw [turn_eq_afterTurn] at quiet ⊢
  rw [turn_eq_afterTurn]
  by_cases supervises : t = .supervise
  · subst supervises
    exact h.turn_supervise ready
  · obtain ⟨b, twin⟩ := h.twin
    have turned := (twin.atTurn ready supervises).act quiet
    rw [placeKept_of_ne supervises, placeKept_of_ne supervises]
    exact ⟨_, turned.afterTurn supervises⟩

/-! ### What can be told -/

theorem now : d.now = k.now := by
  obtain ⟨b, l, p, rfl, -⟩ := h.twin
  rfl

theorem isSettled : d.isSettled = k.isSettled := by
  obtain ⟨b, l, p, rfl, -⟩ := h.twin
  rfl

theorem nextDeadline? : d.nextDeadline? = k.nextDeadline? := by
  obtain ⟨b, l, p, rfl, bereft⟩ := h.twin
  refine nextDeadline?_congr (fun t => bereft.order.mem_iff) fun t => ?_
  cases t with
  | supervise =>
    simp only [deadline?, without]
    cases k.stage <;> rfl
  | _ => rfl

theorem snapshot : d.snapshot = k.snapshot.unheld := by
  obtain ⟨b, l, p, rfl, -⟩ := h.twin
  have progression : Run.progression { ({ k with budget := b } : Run).without l with parked := p } = k.progression := by
    simp only [Run.progression, without]
    cases k.stage <;> rfl
  rw [Run.snapshot, Run.snapshot, progression]
  rfl

/-! ### Moves -/

theorem takeUp : Beside strict settings services k.takeUp d.takeUp := by
  obtain ⟨b, twin⟩ := h.twin
  exact ⟨h.reached.tail (.takeUp k), b, twin.takeUp⟩

theorem signal (n : Int) : Beside strict settings services (k.spawn [.signal n]) (d.spawn [.signal n]) := by
  obtain ⟨b, twin⟩ := h.twin
  have new (t : Task) (parked : t ∈ k.parked) (same : t = .signal n) : False :=
    h.passes.signal_not_parked n (same ▸ parked)
  exact ⟨h.reached.tail (.signal k n), b, twin.spawn new (by simp)⟩

/-- The clock moves to a time before which nobody goes on by itself. -/
theorem pass {time : Nat} (later : k.isSettled = true → k.now ≤ time) (inTime : ∀ d, k.nextDeadline? = some d → time ≤ d) :
    Beside strict settings services (k.advance time) (d.advance time) := by
  refine ⟨h.reached.trans (reaches_advance later inTime), ?_⟩
  obtain ⟨b, twin⟩ := h.twin
  rw [advance, advance, h.isSettled]
  split
  · exact ⟨b, twin.pass time⟩
  · exact ⟨b, twin⟩

theorem serve (turns : Nat) (quiet : (k.serve turns).stirs strict = k.stirs strict) :
    Beside strict settings services (k.serve turns) (d.serve turns) := by
  induction turns generalizing k d with
  | zero => exact h
  | succ turns ih =>
    simp only [Run.serve] at quiet ⊢
    cases turn : k.tick? with
    | none =>
      rw [h.tick_none turn]
      exact h
    | some k' =>
      simp only [turn] at quiet
      have reached : k.Reaches k' := .single (.turn turn)
      obtain ⟨first, rest⟩ := quiet_of_le (h.passes.stirs_le reached)
        ((h.passes.reaches reached).stirs_le (reaches_serve turns k')) quiet
      obtain ⟨d', turn', beside⟩ := h.tick turn first
      simp only [turn']
      exact ih beside rest

theorem settleFor (rounds : Nat) (quiet : (Run.settleFor rounds k).stirs strict = k.stirs strict) :
    Beside strict settings services (Run.settleFor rounds k) (Run.settleFor rounds d) := by
  induction rounds generalizing k d with
  | zero => exact h
  | succ rounds ih =>
    simp only [Run.settleFor, h.isSettled] at quiet ⊢
    split at quiet
    · rename_i settled
      simp only [if_pos settled]
      exact h
    · rename_i unsettled
      simp only [if_neg unsettled]
      have served : k.Reaches (k.serve lookAfter).takeUp := (reaches_serve lookAfter k).tail (.takeUp _)
      have before := h.passes.reaches served
      obtain ⟨first, rest⟩ := quiet_of_le (h.passes.stirs_le served)
        (before.stirs_le (Settles.reaches (settles_settleFor rounds _))) quiet
      exact ih (h.serve lookAfter first).takeUp rest

theorem settle (quiet : k.settle.stirs strict = k.stirs strict) : Beside strict settings services k.settle d.settle :=
  h.settleFor roundLimit quiet

theorem raise (n : Int) (quiet : (k.raise n).stirs strict = k.stirs strict) :
    Beside strict settings services (k.raise n) (d.raise n) := by
  have served := reaches_serve lookAfter k
  have arrived : k.Reaches ((k.serve lookAfter).spawn [.signal n]).takeUp := (served.tail (.signal _ n)).tail (.takeUp _)
  obtain ⟨first, rest⟩ := quiet_of_le (h.passes.stirs_le arrived)
    ((h.passes.reaches arrived).stirs_le (reaches_settle _)) quiet
  exact ((h.serve lookAfter first).signal n).takeUp.settle rest

theorem passTo {target fuel : Nat} (later : k.now ≤ target)
    (quiet : (Run.passTo target fuel k).stirs strict = k.stirs strict) :
    Beside strict settings services (Run.passTo target fuel k) (Run.passTo target fuel d) := by
  induction fuel generalizing k d with
  | zero => exact h
  | succ fuel ih =>
    simp only [Run.passTo, h.nextDeadline?] at quiet ⊢
    split at quiet
    · rename_i next
      split at quiet
      · rename_i early
        simp only [if_pos early]
        obtain ⟨moved, later'⟩ := h.passes.reaches_next next early later
        obtain ⟨first, rest⟩ := quiet_of_le (h.passes.stirs_le moved)
          ((h.passes.reaches moved).stirs_le ((h.passes.reaches moved).reaches_passTo later')) quiet
        have passed : Beside strict settings services (k.advance _) (d.advance _) :=
          h.pass (fun settled => Nat.le_of_lt (h.passes.now_lt settled next)) fun time next' => by
            rw [next] at next'
            exact Nat.le_of_eq (Option.some.inj next')
        exact ih (passed.settle (first.trans (k.stirs_advance _).symm)) later' rest
      · rename_i late
        simp only [if_neg late]
        refine h.pass (fun _ => later) fun time next' => ?_
        rw [next] at next'
        exact Option.some.inj next' ▸ Nat.not_lt.mp late
    · rename_i none
      exact h.pass (fun _ => later) fun time next => by rw [none] at next; cases next

theorem elapse (ms : Nat) (quiet : (k.elapse ms).stirs strict = k.stirs strict) :
    Beside strict settings services (k.elapse ms) (d.elapse ms) := by
  unfold Run.elapse at quiet ⊢
  split at quiet
  · rename_i none
    simp only [if_pos none]
    exact h
  · rename_i some_time
    simp only [if_neg some_time]
    have settled := reaches_settle k
    have before := h.passes.reaches settled
    have later : k.settle.now ≤ k.settle.now + ms := Nat.le_add_right _ _
    obtain ⟨first, rest⟩ := quiet_of_le (h.passes.stirs_le settled) (before.stirs_le (before.reaches_passTo later)) quiet
    have beside := h.settle first
    rw [beside.now]
    exact beside.passTo later rest

/-! ### Steps -/

theorem idle_iff : d.stage = .idle ↔ k.stage = .idle := by
  obtain ⟨b, l, p, rfl, -⟩ := h.twin
  show k.stage.hearing l = .idle ↔ _
  cases k.stage <;> simp [Stage.hearing]

theorem perform {a : Action} (spares : a.sparesHandle = true) (quiet : (k.perform a).2.stirs strict = k.stirs strict) :
    (d.perform a).1 = (k.perform a).1 ∧ Beside strict settings services (k.perform a).2 (d.perform a).2 := by
  have reached := h.reached.trans (h.passes.reaches_perform a)
  obtain ⟨b, twin⟩ := h.twin
  cases a with
  | run =>
    simp only [Run.perform, h.idle_iff] at reached ⊢
    split at reached
    · rename_i idle
      simp only [if_pos idle]
      exact ⟨trivial, reached, b, twin.handOver idle⟩
    · rename_i handed
      simp only [if_neg handed]
      exact ⟨trivial, h⟩
  | cancel => exact ⟨rfl, reached, b, twin.cancel quiet⟩
  | raise n =>
    simp only [Run.perform] at quiet ⊢
    split at quiet
    · rename_i raisable
      simp only [if_pos raisable]
      exact ⟨trivial, h.raise n quiet⟩
    · rename_i unraisable
      simp only [if_neg unraisable]
      exact ⟨trivial, h⟩
  | release service =>
    have settings : d.settings = k.settings := twin.reads.settings
    simp only [Run.perform, settings] at reached ⊢
    split at reached
    · exact ⟨rfl, reached, b, twin.release _⟩
    · exact ⟨rfl, h⟩
  | wait ms => exact ⟨rfl, h.elapse ms quiet⟩
  | unknown => exact ⟨rfl, h⟩
  | command | dropHandle | newHandle | watch => cases spares

end Beside

mutual

theorem Beside.take : ∀ {k d : Run}, Beside strict settings services k d → ∀ s : Step, s.sparesHandle = true →
    (k.take s).2.stirs strict = k.stirs strict →
    (d.take s).1 = (k.take s).1 ∧ Beside strict settings services (k.take s).2 (d.take s).2
  | k, d, h, .act a, spares, quiet => by
    rw [Run.take] at quiet ⊢
    rw [Run.take]
    exact h.perform spares quiet
  | k, d, h, .burst steps, spares, quiet => by
    rw [Run.take] at quiet ⊢
    rw [Run.take]
    obtain ⟨answers, beside⟩ := h.takeAll steps spares quiet
    exact ⟨congrArg Answer.many answers, beside⟩

theorem Beside.takeAll : ∀ {k d : Run}, Beside strict settings services k d → ∀ steps : List Step,
    sparesHandles steps = true → (k.takeAll steps).2.stirs strict = k.stirs strict →
    (d.takeAll steps).1 = (k.takeAll steps).1 ∧ Beside strict settings services (k.takeAll steps).2 (d.takeAll steps).2
  | k, d, h, [], _, _ => by
    rw [Run.takeAll, Run.takeAll]
    exact ⟨rfl, h⟩
  | k, d, h, s :: rest, spares, quiet => by
    rw [sparesHandles, Bool.and_eq_true] at spares
    rw [Run.takeAll] at quiet ⊢
    rw [Run.takeAll]
    have taken := h.passes.reaches_take s
    have before := h.passes.reaches taken
    obtain ⟨first, later⟩ := quiet_of_le (h.passes.stirs_le taken) (before.stirs_le (before.reaches_takeAll rest)) quiet
    obtain ⟨answer, beside⟩ := h.take s spares.1 first
    obtain ⟨answers, beside⟩ := beside.takeAll rest spares.2 later
    exact ⟨congrArg₂ List.cons answer answers, beside⟩

end

namespace Beside

variable (h : Beside strict settings services k d)
include h

theorem step {s : Step} (spares : s.sparesHandle = true) (quiet : (k.step s).2.stirs strict = k.stirs strict) :
    (d.step s).1 = (k.step s).1 ∧ Beside strict settings services (k.step s).2 (d.step s).2 := by
  have taken := h.passes.reaches_take s
  obtain ⟨first, rest⟩ := quiet_of_le (h.passes.stirs_le taken) ((h.passes.reaches taken).stirs_le (reaches_settle _)) quiet
  obtain ⟨answer, beside⟩ := h.take s spares first
  exact ⟨answer, beside.settle rest⟩

/-- The same steps get the same answers, and what is seen after each differs in nothing but the handle. -/
theorem steps {later : List Step} (spares : sparesHandles later = true)
    (quiet : (k.steps later).2.stirs strict = k.stirs strict) :
    (d.steps later).1 = (k.steps later).1.map (Prod.map id Snapshot.unheld) ∧
      Beside strict settings services (k.steps later).2 (d.steps later).2 := by
  induction later generalizing k d with
  | nil => exact ⟨rfl, h⟩
  | cons s rest ih =>
    rw [sparesHandles, Bool.and_eq_true] at spares
    have stepped := h.passes.reaches_step s
    have before := h.passes.reaches stepped
    obtain ⟨first, later⟩ := quiet_of_le (h.passes.stirs_le stepped) (before.stirs_le (before.reaches_steps rest).1) quiet
    obtain ⟨answer, beside⟩ := h.step spares.1 first
    obtain ⟨seen, beside'⟩ := ih beside spares.2 later
    refine ⟨?_, beside'⟩
    simp only [Run.steps, List.map_cons, Prod.map, id, answer, beside.snapshot, seen]

end Beside

end Run

end Supervision
