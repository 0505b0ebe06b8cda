import Supervision.Proofs.Containment
import Supervision.Proofs.Fanout
import Supervision.Proofs.Lag
import Supervision.Proofs.Turn

/-! The restart backlog is not observable. An entry that fell behind by more than the backlog is told of all that it missed
at once, and an entry that did not reads one firing after the other; as long as a reading does not cost the task its turn,
both come to the same calls at the same times, in the middle of whatever else goes on. So two runs that differ in their
backlogs stay abreast under the same choices, and nothing tells them apart but the log. -/

namespace Supervision

open Mask

/-- Whether it tells that a service fell behind on restarts. -/
def Event.isLag : Event → Bool
  | .fellBehind _ _ => true
  | _ => false

namespace Run

variable {settings : Settings} {services : List Service} {r r' : Run} {t : Task} {e : Nat} {os : List Occurrence}

/-! ### Where the readers stand -/

/-- To read costs nothing, the run gets the backlog that it asks for, and no reader is before the firings that its entry
owes. -/
structure Attuned (r : Run) : Prop where
  free : r.readsFreely = true
  limited : r.quota ≠ some 0
  fits : r.settings.restartBacklog ≤ backlogLimit
  manned : r.members.length = r.settings.entries.length
  placed : ∀ e, r.Placed e
  /-- Nobody reads before the run is set up. -/
  bare : r.stage.isSetUp = false → r.restarts.readers = []

theorem owed_le_of_modify {e' : Nat} {f : Member → Member} (h : r'.members = r.members.modify e' f)
    (le : (f (r.member e')).owed ≤ (r.member e').owed) (e : Nat) : (r'.member e).owed ≤ (r.member e).owed := by
  by_cases own : e = e'
  · subst own
    by_cases he : e < r.members.length
    · rwa [member_modify h he]
    · have absent : r'.member e = r.member e := by
        rw [member_of_le (Nat.not_lt.mp he), member_of_le (by simpa [h] using he)]
      exact Nat.le_of_eq (congrArg Member.owed absent)
  · exact Nat.le_of_eq (congrArg Member.owed (member_modify_ne h own))

theorem Placed.equip {shutdown restart : Inbox} {b : Broadcast} (placed : r.Placed e) (bare : r.restarts.readers = [])
    (manned : r.members.length = r.settings.entries.length) (has : acquire r.settings = .ok (shutdown, restart, b)) :
    (r.equip shutdown restart b).Placed e := by
  obtain ⟨-, -, -, readers⟩ := acquire_ok has
  have owed : (r.member e).owed = 0 := by
    rcases placed with ⟨-, none⟩ | ⟨p, -, position, -⟩
    · exact none
    · simp [Broadcast.position?, bare] at position
  have restarts : (r.equip shutdown restart b).restarts = b := rfl
  rw [Broadcast.foldl_subscribe] at readers
  by_cases he : e < r.members.length
  · refine .inr ⟨0, Nat.zero_le _, ?_, Nat.le_of_eq owed, he⟩
    rw [restarts, readers]
    simp [Broadcast.position?, Broadcast.withBacklog, ← manned, he]
  · refine .inl ⟨?_, owed⟩
    rw [restarts, readers]
    simp [Broadcast.position?, Broadcast.withBacklog, ← manned, he]

theorem Act.placed (h : Act t os r r') (attuned : r.Attuned) (e : Nat) : r'.Placed e := by
  have placed := attuned.placed e
  have members := h.members_length
  cases h with
  | aside h => exact placed.spared h.spares
  | @takeFirings _ e' n b idle none next =>
    by_cases own : e = e'
    · subst own
      exact placed.takeFirings next
    · have others := member_modify_ne (r.members_takeFirings e' n b) own
      obtain ⟨-, -, moved⟩ := Broadcast.next_firings next
      have restarts : (r.takeFirings e' n b).restarts = b := rfl
      refine placed.mono ?_ ?_ (Nat.le_of_eq (by rw [others])) members
      · rw [restarts, moved, Broadcast.position?_moveReader_ne _ own]
      · rw [restarts, moved]
        exact Nat.le_refl _
  | beginRestart =>
    refine placed.same rfl (owed_le_of_modify rfl ?_ e) members
    exact Nat.sub_le _ 1
  | beginStart | pauseStart | retire | pauseRestart | awaitStop | beginStop | pauseStop =>
    refine placed.same rfl (owed_le_of_modify rfl ?_ e) members
    exact Nat.le_refl _
  | endStart _ o => exact placed.same rfl (owed_le_of_modify (r.members_endStart _ o) (Nat.le_refl _) e) members
  | endRestart _ o =>
    exact placed.same rfl (owed_le_of_modify (r.members_endRestart _ o) (Nat.le_refl _) e) members
  | endStop _ o => exact placed.same rfl (owed_le_of_modify (r.members_endStop _ o) (Nat.le_refl _) e) members
  | receive | obey =>
    refine placed.mono ?_ ?_ (Nat.le_refl _) members
    · simp only [wake, Broadcast.fire]
      split <;> rfl
    · simp only [wake, Broadcast.fire]
      split <;> simp
  | equip spawned has => exact placed.equip (attuned.bare (by rw [spawned]; rfl)) attuned.manned has
  | finish | expire => exact placed.mono rfl (Nat.le_refl _) (Nat.le_refl _) members
  | shutDown _ reason =>
    cases reason <;> exact placed.same rfl (Nat.le_refl _) members
  | learn | deliver | miss | fail | pass | stopListening | leave => exact placed.same rfl (Nat.le_refl _) members

theorem Act.bare (h : Act t os r r') (early : r'.stage.isSetUp = false) (bare : r.restarts.readers = []) :
    r'.restarts.readers = [] := by
  cases h with
  | aside h => rwa [h.spares.restarts]
  | @takeFirings _ e n b _ _ next =>
    obtain ⟨pos, le, -⟩ := Broadcast.next_firings next
    simp [Broadcast.unread, Broadcast.position?, bare] at le
    omega
  | receive | obey =>
    simp only [wake, Broadcast.fire]
    split <;> exact bare
  | equip => cases early
  | shutDown _ reason => cases reason <;> exact bare
  | _ => exact bare

theorem Act.attuned (h : Act t os r r') (ih : r.Attuned) : r'.Attuned where
  free := h.steady.readsFreely.trans ih.free
  limited := h.steady.quota ▸ ih.limited
  fits := h.steady.settings ▸ ih.fits
  manned := by rw [h.members_length, h.steady.settings, ih.manned]
  placed := h.placed ih
  bare early := h.bare early (ih.bare (eq_false_of_imp (fun setUp => h.stage_step.setUp_iff.mpr (.inl setUp)) early))

theorem Acts.attuned (h : Acts t r r') (ih : r.Attuned) : r'.Attuned := by
  induction h with
  | refl => exact ih
  | tail _ act ih =>
    obtain ⟨os, act⟩ := act
    exact act.attuned ih

theorem Attuned.same (ih : r.Attuned) (readsFreely : r'.readsFreely = r.readsFreely) (quota : r'.quota = r.quota)
    (settings : r'.settings = r.settings) (members : r'.members = r.members) (restarts : r'.restarts = r.restarts)
    (setUp : r'.stage.isSetUp = r.stage.isSetUp) : r'.Attuned where
  free := readsFreely.trans ih.free
  limited := quota ▸ ih.limited
  fits := settings ▸ ih.fits
  manned := by rw [members, settings, ih.manned]
  placed e := (ih.placed e).same restarts (Nat.le_of_eq (by rw [member_of_members members])) (by rw [members])
  bare early := by
    rw [restarts]
    exact ih.bare (setUp ▸ early)

/-! Between two turns nothing happens to the readers. -/

theorem Outside.attuned (h : Outside os r r') (ih : r.Attuned) : r'.Attuned :=
  ih.same h.keeps.readsFreely h.keeps.quota h.keeps.settings h.keeps.members h.keeps.restarts (h.stage_congr rfl)

theorem Outsides.attuned (h : Outsides r r') (ih : r.Attuned) : r'.Attuned := by
  induction h with
  | refl => exact ih
  | tail _ step ih =>
    obtain ⟨os, step⟩ := step
    exact step.attuned ih

theorem Attuned.act {t : Task} (ih : r.Attuned) (fresh : r.isSpent = false) : (r.act t).Attuned := by
  cases t with
  | watch w =>
    show (r.watchTurn w).Attuned
    unfold watchTurn
    split
    · exact ih.same rfl rfl rfl rfl rfl rfl
    · exact ih
  | _ => exact (acts_act fresh fun _ watch => by cases watch).1.attuned ih

theorem Attuned.tick (ih : r.Attuned) (h : r.tick? = some r') : r'.Attuned := by
  obtain ⟨t, rest, -, rfl⟩ := tick_cases h
  let begun : Run := { r with ready := rest, budget := r.quota, deferred := r.deferred.erase t }
  have began : begun.Attuned := ih.same rfl rfl rfl rfl rfl rfl
  have acted : (begun.act t).Attuned := began.act (by simpa [begun, isSpent] using ih.limited)
  rw [turn_eq]
  exact acted.same rfl rfl rfl rfl rfl rfl

/-! ### Two runs that look alike -/

/-- The runs look alike, but for how far their entries lag. -/
structure Abreast (r r' : Run) : Prop where
  alike : lagless.run r = lagless.run r'
  left : r.Attuned
  right : r'.Attuned

theorem Abreast.turn {rest : List Task} (h : Abreast r r') (t : Task) :
    lagless.run (Run.turn { r with ready := rest } t) = lagless.run (Run.turn { r' with ready := rest } t) := by
  cases t with
  | supervise => exact turn_alike h.alike (fun _ => h.left.fits) fun _ => h.right.fits
  | start e | stop e => exact turn_alike h.alike (names_of_blank rfl) (names_of_blank rfl)
  | watch | signal => exact turn_alike h.alike trivial trivial
  | restart e =>
    have acted : lagless.run (restartTurn { r with
          ready := rest, budget := r.quota, deferred := r.deferred.erase (.restart e) } e) =
        lagless.run (restartTurn { r' with
          ready := rest, budget := r'.quota, deferred := r'.deferred.erase (.restart e) } e) := by
      refine restartTurn_alike ?_ h.left.free h.right.free (h.left.placed e) (h.right.placed e)
      exact congrArg (fun x : Run => { x with
        ready := rest, budget := x.quota, deferred := x.deferred.erase (.restart e) }) h.alike
    rw [run_turn_of_act, run_turn_of_act, placeKept_of_ne (by simp), placeKept_of_ne (by simp)]
    exact congrArg (fun x : Run => if x.isOver (.restart e) then x else x.park (.restart e) none) acted

theorem abreast_simulation : Simulation Abreast where
  tick {r r'} h := by
    have ticks := tick_alike h.alike fun t _ _ _ => h.turn t
    cases turn : r.tick? <;> cases turn' : r'.tick? <;> rw [turn, turn'] at ticks <;> cases ticks
    · exact .none
    · rename_i alike
      exact .some ⟨alike, h.left.tick turn, h.right.tick turn'⟩
  takeUp {r r'} h :=
    ⟨congrArg Run.takeUp h.alike, (Outside.takeUp r).attuned h.left, (Outside.takeUp r').attuned h.right⟩
  pass {r r'} h time :=
    ⟨pass_alike h.alike time, h.left.same rfl rfl rfl rfl rfl rfl, h.right.same rfl rfl rfl rfl rfl rfl⟩
  signal {r r'} h n :=
    ⟨congrArg (Run.spawn · [.signal n]) h.alike, (Outside.signal r n).attuned h.left, (Outside.signal r' n).attuned h.right⟩
  act {r r'} h a instant :=
    have ⟨answer, alike⟩ := perform_alike h.alike instant
    ⟨answer, alike, (outsides_perform r instant).attuned h.left, (outsides_perform r' instant).attuned h.right⟩
  now {r r'} h := show (lagless.run r).now = (lagless.run r').now from congrArg Run.now h.alike
  nextDeadline? h := nextDeadline?_alike h.alike
  isSettled {r r'} h := show (lagless.run r).isSettled = (lagless.run r').isSettled from congrArg Run.isSettled h.alike
  progression h := progression_alike h.alike

/-! ### What is seen of a run -/

theorem stamped_lagless (s : Stamped) : lagless.stamped s = s := by
  obtain ⟨time, o⟩ := s
  cases o with
  | noted e phase cancelled view => rw [stamped, Mask.occurrence, view_of_id rfl]
  | learned e phase c => rw [stamped, Mask.occurrence, cause_of_id rfl]
  | shutDown c => rw [stamped, Mask.occurrence, cause_of_id rfl]
  | _ => rfl

theorem history_lagless (r : Run) : (lagless.run r).history = r.history :=
  (List.map_congr_left fun s _ => stamped_lagless s).trans (List.map_id r.history)

theorem failures_lagless (fs : List Failure) : lagless.failures fs = fs :=
  List.map_id fs

theorem stage_lagless (s : Stage) : lagless.stage s = s := by
  cases s with
  | returned v time =>
    cases v with
    | failures fs => exact congrArg (fun fs => Stage.returned (.failures fs) time) (failures_lagless fs)
    | _ => rfl
  | _ => rfl

theorem causes_lagless : lagless.cause = id :=
  funext (cause_of_id rfl)

theorem watches_lagless (r : Run) : (lagless.run r).watches = r.watches := by
  refine (List.map_congr_left fun watch _ => ?_).trans (List.map_id r.watches)
  cases watch with
  | none => rfl
  | some told => exact congrArg (fun c => some (told.1, c)) (cause_of_id rfl told.2)

theorem event?_lagless (event : Event) : lagless.event? event = if event.isLag then none else some event := by
  cases event with
  | shuttingDown c => exact congrArg (fun c => some (Event.shuttingDown c)) (cause_of_id rfl c)
  | _ => rfl

theorem trace_lagless (r : Run) : (lagless.run r).trace = r.trace.filter (!·.isLag) := by
  refine Eq.trans (List.filterMap_congr fun event _ => ?_) (congrFun List.filterMap_eq_filter r.trace)
  rw [event?_lagless, Option.guard]
  cases event.isLag <;> rfl

/-- The same has happened in both runs, at the same times and in the same order: every call, how it ended, and all else. They
fail, shut down and return alike, and their callers and watchers see the same. Their logs are the same, but for what they tell
of services that fell behind. -/
structure SameButLag (r r' : Run) : Prop where
  history : r.history = r'.history
  failures : r.failures = r'.failures
  cause : r.cause = r'.cause
  stage : r.stage = r'.stage
  watches : r.watches = r'.watches
  snapshot : r.snapshot = r'.snapshot
  log : r.trace.filter (!·.isLag) = r'.trace.filter (!·.isLag)

theorem Abreast.eq_of_seen {α : Type} {f g : Run → α} (h : Abreast r r') (seen : ∀ r, f (lagless.run r) = g r) :
    g r = g r' := by
  rw [← seen, h.alike, seen]

theorem Abreast.same (h : Abreast r r') : SameButLag r r' where
  history := h.eq_of_seen history_lagless
  failures := h.eq_of_seen (f := Run.failures) fun r => failures_lagless r.failures
  cause := h.eq_of_seen (f := Run.cause) fun r => by
    have shown : (lagless.run r).cause = ⟨r.cause.value.map lagless.cause⟩ := rfl
    rw [shown, causes_lagless, Option.map_id_apply]
  stage := h.eq_of_seen (f := Run.stage) fun r => stage_lagless r.stage
  watches := h.eq_of_seen watches_lagless
  snapshot := h.eq_of_seen (f := snapshot) fun r => by rw [snapshot_run, view_of_id (m := lagless) rfl]
  log := h.eq_of_seen trace_lagless

/-! ### Two backlogs -/

/-- The run of a configuration with this restart backlog, in which to read a firing takes nothing from the budget. -/
def freelyReading (settings : Settings) (services : List Service) (quota : Option Nat) (backlog : Nat) : Run :=
  { initial { settings with restartBacklog := backlog } services with quota := quota, readsFreely := true }

theorem attuned_freelyReading {quota : Option Nat} {backlog : Nat} (some : quota ≠ some 0) (fits : backlog ≤ backlogLimit) :
    (freelyReading settings services quota backlog).Attuned where
  free := rfl
  limited := some
  fits := fits
  manned := List.length_map _
  placed e := by
    refine .inl ⟨rfl, ?_⟩
    by_cases he : e < settings.entries.length <;> simp [member, freelyReading, initial, he]
  bare _ := rfl

theorem abreast_freelyReading {quota : Option Nat} {backlog backlog' : Nat} (some : quota ≠ some 0)
    (fits : backlog ≤ backlogLimit) (fits' : backlog' ≤ backlogLimit) :
    Abreast (freelyReading settings services quota backlog) (freelyReading settings services quota backlog') :=
  ⟨rfl, attuned_freelyReading some fits, attuned_freelyReading some fits'⟩

/-- Of two runs that differ in nothing but backlogs that can be had, the caller gets the same answers to the same choices, and
nothing tells them apart but what the log tells of services that fell behind. There are choices for every state that can be
reached. The same is true of steps, between which all is done that can be done. -/
theorem backlog_unobservable {quota : Option Nat} {backlog backlog' : Nat} (some : quota ≠ some 0)
    (fits : backlog ≤ backlogLimit) (fits' : backlog' ≤ backlogLimit) :
    let r := freelyReading settings services quota backlog
    let r' := freelyReading settings services quota backlog'
    (∀ choices, (r.chooseAll choices).1 = (r'.chooseAll choices).1 ∧
      SameButLag (r.chooseAll choices).2 (r'.chooseAll choices).2) ∧
    (∀ reached, r.Reaches reached → ∃ choices, (r.chooseAll choices).2 = reached) ∧
    ∀ steps, (r.steps steps).1 = (r'.steps steps).1 ∧ SameButLag (r.steps steps).2 (r'.steps steps).2 := by
  intro r r'
  have start : Abreast r r' := abreast_freelyReading some fits fits'
  refine ⟨fun choices => ?_, fun reached h => exists_choices_of_reaches h, fun steps => ?_⟩
  · obtain ⟨answers, abreast⟩ := abreast_simulation.chooseAll start choices
    exact ⟨answers, abreast.same⟩
  · obtain ⟨looks, abreast⟩ := abreast_simulation.steps start steps
    refine ⟨?_, abreast.same⟩
    rw [← List.forall₂_eq_eq_eq]
    refine looks.imp fun seen seen' ⟨answer, x, x', same, look, look'⟩ => ?_
    exact Prod.ext answer (by rw [look, look', same.same.snapshot])

/-- Six restarts at once, and time enough for the slower service to answer the first. -/
def laggingChoices : List Choice :=
  .act (.command .restart 6) :: .act .run :: List.replicate 10 .turn ++ [.pass 4, .turn]

/-- Both services fall behind in the run with the smaller backlog, and none in the other. -/
theorem backlog_unobservable_lagging :
    let r := freelyReading pairSettings laggingServices (some turnQuota) 2
    let r' := freelyReading pairSettings laggingServices (some turnQuota) 16
    SameButLag (r.chooseAll laggingChoices).2 (r'.chooseAll laggingChoices).2 ∧
      (r.chooseAll laggingChoices).2.trace.countP Event.isLag = 2 ∧
      (r'.chooseAll laggingChoices).2.trace.countP Event.isLag = 0 := by
  refine ⟨((backlog_unobservable (by decide) (by decide) (by decide)).1 laggingChoices).2, ?_, ?_⟩
  · decide
  · decide

end Run

end Supervision
