import Supervision.Proofs.Firings
import Supervision.Proofs.Lifecycle

/-! Restarts fan out to every entry. A firing is one more for each entry to read; what an entry reads it owes, and a
restart call pays for one of the firings owed. So every firing is accounted for at every entry, however far behind it
is and however the calls go, and an entry that waits for more has been restarted once for each. -/

namespace Supervision

def Member.told (m : Member) : Nat :=
  m.restarts + m.owed

namespace Run

variable {settings : Settings} {services : List Service} {r r' : Run} {t : Task} {cur : Option Task} {e : Nat}
  {os : List Occurrence}

/-! ### The account of one entry -/

/-- Entry `e` was told of the firings that it has not still to read, and it is there to read them from when the run was
set up. -/
structure Fanned (r : Run) (e : Nat) : Prop where
  accounted : r.happened.count .fired = (r.member e).told + r.restarts.unread e
  registered : .setUp ∈ r.happened → r.restarts.Registers e
  unused : .setUp ∉ r.happened → r.restarts.unread e = 0

theorem not_fired_of_isAside {o : Occurrence} (h : o.isAside = true) : o ≠ .fired ∧ o ≠ .setUp := by
  constructor <;> rintro rfl <;> cases h

theorem Fanned.same (h : r.Fanned e) (happened : r'.happened = r.happened ++ os) (quiet : ∀ o ∈ os, o ≠ .fired ∧ o ≠ .setUp)
    (restarts : r'.restarts = r.restarts) (told : (r'.member e).told = (r.member e).told) : r'.Fanned e := by
  have noFiring : os.count .fired = 0 := List.count_eq_zero.mpr fun mem => (quiet _ mem).1 rfl
  have setUp : .setUp ∈ r'.happened ↔ .setUp ∈ r.happened := by
    rw [happened, List.mem_append]
    exact or_iff_left fun mem => (quiet _ mem).2 rfl
  constructor
  · rw [happened, List.count_append, noFiring, Nat.add_zero, told, restarts]
    exact h.accounted
  · rw [setUp, restarts]
    exact h.registered
  · rw [setUp, restarts]
    exact h.unused

theorem told_of_modify {e' : Nat} {f : Member → Member} (h : r'.members = r.members.modify e' f)
    (keeps : (f (r.member e')).told = (r.member e').told) (e : Nat) : (r'.member e).told = (r.member e).told := by
  by_cases other : e = e'
  · subst other
    by_cases he : e < r.members.length
    · rw [member_modify h he, keeps]
    · rw [member_of_le (by simpa [h] using he), member_of_le (Nat.not_lt.mp he)]
  · rw [member_modify_ne h other]

theorem Fanned.takeFirings {e' n : Nat} {b : Broadcast} (h : r.Fanned e) (setUp : .setUp ∈ r.happened)
    (he : e < r.members.length) (none : (r.member e').owed = 0) (next : r.restarts.next e' = (.firings n, b)) :
    (r.takeFirings e' n b).Fanned e := by
  have members := r.members_takeFirings e' n b
  refine ⟨?_, fun _ => (h.registered setUp).next next, fun fresh => absurd setUp fresh⟩
  show r.happened.count .fired = _ + b.unread e
  rw [h.accounted]
  by_cases other : e = e'
  · subst other
    have told : ((r.takeFirings e n b).member e).told = (r.member e).told + n := by
      rw [member_modify members he, Member.told, Member.told, none, Nat.add_zero]
    have account := r.restarts.told_add_unread_next e
    rw [next] at account
    simp only [Reading.told] at account
    omega
  · obtain ⟨-, -, rfl⟩ := Broadcast.next_firings next
    rw [Broadcast.unread_moveReader_ne _ other, Member.told, member_modify_ne members other, Member.told]

theorem Fanned.fire {o : Occurrence} (h : r.Fanned e) (setUp : .setUp ∈ r.happened)
    (happened : r'.happened = r.happened ++ [o, .fired]) (other : o ≠ .fired) (restarts : r'.restarts = r.restarts.fire)
    (members : r'.members = r.members) : r'.Fanned e := by
  have registered := h.registered setUp
  refine ⟨?_, fun _ => restarts ▸ registered.fire, fun fresh => absurd (happened ▸ List.mem_append_left _ setUp) fresh⟩
  have one : [o, .fired].count Occurrence.fired = 1 := by simp [other]
  rw [happened, List.count_append, one, h.accounted, member_of_members members, restarts, registered.unread_fire]
  omega

theorem Fanned.equip {shutdown restart : Inbox} {b : Broadcast} (h : r.Fanned e) (fresh : .setUp ∉ r.happened)
    (he : e < r.settings.entries.length) (has : acquire r.settings = .ok (shutdown, restart, b)) :
    (r.equip shutdown restart b).Fanned e := by
  obtain ⟨-, -, -, readers⟩ := acquire_ok has
  obtain ⟨registered, unread⟩ :=
    Broadcast.registers_foldl_subscribe (b := .withBacklog r.settings.restartBacklog) rfl he
  rw [← readers] at registered unread
  refine ⟨?_, fun _ => registered, fun _ => unread⟩
  have happened : (r.equip shutdown restart b).happened = r.happened ++ [.setUp] := happened_of_history rfl
  have account := h.accounted
  rw [h.unused fresh] at account
  rw [happened, List.count_append, account, show (r.equip shutdown restart b).restarts.unread e = 0 from unread]
  rfl

theorem Act.fanned (before : Passes settings services (some t) r) (h : Act t os r r') (he : e < settings.entries.length)
    (ih : r.Fanned e) : r'.Fanned e := by
  have he' : e < r.members.length := before.members_length.symm ▸ he
  have happened := h.happened
  cases h with
  | aside h =>
    exact ih.same happened (fun o ho => not_fired_of_isAside (h.isAside o ho)) h.spares.restarts
      (congrArg Member.told (member_of_members h.spares.members e))
  | takeFirings _ none next => exact ih.takeFirings (before.registered .restart).1 he' none next
  | beginRestart idle owes =>
    refine ih.same happened (by simp) rfl (told_of_modify rfl ?_ e)
    simp only [Member.told]
    omega
  | beginStart | pauseStart | retire | pauseRestart | awaitStop | beginStop | pauseStop =>
    exact ih.same happened (by simp) rfl (told_of_modify rfl rfl e)
  | endStart _ o => exact ih.same happened (by simp) rfl (told_of_modify (r.members_endStart _ o) rfl e)
  | endRestart _ o => exact ih.same happened (by simp) rfl (told_of_modify (r.members_endRestart _ o) rfl e)
  | endStop _ o => exact ih.same happened (by simp) rfl (told_of_modify (r.members_endStop _ o) rfl e)
  | receive running | obey running =>
    have setUp : .setUp ∈ r.happened := before.isSetUp_iff.mp (by rw [running]; rfl)
    exact ih.fire setUp happened (by simp) rfl rfl
  | equip spawned has =>
    exact ih.equip (before.not_setUp (by rw [spawned]; rfl)) (before.settings_eq.symm ▸ he) has
  | finish | expire =>
    -- to close the broadcast takes nothing from what can be read
    have returned : ({ r with history := r.historyWith [.returned] } : Run).Fanned e := ih.same happened (by simp) rfl rfl
    exact ⟨returned.accounted, returned.registered, returned.unused⟩
  | shutDown _ reason =>
    refine ih.same happened ?_ ?_ (congrArg Member.told (member_of_members ?_ e))
    · cases reason <;> simp
    · cases reason <;> rfl
    · cases reason <;> rfl
  | learn | deliver | miss | fail | pass | stopListening | leave => exact ih.same happened (by simp) rfl rfl

theorem Passes.fanned (h : Passes settings services cur r) (he : e < settings.entries.length) : r.Fanned e := by
  refine h.invariant (P := fun r => r.Fanned e) ?_ ?_ ?_ fun before h ih => h.fanned before he ih
  · intro quota
    constructor
    · simp [Run.happened, Run.initial, Run.member, he, Member.told, Broadcast.unread, Broadcast.position?,
        Broadcast.withBacklog]
    · exact fun setUp => absurd setUp List.not_mem_nil
    · intro _
      rfl
  · exact fun _ _ _ _ _ ih => ⟨ih.accounted, ih.registered, ih.unused⟩
  · intro os r r' _ h ih
    exact ih.same h.happened (fun o ho => not_fired_of_isAside (h.isAside o ho)) h.keeps.restarts
      (congrArg Member.told (member_of_members h.keeps.members e))

/-! ### When a firing is made -/

theorem Act.stage_of_fired (h : Act t os r r') (fired : .fired ∈ os) :
    (∃ round, r.stage = .running round) ∧ ∀ o ∈ os, o.isMilestone = false := by
  cases h with
  | receive running | obey running => exact ⟨⟨_, running⟩, by simp [Occurrence.isMilestone]⟩
  | aside h => exact absurd rfl (not_fired_of_isAside (h.isAside _ fired)).1
  | shutDown _ reason => cases reason <;> simp at fired
  | _ => simp at fired

theorem Passes.fires_inTime (h : Passes settings services cur r) :
    Throughout (fun earlier o => o = .fired → .setUp ∈ earlier ∧ ∀ c, .shutDown c ∉ earlier) r.happened := by
  refine h.invariant (P := fun r => Throughout _ r.happened) ?_ (fun _ _ _ _ _ ih => ih) ?_ ?_
  · intro quota earlier o later split
    simp [Run.happened, Run.initial] at split
  · intro os r r' _ h ih
    rw [h.happened]
    refine ih.append fun earlier o later split fired => ?_
    exact absurd fired (not_fired_of_isAside (h.isAside o (split ▸ by simp))).1
  · intro t os r r' before h ih
    rw [h.happened]
    refine ih.append fun earlier o later split fired => ?_
    obtain ⟨⟨round, running⟩, quiet⟩ := h.stage_of_fired (split ▸ fired ▸ by simp)
    refine ⟨List.mem_append_left _ (before.isSetUp_iff.mp (by rw [running]; rfl)), fun c mem => ?_⟩
    rcases List.mem_append.mp mem with old | now
    · exact before.not_shutDown (by rw [running]; rfl) c old
    · have milestone := quiet _ (split ▸ List.mem_append_left _ now)
      cases milestone

/-! ### Waiting for more -/

/-- The restart task of an entry waits for a firing: it has parked with no call in progress, and it was not put off. -/
structure AwaitsFiring (r : Run) (e : Nat) : Prop where
  parked : .restart e ∈ r.parked
  undeferred : .restart e ∉ r.deferred
  idle : (r.member e).restarting = none

theorem Passes.owes_nothing (h : Passes settings services cur r) (he : e < settings.entries.length)
    (other : cur ≠ some (.restart e)) (idle : (r.member e).restarting = none) : (r.member e).owed = 0 := by
  induction h with
  | initial => simp [Run.member, Run.initial, he]
  | outside _ h ih =>
    rw [member_of_members h.keeps.members] at idle ⊢
    exact ih (by simp) idle
  | turn _ _ ih => exact ih (by simp) idle
  | act _ h ih =>
    obtain ⟨restarting, owed, -⟩ := h.others_restart fun same => other (congrArg some same)
    rw [owed]
    exact ih other (restarting ▸ idle)
  | @finished r t before finished ih =>
    by_cases own : t = .restart e
    · subst own
      exact (before.retired he finished).answered
    · exact ih (fun same => own (Option.some.inj same)) idle
  | @park r t _ before _ _ may ih =>
    by_cases own : t = .restart e
    · subst own
      exact may idle
    · exact ih (fun same => own (Option.some.inj same)) idle

theorem Passes.read_all (h : Passes settings services none r) (he : e < settings.entries.length)
    (awaits : r.AwaitsFiring e) : r.restarts.unread e = 0 := by
  rcases h.waits awaits.parked (by simp) with finished | still
  · exact (h.retired he finished).read
  · rw [canGoOn, if_neg awaits.undeferred, isDue, awaits.idle] at still
    simp only [Broadcast.hasNews, Bool.or_eq_false_iff] at still
    simpa using still.2

/-- Whatever an entry has been restarted for and whatever it has yet to be restarted for add up to the firings of the
run, none of which was made after the shutdown. So an entry that waits for a firing has been restarted once for each,
and all that wait have been restarted equally often. -/
theorem restarted_once_per_firing (h : (initial settings services).Reaches r) :
    (∀ e < settings.entries.length, r.happened.count .fired =
      begunCalls r.happened e .restart + (r.member e).owed + r.restarts.unread e) ∧
    (∀ earlier later, r.happened = earlier ++ .fired :: later → .setUp ∈ earlier ∧ ∀ c, .shutDown c ∉ earlier) ∧
    (∀ e < settings.entries.length, r.AwaitsFiring e →
      begunCalls r.happened e .restart = r.happened.count .fired) ∧
    ∀ e < settings.entries.length, ∀ e' < settings.entries.length, r.AwaitsFiring e → r.AwaitsFiring e' →
      begunCalls r.happened e .restart = begunCalls r.happened e' .restart := by
  have passes := Passes.of_reaches h
  have accounted : ∀ e < settings.entries.length, r.happened.count .fired =
      begunCalls r.happened e .restart + (r.member e).owed + r.restarts.unread e := by
    intro e he
    rw [(passes.fanned he).accounted, (passes.tally he).begun]
    rfl
  have once : ∀ e < settings.entries.length, r.AwaitsFiring e →
      begunCalls r.happened e .restart = r.happened.count .fired := by
    intro e he awaits
    rw [accounted e he, passes.owes_nothing he (by simp) awaits.idle, passes.read_all he awaits]
    rfl
  refine ⟨accounted, fun earlier later split => passes.fires_inTime earlier _ later split rfl, once, ?_⟩
  intro e he e' he' awaits awaits'
  rw [once e he awaits, once e' he' awaits']

def laggingSettings : Settings :=
  { pairSettings with restartBacklog := 2 }

def laggingServices : List Service :=
  [{ start := .awaitCancel .done, restarts := [.sleep 4 .done], stop := .done }, { start := .awaitCancel .done, stop := .done }]

/-- The pair after six restart commands that had been sent before it was run. -/
def laggingRun : Run :=
  (((initial laggingSettings laggingServices).perform (.command .restart 6)).2.perform .run).2.serve 20

theorem reaches_laggingRun : (initial laggingSettings laggingServices).Reaches laggingRun :=
  ((Reaches.rfl.act (.command .restart 6) rfl).act .run rfl).serve 20

/-- The second service was restarted for each of the six firings. The first is in its first restart call, owes three
more of the four firings that it had missed, and has still to read two. -/
theorem restarted_once_per_firing_lagging :
    begunCalls laggingRun.happened 1 .restart = 6 ∧ (laggingRun.member 0).owed = 3 ∧ laggingRun.restarts.unread 0 = 2 ∧
      begunCalls laggingRun.happened 0 .restart = 1 := by
  obtain ⟨accounted, -, once, -⟩ := restarted_once_per_firing reaches_laggingRun
  have six : laggingRun.happened.count .fired = 6 := by decide
  have owed : (laggingRun.member 0).owed = 3 := by decide
  have unread : laggingRun.restarts.unread 0 = 2 := by decide
  have first := accounted 0 (by decide)
  rw [six, owed, unread] at first
  refine ⟨(once 1 (by decide) ⟨by decide, by decide, by decide⟩).trans six, owed, unread, ?_⟩
  omega

end Run

end Supervision
