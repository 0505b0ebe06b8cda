import Supervision.Proofs.Move

/-! What a task does at its turn, one act at a time. Each act is a small change of the run, and between two acts every
invariant holds, also in the middle of a turn; so an invariant is proved by a look at the acts, and never opens a
turn. `Passes` tells the states that a run comes through in this way, and whose turn it is. -/

namespace Supervision

theorem eq_false_of_imp {b c : Bool} (h : b = true → c = true) (unmet : c = false) : b = false := by
  rw [Bool.eq_false_iff] at unmet ⊢
  exact mt h unmet

def Occurrence.isNote : Occurrence → Bool
  | .noted _ _ _ _ | .answered _ _ _ _ | .learned _ _ _ => true
  | _ => false

/-- What can occur without a call beginning or ending and without the run getting any further. -/
def Occurrence.isAside : Occurrence → Bool
  | .cancelled | .released _ | .accepted _ => true
  | o => o.isNote

theorem Occurrence.isAside_of_isNote {o : Occurrence} (h : o.isNote = true) : o.isAside = true := by
  cases o <;> simp_all [isAside, isNote]

def Pause.cause? : Pause → Option Cause
  | .noting _ c _ => some c
  | _ => none

namespace Run

variable {settings : Settings} {services : List Service} {r r' r'' : Run} {t : Task} {os os' : List Occurrence}

def historyWith (r : Run) (os : List Occurrence) : List Stamped :=
  r.history ++ os.map (Stamped.mk r.now)

/-! ### Members -/

theorem member_modify {e : Nat} {f : Member → Member} (h : r'.members = r.members.modify e f)
    (he : e < r.members.length) : r'.member e = f (r.member e) := by
  simp [member, h, he]

theorem member_modify_ne {e e' : Nat} {f : Member → Member} (h : r'.members = r.members.modify e f) (ne : e' ≠ e) :
    r'.member e' = r.member e' := by
  simp [member, h, ne.symm]

theorem member_of_members (h : r'.members = r.members) (e : Nat) : r'.member e = r.member e := by
  simp only [member, h]

theorem member_of_le {e : Nat} (h : r.members.length ≤ e) :
    r.member e = { start := .ended, stop := .ended, retired := true } := by
  simp [member, List.getElem?_eq_none h]

theorem lt_of_start_ne_ended {e : Nat} (h : (r.member e).start ≠ .ended) : e < r.members.length :=
  Nat.lt_of_not_le fun absent => h (by rw [member_of_le absent])

theorem lt_of_stop_ne_ended {e : Nat} (h : (r.member e).stop ≠ .ended) : e < r.members.length :=
  Nat.lt_of_not_le fun absent => h (by rw [member_of_le absent])

theorem lt_of_restarting {e : Nat} (h : (r.member e).restarting ≠ none) : e < r.members.length :=
  Nat.lt_of_not_le fun absent => h (by rw [member_of_le absent])

theorem lt_of_owed {e : Nat} (h : (r.member e).owed ≠ 0) : e < r.members.length :=
  Nat.lt_of_not_le fun absent => h (by rw [member_of_le absent])

theorem members_endStart (r : Run) (e : Nat) (o : Outcome) :
    (r.endStart e o).members = r.members.modify e fun m => { m with start := .ended } := by
  simp only [endStart, wake, update, report, markEnd, mark]

theorem members_endRestart (r : Run) (e : Nat) (o : Outcome) :
    (r.endRestart e o).members = r.members.modify e fun m => { m with restarting := none } := by
  simp only [endRestart, update, report, markEnd, mark]

theorem members_endStop (r : Run) (e : Nat) (o : Outcome) :
    (r.endStop e o).members = r.members.modify e fun m => { m with stop := .ended } := by
  simp only [endStop, wake, update, report, markEnd, mark]

theorem members_takeFirings (r : Run) (e n : Nat) (b : Broadcast) :
    (r.takeFirings e n b).members = r.members.modify e fun m => { m with owed := n } := by
  simp only [takeFirings, update]

/-! ### Asides -/

/-- What calls and callers alike can do. -/
inductive Effect : List Occurrence → Run → Run → Prop
  | cancel (r : Run) :
      Effect [.cancelled] r (wake { r with cancelled := true, history := r.historyWith [.cancelled] })
  | release (r : Run) (s : Nat) :
      Effect [.released s] r (wake { r with released := s :: r.released, history := r.historyWith [.released s] })
  | send {r : Run} (held : r.handleHeld = true) (accepts : r.commandsClosed = false) (c : Command) :
      Effect [.accepted c] r (wake { r with commands := r.commands ++ [c], history := r.historyWith [.accepted c] })

/-- What a call notes is so. It learns the cause that it knew when it paused. -/
def Tells (r : Run) : Occurrence → Prop
  | .learned e phase c => ∃ p, r.pause? (.ofCall e phase) = some p ∧ p.cause? = some c
  | .noted _ _ _ view => view = r.view
  | _ => True

inductive Aside (t : Task) : List Occurrence → Run → Run → Prop
  | effect {os : List Occurrence} {r r' : Run} (h : Effect os r r') : Aside t os r r'
  | note {r : Run} (o : Occurrence) (h : o.isNote = true) (tells : r.Tells o) :
      Aside t [o] r { r with history := r.historyWith [o] }
  | lend {r : Run} (held : r.handleHeld = true) : Aside t [] r { r with lent := r.lent + 1 }
  | spend (r : Run) : Aside t [] r { r with budget := r.budget.map (· - 1) }
  | defer (r : Run) : Aside t [] r { r with deferred := t :: r.deferred }

/-- Everything that an aside leaves as it is. -/
structure Spares (r r' : Run) : Prop where
  settings : r'.settings = r.settings
  services : r'.services = r.services
  quota : r'.quota = r.quota
  readsFreely : r'.readsFreely = r.readsFreely
  now : r'.now = r.now
  stage : r'.stage = r.stage
  cause : r'.cause = r.cause
  exit : r'.exit = r.exit
  shutdownInbox : r'.shutdownInbox = r.shutdownInbox
  restartInbox : r'.restartInbox = r.restartInbox
  commandsClosed : r'.commandsClosed = r.commandsClosed
  handleHeld : r'.handleHeld = r.handleHeld
  restarts : r'.restarts = r.restarts
  members : r'.members = r.members
  failures : r'.failures = r.failures
  watches : r'.watches = r.watches

theorem Spares.refl (r : Run) : Spares r r :=
  ⟨rfl, rfl, rfl, rfl, rfl, rfl, rfl, rfl, rfl, rfl, rfl, rfl, rfl, rfl, rfl, rfl⟩

theorem Spares.trans (h : Spares r r') (h' : Spares r' r'') : Spares r r'' :=
  ⟨h'.settings.trans h.settings, h'.services.trans h.services, h'.quota.trans h.quota,
    h'.readsFreely.trans h.readsFreely, h'.now.trans h.now,
    h'.stage.trans h.stage, h'.cause.trans h.cause, h'.exit.trans h.exit, h'.shutdownInbox.trans h.shutdownInbox,
    h'.restartInbox.trans h.restartInbox, h'.commandsClosed.trans h.commandsClosed, h'.handleHeld.trans h.handleHeld,
    h'.restarts.trans h.restarts, h'.members.trans h.members, h'.failures.trans h.failures, h'.watches.trans h.watches⟩

theorem spares_wake (r : Run) : Spares r r.wake := by
  unfold wake
  exact ⟨rfl, rfl, rfl, rfl, rfl, rfl, rfl, rfl, rfl, rfl, rfl, rfl, rfl, rfl, rfl, rfl⟩

theorem Effect.spares (h : Effect os r r') : Spares r r' := by
  cases h <;>
    refine .trans ?_ (spares_wake _) <;>
    exact ⟨rfl, rfl, rfl, rfl, rfl, rfl, rfl, rfl, rfl, rfl, rfl, rfl, rfl, rfl, rfl, rfl⟩

theorem Aside.spares (h : Aside t os r r') : Spares r r' := by
  cases h with
  | effect h => exact h.spares
  | _ => exact ⟨rfl, rfl, rfl, rfl, rfl, rfl, rfl, rfl, rfl, rfl, rfl, rfl, rfl, rfl, rfl, rfl⟩

theorem Aside.isAside (h : Aside t os r r') : ∀ o ∈ os, o.isAside = true := by
  cases h with
  | effect h => cases h <;> simp [Occurrence.isAside]
  | note o h => simpa using Occurrence.isAside_of_isNote h
  | lend | spend | defer => simp

/-! ### Acts -/

/-- A reason to shut down, and the run with the reason taken from where it waited. -/
inductive Reason : List Occurrence → Cause → Run → Run → Prop
  | cancelled {r : Run} (h : r.cancelled = true) : Reason [] .cancelled r r
  | exited {r : Run} {name : String} (h : r.cancelled = false) (exit : r.exit.value = some name) :
      Reason [] (.exited name) r r
  | signal {r : Run} {n : Int} {rest : List Int} (h : r.shutdownInbox.queue = n :: rest) :
      Reason [] (.signal n) r { r with shutdownInbox := { r.shutdownInbox with queue := rest } }
  | requested {r : Run} {rest : List Command} (h : r.commands = .shutdown :: rest) :
      Reason [.obeyed .shutdown] .requested r { r with commands := rest, history := r.historyWith [.obeyed .shutdown] }

/-- What a call may wait for at the end of the turn of `t`: what it waited for before, or what tells no other cause than
that of the run. -/
def MayAwait (r : Run) (t : Task) (p : Pause) : Prop :=
  r.pause? t = some p ∨ ∀ c, p.cause? = some c → r.cause.value = some c

/-- The business of a task at its turn, and what occurs at it. -/
inductive Act : Task → List Occurrence → Run → Run → Prop
  | aside {t : Task} {os : List Occurrence} {r r' : Run} (h : Aside t os r r') : Act t os r r'
  -- start calls
  | beginStart {r : Run} {e : Nat} (h : (r.member e).start = .unbegun) :
      Act (.start e) [.began e .start] r { r with
        members := r.members.modify e fun m => { m with start := .ongoing .never }
        history := r.historyWith [.began e .start]
        trace := r.trace ++ [.starting (r.nameOf e)] }
  | pauseStart {r : Run} {e : Nat} {p p' : Pause} (h : (r.member e).start = .ongoing p) (may : r.MayAwait (.start e) p') :
      Act (.start e) [] r { r with members := r.members.modify e fun m => { m with start := .ongoing p' } }
  | endStart {r : Run} {e : Nat} {p : Pause} (h : (r.member e).start = .ongoing p) (o : Outcome) :
      Act (.start e) [.ended e .start o r.cancelled] r (r.endStart e o)
  -- restart calls
  | takeFirings {r : Run} {e n : Nat} {b : Broadcast} (idle : (r.member e).restarting = none)
      (none : (r.member e).owed = 0) (h : r.restarts.next e = (.firings n, b)) :
      Act (.restart e) [] r (r.takeFirings e n b)
  | retire {r : Run} {e : Nat} {b : Broadcast} (idle : (r.member e).restarting = none)
      (none : (r.member e).owed = 0) (h : r.restarts.next e = (.closed, b)) :
      Act (.restart e) [] r { r with members := r.members.modify e fun m => { m with retired := true } }
  | beginRestart {r : Run} {e : Nat} (idle : (r.member e).restarting = none) (h : (r.member e).owed ≠ 0) :
      Act (.restart e) [.began e .restart] r { r with
        members := r.members.modify e fun m =>
          { m with owed := m.owed - 1, restarts := m.restarts + 1, restarting := some .never }
        history := r.historyWith [.began e .restart]
        trace := r.trace ++ [.restarting (r.nameOf e)] }
  | pauseRestart {r : Run} {e : Nat} {p p' : Pause} (h : (r.member e).restarting = some p) (may : r.MayAwait (.restart e) p') :
      Act (.restart e) [] r { r with members := r.members.modify e fun m => { m with restarting := some p' } }
  | endRestart {r : Run} {e : Nat} {p : Pause} (h : (r.member e).restarting = some p) (o : Outcome) :
      Act (.restart e) [.ended e .restart o r.cancelled] r (r.endRestart e o)
  -- stop calls
  | awaitStop {r : Run} {e : Nat} (h : (r.member e).stop = .unbegun) (unfired : r.cause.isFired = false) :
      Act (.stop e) [] r { r with members := r.members.modify e fun m => { m with stopAwaited := true } }
  | beginStop {r : Run} {e : Nat} (h : (r.member e).stop = .unbegun) (fired : r.cause.isFired = true) :
      Act (.stop e) [.began e .stop] r { r with
        members := r.members.modify e fun m => { m with stop := .ongoing .never }
        history := r.historyWith [.began e .stop]
        trace := r.trace ++ [.stopping (r.nameOf e)] }
  | pauseStop {r : Run} {e : Nat} {p p' : Pause} (h : (r.member e).stop = .ongoing p) (may : r.MayAwait (.stop e) p') :
      Act (.stop e) [] r { r with members := r.members.modify e fun m => { m with stop := .ongoing p' } }
  | endStop {r : Run} {e : Nat} {p : Pause} (h : (r.member e).stop = .ongoing p) (o : Outcome) :
      Act (.stop e) [.ended e .stop o r.cancelled] r (r.endStop e o)
  -- watchers and signals
  | learn {r : Run} {w : Nat} {c : Cause} (h : r.cause.value = some c) :
      Act (.watch w) [] r { r with watches := r.watches.set w (some (r.now, c)) }
  | deliver {r : Run} {n : Int} (h : r.stage.hearsSignals = true) : Act (.signal n) [.raised n] r (r.deliver n)
  | miss {r : Run} {n : Int} (h : r.stage.hearsSignals = false) :
      Act (.signal n) [.raised n] r { r with history := r.historyWith [.raised n] }
  -- the supervising task
  | fail {r : Run} {f : SetupFault} (h : r.stage = .spawned) (lacks : acquire r.settings = .error f) :
      Act .supervise [.returned] r (r.fail f)
  | equip {r : Run} {shutdown restart : Inbox} {b : Broadcast} (h : r.stage = .spawned)
      (has : acquire r.settings = .ok (shutdown, restart, b)) :
      Act .supervise [.setUp] r (r.equip shutdown restart b)
  | pass {r : Run} {round : Round} (h : r.stage = .running round) (round' : Round)
      (same : round'.listening = round.listening) : Act .supervise [] r { r with stage := .running round' }
  | stopListening {r : Run} {round : Round} (h : r.stage = .running round) (empty : r.commands = [])
      (orphaned : r.orphaned = true) :
      Act .supervise [] r { r with stage := .running { round.next with listening := false } }
  | receive {r : Run} {round : Round} {n : Int} {rest : List Int} (h : r.stage = .running round)
      (queue : r.restartInbox.queue = n :: rest) :
      Act .supervise [.received n, .fired] r (wake { r with
        restartInbox := { r.restartInbox with queue := rest }
        restarts := r.restarts.fire
        history := r.historyWith [.received n, .fired]
        trace := r.trace ++ [.restartSignal n] })
  | obey {r : Run} {round : Round} {rest : List Command} (h : r.stage = .running round)
      (queue : r.commands = .restart :: rest) :
      Act .supervise [.obeyed .restart, .fired] r (wake { r with
        commands := rest
        restarts := r.restarts.fire
        history := r.historyWith [.obeyed .restart, .fired]
        trace := r.trace ++ [.restartRequested] })
  | shutDown {r r' : Run} {round : Round} {os : List Occurrence} {c : Cause} (h : r.stage = .running round)
      (reason : Reason os c r r') : Act .supervise (os ++ [.shutDown c]) r (r'.announce c)
  | leave {r : Run} (h : r.stage = .stopping) (stopped : r.allStopped = true) :
      Act .supervise [] r { r with stage := .leaving r.graceEnd? }
  | finish {r : Run} {deadline : Option Nat} (h : r.stage = .leaving deadline) (exited : r.allExited = true) :
      Act .supervise [.returned] r r.finish
  | expire {r : Run} {d : Nat} (h : r.stage = .leaving (some d)) (left : r.allExited = false) (due : d ≤ r.now) :
      Act .supervise [.returned] r (r.log (.graceExpired r.stillRunning)).finish

theorem stage_announce (r : Run) (c : Cause) : (r.announce c).stage = .stopping := by
  simp only [announce, log, wake]

def Acts (t : Task) : Run → Run → Prop :=
  Relation.ReflTransGen fun r r' => ∃ os, Act t os r r'

/-! ### States passed -/

/-- What happens between two turns. -/
inductive Outside : List Occurrence → Run → Run → Prop
  | effect {os : List Occurrence} {r r' : Run} (h : Effect os r r') : Outside os r r'
  | dropHandle (r : Run) : Outside [] r r.dropHandle
  | newHandle {r : Run} (h : r.stage = .idle) : Outside [] r { r with handleHeld := true }
  | watch {r : Run} (held : r.handleHeld = true) : Outside [] r { r with
      lent := r.lent + 1
      watches := r.watches ++ [none]
      ready := r.ready ++ [.watch r.watches.length] }
  | run {r : Run} (h : r.stage = .idle) : Outside [] r { r with stage := .spawned, ready := r.ready ++ [.supervise] }
  | signal (r : Run) (n : Int) : Outside [] r { r with ready := r.ready ++ [.signal n] }
  | takeUp (r : Run) : Outside [] r r.takeUp
  | pass {r : Run} {time : Nat} (settled : r.isSettled = true) (later : r.now ≤ time)
      (inTime : ∀ d, r.nextDeadline? = some d → time ≤ d) : Outside [] r (wake { r with now := time })

/-- Where in its work a task may park: the supervising task not before it has tried to set the run up, a start task not
before its call has begun, and a restart task not between two calls while it owes one. -/
@[simp] def MayPark (r : Run) : Task → Prop
  | .supervise => r.stage ≠ .spawned
  | .start e => (r.member e).start ≠ .unbegun
  | .restart e => (r.member e).restarting = none → (r.member e).owed = 0
  | _ => True

/-- The states that a run comes through, each with the task whose turn it is. A turn may have any budget but none at
all. -/
inductive Passes (settings : Settings) (services : List Service) : Option Task → Run → Prop
  | initial (quota : Option Nat) (h : quota ≠ some 0) :
      Passes settings services none { initial settings services with quota := quota }
  | outside {os : List Occurrence} {r r' : Run} (before : Passes settings services none r) (h : Outside os r r') :
      Passes settings services none r'
  | turn {r : Run} {t : Task} {rest : List Task} (before : Passes settings services none r) (h : r.ready = t :: rest) :
      Passes settings services (some t) { r with ready := rest, budget := r.quota, deferred := r.deferred.erase t }
  | act {os : List Occurrence} {r r' : Run} {t : Task} (before : Passes settings services (some t) r)
      (h : Act t os r r') : Passes settings services (some t) r'
  | finished {r : Run} {t : Task} (before : Passes settings services (some t) r) (h : r.isOver t = true) :
      Passes settings services none r
  | park {r : Run} {t : Task} {kept : Option Nat} (before : Passes settings services (some t) r)
      (h : r.isOver t = false) (waits : r.canGoOn t = false) (may : r.MayPark t) :
      Passes settings services none (r.park t kept)

theorem Passes.acts (before : Passes settings services (some t) r) (h : Acts t r r') :
    Passes settings services (some t) r' := by
  induction h with
  | refl => exact before
  | tail _ act ih =>
    obtain ⟨os, act⟩ := act
    exact ih.act act

/-! ### What stays -/

/-- What stays the same from the beginning of a turn to its end. -/
structure Steady (r r' : Run) : Prop where
  settings : r'.settings = r.settings
  services : r'.services = r.services
  quota : r'.quota = r.quota
  readsFreely : r'.readsFreely = r.readsFreely
  now : r'.now = r.now
  handleHeld : r'.handleHeld = r.handleHeld
  watchers : r'.watches.length = r.watches.length

theorem Spares.steady (h : Spares r r') : Steady r r' :=
  ⟨h.settings, h.services, h.quota, h.readsFreely, h.now, h.handleHeld, congrArg List.length h.watches⟩

theorem Reason.steady {c : Cause} (h : Reason os c r r') : Steady r r' := by
  cases h <;> exact ⟨rfl, rfl, rfl, rfl, rfl, rfl, rfl⟩

theorem Steady.trans (h : Steady r r') (h' : Steady r' r'') : Steady r r'' :=
  ⟨h'.settings.trans h.settings, h'.services.trans h.services, h'.quota.trans h.quota,
    h'.readsFreely.trans h.readsFreely, h'.now.trans h.now, h'.handleHeld.trans h.handleHeld,
    h'.watchers.trans h.watchers⟩

theorem Act.steady (h : Act t os r r') : Steady r r' := by
  cases h with
  | aside h => exact h.spares.steady
  | endStart | endStop | deliver | receive | obey | finish | expire =>
    simp only [Run.endStart, Run.endStop, Run.deliver, Run.finish, giveVerdict, markEnd, report, update, mark, log, wake]
    exact ⟨rfl, rfl, rfl, rfl, rfl, rfl, rfl⟩
  | endRestart | takeFirings | fail | equip =>
    simp only [Run.endRestart, Run.takeFirings, Run.fail, Run.equip, giveVerdict, markEnd, report, update, mark, log,
      spawn]
    exact ⟨rfl, rfl, rfl, rfl, rfl, rfl, rfl⟩
  | learn => exact ⟨rfl, rfl, rfl, rfl, rfl, rfl, List.length_set⟩
  | shutDown _ reason =>
    refine reason.steady.trans ?_
    simp only [announce, mark, log, wake]
    exact ⟨rfl, rfl, rfl, rfl, rfl, rfl, rfl⟩
  | _ => exact ⟨rfl, rfl, rfl, rfl, rfl, rfl, rfl⟩

theorem Acts.steady (h : Acts t r r') : Steady r r' := by
  induction h with
  | refl => exact ⟨rfl, rfl, rfl, rfl, rfl, rfl, rfl⟩
  | tail _ act ih =>
    obtain ⟨os, act⟩ := act
    exact ih.trans act.steady

structure Keeps (r r' : Run) : Prop where
  settings : r'.settings = r.settings
  services : r'.services = r.services
  quota : r'.quota = r.quota
  readsFreely : r'.readsFreely = r.readsFreely
  cause : r'.cause = r.cause
  exit : r'.exit = r.exit
  shutdownInbox : r'.shutdownInbox = r.shutdownInbox
  restartInbox : r'.restartInbox = r.restartInbox
  commandsClosed : r'.commandsClosed = r.commandsClosed
  restarts : r'.restarts = r.restarts
  members : r'.members = r.members
  failures : r'.failures = r.failures

theorem Outside.keeps (h : Outside os r r') : Keeps r r' := by
  cases h with
  | effect h =>
    have same := h.spares
    exact ⟨same.settings, same.services, same.quota, same.readsFreely, same.cause, same.exit, same.shutdownInbox,
      same.restartInbox, same.commandsClosed, same.restarts, same.members, same.failures⟩
  | dropHandle | pass =>
    simp only [Run.dropHandle, wake]
    exact ⟨rfl, rfl, rfl, rfl, rfl, rfl, rfl, rfl, rfl, rfl, rfl, rfl⟩
  | _ => exact ⟨rfl, rfl, rfl, rfl, rfl, rfl, rfl, rfl, rfl, rfl, rfl, rfl⟩

end Run

end Supervision
