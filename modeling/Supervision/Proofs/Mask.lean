import Supervision.Proofs.Calls

/-! A mask hides something of a run: the names of its services behind labels, and, if so wished, how calls end, and how far
busy entries lag behind the firings. What a run does next is not among what a mask hides, so a masked run does behind the
mask whatever the run itself does. Here it is shown of all that the tasks are made of; each function of a run is taken
through the mask by one equation. -/

namespace Supervision

/-- Names are seen as their labels, how calls end is seen only if `ends`, and how far entries lag only if `lags`. -/
structure Mask where
  label : String → String := id
  ends : Bool := true
  lags : Bool := true

namespace Mask

variable (m : Mask)

/-- Shows that calls end, and not how. -/
def blind : Mask :=
  { ends := false }

/-- Shows everything but how far entries lag. -/
def lagless : Mask :=
  { lags := false }

/-! ### What is seen -/

def outcome (o : Outcome) : Outcome :=
  if m.ends then o else .done

def behaviour : Behaviour → Behaviour
  | .done => .done
  | .fail e => if m.ends then .fail e else .done
  | .panic p => if m.ends then .panic p else .done
  | .never => .never
  | .sleep ms next => .sleep ms (behaviour next)
  | .awaitRelease next => .awaitRelease (behaviour next)
  | .awaitReleaseFor ms next => .awaitReleaseFor ms (behaviour next)
  | .awaitCancel next => .awaitCancel (behaviour next)
  | .awaitCause next => .awaitCause (behaviour next)
  | .release service next => .release service (behaviour next)
  | .cancel next => .cancel (behaviour next)
  | .command c next => .command c (behaviour next)
  | .note next => .note (behaviour next)
  | .ifCancelled yes no => .ifCancelled (behaviour yes) (behaviour no)

open Classical in
/-- A list of restart calls that goes on like `f`. Which list that is depends on `f` alone. -/
noncomputable def restarts (f : Nat → Behaviour) : List Behaviour :=
  if h : ∃ n, ∀ k, f (min k n) = f k then (List.range (h.choose + 1)).map f else []

noncomputable def service (s : Service) : Service where
  start := m.behaviour s.start
  restarts := restarts fun k => m.behaviour (s.restart k)
  stop := m.behaviour s.stop

def cause : Cause → Cause
  | .exited service => .exited (m.label service)
  | c => c

def pause : Pause → Pause
  | .never => .never
  | .until deadline next => .until deadline (m.behaviour next)
  | .release next => .release (m.behaviour next)
  | .releaseUntil deadline next => .releaseUntil deadline (m.behaviour next)
  | .cancel next => .cancel (m.behaviour next)
  | .cause next => .cause (m.behaviour next)
  | .noting deadline c next => .noting deadline (m.cause c) (m.behaviour next)

def progress : Progress → Progress
  | .paused p => .paused (m.pause p)
  | .ended o => .ended (m.outcome o)

def call : CallState → CallState
  | .unbegun => .unbegun
  | .ongoing p => .ongoing (m.pause p)
  | .ended => .ended

/-- The firings that a busy member was told of too early for its lag not to be seen. -/
def ahead (x : Member) : Nat :=
  if m.lags || x.restarting.isNone then 0 else x.owed

def member (x : Member) : Member :=
  { x with
    start := m.call x.start
    stop := m.call x.stop
    restarting := x.restarting.map m.pause
    owed := x.owed - m.ahead x }

/-- Readers are seen not to have read what they were told of too early, from a buffer that is as small as can be. -/
def broadcast (early : Nat → Nat) (b : Broadcast) : Broadcast :=
  if m.lags then b
  else { b with size := bufferSize 0, readers := b.readers.mapIdx fun i p => p.map (· - early i) }

def failures (fs : List Failure) : List Failure :=
  if m.ends then fs.map fun f => { f with service := m.label f.service } else []

def verdict : Verdict → Verdict
  | .ok => .ok
  | .failures fs => if m.ends then .failures (m.failures fs) else .ok
  | .fault f => .fault f

def stage : Stage → Stage
  | .returned v time => .returned (m.verdict v) time
  | s => s

def view : CauseView → CauseView
  | .cause c => .cause (m.cause c)
  | v => v

def occurrence : Occurrence → Occurrence
  | .ended e phase o cancelled => .ended e phase (m.outcome o) cancelled
  | .noted e phase cancelled view => .noted e phase cancelled (m.view view)
  | .learned e phase c => .learned e phase (m.cause c)
  | .shutDown c => .shutDown (m.cause c)
  | o => o

def stamped (s : Stamped) : Stamped :=
  { s with what := m.occurrence s.what }

/-- What the log tells of failures is not seen if ends are not, and what it tells of lags if lags are not. -/
def event? : Event → Option Event
  | .shuttingDown c => some (.shuttingDown (m.cause c))
  | .runFailed n => some (if m.ends then .runFailed n else .runFinished)
  | .starting s => some (.starting (m.label s))
  | .exitedAlone s => some (.exitedAlone (m.label s))
  | .fellBehind s n => if m.lags then some (.fellBehind (m.label s) n) else none
  | .restarting s => some (.restarting (m.label s))
  | .stopping s => some (.stopping (m.label s))
  | .stopAbandoned s => if m.ends then some (.stopAbandoned (m.label s)) else none
  | .panicked s phase message => if m.ends then some (.panicked (m.label s) phase message) else none
  | .failed f => if m.ends then some (.failed { f with service := m.label f.service }) else none
  | e => some e

def settings (s : Settings) : Settings :=
  { s with
    restartBacklog := if m.lags then s.restartBacklog else 0
    entries := s.entries.map fun entry => { entry with name := m.label entry.name } }

/-- The run as it is seen. -/
noncomputable def run (r : Run) : Run :=
  { r with
    settings := m.settings r.settings
    services := r.services.map m.service
    stage := m.stage r.stage
    cause := ⟨r.cause.value.map m.cause⟩
    exit := ⟨r.exit.value.map m.label⟩
    restarts := m.broadcast (fun e => m.ahead (r.member e)) r.restarts
    members := r.members.map m.member
    failures := m.failures r.failures
    watches := r.watches.map (Option.map fun (time, c) => (time, m.cause c))
    history := r.history.map m.stamped
    trace := r.trace.filterMap m.event? }

variable {m} {r r' : Run} {e : Nat} {phase : Phase}

/-! ### What a run is asked -/

theorem restart_service (s : Service) (k : Nat) : (m.service s).restart k = m.behaviour (s.restart k) := by
  have settles : ∃ n, ∀ k, m.behaviour (s.restart (min k n)) = m.behaviour (s.restart k) :=
    ⟨s.restarts.length - 1, fun k => by rw [Service.restart, Service.restart, Nat.min_assoc, Nat.min_self]⟩
  have kept := settles.choose_spec k
  rw [service, Service.restart, restarts, dif_pos settles]
  simp only [List.length_map, List.length_range, Nat.add_sub_cancel]
  rw [List.getElem?_map, List.getElem?_range (by omega)]
  exact kept

theorem serviceOf_run (r : Run) (e : Nat) : (m.run r).serviceOf e = r.serviceOf e := by
  simp only [Run.serviceOf, run, settings, List.getElem?_map]
  cases r.settings.entries[e]? <;> rfl

theorem member_run (r : Run) (e : Nat) : (m.run r).member e = m.member (r.member e) := by
  simp only [Run.member, run, List.getElem?_map]
  cases r.members[e]? <;> simp [member, call]

/-- A service that is not there is seen to do nothing. -/
theorem service_run (r : Run) (e : Nat) :
    ((m.run r).service e).start = m.behaviour (r.service e).start ∧
      ((m.run r).service e).stop = m.behaviour (r.service e).stop ∧
        ∀ k, ((m.run r).service e).restart k = m.behaviour ((r.service e).restart k) := by
  rw [Run.service, Run.service, serviceOf_run]
  simp only [run, List.getElem?_map]
  cases r.services[r.serviceOf e]? with
  | none =>
    refine ⟨rfl, rfl, fun k => ?_⟩
    simp [Service.restart, behaviour]
  | some s => exact ⟨rfl, rfl, restart_service s⟩

theorem isFired_cause_run (r : Run) : (m.run r).cause.isFired = r.cause.isFired :=
  Option.isSome_map

theorem isFired_exit_run (r : Run) : (m.run r).exit.isFired = r.exit.isFired :=
  Option.isSome_map

theorem isEnded_call (x : CallState) : (m.call x).isEnded = x.isEnded := by
  cases x <;> rfl

theorem allStopped_run (r : Run) : (m.run r).allStopped = r.allStopped := by
  simp only [Run.allStopped, run, List.all_map, Function.comp_def, member, isEnded_call]

theorem allExited_run (r : Run) : (m.run r).allExited = r.allExited := by
  simp only [Run.allExited, run, List.all_map, Function.comp_def, member, isEnded_call]

theorem stillRunning_run (r : Run) : (m.run r).stillRunning = r.stillRunning := by
  simp only [Run.stillRunning, run, List.countP_map, Function.comp_def, member, isEnded_call]

theorem total_run (r : Run) (service : Nat) {count : Member → Nat} (same : ∀ x, count (m.member x) = count x) :
    (m.run r).total service count = r.total service count := by
  simp only [Run.total, run, settings, List.zip_map, List.foldl_map, Prod.map, same]

/-! A mask that shows names shows causes as they are. -/

theorem cause_of_id (shown : m.label = id) (c : Cause) : m.cause c = c := by
  cases c with
  | exited service => rw [cause, shown, id]
  | _ => rfl

theorem view_of_id (shown : m.label = id) (v : CauseView) : m.view v = v := by
  cases v with
  | cause c => exact congrArg CauseView.cause (cause_of_id shown c)
  | _ => rfl

theorem view_run (r : Run) : (m.run r).view = m.view r.view := by
  have held : (m.run r).handleHeld = r.handleHeld := rfl
  have cause : (m.run r).cause.value = r.cause.value.map m.cause := rfl
  rw [Run.view, Run.view, held, cause]
  cases r.handleHeld
  · rfl
  · cases r.cause.value <;> rfl

/-! ### Firings -/

theorem ahead_of_idle {x : Member} (idle : x.restarting = none) : m.ahead x = 0 := by
  simp [ahead, idle]

theorem ahead_of_lags (lags : m.lags = true) (x : Member) : m.ahead x = 0 := by
  simp [ahead, lags]

theorem broadcast_of_lags (lags : m.lags = true) (early : Nat → Nat) (b : Broadcast) : m.broadcast early b = b := by
  rw [broadcast, if_pos lags]

theorem restarts_run_of_lags (lags : m.lags = true) (r : Run) : (m.run r).restarts = r.restarts :=
  broadcast_of_lags lags _ _

theorem position?_broadcast (early : Nat → Nat) (b : Broadcast) (i : Nat) (quiet : m.lags = true → early i = 0) :
    (m.broadcast early b).position? i = (b.position? i).map (· - early i) := by
  unfold broadcast
  split
  · rename_i lags
    simp [quiet lags]
  · simp only [Broadcast.position?, List.getElem?_mapIdx]
    cases b.readers[i]? <;> rfl

theorem position?_run (r : Run) (e : Nat) :
    (m.run r).restarts.position? e = (r.restarts.position? e).map (· - m.ahead (r.member e)) :=
  position?_broadcast _ _ _ fun lags => ahead_of_lags lags _

theorem length_readers_broadcast (early : Nat → Nat) (b : Broadcast) :
    (m.broadcast early b).readers.length = b.readers.length := by
  unfold broadcast
  split
  · rfl
  · exact List.length_mapIdx

theorem fired_run (r : Run) : (m.run r).restarts.fired = r.restarts.fired := by
  simp only [run, broadcast]
  split <;> rfl

theorem closed_run (r : Run) : (m.run r).restarts.closed = r.restarts.closed := by
  simp only [run, broadcast]
  split <;> rfl

/-- An idle entry is seen to have read what it has read. -/
theorem unread_run_of_idle (idle : (r.member e).restarting = none) :
    (m.run r).restarts.unread e = r.restarts.unread e := by
  rw [Broadcast.unread, Broadcast.unread, position?_run, fired_run, ahead_of_idle idle]
  cases r.restarts.position? e <;> rfl

theorem countP_isSome_mapIdx {α β : Type} (f : Nat → α → β) (xs : List (Option α)) :
    (xs.mapIdx fun i x => x.map (f i)).countP Option.isSome = xs.countP Option.isSome := by
  induction xs generalizing f with
  | nil => rfl
  | cons x xs ih => rw [List.mapIdx_cons, List.countP_cons, List.countP_cons, ih fun i => f (i + 1), Option.isSome_map]

theorem broadcast_fire (early : Nat → Nat) (b : Broadcast) : m.broadcast early b.fire = (m.broadcast early b).fire := by
  have readers : (m.broadcast early b).readerCount = b.readerCount := by
    unfold broadcast
    split
    · rfl
    · exact countP_isSome_mapIdx (fun i p => p - early i) b.readers
  rw [Broadcast.fire, Broadcast.fire, readers]
  unfold broadcast
  split <;> split <;> rfl

theorem broadcast_close (early : Nat → Nat) (b : Broadcast) : m.broadcast early b.close = (m.broadcast early b).close := by
  unfold broadcast
  split <;> rfl

/-! ### Waiting -/

theorem lets_run (r : Run) (service : Nat) (p : Pause) : (m.run r).lets service (m.pause p) = r.lets service p := by
  cases p <;> first | rfl | exact isFired_cause_run r

theorem isCalled_run (r : Run) (listening : Bool) : (m.run r).isCalled listening = r.isCalled listening := by
  simp only [Run.isCalled, isFired_exit_run]
  rfl

theorem isDue_run (r : Run) (t : Task) : (m.run r).isDue t = r.isDue t := by
  cases t with
  | supervise =>
    have stage : (m.run r).stage = m.stage r.stage := rfl
    simp only [Run.isDue, stage, isCalled_run, allStopped_run, allExited_run]
    cases r.stage with
    | leaving deadline => cases deadline <;> rfl
    | _ => rfl
  | start e =>
    simp only [Run.isDue, member_run, serviceOf_run, member]
    cases (r.member e).start <;> simp only [call, lets_run]
  | restart e =>
    simp only [Run.isDue, member_run, serviceOf_run, member]
    cases h : (r.member e).restarting with
    | none => simp only [Option.map, Broadcast.hasNews, unread_run_of_idle h, closed_run]
    | some p => simp only [Option.map, lets_run]
  | stop e =>
    simp only [Run.isDue, member_run, serviceOf_run, member, isFired_cause_run]
    cases (r.member e).stop <;> simp only [call, lets_run]
  | watch => exact isFired_cause_run r
  | signal => rfl

theorem canGoOn_run (r : Run) : (m.run r).canGoOn = r.canGoOn := by
  funext t
  have early : (m.run r).isDueEarly t = r.isDueEarly t := by
    cases t with
    | supervise =>
      have stage : (m.run r).stage = m.stage r.stage := rfl
      simp only [Run.isDueEarly, stage, isFired_exit_run]
      cases r.stage <;> rfl
    | _ => rfl
  simp only [Run.canGoOn, isDue_run, early]
  rfl

theorem run_wake (r : Run) : m.run r.wake = (m.run r).wake := by
  simp only [Run.wake, canGoOn_run]
  rfl

/-! ### Effects -/

theorem run_mark (r : Run) (o : Occurrence) : m.run (r.mark o) = (m.run r).mark (m.occurrence o) := by
  simp only [run, Run.mark, List.map_append]
  rfl

theorem run_log {event event' : Event} (r : Run) (seen : m.event? event = some event') :
    m.run (r.log event) = (m.run r).log event' := by
  simp only [run, Run.log, List.filterMap_append, List.filterMap_cons, seen, List.filterMap_nil]
  rfl

theorem map_modify {α β : Type} {f : α → α} {f' : β → β} {g : α → β} {xs : List α} {i : Nat}
    (same : ∀ x ∈ xs[i]?, g (f x) = f' (g x)) : (xs.modify i f).map g = (xs.map g).modify i f' := by
  induction xs generalizing i with
  | nil => simp
  | cons x xs ih =>
    cases i with
    | zero => simp [same x rfl]
    | succ i => simp [ih (i := i) same]

/-- An update of a member is seen as one, apart from what the entry was told of too early. -/
theorem run_update_members {f f' : Member → Member} (r : Run) (e : Nat)
    (same : m.member (f (r.member e)) = f' (m.member (r.member e))) :
    m.run (r.update e f) =
      { (m.run r).update e f' with
        restarts := m.broadcast (fun e' => m.ahead ((r.update e f).member e')) r.restarts } := by
  have members : (r.members.modify e f).map m.member = (r.members.map m.member).modify e f' := by
    refine map_modify fun x here => ?_
    have there : r.member e = x := by simp [Run.member, Option.mem_def.mp here]
    rwa [there] at same
  have updated : m.run (r.update e f) =
      { m.run r with
        restarts := m.broadcast (fun e' => m.ahead ((r.update e f).member e')) r.restarts
        members := (r.members.modify e f).map m.member } := rfl
  rw [updated, members]
  rfl

theorem run_update {f f' : Member → Member} (r : Run) (e : Nat)
    (same : m.member (f (r.member e)) = f' (m.member (r.member e)))
    (keeps : m.ahead (f (r.member e)) = m.ahead (r.member e)) : m.run (r.update e f) = (m.run r).update e f' := by
  have early : (fun e' => m.ahead ((r.update e f).member e')) = fun e' => m.ahead (r.member e') := by
    funext e'
    by_cases own : e' = e
    · subst own
      by_cases he : e' < r.members.length
      · rw [Run.member_modify rfl he, keeps]
      · rw [Run.member_of_le (Nat.not_lt.mp he), Run.member_of_le (by simpa [Run.update] using he)]
    · rw [Run.member_modify_ne rfl own]
  rw [run_update_members r e same, early]
  rfl

/-! What a member owes between two calls is seen, and a call that is paused changes nothing about it. -/

theorem ahead_owe {x : Member} (idle : x.restarting = none) (n : Nat) : m.ahead { x with owed := n } = m.ahead x := by
  rw [ahead_of_idle idle]
  exact ahead_of_idle idle

theorem member_owe {x : Member} (idle : x.restarting = none) (n : Nat) :
    m.member { x with owed := n } = { m.member x with owed := n } := by
  have ahead : m.ahead { x with owed := n } = 0 := ahead_of_idle idle
  rw [member, ahead]
  rfl

theorem ahead_pause {x : Member} {p : Pause} (busy : x.restarting = some p) (p' : Pause) :
    m.ahead { x with restarting := some p' } = m.ahead x := by
  simp [ahead, busy]

theorem run_pause {p : Pause} (busy : (r.member e).restarting = some p) (p' : Pause) :
    m.run (r.update e fun x => { x with restarting := some p' }) =
      (m.run r).update e fun x => { x with restarting := some (m.pause p') } := by
  refine run_update r e ?_ (ahead_pause busy p')
  rw [member, ahead_pause busy]
  rfl

theorem run_deferIfSpent (r : Run) (t : Task) : m.run (r.deferIfSpent t) = (m.run r).deferIfSpent t := by
  have spent : (m.run r).isSpent = r.isSpent := rfl
  rw [Run.deferIfSpent, Run.deferIfSpent, spent]
  split <;> rfl

theorem run_spendReading (r : Run) : m.run r.spendReading = (m.run r).spendReading := by
  have free : (m.run r).readsFreely = r.readsFreely := rfl
  rw [Run.spendReading, Run.spendReading, free]
  split <;> rfl

theorem run_cancel (r : Run) : m.run r.cancel = (m.run r).cancel := by
  rw [Run.cancel, run_wake]
  exact congrArg (fun x : Run => Run.wake { x with cancelled := true }) (run_mark r .cancelled)

theorem run_release (r : Run) (service : Nat) : m.run (r.release service) = (m.run r).release service := by
  rw [Run.release, run_wake]
  exact congrArg (fun x : Run => Run.wake { x with released := service :: r.released }) (run_mark r (.released service))

theorem run_send (r : Run) (c : Command) : (m.run r).send c = (r.send c).map id m.run := by
  have held : (m.run r).handleHeld = r.handleHeld := rfl
  have closed : (m.run r).commandsClosed = r.commandsClosed := rfl
  rw [Run.send, Run.send, held, closed]
  split
  · rfl
  · split
    · rfl
    · refine congrArg (Prod.mk _) (Eq.symm ?_)
      rw [run_wake]
      exact congrArg (fun x : Run => Run.wake { x with commands := r.commands ++ [c] }) (run_mark r (.accepted c))

theorem run_fire (r : Run) : m.run r.fire = (m.run r).fire := by
  have fired : m.run { r.mark .fired with restarts := r.restarts.fire } =
      { m.run (r.mark .fired) with restarts := (m.run r).restarts.fire } := by
    simp only [run, broadcast_fire]
    rfl
  rw [Run.fire, run_wake, fired, run_mark]
  rfl

theorem run_deliver (r : Run) (n : Int) : m.run (r.deliver n) = (m.run r).deliver n := by
  have dropped : m.event? (.deliveryDropped n) = some (.deliveryDropped n) := rfl
  rw [Run.deliver, Run.deliver, run_wake]
  simp only [run, Run.mark, List.map_append, List.filterMap_append, List.filterMap_replicate_of_some dropped]
  rfl

theorem run_dropHandle (r : Run) : m.run r.dropHandle = (m.run r).dropHandle :=
  run_wake _

theorem run_markEnd (r : Run) (e : Nat) (phase : Phase) (o : Outcome) :
    m.run (r.markEnd e phase o) = (m.run r).markEnd e phase (m.outcome o) :=
  run_mark r _

/-! ### Failures -/

/-- What goes by the name of an entry goes by its label behind the mask. -/
def Names (m : Mask) (r : Run) (e : Nat) : Prop :=
  (m.run r).nameOf e = m.label (r.nameOf e)

theorem Names.of_settings (h : m.Names r e) (same : r'.settings = r.settings) : m.Names r' e := by
  unfold Names Run.nameOf run at h ⊢
  rwa [same]

theorem names_of_blank (blank : m.label "" = "") : m.Names r e := by
  simp only [Names, Run.nameOf, run, settings, List.getElem?_map]
  cases r.settings.entries[e]? with
  | none => exact blank.symm
  | some entry => rfl

theorem failures_append (fs gs : List Failure) : m.failures (fs ++ gs) = m.failures fs ++ m.failures gs := by
  unfold failures
  split
  · exact List.map_append
  · rfl

theorem failures_of_outcome (o : Outcome) (name : String) (phase : Phase) :
    m.failures (o.failure? name phase).toList = ((m.outcome o).failure? (m.label name) phase).toList := by
  cases ends : m.ends <;> cases o <;> simp [failures, outcome, ends, Outcome.failure?, Outcome.fault?]

/-- The log tells of the failures that are seen. -/
theorem filterMap_ofFailure (fs : List Failure) :
    (fs.flatMap Event.ofFailure).filterMap m.event? = (m.failures fs).flatMap Event.ofFailure := by
  have one (f : Failure) : (Event.ofFailure f).filterMap m.event? = (m.failures [f]).flatMap Event.ofFailure := by
    obtain ⟨service, phase, fault⟩ := f
    cases ends : m.ends <;> cases fault <;> simp [failures, event?, ends, Event.ofFailure]
  induction fs with
  | nil =>
    cases ends : m.ends <;> simp [failures, ends]
  | cons f fs ih =>
    rw [List.flatMap_cons, List.filterMap_append, one, ih, ← List.flatMap_append, ← failures_append]
    rfl

theorem run_report (names : m.Names r e) (phase : Phase) (o : Outcome) :
    m.run (r.report e phase o) = (m.run r).report e phase (m.outcome o) := by
  rw [Run.report, Run.report, names, ← failures_of_outcome, ← filterMap_ofFailure]
  simp only [run, failures_append, List.filterMap_append]
  rfl

/-! ### Calls -/

theorem follow_run (e : Nat) (phase : Phase) (b : Behaviour) (r : Run) :
    Run.follow e phase (m.behaviour b) (m.run r) = (Run.follow e phase b r).map m.progress m.run := by
  have spent (r : Run) : (m.run r).isSpent = r.isSpent := rfl
  have released (r : Run) : (m.run r).isReleased = r.isReleased := rfl
  have cancelled (r : Run) : (m.run r).cancelled = r.cancelled := rfl
  induction b generalizing r with
  | done => cases ends : m.ends <;> simp [behaviour, Run.follow, progress, outcome]
  | fail err => cases ends : m.ends <;> simp [behaviour, Run.follow, progress, outcome, ends]
  | panic p => cases ends : m.ends <;> simp [behaviour, Run.follow, progress, outcome, ends]
  | never => rfl
  | sleep ms next ih =>
    simp only [behaviour, Run.follow, spent]
    split
    · exact ih r.spend
    · exact congrArg (Prod.mk _) (run_deferIfSpent r _).symm
  | awaitRelease next ih =>
    simp only [behaviour, Run.follow, released, serviceOf_run]
    split
    · exact ih r
    · rfl
  | awaitReleaseFor ms next ih =>
    simp only [behaviour, Run.follow, released, serviceOf_run, spent]
    split
    · cases ends : m.ends <;> simp [progress, outcome]
    · split
      · exact ih r.spend
      · exact congrArg (Prod.mk _) (run_deferIfSpent r _).symm
  | awaitCancel next ih =>
    simp only [behaviour, Run.follow, cancelled]
    split
    · exact ih r
    · rfl
  | awaitCause next ih =>
    have held : (m.run r).handleHeld = r.handleHeld := rfl
    have cause : (m.run r).cause.value = r.cause.value.map m.cause := rfl
    simp only [behaviour, Run.follow, held, cause]
    split
    · refine Prod.ext ?_ (run_deferIfSpent { r with lent := r.lent + 1 } _).symm
      cases r.cause.value <;> rfl
    · exact ih r
  | release service next ih =>
    simp only [behaviour, Run.follow, serviceOf_run, ← run_release]
    exact ih _
  | cancel next ih =>
    simp only [behaviour, Run.follow, ← run_cancel]
    exact ih _
  | command c next ih =>
    simp only [behaviour, Run.follow, run_send, Prod.map_fst, Prod.map_snd, id]
    rw [← ih, run_mark]
    rfl
  | note next ih =>
    simp only [behaviour, Run.follow, cancelled, view_run]
    rw [← ih, run_mark]
    rfl
  | ifCancelled yes no ihYes ihNo =>
    simp only [behaviour, Run.follow, cancelled]
    split
    · exact ihYes r
    · exact ihNo r

theorem begin_run (r : Run) (e : Nat) (phase : Phase) (b : Behaviour) :
    (m.run r).begin e phase (m.behaviour b) = (r.begin e phase b).map m.progress m.run := by
  rw [Run.begin, Run.begin, ← follow_run, run_mark]
  rfl

theorem resume_run (r : Run) (e : Nat) (phase : Phase) (p : Pause) :
    (m.run r).resume e phase (m.pause p) = (r.resume e phase p).map m.progress m.run := by
  unfold Run.resume
  rw [serviceOf_run, lets_run]
  split
  · cases p with
    | never => rfl
    | «until» deadline next => exact follow_run e phase next r.spend
    | release next => exact follow_run e phase next r
    | cancel next => exact follow_run e phase next r
    | releaseUntil deadline next =>
      have released : (m.run r).isReleased = r.isReleased := rfl
      simp only [pause, released]
      split
      · cases ends : m.ends <;> simp [progress, outcome]
      · exact follow_run e phase next r.spend
    | cause next =>
      have cause : (m.run r).cause.value = r.cause.value.map m.cause := rfl
      simp only [pause, cause]
      cases r.cause.value with
      | none => rfl
      | some c => exact congrArg (Prod.mk _) (run_deferIfSpent r.spend _).symm
    | noting deadline c next =>
      simp only [pause]
      rw [← follow_run, run_mark]
      rfl
  · rfl

end Mask

end Supervision
