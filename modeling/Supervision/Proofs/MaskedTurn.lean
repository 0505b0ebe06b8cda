import Supervision.Proofs.Mask
import Supervision.Proofs.Simulation

/-! What each task does at its turn, and what a caller does, is the same behind a mask. So two runs that look alike through
a mask go on looking alike under the same choices. -/

namespace Supervision

namespace Run

theorem endStart_eq (r : Run) (e : Nat) (o : Outcome) :
    r.endStart e o =
      let ended := ((r.markEnd e .start o).report e .start o).update e fun m => { m with start := .ended }
      if r.cause.isFired || r.cancelled || r.exit.isFired then ended.wake
      else ({ ended with exit := r.exit.fire (r.nameOf e) }.log (.exitedAlone (r.nameOf e))).wake := by
  unfold endStart
  cases r.cause.isFired || r.cancelled || r.exit.isFired with
  | false => rfl
  | true =>
    simp only [Bool.not_true, Bool.false_eq_true, if_false, List.append_nil]
    rfl

theorem endStop_eq (r : Run) (e : Nat) (o : Outcome) :
    r.endStop e o =
      if r.isAbandoned o then
        ((((r.markEnd e .stop o).report e .stop .done).update e fun m => { m with stop := .ended }).log
          (.stopAbandoned (r.nameOf e))).wake
      else (((r.markEnd e .stop o).report e .stop o).update e fun m => { m with stop := .ended }).wake := by
  unfold endStop
  cases r.isAbandoned o with
  | false =>
    simp only [Bool.false_eq_true, if_false, List.append_nil]
    rfl
  | true => rfl

end Run

namespace Mask

variable {m : Mask} {r r' : Run} {e : Nat} {phase : Phase}

theorem fire_map {α β : Type} (f : α → β) (l : Latch α) (a : α) :
    (⟨(l.fire a).value.map f⟩ : Latch β) = Latch.fire ⟨l.value.map f⟩ (f a) := by
  cases l with
  | mk value => cases value <;> rfl

/-! ### Start calls -/

theorem run_reportEnd (names : m.Names r e) (phase : Phase) (o : Outcome) :
    m.run ((r.markEnd e phase o).report e phase o) =
      ((m.run r).markEnd e phase (m.outcome o)).report e phase (m.outcome o) := by
  have named : m.Names (r.markEnd e phase o) e := names.of_settings rfl
  rw [run_report named, run_markEnd]

theorem run_endStart (names : m.Names r e) (o : Outcome) :
    m.run (r.endStart e o) = (m.run r).endStart e (m.outcome o) := by
  have ended : m.run (((r.markEnd e .start o).report e .start o).update e fun x => { x with start := .ended }) =
      (((m.run r).markEnd e .start (m.outcome o)).report e .start (m.outcome o)).update e
        fun x => { x with start := .ended } := by
    rw [← run_reportEnd names]
    exact run_update _ e rfl rfl
  rw [Run.endStart_eq, Run.endStart_eq, isFired_cause_run, isFired_exit_run]
  show _ = if r.cause.isFired || r.cancelled || r.exit.isFired then _ else _
  dsimp only
  split
  · rw [run_wake, ended]
  · rw [run_wake, run_log _ rfl, ← ended, names]
    have fired := fire_map m.label r.exit (r.nameOf e)
    exact congrArg (fun l => Run.wake (Run.log { m.run _ with exit := l } _)) fired

theorem run_keepStart {x : Progress × Run} (names : m.Names x.2 e) :
    m.run (Run.keepStart e x) = Run.keepStart e (x.map m.progress m.run) := by
  obtain ⟨progress, r⟩ := x
  cases progress with
  | paused p => exact run_update r e rfl rfl
  | ended o => exact run_endStart names o

theorem settings_begin (r : Run) (e : Nat) (phase : Phase) (b : Behaviour) :
    (r.begin e phase b).2.settings = r.settings :=
  (Run.proceeds_follow e phase b (r.mark (.began e phase))).1.spares.settings

theorem settings_resume {phase : Phase} {p : Pause} (h : r.pause? (.ofCall e phase) = some p) :
    (r.resume e phase p).2.settings = r.settings :=
  (Run.proceeds_resume h).1.spares.settings

theorem beginStart_run (names : m.Names r e) :
    (m.run r).beginStart e = (r.beginStart e).map m.progress m.run := by
  have starting : m.run ((r.log (.starting (r.nameOf e))).update e fun x => { x with start := .ongoing .never }) =
      ((m.run r).log (.starting ((m.run r).nameOf e))).update e fun x => { x with start := .ongoing .never } := by
    have logged : m.run (r.log (.starting (r.nameOf e))) = (m.run r).log (.starting (m.label (r.nameOf e))) :=
      run_log r rfl
    rw [names, ← logged]
    exact run_update _ e rfl rfl
  calc (m.run r).beginStart e
    _ = (m.run ((r.log (.starting (r.nameOf e))).update e fun x => { x with start := .ongoing .never })).begin e .start
          (m.behaviour (r.service e).start) := by
      rw [starting, ← (service_run r e).1]
      rfl
    _ = (r.beginStart e).map m.progress m.run := begin_run _ e .start _

theorem run_startTurn (names : m.Names r e) : m.run (r.startTurn e) = (m.run r).startTurn e := by
  have start : ((m.run r).member e).start = m.call (r.member e).start := by rw [member_run]; rfl
  unfold Run.startTurn
  rw [start]
  cases h : (r.member e).start with
  | unbegun =>
    simp only [call]
    rw [beginStart_run names]
    exact run_keepStart (names.of_settings (settings_begin _ _ _ _))
  | ongoing p =>
    simp only [call]
    rw [resume_run]
    have ongoing : r.pause? (.ofCall e .start) = some p := by simp [Run.pause?, Task.ofCall, h, CallState.pause?]
    exact run_keepStart (names.of_settings (settings_resume ongoing))
  | ended => rfl

/-! ### Restart calls -/

/-! What a restart task reads, and when, depends on how far its entry lags, so that its turns are followed through a mask
only if lags are seen. -/

theorem run_update_of_lags (lags : m.lags = true) {f f' : Member → Member} (r : Run) (e : Nat)
    (same : m.member (f (r.member e)) = f' (m.member (r.member e))) : m.run (r.update e f) = (m.run r).update e f' :=
  run_update r e same (by rw [ahead_of_lags lags, ahead_of_lags lags])

theorem run_endRestart (lags : m.lags = true) (names : m.Names r e) (o : Outcome) :
    m.run (r.endRestart e o) = (m.run r).endRestart e (m.outcome o) := by
  rw [Run.endRestart, Run.endRestart, ← run_reportEnd names]
  exact run_update_of_lags lags _ e (by simp [member, ahead, lags])

theorem beginRestart_run (lags : m.lags = true) (names : m.Names r e) :
    (m.run r).beginRestart e = (r.beginRestart e).map m.progress m.run := by
  have restarting : m.run ((r.log (.restarting (r.nameOf e))).update e fun x =>
        { x with owed := x.owed - 1, restarts := x.restarts + 1, restarting := some .never }) =
      ((m.run r).log (.restarting ((m.run r).nameOf e))).update e fun x =>
        { x with owed := x.owed - 1, restarts := x.restarts + 1, restarting := some .never } := by
    have logged : m.run (r.log (.restarting (r.nameOf e))) = (m.run r).log (.restarting (m.label (r.nameOf e))) :=
      run_log r rfl
    rw [names, ← logged]
    exact run_update_of_lags lags _ e (by simp [member, ahead, lags, pause])
  have count : (m.run r).total ((m.run r).serviceOf e) Member.restarts = r.total (r.serviceOf e) Member.restarts := by
    rw [serviceOf_run, total_run r _ fun _ => rfl]
  calc (m.run r).beginRestart e
    _ = (m.run ((r.log (.restarting (r.nameOf e))).update e fun x =>
            { x with owed := x.owed - 1, restarts := x.restarts + 1, restarting := some .never })).begin e .restart
          (m.behaviour ((r.service e).restart (r.total (r.serviceOf e) Member.restarts))) := by
      rw [restarting, ← count, ← (service_run r e).2.2]
      rfl
    _ = (r.beginRestart e).map m.progress m.run := begin_run _ e .restart _

theorem run_takeFirings (lags : m.lags = true) (names : m.Names r e) (n : Nat) (b : Broadcast) :
    m.run (r.takeFirings e n b) = (m.run r).takeFirings e n b := by
  have told : (if 1 < n then [Event.fellBehind (r.nameOf e) n] else []).filterMap m.event? =
      if 1 < n then [Event.fellBehind ((m.run r).nameOf e) n] else [] := by
    rw [names]
    split <;> simp [event?, lags]
  have read : m.run { r with
        restarts := b, trace := r.trace ++ if 1 < n then [.fellBehind (r.nameOf e) n] else [] } =
      { m.run r with
        restarts := b, trace := (m.run r).trace ++ if 1 < n then [.fellBehind ((m.run r).nameOf e) n] else [] } := by
    simp only [run, List.filterMap_append, broadcast_of_lags lags] at told ⊢
    rw [told]
  refine Eq.trans ?_ (congrArg (fun x : Run => x.update e fun x => { x with owed := n }) read)
  exact run_update_of_lags lags _ e (by simp [member, ahead, lags])

theorem run_keepRestart (next : Run → Run) {x : Progress × Run} (lags : m.lags = true) (named : m.Names x.2 e)
    (goes : ∀ {r : Run}, m.Names r e → m.run (next r) = next (m.run r)) :
    m.run (Run.keepRestart e next x) = Run.keepRestart e next (x.map m.progress m.run) := by
  obtain ⟨progress, r⟩ := x
  cases progress with
  | paused p => exact run_update_of_lags lags r e (by simp [member, ahead, lags])
  | ended o =>
    have ended : m.Names (r.endRestart e o) e := named.of_settings rfl
    exact (goes ended).trans (congrArg next (run_endRestart lags named o))

theorem run_restartLoop (lags : m.lags = true) (fuel : Nat) (names : m.Names r e) :
    m.run (Run.restartLoop e fuel r) = Run.restartLoop e fuel (m.run r) := by
  induction fuel generalizing r with
  | zero => rfl
  | succ fuel ih =>
    have cannot : (m.run r).cannotRead = r.cannotRead := rfl
    have restarts : (m.run r).restarts = r.restarts := restarts_run_of_lags lags r
    have owed : ((m.run r).member e).owed = (r.member e).owed := by
      rw [member_run]
      simp [member, ahead_of_lags lags]
    simp only [Run.restartLoop, owed, cannot, restarts]
    split
    · split
      · rfl
      · split
        · rename_i n b told
          have spending : m.Names r.spendReading e := names.of_settings (by unfold Run.spendReading; split <;> rfl)
          have reading : m.Names (r.spendReading.takeFirings e n b) e := spending.of_settings rfl
          have spent : m.run r.spendReading = (m.run r).spendReading := run_spendReading r
          rw [ih reading, run_takeFirings lags spending n b, spent]
        · exact run_update r e rfl rfl
        · rfl
    · have named : m.Names (r.beginRestart e).2 e := names.of_settings (settings_begin _ _ _ _)
      rw [beginRestart_run lags names]
      exact run_keepRestart _ lags named ih

theorem run_restartAll (lags : m.lags = true) (names : m.Names r e) :
    m.run (r.restartAll e) = (m.run r).restartAll e := by
  have steps : (m.run r).restartSteps e = r.restartSteps e := by
    rw [Run.restartSteps, Run.restartSteps, member_run, restarts_run_of_lags lags]
    simp [member, ahead_of_lags lags]
  rw [Run.restartAll, Run.restartAll, steps]
  exact run_restartLoop lags _ names

theorem run_restartTurn (lags : m.lags = true) (names : m.Names r e) :
    m.run (r.restartTurn e) = (m.run r).restartTurn e := by
  have restarting : ((m.run r).member e).restarting = (r.member e).restarting.map m.pause := by rw [member_run]; rfl
  unfold Run.restartTurn
  rw [restarting]
  cases h : (r.member e).restarting with
  | none => exact run_restartAll lags names
  | some p =>
    have named : m.Names (r.resume e .restart p).2 e := names.of_settings (settings_resume h)
    simp only [Option.map_some]
    rw [resume_run]
    exact run_keepRestart (·.restartAll e) lags named fun named => run_restartAll lags named

/-! ### Stop calls -/

theorem run_log_hidden {event : Event} (r : Run) (hidden : m.event? event = none) : m.run (r.log event) = m.run r := by
  simp only [run, Run.log, List.filterMap_append, List.filterMap_cons, hidden, List.filterMap_nil, List.append_nil]
  rfl

theorem run_endStop (names : m.Names r e) (o : Outcome) :
    m.run (r.endStop e o) = (m.run r).endStop e (m.outcome o) := by
  have ended (o' : Outcome) :
      m.run (((r.markEnd e .stop o).report e .stop o').update e fun x => { x with stop := .ended }) =
        (((m.run r).markEnd e .stop (m.outcome o)).report e .stop (m.outcome o')).update e
          fun x => { x with stop := .ended } := by
    have named : m.Names (r.markEnd e .stop o) e := names.of_settings rfl
    rw [← run_markEnd, ← run_report named]
    exact run_update _ e rfl rfl
  have done : m.outcome .done = .done := by simp [outcome]
  rw [Run.endStop_eq, Run.endStop_eq]
  cases ends : m.ends with
  | true =>
    have seen : m.outcome o = o := by simp [outcome, ends]
    have abandoned : (m.run r).isAbandoned o = r.isAbandoned o := rfl
    rw [seen, abandoned]
    split
    · have told : m.event? (.stopAbandoned (r.nameOf e)) = some (.stopAbandoned (m.label (r.nameOf e))) := by
        simp [event?, ends]
      rw [run_wake, run_log _ told, ended, done, seen, names]
    · rw [run_wake, ended, seen]
  | false =>
    have hidden (o : Outcome) : m.outcome o = .done := by simp [outcome, ends]
    have untold : m.event? (.stopAbandoned (r.nameOf e)) = none := by simp [event?, ends]
    have kept : (m.run r).isAbandoned .done = false := rfl
    rw [hidden, kept]
    split
    · rw [run_wake, run_log_hidden _ untold, ended, done, hidden]
      rfl
    · rw [run_wake, ended, hidden]
      rfl

theorem run_keepStop {x : Progress × Run} (names : m.Names x.2 e) :
    m.run (Run.keepStop e x) = Run.keepStop e (x.map m.progress m.run) := by
  obtain ⟨progress, r⟩ := x
  cases progress with
  | paused p => exact run_update r e rfl rfl
  | ended o => exact run_endStop names o

theorem beginStop_run (names : m.Names r e) :
    (m.run r).beginStop e = (r.beginStop e).map m.progress m.run := by
  have awaited : ((m.run r).member e).stopAwaited = (r.member e).stopAwaited := by rw [member_run]; rfl
  have spent : (if (r.member e).stopAwaited then (m.run r).spend else m.run r) =
      m.run (if (r.member e).stopAwaited then r.spend else r) := by
    split <;> rfl
  have named : m.Names (if (r.member e).stopAwaited then r.spend else r) e := by
    split
    · exact names.of_settings rfl
    · exact names
  unfold Run.beginStop
  rw [awaited, spent]
  generalize (if (r.member e).stopAwaited then r.spend else r) = r₁ at named
  have stopping : m.run ((r₁.log (.stopping (r₁.nameOf e))).update e fun x => { x with stop := .ongoing .never }) =
      ((m.run r₁).log (.stopping ((m.run r₁).nameOf e))).update e fun x => { x with stop := .ongoing .never } := by
    have logged : m.run (r₁.log (.stopping (r₁.nameOf e))) = (m.run r₁).log (.stopping (m.label (r₁.nameOf e))) :=
      run_log r₁ rfl
    rw [named, ← logged]
    exact run_update _ e rfl rfl
  calc Run.begin (((m.run r₁).log (.stopping ((m.run r₁).nameOf e))).update e fun x => { x with stop := .ongoing .never })
          e .stop ((m.run r₁).service e).stop
    _ = (m.run ((r₁.log (.stopping (r₁.nameOf e))).update e fun x => { x with stop := .ongoing .never })).begin e .stop
          (m.behaviour (r₁.service e).stop) := by rw [stopping, (service_run r₁ e).2.1]
    _ = _ := begin_run _ e .stop _

theorem run_stopTurn (names : m.Names r e) : m.run (r.stopTurn e) = (m.run r).stopTurn e := by
  have stop : ((m.run r).member e).stop = m.call (r.member e).stop := by rw [member_run]; rfl
  unfold Run.stopTurn
  rw [stop]
  cases h : (r.member e).stop with
  | unbegun =>
    simp only [call, isFired_cause_run]
    split
    · rw [beginStop_run names]
      refine run_keepStop (names.of_settings ((settings_begin _ _ _ _).trans ?_))
      split <;> rfl
    · exact run_update r e rfl rfl
  | ongoing p =>
    simp only [call]
    rw [resume_run]
    have ongoing : r.pause? (.ofCall e .stop) = some p := by simp [Run.pause?, Task.ofCall, h, CallState.pause?]
    exact run_keepStop (names.of_settings (settings_resume ongoing))
  | ended => rfl

/-! ### Watchers and signals -/

theorem run_watchTurn (r : Run) (w : Nat) : m.run (r.watchTurn w) = (m.run r).watchTurn w := by
  have cause : (m.run r).cause.value = r.cause.value.map m.cause := rfl
  unfold Run.watchTurn
  rw [cause]
  cases r.cause.value with
  | none => rfl
  | some c =>
    simp only [Option.map_some, run, List.map_set]
    rfl

theorem run_signalTurn (r : Run) (n : Int) : m.run (r.signalTurn n) = (m.run r).signalTurn n := by
  have hears : (m.run r).stage.hearsSignals = r.stage.hearsSignals := by
    show (m.stage r.stage).hearsSignals = _
    cases r.stage <;> rfl
  rw [Run.signalTurn, Run.signalTurn, hears]
  split
  · exact run_deliver r n
  · exact run_mark r _

/-! ### The supervising task -/

/-- A buffer that is as small as can be had can be had if that of the run can. Its readers stand where they stand in the
other, since there is nothing to read yet. -/
theorem acquire_settings {s : Settings} (fits : m.lags = false → s.restartBacklog ≤ backlogLimit) (early : Nat → Nat) :
    Run.acquire (m.settings s) =
      (Run.acquire s).map fun (shutdown, restart, b) => (shutdown, restart, m.broadcast early b) := by
  have signals : (m.settings s).signals = s.signals := rfl
  have subscribed : m.broadcast early (s.entries.foldl (fun b _ => b.subscribe) (.withBacklog s.restartBacklog)) =
      (m.settings s).entries.foldl (fun b _ => b.subscribe) (.withBacklog (m.settings s).restartBacklog) := by
    cases lags : m.lags with
    | true => simp [broadcast, settings, lags, List.foldl_map]
    | false =>
      have unread : (List.replicate s.entries.length (some 0)).mapIdx (fun i p => p.map (· - early i)) =
          List.replicate s.entries.length (some 0) :=
        List.ext_getElem (by simp) fun i _ _ => by simp
      simp [broadcast, settings, lags, Broadcast.foldl_subscribe, Broadcast.withBacklog, unread]
  have same : backlogLimit < (m.settings s).restartBacklog ↔ backlogLimit < s.restartBacklog := by
    cases lags : m.lags with
    | true => simp [settings, lags]
    | false => simp [settings, lags, fits lags]
  simp only [Run.acquire, signals, ← subscribed, same]
  split
  · rfl
  · split
    · rfl
    · split <;> rfl

theorem run_giveVerdict (r : Run) (v : Verdict) : m.run (r.giveVerdict v) = (m.run r).giveVerdict (m.verdict v) :=
  congrArg (fun x : Run => { x with stage := .returned (m.verdict v) r.now }) (run_mark r .returned)

theorem run_setUp (fits : m.lags = false → r.settings.restartBacklog ≤ backlogLimit) :
    m.run r.setUp = (m.run r).setUp := by
  have acquired : Run.acquire (m.run r).settings = _ := acquire_settings fits fun e => m.ahead (r.member e)
  rw [Run.setUp, Run.setUp, acquired]
  cases Run.acquire r.settings with
  | error f => exact run_giveVerdict { r with commandsClosed := true } (.fault f)
  | ok streams =>
    obtain ⟨shutdown, restart, broadcast⟩ := streams
    let r₁ : Run := { r with shutdownInbox := shutdown, restartInbox := restart, restarts := broadcast }
    have entries : (m.run r).settings.entries.length = r.settings.entries.length := List.length_map _
    have logged : m.run ((r₁.mark .setUp).log (.runStarting r.settings.entries.length)) =
        ((m.run r₁).mark .setUp).log (.runStarting (m.run r).settings.entries.length) := by
      rw [entries, run_log _ rfl, run_mark]
      rfl
    refine (congrArg (fun x : Run =>
      { x.spawn (Run.entryTasks r.settings.entries.length) with stage := .running {} }) logged).trans ?_
    rw [← entries]
    rfl

theorem event?_finish (fs : List Failure) :
    m.event? (if fs.isEmpty then .runFinished else .runFailed fs.length) =
      some (if (m.failures fs).isEmpty then .runFinished else .runFailed (m.failures fs).length) := by
  cases ends : m.ends <;> cases fs <;> simp [failures, event?, ends]

theorem verdict_ofFailures (fs : List Failure) : m.verdict (.ofFailures fs) = .ofFailures (m.failures fs) := by
  cases fs with
  | nil => cases ends : m.ends <;> simp [failures, ends, Verdict.ofFailures, verdict]
  | cons f fs => cases ends : m.ends <;> simp [failures, ends, Verdict.ofFailures, verdict]

theorem run_finish (r : Run) : m.run r.finish = (m.run r).finish := by
  have closed : m.run (Run.wake { r with restarts := r.restarts.close }) =
      Run.wake { m.run r with restarts := (m.run r).restarts.close } := by
    have closed : (m.run r).restarts.close = m.broadcast _ r.restarts.close := (broadcast_close _ _).symm
    rw [run_wake, closed]
    rfl
  simp only [Run.finish]
  rw [run_giveVerdict, run_log _ (event?_finish _), verdict_ofFailures, closed]
  rfl

theorem run_leave (r : Run) (deadline : Option Nat) : m.run (r.leave deadline) = (m.run r).leave deadline := by
  have now : (m.run r).now = r.now := rfl
  unfold Run.leave
  rw [allExited_run]
  split
  · exact run_finish r
  · cases deadline with
    | none => rfl
    | some d =>
      simp only [now]
      split
      · rw [run_finish, run_log _ rfl, stillRunning_run]
      · rfl

theorem graceEnd?_run (r : Run) : (m.run r).graceEnd? = r.graceEnd? := by
  have cause : (m.run r).cause.value = r.cause.value.map m.cause := rfl
  rw [Run.graceEnd?, Run.graceEnd?, cause]
  cases r.cause.value with
  | none => rfl
  | some c => cases c <;> rfl

theorem run_awaitStops (r : Run) : m.run r.awaitStops = (m.run r).awaitStops := by
  rw [Run.awaitStops, Run.awaitStops, allStopped_run, graceEnd?_run]
  split
  · exact run_leave { r with stage := .leaving r.graceEnd? } r.graceEnd?
  · rfl

theorem run_announce (r : Run) (c : Cause) : m.run (r.announce c) = (m.run r).announce (m.cause c) := by
  rw [Run.announce, run_log _ rfl, run_wake]
  exact congrArg₂ (fun (x : Run) l =>
      (Run.wake { x with commandsClosed := true, cause := l, stage := .stopping }).log (.shuttingDown (m.cause c)))
    (run_mark r (.shutDown c)) (fire_map m.cause r.cause c)

def sight (m : Mask) : Run.Sight → Run.Sight
  | .cause c => .cause (m.cause c)
  | s => s

theorem lookAtCommands_run (r : Run) (round : Round) :
    (m.run r).lookAtCommands round = (r.lookAtCommands round).map m.sight m.run := by
  have spent : (m.run r).isSpent = r.isSpent := rfl
  have commands : (m.run r).commands = r.commands := rfl
  have orphaned : (m.run r).orphaned = r.orphaned := rfl
  simp only [Run.lookAtCommands, spent, commands, orphaned]
  split
  · rfl
  · split
    · rfl
    · split
      · rename_i rest _
        refine congrArg (Prod.mk _) (Eq.symm ?_)
        rw [run_fire, run_log _ rfl, run_mark]
        rfl
      · rename_i rest _
        exact congrArg (Prod.mk _) (run_mark { r with commands := rest } (.obeyed .shutdown)).symm
      · split
        · rfl
        · rfl

theorem lookAtRestarts_run (r : Run) (round : Round) :
    (m.run r).lookAtRestarts round = (r.lookAtRestarts round).map m.sight m.run := by
  have spent : (m.run r).isSpent = r.isSpent := rfl
  have inbox : (m.run r).restartInbox = r.restartInbox := rfl
  simp only [Run.lookAtRestarts, spent, inbox]
  split
  · rfl
  · split
    · rename_i n inbox _
      refine congrArg (Prod.mk _) (Eq.symm ?_)
      rw [run_fire, run_log _ rfl, run_mark]
      rfl
    · split
      · exact lookAtCommands_run { r.spend with stage := .running { round with restartPassed := true } } _
      · exact lookAtCommands_run r round

theorem lookAtShutdowns_run (r : Run) (round : Round) :
    (m.run r).lookAtShutdowns round = (r.lookAtShutdowns round).map m.sight m.run := by
  have inbox : (m.run r).shutdownInbox = r.shutdownInbox := rfl
  simp only [Run.lookAtShutdowns, inbox]
  split
  · rfl
  · split
    · exact lookAtRestarts_run { r.spend with stage := .running { round with shutdownPassed := true } } _
    · exact lookAtRestarts_run r round

theorem look_run (r : Run) (round : Round) : (m.run r).look round = (r.look round).map m.sight m.run := by
  have spent : (m.run r).isSpent = r.isSpent := rfl
  have cancelled : (m.run r).cancelled = r.cancelled := rfl
  have exit : (m.run r).exit.value = r.exit.value.map m.label := rfl
  unfold Run.look
  rw [spent, cancelled, exit]
  split
  · rfl
  · split
    · rfl
    · cases r.exit.value with
      | some name => rfl
      | none => exact lookAtShutdowns_run r round

theorem run_attend (fuel : Nat) (r : Run) : m.run (Run.attend fuel r) = Run.attend fuel (m.run r) := by
  induction fuel generalizing r with
  | zero => rfl
  | succ fuel ih =>
    have stage : (m.run r).stage = m.stage r.stage := rfl
    rw [Run.attend, Run.attend, stage]
    cases r.stage with
    | running round =>
      simp only [Mask.stage]
      rw [look_run]
      generalize r.look round = x
      obtain ⟨sight, r₁⟩ := x
      cases sight with
      | cause c =>
        show m.run (r₁.shutDown c) = (m.run r₁).shutDown (m.cause c)
        rw [Run.shutDown, Run.shutDown, run_awaitStops, run_announce]
      | news => exact ih r₁
      | nothing => rfl
    | _ => rfl

theorem run_superviseTurn (fits : m.lags = false → r.settings.restartBacklog ≤ backlogLimit) :
    m.run r.superviseTurn = (m.run r).superviseTurn := by
  have stage : (m.run r).stage = m.stage r.stage := rfl
  have steps (r : Run) : (m.run r).attendSteps = r.attendSteps := rfl
  unfold Run.superviseTurn
  rw [stage]
  cases r.stage with
  | spawned =>
    simp only [Mask.stage]
    rw [run_attend, ← run_setUp fits]
    rfl
  | running round => exact run_attend _ r
  | stopping => exact run_awaitStops r
  | leaving deadline => exact run_leave r deadline
  | idle | returned => rfl

/-! ### Every turn -/

/-- What it takes to follow a task at its turn through the mask. The entries that it may speak of go by their labels, and a
mask that hides how far entries lag hides the restart task of an entry with it. -/
def Follows (m : Mask) (r : Run) : Task → Prop
  | .supervise => m.lags = false → r.settings.restartBacklog ≤ backlogLimit
  | .start e | .stop e => m.Names r e
  | .restart e => m.lags = true ∧ m.Names r e
  | _ => True

theorem follows_of_blank (blank : m.label "" = "") (lags : m.lags = true) (t : Task) : m.Follows r t := by
  cases t with
  | supervise => exact fun hidden => by simp [lags] at hidden
  | start e | stop e => exact names_of_blank blank
  | restart e => exact ⟨lags, names_of_blank blank⟩
  | watch | signal => trivial

theorem run_act {t : Task} (follows : m.Follows r t) : m.run (r.act t) = (m.run r).act t := by
  cases t with
  | supervise => exact run_superviseTurn follows
  | start e => exact run_startTurn follows
  | restart e => exact run_restartTurn follows.1 follows.2
  | stop e => exact run_stopTurn follows
  | watch w => exact run_watchTurn r w
  | signal n => exact run_signalTurn r n

theorem isOver_run (r : Run) (t : Task) : (m.run r).isOver t = r.isOver t := by
  cases t with
  | supervise =>
    show (m.stage r.stage).hasReturned = r.stage.hasReturned
    cases r.stage <;> rfl
  | start e =>
    rw [Run.isOver, Run.isOver, member_run]
    exact isEnded_call _
  | restart e =>
    rw [Run.isOver, Run.isOver, member_run]
    rfl
  | stop e =>
    rw [Run.isOver, Run.isOver, member_run]
    exact isEnded_call _
  | watch w =>
    simp only [Run.isOver, run, List.getElem?_map, Option.join_map_eq_map_join, Option.isSome_map]
  | signal => rfl

/-- How a turn is seen to end, once the task was seen to act. -/
theorem run_turn_of_act (r : Run) (t : Task) : m.run (r.turn t) =
    let x := m.run ({ r with budget := r.quota, deferred := r.deferred.erase t }.act t)
    if x.isOver t then x else x.park t (r.placeKept t) := by
  rw [Run.turn]
  dsimp only
  rw [isOver_run]
  split <;> rfl

theorem goesOn_run (r : Run) : (m.run r).goesOn = r.goesOn := by
  have stage : (m.run r).stage = m.stage r.stage := rfl
  simp only [Run.goesOn, stage, isCalled_run]
  cases r.stage <;> rfl

theorem run_turn {t : Task} (follows : m.Follows r t) : m.run (r.turn t) = (m.run r).turn t := by
  have followed : m.Follows { r with budget := r.quota, deferred := r.deferred.erase t } t := by
    cases t <;> exact follows
  have kept : (m.run r).placeKept t = r.placeKept t := by
    simp only [Run.placeKept, goesOn_run]
    rfl
  rw [run_turn_of_act, run_act followed, ← kept]
  rfl

/-- Two runs that look alike, each through its own mask, are seen to have the same task at its turn. -/
theorem tick_alike {m' : Mask} (alike : m.run r = m'.run r')
    (turns : ∀ t rest, r.ready = t :: rest → r'.ready = t :: rest →
      m.run (Run.turn { r with ready := rest } t) = m'.run (Run.turn { r' with ready := rest } t)) :
    Option.Rel (fun r r' => m.run r = m'.run r') r.tick? r'.tick? := by
  have ready : r.ready = r'.ready := show (m.run r).ready = (m'.run r').ready from congrArg Run.ready alike
  unfold Run.tick?
  cases queue : r.ready with
  | nil =>
    rw [← ready, queue]
    exact .none
  | cons t rest =>
    have queue' : r'.ready = t :: rest := ready.symm.trans queue
    rw [queue']
    exact .some (turns t rest queue queue')

theorem turn_alike {m' : Mask} {t : Task} {rest : List Task} (alike : m.run r = m'.run r') (follows : m.Follows r t)
    (follows' : m'.Follows r' t) :
    m.run (Run.turn { r with ready := rest } t) = m'.run (Run.turn { r' with ready := rest } t) := by
  have followed {m : Mask} {r : Run} (follows : m.Follows r t) : m.Follows { r with ready := rest } t := by
    cases t <;> exact follows
  rw [run_turn (followed follows), run_turn (followed follows')]
  exact congrArg (fun x : Run => Run.turn { x with ready := rest } t) alike

/-! ### The caller -/

theorem sendTimes_run (c : Command) (times : Nat) (x : Answer × Run) :
    Run.sendTimes c times (x.map id m.run) = (Run.sendTimes c times x).map id m.run := by
  induction times generalizing x with
  | zero => rfl
  | succ times ih =>
    obtain ⟨answer, r⟩ := x
    simp only [Run.sendTimes, Prod.map_apply, run_send]
    exact ih (.command (r.send c).1, (r.send c).2)

theorem perform_run {a : Action} (instant : a.isInstant = true) (r : Run) :
    (m.run r).perform a = (r.perform a).map id m.run := by
  have idle : (m.run r).stage = .idle ↔ r.stage = .idle := by
    show m.stage r.stage = .idle ↔ _
    cases r.stage <;> simp [stage]
  have held : (m.run r).handleHeld = r.handleHeld := rfl
  cases a with
  | run =>
    simp only [Run.perform, idle]
    split <;> rfl
  | cancel => exact congrArg (Prod.mk _) (run_cancel r).symm
  | command c times => exact sendTimes_run c times (.nothing, r)
  | release service =>
    have entries : (m.run r).settings.entries[service]? =
        r.settings.entries[service]?.map fun entry => { entry with name := m.label entry.name } :=
      List.getElem?_map
    simp only [Run.perform, entries]
    cases r.settings.entries[service]? with
    | none => rfl
    | some entry => exact congrArg (Prod.mk _) (run_release r entry.service).symm
  | dropHandle => exact congrArg (Prod.mk _) (run_dropHandle r).symm
  | newHandle =>
    simp only [Run.perform, idle]
    split <;> rfl
  | watch =>
    have watches : (m.run r).watches.length = r.watches.length := List.length_map _
    simp only [Run.perform, held, watches]
    split
    · simp only [Prod.map_apply, run, Run.spawn, List.map_append]
      rfl
    · rfl
  | unknown => rfl
  | raise | wait => cases instant

/-! ### Two runs through a mask -/

theorem nextDeadline?_run (r : Run) : (m.run r).nextDeadline? = r.nextDeadline? := by
  have pauses (p : Pause) : (m.pause p).deadline? = p.deadline? := by
    cases p <;> rfl
  have calls (x : CallState) : (m.call x).pause?.bind Pause.deadline? = x.pause?.bind Pause.deadline? := by
    cases x with
    | ongoing p => exact pauses p
    | _ => rfl
  have deadlines : (m.run r).deadline? = r.deadline? := by
    funext t
    cases t with
    | supervise =>
      have stage : (m.run r).stage = m.stage r.stage := rfl
      rw [Run.deadline?, Run.deadline?, stage]
      cases r.stage <;> rfl
    | start e =>
      simp only [Run.deadline?, Run.pause?, member_run]
      exact calls _
    | restart e =>
      simp only [Run.deadline?, Run.pause?, member_run, member]
      cases (r.member e).restarting with
      | none => rfl
      | some p => exact pauses p
    | stop e =>
      simp only [Run.deadline?, Run.pause?, member_run]
      exact calls _
    | watch | signal => rfl
  rw [Run.nextDeadline?, Run.nextDeadline?, deadlines]
  rfl

theorem progression_run (r : Run) : (m.run r).progression = r.progression := by
  have stage : (m.run r).stage = m.stage r.stage := rfl
  rw [Run.progression, Run.progression, stage]
  cases r.stage <;> rfl

/-! Whatever time passes and whatever is done to two runs that look alike, they go on looking alike. -/

theorem pass_alike {m' : Mask} (alike : m.run r = m'.run r') (time : Nat) :
    m.run (Run.wake { r with now := time }) = m'.run (Run.wake { r' with now := time }) := by
  rw [run_wake, run_wake]
  exact congrArg (fun x : Run => Run.wake { x with now := time }) alike

theorem perform_alike {m' : Mask} (alike : m.run r = m'.run r') {a : Action} (instant : a.isInstant = true) :
    (r.perform a).1 = (r'.perform a).1 ∧ m.run (r.perform a).2 = m'.run (r'.perform a).2 := by
  have performed : (r.perform a).map id m.run = (r'.perform a).map id m'.run := by
    rw [← perform_run instant, ← perform_run instant, alike]
  exact Prod.ext_iff.mp performed

theorem nextDeadline?_alike {m' : Mask} (alike : m.run r = m'.run r') : r.nextDeadline? = r'.nextDeadline? := by
  rw [← nextDeadline?_run (m := m), alike, nextDeadline?_run]

theorem progression_alike {m' : Mask} (alike : m.run r = m'.run r') : r.progression = r'.progression := by
  rw [← progression_run (m := m), alike, progression_run]

/-- Runs that look alike go on looking alike. -/
theorem simulation (blank : m.label "" = "") (lags : m.lags = true) : Run.Simulation fun r r' => m.run r = m.run r' where
  tick alike := tick_alike alike fun t _ _ _ =>
    turn_alike alike (follows_of_blank blank lags t) (follows_of_blank blank lags t)
  takeUp alike := congrArg Run.takeUp alike
  pass := pass_alike
  signal alike n := congrArg (Run.spawn · [.signal n]) alike
  act := perform_alike
  now {r r'} alike := show (m.run r).now = (m.run r').now from congrArg Run.now alike
  nextDeadline? := nextDeadline?_alike
  isSettled {r r'} alike := show (m.run r).isSettled = (m.run r').isSettled from congrArg Run.isSettled alike
  progression := progression_alike

end Mask

end Supervision
