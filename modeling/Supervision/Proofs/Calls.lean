import Supervision.Proofs.Queue

/-! The turns of the tasks that call the services are made of acts. A call proceeds by asides until it ends or comes to a
wait that is not over, the loop of a restart task has fuel enough, and whoever parks cannot go on as things are. -/

namespace Supervision

namespace Run

variable {settings : Settings} {services : List Service} {r r' r'' : Run} {t : Task} {e : Nat} {phase : Phase}

/-! ### Calls -/

/-- Some asides at a turn of `t`. -/
def Asides (t : Task) : Run → Run → Prop :=
  Relation.ReflTransGen fun r r' => ∃ os, Aside t os r r'

theorem Aside.asides {os : List Occurrence} (h : Aside t os r r') : Asides t r r' :=
  .single ⟨os, h⟩

theorem Asides.acts (h : Asides t r r') : Acts t r r' :=
  Relation.ReflTransGen.mono (fun _ _ ⟨os, aside⟩ => ⟨os, .aside aside⟩) r r' h

theorem Asides.spares (h : Asides t r r') : Spares r r' := by
  induction h with
  | refl => exact Spares.refl r
  | tail _ aside ih =>
    obtain ⟨_, aside⟩ := aside
    exact ih.trans aside.spares

/-- What a paused call waits for has not come, or the task was put off. -/
def Pends (r : Run) (e : Nat) (phase : Phase) (p : Pause) : Prop :=
  r.lets (r.serviceOf e) p = false ∨ .ofCall e phase ∈ r.deferred

/-- A call of `e` gets by asides to where it gives up its turn. -/
def Proceeds (e : Nat) (phase : Phase) (r : Run) (x : Progress × Run) : Prop :=
  Asides (.ofCall e phase) r x.2 ∧
    ∀ p, x.1 = .paused p → x.2.Pends e phase p ∧ x.2.MayAwait (.ofCall e phase) p

theorem Proceeds.after {x : Progress × Run} (h : Asides (.ofCall e phase) r r') (h' : Proceeds e phase r' x) :
    Proceeds e phase r x :=
  ⟨h.trans h'.1, h'.2⟩

theorem proceeds_ended (r : Run) (o : Outcome) : Proceeds e phase r (.ended o, r) :=
  ⟨.refl, fun _ h => by cases h⟩

theorem proceeds_paused {p : Pause} (h : r.lets (r.serviceOf e) p = false) (may : r.MayAwait (.ofCall e phase) p) :
    Proceeds e phase r (.paused p, r) :=
  ⟨.refl, fun _ hp => by cases hp; exact ⟨.inl h, may⟩⟩

theorem mayAwait_of_none {p : Pause} (h : p.cause? = none) : r.MayAwait t p :=
  .inr fun c some => by rw [h] at some; cases some

theorem asides_deferIfSpent (r : Run) (t : Task) : Asides t r (r.deferIfSpent t) := by
  unfold deferIfSpent
  split
  · exact (Aside.defer r).asides
  · exact .refl

theorem asides_spendReading (r : Run) (t : Task) : Asides t r r.spendReading := by
  unfold spendReading
  split
  · exact .refl
  · exact (Aside.spend r).asides

theorem lets_deferIfSpent (r : Run) (t : Task) (service : Nat) (p : Pause) :
    (r.deferIfSpent t).lets service p = r.lets service p := by
  unfold deferIfSpent
  split
  · cases p <;> rfl
  · rfl

theorem serviceOf_of_settings (h : r'.settings = r.settings) (e : Nat) : r'.serviceOf e = r.serviceOf e := by
  simp only [serviceOf, h]

/-- A task whose budget is used up is put off, whether its wait is over or not. -/
theorem proceeds_deferIfSpent {p : Pause} (h : r.isSpent = true ∨ r.lets (r.serviceOf e) p = false)
    (known : ∀ c, p.cause? = some c → r.cause.value = some c) :
    Proceeds e phase r (.paused p, r.deferIfSpent (.ofCall e phase)) := by
  have asides := asides_deferIfSpent r (.ofCall e phase)
  refine ⟨asides, fun _ hp => ?_⟩
  cases hp
  refine ⟨?_, .inr (asides.spares.cause.symm ▸ known)⟩
  rcases h with spent | waits
  · right
    simp [deferIfSpent, spent, defer]
  · left
    show (r.deferIfSpent _).lets ((r.deferIfSpent _).serviceOf e) p = false
    rw [serviceOf_of_settings asides.spares.settings, lets_deferIfSpent, waits]

/-- A wait for what has come already is over at once. -/
theorem Proceeds.wait {c : Bool} {p : Pause} {x : Progress × Run} (atOnce : Proceeds e phase r x)
    (waits : c = false → r.lets (r.serviceOf e) p = false) (plain : p.cause? = none) :
    Proceeds e phase r (if c then x else (.paused p, r)) := by
  cases c with
  | true => exact atOnce
  | false => exact proceeds_paused (waits rfl) (mayAwait_of_none plain)

/-- So is a wait that takes no time, if there is budget for it. -/
theorem Proceeds.waitUntil {ms : Nat} {p : Pause} {x : Progress × Run} (atOnce : Proceeds e phase r.spend x)
    (waits : ms ≠ 0 → r.lets (r.serviceOf e) p = false) (plain : p.cause? = none) :
    Proceeds e phase r (if ms = 0 && !r.isSpent then x else (.paused p, r.deferIfSpent (.ofCall e phase))) := by
  split
  · exact atOnce.after (Aside.spend r).asides
  · rename_i waiting
    refine proceeds_deferIfSpent ?_ (by simp [plain])
    cases spent : r.isSpent with
    | true => exact .inl rfl
    | false => exact .inr (waits fun instant => waiting (by simp [instant, spent]))

theorem lets_noting (r : Run) (service : Nat) (c : Cause) (next : Behaviour) :
    r.lets service (.noting (r.now + noteDelay) c next) = false := by
  have later : ¬ r.now + noteDelay ≤ r.now := by
    unfold noteDelay
    omega
  simp only [lets, later, decide_false]

theorem effect_send (r : Run) (c : Command) : (r.send c).2 = r ∨ Effect [.accepted c] r (r.send c).2 := by
  unfold send
  split
  · exact .inl rfl
  · rename_i held
    split
    · exact .inl rfl
    · rename_i accepts
      exact .inr (.send (by simpa using held) (by simpa using accepts) c)

theorem proceeds_follow (e : Nat) (phase : Phase) (b : Behaviour) (r : Run) :
    Proceeds e phase r (follow e phase b r) := by
  induction b generalizing r with
  | done | fail | panic => exact proceeds_ended r _
  | never => exact proceeds_paused rfl (mayAwait_of_none rfl)
  | sleep ms next ih =>
    refine (ih r.spend).waitUntil (fun takes => ?_) rfl
    simp only [lets, decide_eq_false_iff_not]
    omega
  | awaitRelease next ih | awaitCancel next ih => exact (ih r).wait id rfl
  | awaitReleaseFor ms next ih =>
    rw [follow]
    split
    · exact proceeds_ended r _
    · rename_i unreleased
      refine (ih r.spend).waitUntil (fun takes => ?_) rfl
      simp only [lets, unreleased, Bool.false_or, decide_eq_false_iff_not]
      omega
  | awaitCause next ih =>
    rw [follow]
    split
    · rename_i held
      refine Proceeds.after (Aside.lend held).asides (proceeds_deferIfSpent (.inr ?_) ?_)
      · cases cause : r.cause.value with
        | none => simp [lets, Latch.isFired, cause]
        | some c => exact lets_noting _ _ c next
      · cases cause : r.cause.value with
        | none => simp [Pause.cause?]
        | some c => simp [Pause.cause?]
    · exact ih r
  | release service next ih => exact (ih _).after (Aside.effect (.release r _)).asides
  | cancel next ih => exact (ih _).after (Aside.effect (.cancel r)).asides
  | command c next ih =>
    have sent : Asides (.ofCall e phase) r (r.send c).2 := by
      rcases effect_send r c with same | effect
      · rw [same]
        exact .refl
      · exact (Aside.effect effect).asides
    let answer : Occurrence := .answered e phase c (r.send c).1
    have answered : Asides (.ofCall e phase) (r.send c).2 ((r.send c).2.mark answer) :=
      (Aside.note answer rfl trivial).asides
    exact (ih _).after (sent.trans answered)
  | note next ih => exact (ih _).after (Aside.note (.noted e phase r.cancelled r.view) rfl rfl).asides
  | ifCancelled yes no ihYes ihNo =>
    rw [follow]
    split
    · exact ihYes r
    · exact ihNo r

theorem proceeds_resume {p : Pause} (h : r.pause? (.ofCall e phase) = some p) :
    Proceeds e phase r (r.resume e phase p) := by
  unfold resume
  split
  · rename_i finished
    cases p with
    | never => simp [lets] at finished
    | «until» d next => exact (proceeds_follow e phase next _).after (Aside.spend r).asides
    | release next | cancel next => exact proceeds_follow e phase next r
    | releaseUntil d next =>
      dsimp only
      split
      · exact proceeds_ended r _
      · exact (proceeds_follow e phase next _).after (Aside.spend r).asides
    | cause next =>
      cases cause : r.cause.value with
      | none => simp [lets, Latch.isFired, cause] at finished
      | some c =>
        refine Proceeds.after (Aside.spend r).asides (proceeds_deferIfSpent (.inr (lets_noting _ _ c next)) ?_)
        intro c' same
        cases same
        exact cause
    | noting d c next =>
      have knows : r.spend.pause? (.ofCall e phase) = some (.noting d c next) := by
        cases phase <;> exact h
      refine (proceeds_follow e phase next _).after ?_
      exact (Aside.spend r).asides.trans (Aside.note (.learned e phase c) rfl ⟨_, knows, rfl⟩).asides
  · rename_i waits
    exact proceeds_paused (by simpa using waits) (.inl h)

/-! ### Rest -/

/-- At the end of its turn a task is over, or it cannot go on as things are. -/
def Rests (r : Run) (t : Task) : Prop :=
  r.isOver t = true ∨ r.canGoOn t = false ∧ r.MayPark t

theorem isDue_of_isDueEarly (h : r.isDueEarly t = true) : r.isDue t = true := by
  cases t with
  | supervise =>
    cases stage : r.stage <;> simp_all [isDueEarly, isDue, isCalled]
  | _ => cases h

theorem canGoOn_of_not_isDue (h : r.isDue t = false) : r.canGoOn t = false := by
  unfold canGoOn
  split
  · cases early : r.isDueEarly t
    · rfl
    · rw [isDue_of_isDueEarly early] at h
      cases h
  · exact h

theorem canGoOn_of_mem_deferred (h : t ∈ r.deferred) (early : r.isDueEarly t = false) : r.canGoOn t = false := by
  rw [canGoOn, if_pos h, early]

theorem Pends.canGoOn {p : Pause} (h : r.Pends e phase p)
    (due : r.isDue (.ofCall e phase) = r.lets (r.serviceOf e) p) : r.canGoOn (.ofCall e phase) = false := by
  rcases h with waits | deferred
  · exact canGoOn_of_not_isDue (due.trans waits)
  · exact canGoOn_of_mem_deferred deferred (by cases phase <;> rfl)

theorem Pends.update {p : Pause} (h : r.Pends e phase p) (f : Member → Member) : (r.update e f).Pends e phase p := by
  refine h.imp_left fun waits => ?_
  rw [← waits]
  cases p <;> rfl

/-! ### Start and stop calls -/

theorem acts_keepStart {x : Progress × Run} {p : Pause} (h : (r.member e).start = .ongoing p)
    (proceeds : Proceeds e .start r x) : Acts (.start e) r (keepStart e x) ∧ (keepStart e x).Rests (.start e) := by
  obtain ⟨progress, r₁⟩ := x
  obtain ⟨asides, pends⟩ := proceeds
  have h₁ : (r₁.member e).start = .ongoing p := by rw [member_of_members asides.spares.members, h]
  have he : e < r₁.members.length := lt_of_start_ne_ended (by simp [h₁])
  cases progress with
  | paused p' =>
    obtain ⟨pends, may⟩ := pends p' rfl
    refine ⟨asides.acts.tail ⟨_, .pauseStart h₁ may⟩, .inr ?_⟩
    have paused : ((r₁.update e fun m => { m with start := .ongoing p' }).member e).start = .ongoing p' := by
      rw [member_modify rfl he]
    refine ⟨(pends.update _).canGoOn ?_, ?_⟩
    · simp only [isDue, Task.ofCall, paused]
    · simp [keepStart, paused]
  | ended o =>
    refine ⟨asides.acts.tail ⟨_, .endStart h₁ o⟩, .inl ?_⟩
    simp only [isOver, keepStart, member_modify (r₁.members_endStart e o) he, CallState.isEnded]

theorem acts_startTurn (r : Run) (e : Nat) :
    Acts (.start e) r (r.startTurn e) ∧ (r.startTurn e).Rests (.start e) := by
  cases h : (r.member e).start with
  | unbegun =>
    have he : e < r.members.length := lt_of_start_ne_ended (by simp [h])
    let r₁ := ((r.log (.starting (r.nameOf e))).update e fun m => { m with start := .ongoing .never }).mark
      (.began e .start)
    have began : Act (.start e) [.began e .start] r r₁ := .beginStart h
    have members : r₁.members = r.members.modify e fun m => { m with start := .ongoing .never } := rfl
    have ongoing : (r₁.member e).start = .ongoing .never := by rw [member_modify members he]
    simp only [startTurn, h]
    obtain ⟨acts, rests⟩ := acts_keepStart ongoing (proceeds_follow e .start (r.service e).start r₁)
    exact ⟨acts.head ⟨_, began⟩, rests⟩
  | ongoing p =>
    simp only [startTurn, h]
    exact acts_keepStart h (proceeds_resume (by simp [Task.ofCall, pause?, h, CallState.pause?]))
  | ended =>
    simp only [startTurn, h]
    exact ⟨.refl, .inl (by simp [isOver, h, CallState.isEnded])⟩

theorem acts_keepStop {x : Progress × Run} {p : Pause} (h : (r.member e).stop = .ongoing p)
    (proceeds : Proceeds e .stop r x) : Acts (.stop e) r (keepStop e x) ∧ (keepStop e x).Rests (.stop e) := by
  obtain ⟨progress, r₁⟩ := x
  obtain ⟨asides, pends⟩ := proceeds
  have h₁ : (r₁.member e).stop = .ongoing p := by rw [member_of_members asides.spares.members, h]
  have he : e < r₁.members.length := lt_of_stop_ne_ended (by simp [h₁])
  cases progress with
  | paused p' =>
    obtain ⟨pends, may⟩ := pends p' rfl
    refine ⟨asides.acts.tail ⟨_, .pauseStop h₁ may⟩, .inr ⟨(pends.update _).canGoOn ?_, by simp⟩⟩
    have paused : ((r₁.update e fun m => { m with stop := .ongoing p' }).member e).stop = .ongoing p' := by
      rw [member_modify rfl he]
    simp only [isDue, Task.ofCall, paused]
  | ended o =>
    refine ⟨asides.acts.tail ⟨_, .endStop h₁ o⟩, .inl ?_⟩
    simp only [isOver, keepStop, member_modify (r₁.members_endStop e o) he, CallState.isEnded]

theorem acts_stopTurn (r : Run) (e : Nat) : Acts (.stop e) r (r.stopTurn e) ∧ (r.stopTurn e).Rests (.stop e) := by
  cases h : (r.member e).stop with
  | unbegun =>
    simp only [stopTurn, h]
    split
    · rename_i fired
      -- a stop task that had to wait for the cause begins with a little less budget
      obtain ⟨r₀, asides, hr₀⟩ : ∃ r₀, Asides (.stop e) r r₀ ∧ (if (r.member e).stopAwaited then r.spend else r) = r₀ := by
        split
        · exact ⟨_, (Aside.spend r).asides, rfl⟩
        · exact ⟨r, .refl, rfl⟩
      have h₀ : (r₀.member e).stop = .unbegun := by rw [member_of_members asides.spares.members, h]
      have he : e < r₀.members.length := lt_of_stop_ne_ended (by simp [h₀])
      let r₁ := ((r₀.log (.stopping (r₀.nameOf e))).update e fun m => { m with stop := .ongoing .never }).mark
        (.began e .stop)
      have began : Act (.stop e) [.began e .stop] r₀ r₁ := .beginStop h₀ (asides.spares.cause ▸ fired)
      have members : r₁.members = r₀.members.modify e fun m => { m with stop := .ongoing .never } := rfl
      have ongoing : (r₁.member e).stop = .ongoing .never := by rw [member_modify members he]
      simp only [beginStop, hr₀]
      obtain ⟨acts, rests⟩ := acts_keepStop ongoing (proceeds_follow e .stop (r₀.service e).stop r₁)
      exact ⟨asides.acts.trans (acts.head ⟨_, began⟩), rests⟩
    · rename_i unfired
      have unfired : r.cause.isFired = false := by simpa using unfired
      refine ⟨.single ⟨_, .awaitStop h unfired⟩, .inr ⟨canGoOn_of_not_isDue ?_, by simp⟩⟩
      have waiting : ((r.update e fun m => { m with stopAwaited := true }).member e).stop = .unbegun := by
        rw [member_modify rfl (lt_of_stop_ne_ended (by simp [h]))]
        exact h
      simp only [isDue, waiting]
      exact unfired
  | ongoing p =>
    simp only [stopTurn, h]
    exact acts_keepStop h (proceeds_resume (by simp [Task.ofCall, pause?, h, CallState.pause?]))
  | ended =>
    simp only [stopTurn, h]
    exact ⟨.refl, .inl (by simp [isOver, h, CallState.isEnded])⟩

/-! ### Restart calls -/

/-- What a restart task does when it has followed its call: it keeps where the call stands, or goes on after its end. -/
def keepRestart (e : Nat) (next : Run → Run) : Progress × Run → Run
  | (.paused p, r) => r.update e fun m => { m with restarting := some p }
  | (.ended o, r) => next (r.endRestart e o)

theorem acts_keepRestart {p p' : Pause} {r₁ : Run} (h : (r.member e).restarting = some p)
    (proceeds : Proceeds e .restart r (.paused p', r₁)) :
    Acts (.restart e) r (r₁.update e fun m => { m with restarting := some p' }) ∧
      (r₁.update e fun m => { m with restarting := some p' }).Rests (.restart e) := by
  obtain ⟨asides, pends⟩ := proceeds
  obtain ⟨pends, may⟩ := pends p' rfl
  have h₁ : (r₁.member e).restarting = some p := by rw [member_of_members asides.spares.members, h]
  have he : e < r₁.members.length := lt_of_restarting (by simp [h₁])
  have paused : ((r₁.update e fun m => { m with restarting := some p' }).member e).restarting = some p' := by
    rw [member_modify rfl he]
  refine ⟨asides.acts.tail ⟨_, .pauseRestart h₁ may⟩, .inr ⟨(pends.update _).canGoOn ?_, by simp [paused]⟩⟩
  simp only [isDue, Task.ofCall, paused]

/-- A restart call that ended leaves the rest of what is owed and unread as it was. -/
theorem acts_endRestart {p : Pause} {r₁ : Run} {o : Outcome} (h : (r.member e).restarting = some p)
    (proceeds : Proceeds e .restart r (.ended o, r₁)) :
    Acts (.restart e) r (r₁.endRestart e o) ∧ ((r₁.endRestart e o).member e).restarting = none ∧
      ((r₁.endRestart e o).member e).owed = (r.member e).owed ∧ (r₁.endRestart e o).restarts = r.restarts := by
  obtain ⟨asides, -⟩ := proceeds
  have h₁ : r₁.member e = r.member e := member_of_members asides.spares.members e
  have he : e < r₁.members.length := lt_of_restarting (by simp [h₁, h])
  have members := r₁.members_endRestart e o
  refine ⟨asides.acts.tail ⟨_, .endRestart (h₁ ▸ h) o⟩, ?_, ?_, ?_⟩
  · rw [member_modify members he]
  · rw [member_modify members he, h₁]
  · simp only [endRestart, update, report, markEnd, mark]
    exact asides.spares.restarts

theorem owed_takeFirings_le (r : Run) (e n : Nat) (b : Broadcast) : ((r.takeFirings e n b).member e).owed ≤ n := by
  have members := r.members_takeFirings e n b
  by_cases he : e < r.members.length
  · exact Nat.le_of_eq (congrArg Member.owed (member_modify members he))
  · rw [member_of_le (by simpa [members] using he)]
    exact Nat.zero_le n

theorem restarting_takeFirings (r : Run) (e n : Nat) (b : Broadcast) :
    ((r.takeFirings e n b).member e).restarting = (r.member e).restarting := by
  have members := r.members_takeFirings e n b
  by_cases he : e < r.members.length
  · rw [member_modify members he]
  · rw [member_of_le (Nat.not_lt.mp he), member_of_le (by simpa [members] using he)]

theorem retired_update (r : Run) (e : Nat) : ((r.update e fun m => { m with retired := true }).member e).retired = true := by
  by_cases he : e < r.members.length
  · rw [member_modify rfl he]
  · rw [member_of_le (by simpa [update] using he)]

/-- The call that answers a firing gets to where it gives up its turn, or ends with one firing less to answer. -/
theorem acts_beginRestart (idle : (r.member e).restarting = none) (owes : (r.member e).owed ≠ 0) :
    match r.beginRestart e with
    | (.paused p, r') => Acts (.restart e) r (r'.update e fun m => { m with restarting := some p }) ∧
        (r'.update e fun m => { m with restarting := some p }).Rests (.restart e)
    | (.ended o, r') => Acts (.restart e) r (r'.endRestart e o) ∧ ((r'.endRestart e o).member e).restarting = none ∧
        ((r'.endRestart e o).member e).owed = (r.member e).owed - 1 ∧ (r'.endRestart e o).restarts = r.restarts := by
  have he : e < r.members.length := lt_of_owed owes
  let r₁ := ((r.log (.restarting (r.nameOf e))).update e fun m =>
    { m with owed := m.owed - 1, restarts := m.restarts + 1, restarting := some .never }).mark (.began e .restart)
  have began : Act (.restart e) [.began e .restart] r r₁ := .beginRestart idle owes
  have members : r₁.members = r.members.modify e fun m =>
    { m with owed := m.owed - 1, restarts := m.restarts + 1, restarting := some .never } := rfl
  have calling : (r₁.member e).restarting = some .never := by rw [member_modify members he]
  have proceeds := proceeds_follow e .restart ((r.service e).restart (r.total (r.serviceOf e) Member.restarts)) r₁
  have same : r.beginRestart e = follow e .restart _ r₁ := rfl
  rw [same]
  split
  · rename_i p r₂ follows
    obtain ⟨acts, rests⟩ := acts_keepRestart calling (follows ▸ proceeds)
    exact ⟨acts.head ⟨_, began⟩, rests⟩
  · rename_i o r₂ follows
    obtain ⟨acts, idle', owed, restarts⟩ := acts_endRestart calling (follows ▸ proceeds)
    have owed₁ : (r₁.member e).owed = (r.member e).owed - 1 := by rw [member_modify members he]
    exact ⟨acts.head ⟨_, began⟩, idle', owed.trans owed₁, restarts⟩

/-- Each reading tells of firings and is paid back by them, so the steps suffice until nothing is left. -/
theorem acts_restartLoop {fuel : Nat} (idle : (r.member e).restarting = none)
    (enough : (r.member e).owed + 2 * r.restarts.unread e < fuel) :
    Acts (.restart e) r (restartLoop e fuel r) ∧ (restartLoop e fuel r).Rests (.restart e) := by
  induction fuel generalizing r with
  | zero => omega
  | succ fuel ih =>
    rw [restartLoop]
    split
    · rename_i none
      split
      · exact ⟨.single ⟨_, .aside (.defer r)⟩, .inr ⟨canGoOn_of_mem_deferred (by simp [defer]) rfl, fun _ => none⟩⟩
      · split
        · rename_i n b reading
          have asides := r.asides_spendReading (.restart e)
          have same := member_of_members asides.spares.members e
          have act : Act (.restart e) [] r.spendReading (r.spendReading.takeFirings e n b) :=
            .takeFirings (same ▸ idle) (same ▸ none) (asides.spares.restarts ▸ reading)
          have less := Broadcast.told_add_twice_unread_lt reading
          have owed := r.spendReading.owed_takeFirings_le e n b
          have still : ((r.spendReading.takeFirings e n b).member e).restarting = .none := by
            rw [restarting_takeFirings, same]
            exact idle
          have unread : (r.spendReading.takeFirings e n b).restarts.unread e = b.unread e := rfl
          obtain ⟨acts, rests⟩ := ih still (by rw [unread]; omega)
          exact ⟨asides.acts.trans (acts.head ⟨_, act⟩), rests⟩
        · rename_i b reading
          refine ⟨.single ⟨_, .retire idle none reading⟩, .inl ?_⟩
          exact retired_update r e
        · rename_i b reading
          refine ⟨.refl, .inr ⟨canGoOn_of_not_isDue ?_, fun _ => none⟩⟩
          simp only [isDue, idle]
          exact Broadcast.hasNews_of_next_pending reading
    · rename_i owes
      have answers := acts_beginRestart idle owes
      split
      · rename_i p r₁ begins
        rwa [begins] at answers
      · rename_i o r₁ begins
        rw [begins] at answers
        obtain ⟨acts, idle', owed, restarts⟩ := answers
        obtain ⟨acts', rests⟩ := ih idle' (by rw [owed, restarts]; omega)
        exact ⟨acts.trans acts', rests⟩

theorem acts_restartAll (idle : (r.member e).restarting = none) :
    Acts (.restart e) r (r.restartAll e) ∧ (r.restartAll e).Rests (.restart e) :=
  acts_restartLoop idle (by unfold restartSteps; omega)

theorem acts_restartTurn (r : Run) (e : Nat) :
    Acts (.restart e) r (r.restartTurn e) ∧ (r.restartTurn e).Rests (.restart e) := by
  cases h : (r.member e).restarting with
  | none =>
    simp only [restartTurn, h]
    exact acts_restartAll h
  | some p =>
    simp only [restartTurn, h]
    have proceeds : Proceeds e .restart r (r.resume e .restart p) := proceeds_resume h
    split
    · rename_i p' r₁ resumes
      exact acts_keepRestart h (resumes ▸ proceeds)
    · rename_i o r₁ resumes
      obtain ⟨acts, idle, -⟩ := acts_endRestart h (resumes ▸ proceeds)
      obtain ⟨acts', rests⟩ := acts_restartAll idle
      exact ⟨acts.trans acts', rests⟩

/-! ### Watchers and signals -/

theorem acts_watchTurn {w : Nat} (h : w < r.watches.length) :
    Acts (.watch w) r (r.watchTurn w) ∧ (r.watchTurn w).Rests (.watch w) := by
  cases cause : r.cause.value with
  | none =>
    simp only [watchTurn, cause]
    exact ⟨.refl, .inr ⟨canGoOn_of_not_isDue (by simp [isDue, Latch.isFired, cause]), by simp⟩⟩
  | some c =>
    simp only [watchTurn, cause]
    exact ⟨.single ⟨_, .learn cause⟩, .inl (by simp [isOver, h])⟩

theorem acts_signalTurn (r : Run) (n : Int) :
    Acts (.signal n) r (r.signalTurn n) ∧ (r.signalTurn n).Rests (.signal n) := by
  refine ⟨?_, .inl rfl⟩
  cases hears : r.stage.hearsSignals with
  | true =>
    simp only [signalTurn, hears, if_true]
    exact .single ⟨_, .deliver hears⟩
  | false =>
    simp only [signalTurn, hears, Bool.false_eq_true, if_false]
    exact .single ⟨_, .miss hears⟩

end Run

end Supervision
