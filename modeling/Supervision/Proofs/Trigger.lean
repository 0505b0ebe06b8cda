import Supervision.Proofs.Lifecycle
import Supervision.Proofs.Waking

/-! A run shuts down exactly when it was triggered. What can trigger it is kept, by the stream of shutdown signals, by the
queue of commands and by the latch of the first exit, until the supervising task acts on it; and the supervising task
acts on nothing else. -/

namespace Supervision

/-! ### Triggers -/

def sinceSetUp (os : List Occurrence) : List Occurrence :=
  os.dropWhile (· ≠ .setUp)

theorem sinceSetUp_append_of_not_mem {os : List Occurrence} (h : .setUp ∉ os) (os' : List Occurrence) :
    sinceSetUp (os ++ os') = sinceSetUp os' :=
  List.dropWhile_append_of_pos fun _ mem => decide_eq_true fun same => h (same ▸ mem)

theorem sinceSetUp_of_not_mem {os : List Occurrence} (h : .setUp ∉ os) : sinceSetUp os = [] := by
  have all := sinceSetUp_append_of_not_mem h []
  rwa [List.append_nil] at all

theorem sinceSetUp_append_of_mem {os : List Occurrence} (h : .setUp ∈ os) (os' : List Occurrence) :
    sinceSetUp (os ++ os') = sinceSetUp os ++ os' := by
  obtain ⟨before, after, rfl⟩ := List.append_of_mem h
  rw [List.append_assoc, List.cons_append]
  simp only [sinceSetUp, List.dropWhile_append]
  split <;> simp

theorem mem_sinceSetUp_append {o : Occurrence} {os os' : List Occurrence} (h : o ∈ sinceSetUp os) :
    o ∈ sinceSetUp (os ++ os') := by
  by_cases setUp : .setUp ∈ os
  · rw [sinceSetUp_append_of_mem setUp]
    exact List.mem_append_left _ h
  · rw [sinceSetUp_of_not_mem setUp] at h
    cases h

/-- The first start call to end was one of an entry of this name. It ended before the shutdown and before the run was
cancelled. -/
def FirstExit (entries : List Entry) (name : String) (os : List Occurrence) : Prop :=
  ∃ earlier later e entry o, os = earlier ++ .ended e .start o false :: later ∧ entries[e]? = some entry ∧
    entry.name = name ∧ (∀ e' o' flag, .ended e' .start o' flag ∉ earlier) ∧ .cancelled ∉ earlier ∧
    ∀ c, .shutDown c ∉ earlier

theorem FirstExit.append {entries : List Entry} {name : String} {os : List Occurrence} (h : FirstExit entries name os)
    (os' : List Occurrence) : FirstExit entries name (os ++ os') := by
  obtain ⟨earlier, later, e, entry, o, split, rest⟩ := h
  exact ⟨earlier, later ++ os', e, entry, o, by rw [split, List.append_assoc, List.cons_append], rest⟩

def Cause.Justified (settings : Settings) (earlier : List Occurrence) : Cause → Prop
  | .cancelled => .cancelled ∈ earlier
  | .signal n => n ∈ settings.signals.kinds .shutdown ∧ .raised n ∈ sinceSetUp earlier
  | .requested => .accepted .shutdown ∈ earlier
  | .exited name => FirstExit settings.entries name earlier

/-- Something has happened that a run shuts down for. -/
def Triggered (settings : Settings) (os : List Occurrence) : Prop :=
  .cancelled ∈ os ∨ (∃ n ∈ settings.signals.kinds .shutdown, .raised n ∈ sinceSetUp os) ∨
    (∃ e o flag, .ended e .start o flag ∈ os) ∨ .accepted .shutdown ∈ os

theorem Cause.Justified.triggered {settings : Settings} {c : Cause} {earlier later : List Occurrence}
    (h : c.Justified settings earlier) :
    Triggered settings (earlier ++ later) := by
  cases c with
  | cancelled => exact .inl (List.mem_append_left _ h)
  | signal n => exact .inr (.inl ⟨n, h.1, mem_sinceSetUp_append h.2⟩)
  | requested => exact .inr (.inr (.inr (List.mem_append_left _ h)))
  | exited name =>
    obtain ⟨before, after, e, entry, o, split, -⟩ := h
    refine .inr (.inr (.inl ⟨e, o, false, List.mem_append_left _ ?_⟩))
    exact split ▸ List.mem_append_right _ List.mem_cons_self

namespace Run

variable {settings : Settings} {services : List Service} {r r' : Run} {t : Task} {cur : Option Task} {e : Nat}
  {os : List Occurrence}

/-! ### Signals -/

theorem listen_spec {s : SignalSettings} {p : Purpose} {b : Inbox} (h : Inbox.listen s p = .ok b) :
    b = { kinds := s.kinds p, capacity := s.capacity } := by
  unfold Inbox.listen Inbox.subscribe at h
  split at h
  · cases h
  · split at h
    · cases h
    · exact (Except.ok.inj h).symm

theorem Act.shutdownInbox (h : Act t os r r') :
    (r'.shutdownInbox = r.shutdownInbox ∧ .setUp ∉ os ∧ ∀ n, .raised n ∈ os → r.stage.hearsSignals = false) ∨
    (∃ n, os = [.raised n] ∧ r.stage.hearsSignals = true ∧ r'.shutdownInbox = (r.shutdownInbox.deliver n).2) ∨
    (os = [.setUp] ∧ r.stage = .spawned ∧ Inbox.listen r.settings.signals .shutdown = .ok r'.shutdownInbox) ∨
    ∃ n rest, os = [.shutDown (.signal n)] ∧ r.shutdownInbox.queue = n :: rest ∧
      r'.shutdownInbox = { r.shutdownInbox with queue := rest } := by
  cases h with
  | aside h =>
    refine .inl ⟨h.spares.shutdownInbox, fun mem => ?_, fun n mem => ?_⟩
    · cases h.isAside _ mem
    · cases h.isAside _ mem
  | deliver hears =>
    right; left
    exact ⟨_, rfl, hears, rfl⟩
  | miss deaf => exact .inl ⟨rfl, by simp, fun _ _ => deaf⟩
  | equip spawned has => exact .inr (.inr (.inl ⟨rfl, spawned, (acquire_ok has).1⟩))
  | shutDown _ reason =>
    simp only [announce, mark, log, wake]
    cases reason with
    | signal queue => exact .inr (.inr (.inr ⟨_, _, rfl, queue, rfl⟩))
    | cancelled | exited | requested => exact .inl ⟨rfl, by simp, by simp⟩
  | endStart | endRestart | endStop | takeFirings | fail | receive | obey | finish | expire =>
    refine .inl ⟨?_, by simp, by simp⟩
    simp only [Run.endStart, Run.endRestart, Run.endStop, Run.takeFirings, Run.fail, Run.finish,
      giveVerdict, update, report, markEnd, mark, log, wake]
  | _ => exact .inl ⟨rfl, by simp, by simp⟩

/-- The stream of shutdown signals holds signals that the run listens for and that were raised since it was set up. As
long as the run has not shut down, every such signal leaves something in the stream. -/
structure Attentive (settings : Settings) (r : Run) : Prop where
  kinds : .setUp ∈ r.happened → r.shutdownInbox.kinds = settings.signals.kinds .shutdown ∧ 0 < r.shutdownInbox.capacity
  raised : ∀ n ∈ r.shutdownInbox.queue, n ∈ settings.signals.kinds .shutdown ∧ .raised n ∈ sinceSetUp r.happened
  noticed : r.stage.hasShutDown = false → ∀ n ∈ settings.signals.kinds .shutdown, .raised n ∈ sinceSetUp r.happened →
    r.shutdownInbox.queue ≠ []

theorem Attentive.same (h : Attentive settings r) (inbox : r'.shutdownInbox = r.shutdownInbox)
    (happened : r'.happened = r.happened ++ os) (unfired : r'.stage.hasShutDown = false → r.stage.hasShutDown = false)
    (notNow : .setUp ∉ os) (silent : r.stage.hasShutDown = false → .setUp ∈ r.happened → ∀ n, .raised n ∉ os) :
    Attentive settings r' where
  kinds setUp := by
    rw [inbox]
    exact h.kinds ((List.mem_append.mp (happened ▸ setUp)).resolve_right notNow)
  raised n mem := by
    rw [inbox] at mem
    rw [happened]
    exact (h.raised n mem).imp_right mem_sinceSetUp_append
  noticed open' n listed raised := by
    rw [inbox]
    rw [happened] at raised
    by_cases setUp : .setUp ∈ r.happened
    · rw [sinceSetUp_append_of_mem setUp] at raised
      refine h.noticed (unfired open') n listed ((List.mem_append.mp raised).resolve_right ?_)
      exact silent (unfired open') setUp n
    · rw [sinceSetUp_append_of_not_mem setUp, sinceSetUp_of_not_mem notNow] at raised
      cases raised

theorem hearsSignals_of_isSetUp {s : Stage} (setUp : s.isSetUp = true) (unfired : s.hasShutDown = false) :
    s.hearsSignals = true := by
  cases s <;> simp_all [Stage.isSetUp, Stage.hasShutDown, Stage.hearsSignals]

theorem isSetUp_of_hearsSignals {s : Stage} (hears : s.hearsSignals = true) : s.isSetUp = true := by
  cases s <;> simp_all [Stage.isSetUp, Stage.hearsSignals]

theorem Act.hasShutDown_of_not (h : Act t os r r') (unfired : r'.stage.hasShutDown = false) :
    r.stage.hasShutDown = false :=
  eq_false_of_imp (fun fired => h.stage_step.shutDown_iff.mpr (.inl fired)) unfired

theorem Attentive.deliver {n : Int} (h : Attentive settings r) (setUp : .setUp ∈ r.happened)
    (inbox : r'.shutdownInbox = (r.shutdownInbox.deliver n).2) (happened : r'.happened = r.happened ++ [.raised n])
    (unfired : r'.stage.hasShutDown = false → r.stage.hasShutDown = false) : Attentive settings r' := by
  obtain ⟨kinds, capacity⟩ := h.kinds setUp
  refine ⟨fun _ => ?_, fun m mem => ?_, fun open' m listed raised => ?_⟩
  · rw [inbox, Inbox.deliver, Inbox.kinds_offer, Inbox.capacity_offer]
    exact ⟨kinds, capacity⟩
  · rw [inbox] at mem
    rw [happened, sinceSetUp_append_of_mem setUp]
    rcases Inbox.mem_queue_deliver mem with old | ⟨rfl, listed⟩
    · exact (h.raised m old).imp_right (List.mem_append_left _)
    · exact ⟨kinds ▸ listed, List.mem_append_right _ (List.mem_singleton_self _)⟩
  · rw [happened, sinceSetUp_append_of_mem setUp] at raised
    rw [inbox]
    apply Inbox.queue_deliver_ne_nil
    rcases List.mem_append.mp raised with old | now
    · exact .inl (h.noticed (unfired open') m listed old)
    · cases List.mem_singleton.mp now
      exact .inr ⟨kinds ▸ listed, capacity⟩

theorem attentive_of_listen (fresh : .setUp ∉ r.happened)
    (listens : Inbox.listen settings.signals .shutdown = .ok r'.shutdownInbox)
    (happened : r'.happened = r.happened ++ [.setUp]) : Attentive settings r' := by
  have inbox := listen_spec listens
  refine ⟨fun _ => ?_, fun m mem => ?_, fun _ m _ raised => ?_⟩
  · rw [inbox]
    exact ⟨rfl, settings.signals.capacity_pos⟩
  · rw [inbox] at mem
    cases mem
  · rw [happened, sinceSetUp_append_of_not_mem fresh] at raised
    simp [sinceSetUp] at raised

theorem Attentive.take {n : Int} {rest : List Int} (h : Attentive settings r) (queue : r.shutdownInbox.queue = n :: rest)
    (inbox : r'.shutdownInbox = { r.shutdownInbox with queue := rest })
    (happened : r'.happened = r.happened ++ [.shutDown (.signal n)]) (fired : r'.stage.hasShutDown = true) :
    Attentive settings r' := by
  refine ⟨fun setUp => ?_, fun m mem => ?_, fun unfired => ?_⟩
  · rw [inbox]
    exact h.kinds ((List.mem_append.mp (happened ▸ setUp)).resolve_right (by simp))
  · rw [inbox] at mem
    rw [happened]
    exact (h.raised m (queue ▸ List.mem_cons_of_mem n mem)).imp_right mem_sinceSetUp_append
  · rw [fired] at unfired
    cases unfired

theorem Act.attentive (before : Passes settings services (some t) r) (h : Act t os r r') (ih : Attentive settings r) :
    Attentive settings r' := by
  rcases h.shutdownInbox with ⟨same, notNow, deaf⟩ | ⟨n, rfl, hears, delivered⟩ | ⟨rfl, spawned, listens⟩ |
    ⟨n, rest, rfl, queue, taken⟩
  · refine ih.same same h.happened h.hasShutDown_of_not notNow fun unfired setUp n raised => ?_
    rw [hearsSignals_of_isSetUp (before.isSetUp_iff.mpr setUp) unfired] at deaf
    cases deaf n raised
  · have setUp := before.isSetUp_iff.mp (isSetUp_of_hearsSignals hears)
    exact ih.deliver setUp delivered h.happened h.hasShutDown_of_not
  · exact attentive_of_listen (before.not_setUp (by rw [spawned]; rfl)) (before.settings_eq ▸ listens) h.happened
  · exact ih.take queue taken h.happened (h.stage_step.shutDown_iff.mpr (.inr ⟨_, List.mem_singleton_self _⟩))

theorem Passes.attentive (h : Passes settings services cur r) : Attentive settings r := by
  refine h.invariant (P := Attentive settings) ?_ ?_ ?_ ?_
  · intro quota
    exact ⟨fun setUp => (by cases setUp), fun n mem => (by cases mem), fun _ n _ raised => (by cases raised)⟩
  · exact fun _ _ _ _ _ ih => ⟨ih.kinds, ih.raised, ih.noticed⟩
  · intro os r r' _ h ih
    refine ih.same h.keeps.shutdownInbox h.happened (fun unfired => ?_) (fun mem => ?_) fun _ _ n mem => ?_
    · rwa [h.stage_congr (f := Stage.hasShutDown) rfl] at unfired
    · cases h.isAside _ mem
    · cases h.isAside _ mem
  · exact fun before h ih => h.attentive before ih

/-! ### Commands -/

theorem Effect.commands (h : Effect os r r') :
    (r'.commands = r.commands ∧ ∀ c, .accepted c ∉ os) ∨
    ∃ c, os = [.accepted c] ∧ r.handleHeld = true ∧ r'.commands = r.commands ++ [c] := by
  cases h with
  | cancel | release => exact .inl ⟨by simp only [wake], by simp⟩
  | send held _ c => exact .inr ⟨c, rfl, held, by simp only [wake]⟩

theorem Act.commands (h : Act t os r r') :
    (r'.commands = r.commands ∧ ∀ c, .accepted c ∉ os ∧ .obeyed c ∉ os) ∨
    (∃ c, os = [.accepted c] ∧ r.handleHeld = true ∧ r'.commands = r.commands ++ [c]) ∨
    (r.commands = .restart :: r'.commands ∧ os = [.obeyed .restart, .fired]) ∨
    r.commands = .shutdown :: r'.commands ∧ os = [.obeyed .shutdown, .shutDown .requested] := by
  cases h with
  | aside h =>
    have unobeyed (c : Command) : .obeyed c ∉ os := fun mem => by cases h.isAside _ mem
    cases h with
    | effect h =>
      rcases h.commands with ⟨same, none⟩ | sent
      · exact .inl ⟨same, fun c => ⟨none c, unobeyed c⟩⟩
      · exact .inr (.inl sent)
    | note o note =>
      refine .inl ⟨rfl, fun c => ⟨fun mem => ?_, unobeyed c⟩⟩
      cases List.mem_singleton.mp mem
      cases note
    | lend | spend | defer => exact .inl ⟨rfl, by simp⟩
  | obey _ queue => exact .inr (.inr (.inl ⟨queue, rfl⟩))
  | shutDown _ reason =>
    simp only [announce, mark, log, wake]
    cases reason with
    | requested queue => exact .inr (.inr (.inr ⟨queue, rfl⟩))
    | cancelled | exited | signal => exact .inl ⟨rfl, by simp⟩
  | endStart | endRestart | endStop | takeFirings | deliver | fail | equip | receive | finish | expire =>
    refine .inl ⟨?_, by simp⟩
    simp only [Run.endStart, Run.endRestart, Run.endStop, Run.takeFirings, Run.deliver, Run.fail, Run.equip, Run.finish,
      giveVerdict, update, report, markEnd, mark, log, spawn, wake]
  | _ => exact .inl ⟨rfl, by simp⟩

/-- The commands waiting were accepted, and as long as the run has not shut down, none to do so is lost. -/
structure Obedient (r : Run) : Prop where
  accepted : ∀ c ∈ r.commands, .accepted c ∈ r.happened
  kept : r.stage.hasShutDown = false → .accepted .shutdown ∈ r.happened → .shutdown ∈ r.commands

theorem Obedient.same (h : Obedient r) (commands : r'.commands = r.commands) (happened : r'.happened = r.happened ++ os)
    (unfired : r'.stage.hasShutDown = false → r.stage.hasShutDown = false) (none : ∀ c, .accepted c ∉ os) :
    Obedient r' where
  accepted c mem := by
    rw [happened]
    exact List.mem_append_left _ (h.accepted c (commands ▸ mem))
  kept open' mem := by
    rw [commands]
    exact h.kept (unfired open') ((List.mem_append.mp (happened ▸ mem)).resolve_right (none _))

theorem Obedient.sent {c : Command} (h : Obedient r) (commands : r'.commands = r.commands ++ [c])
    (happened : r'.happened = r.happened ++ [.accepted c])
    (unfired : r'.stage.hasShutDown = false → r.stage.hasShutDown = false) : Obedient r' where
  accepted c' mem := by
    rw [happened]
    rcases List.mem_append.mp (commands ▸ mem) with old | new
    · exact List.mem_append_left _ (h.accepted c' old)
    · rw [List.mem_singleton.mp new]
      exact List.mem_append_right _ (List.mem_singleton_self _)
  kept open' mem := by
    rw [commands]
    rcases List.mem_append.mp (happened ▸ mem) with old | new
    · exact List.mem_append_left _ (h.kept (unfired open') old)
    · cases List.mem_singleton.mp new
      exact List.mem_append_right _ (List.mem_singleton_self _)

theorem Act.obedient (h : Act t os r r') (ih : Obedient r) : Obedient r' := by
  rcases h.commands with ⟨same, none⟩ | ⟨c, rfl, -, sent⟩ | ⟨queue, rfl⟩ | ⟨queue, rfl⟩
  · exact ih.same same h.happened h.hasShutDown_of_not fun c => (none c).1
  · exact ih.sent sent h.happened h.hasShutDown_of_not
  · refine ⟨fun c mem => ?_, fun unfired mem => ?_⟩
    · rw [h.happened]
      exact List.mem_append_left _ (ih.accepted c (queue ▸ List.mem_cons_of_mem _ mem))
    · have kept := ih.kept (h.hasShutDown_of_not unfired) ((List.mem_append.mp (h.happened ▸ mem)).resolve_right (by simp))
      simpa [queue] using kept
  · refine ⟨fun c mem => ?_, fun unfired => ?_⟩
    · rw [h.happened]
      exact List.mem_append_left _ (ih.accepted c (queue ▸ List.mem_cons_of_mem _ mem))
    · rw [h.stage_step.shutDown_iff.mpr (.inr ⟨.requested, by simp⟩)] at unfired
      cases unfired

theorem Outside.hasShutDown (h : Outside os r r') : r'.stage.hasShutDown = r.stage.hasShutDown :=
  h.stage_congr (f := Stage.hasShutDown) rfl

theorem Outside.commands (h : Outside os r r') :
    (r'.commands = r.commands ∧ ∀ c, .accepted c ∉ os) ∨
    ∃ c, os = [.accepted c] ∧ r.handleHeld = true ∧ r'.commands = r.commands ++ [c] := by
  cases h with
  | effect h => exact h.commands
  | dropHandle | pass => exact .inl ⟨by simp only [Run.dropHandle, wake], by simp⟩
  | _ => exact .inl ⟨rfl, by simp⟩

theorem Passes.obedient (h : Passes settings services cur r) : Obedient r := by
  refine h.invariant (P := Obedient) ?_ (fun _ _ _ _ _ ih => ⟨ih.accepted, ih.kept⟩) ?_ fun _ h ih => h.obedient ih
  · intro quota
    exact ⟨fun c mem => (by cases mem), fun _ mem => (by cases mem)⟩
  · intro os r r' _ h ih
    have unfired : r'.stage.hasShutDown = false → r.stage.hasShutDown = false := h.hasShutDown ▸ id
    rcases h.commands with ⟨same, none⟩ | ⟨c, rfl, -, sent⟩
    · exact ih.same same h.happened unfired none
    · exact ih.sent sent h.happened unfired

theorem Act.listening {round' : Round} (h : Act t os r r') (running : r'.stage = .running round') :
    (∃ round, r.stage = .running round ∧ round'.listening = round.listening) ∨ round'.listening = true ∨
      r.orphaned = true ∧ r'.commands = [] := by
  cases h.advance with
  | stay same => exact .inl ⟨round', same ▸ running, rfl⟩
  | equip _ stage =>
    cases stage.symm.trans running
    exact .inr (.inl rfl)
  | pass round _ before stage listens =>
    cases stage.symm.trans running
    rcases listens with same | orphaned
    · exact .inl ⟨round, before, same⟩
    · exact .inr (.inr orphaned)
  | fail _ _ _ stage | shutDown _ _ _ _ stage | leave _ _ stage | finish _ _ _ stage => cases stage.symm.trans running

theorem Outside.unheld {round : Round} (h : Outside os r r') (running : r.stage = .running round)
    (unheld : r.handleHeld = false) : r'.handleHeld = false := by
  cases h with
  | effect h => rw [h.spares.handleHeld, unheld]
  | dropHandle => simp only [Run.dropHandle, wake]
  | newHandle idle =>
    rw [idle] at running
    cases running
  | takeUp | pass => exact unheld
  | watch | run | signal => exact unheld

/-- A run that no longer listens for commands has none, and nobody can send it any. -/
theorem Passes.deaf {round : Round} (h : Passes settings services cur r) (running : r.stage = .running round)
    (deaf : round.listening = false) : r.handleHeld = false ∧ r.commands = [] := by
  refine h.invariant (P := fun r => ∀ round, r.stage = .running round → round.listening = false →
    r.handleHeld = false ∧ r.commands = []) ?_ (fun _ _ _ _ _ ih => ih) ?_ ?_ round running deaf
  · intro quota round running
    cases running
  · intro os r r' _ h ih round running deaf
    have before : r.stage = .running round := h.stage_of running (by simp)
    obtain ⟨unheld, empty⟩ := ih round before deaf
    refine ⟨h.unheld before unheld, ?_⟩
    rcases h.commands with ⟨same, -⟩ | ⟨c, -, held, -⟩
    · rw [same, empty]
    · rw [unheld] at held
      cases held
  · intro t os r r' _ h ih round' running deaf
    rw [h.steady.handleHeld]
    rcases h.listening running with ⟨round, before, same⟩ | hears | ⟨orphaned, empty⟩
    · obtain ⟨unheld, empty⟩ := ih round before (same ▸ deaf)
      refine ⟨unheld, ?_⟩
      rcases h.commands with ⟨same, -⟩ | ⟨c, -, held, -⟩ | ⟨queue, -⟩ | ⟨queue, -⟩
      · rw [same, empty]
      · rw [unheld] at held
        cases held
      · rw [empty] at queue
        cases queue
      · rw [empty] at queue
        cases queue
    · rw [hears] at deaf
      cases deaf
    · simp only [Run.orphaned, Bool.and_eq_true, Bool.not_eq_true'] at orphaned
      exact ⟨orphaned.1, empty⟩

/-! ### Exits -/

theorem Act.exit (h : Act t os r r') :
    (r'.exit = r.exit ∧ ∀ e o flag, .ended e .start o flag ∉ os) ∨
    ∃ e o, t = .start e ∧ os = [.ended e .start o r.cancelled] ∧
      r'.exit = if !(r.cause.isFired || r.cancelled || r.exit.isFired) then r.exit.fire (r.nameOf e) else r.exit := by
  cases h with
  | aside h => exact .inl ⟨h.spares.exit, fun e o flag mem => by cases h.isAside _ mem⟩
  | endStart _ o =>
    refine .inr ⟨_, o, rfl, rfl, ?_⟩
    simp only [Run.endStart, wake]
    rfl
  | endRestart | endStop | takeFirings | deliver | fail | equip | receive | obey | finish | expire =>
    refine .inl ⟨?_, by simp⟩
    simp only [Run.endRestart, Run.endStop, Run.takeFirings, Run.deliver, Run.fail, Run.equip, Run.finish,
      giveVerdict, update, report, markEnd, mark, log, spawn, wake]
  | shutDown _ reason =>
    refine .inl ⟨?_, ?_⟩
    · cases reason <;> simp only [announce, mark, log, wake]
    · cases reason <;> simp
  | _ => exact .inl ⟨rfl, by simp⟩

/-- The latch holds the name of the first entry whose start call ended, and as long as nothing else has triggered the
shutdown, it has noticed any that did. -/
structure Watchful (settings : Settings) (r : Run) : Prop where
  first : ∀ name, r.exit.value = some name → FirstExit settings.entries name r.happened
  noticed : r.stage.hasShutDown = false → r.cancelled = false → r.exit.isFired = false →
    ∀ e o flag, .ended e .start o flag ∉ r.happened

theorem Watchful.same (h : Watchful settings r) (exit : r'.exit = r.exit) (happened : r'.happened = r.happened ++ os)
    (unfired : r'.stage.hasShutDown = false → r.stage.hasShutDown = false)
    (uncancelled : r'.cancelled = false → r.cancelled = false) (none : ∀ e o flag, .ended e .start o flag ∉ os) :
    Watchful settings r' where
  first name value := by
    rw [happened]
    exact (h.first name (exit ▸ value)).append os
  noticed open' uncancelled' unfired' e o flag mem := by
    rw [happened] at mem
    rw [exit] at unfired'
    rcases List.mem_append.mp mem with old | now
    · exact h.noticed (unfired open') (uncancelled uncancelled') unfired' e o flag old
    · exact none e o flag now

theorem Passes.firstExit (h : Passes settings services (some (.start e)) r) (ih : Watchful settings r) (o : Outcome)
    (unfired : r.cause.isFired = false) (uncancelled : r.cancelled = false) (first : r.exit.isFired = false) :
    FirstExit settings.entries (r.nameOf e) (r.happened ++ [.ended e .start o r.cancelled]) := by
  obtain ⟨entry, present⟩ := h.entry .start
  refine ⟨r.happened, [], e, entry, o, by rw [uncancelled], h.settings_eq ▸ present, (nameOf_of_entry present).symm,
    ih.noticed (h.isFired_eq ▸ unfired) uncancelled first, h.not_cancelled uncancelled,
    h.not_shutDown (h.isFired_eq ▸ unfired)⟩

theorem Act.uncancelled (h : Act t os r r') (uncancelled : r'.cancelled = false) : r.cancelled = false :=
  eq_false_of_imp (fun cancelled => h.cancelled_iff.mpr (.inl cancelled)) uncancelled

theorem Act.watchful (before : Passes settings services (some t) r) (h : Act t os r r') (ih : Watchful settings r) :
    Watchful settings r' := by
  rcases h.exit with ⟨same, none⟩ | ⟨e, o, rfl, rfl, exit⟩
  · exact ih.same same h.happened h.hasShutDown_of_not h.uncancelled none
  · cases alone : !(r.cause.isFired || r.cancelled || r.exit.isFired) with
    | true =>
      rw [alone, if_pos rfl] at exit
      simp only [Bool.not_eq_true', Bool.or_eq_false_iff] at alone
      obtain ⟨⟨unfired, uncancelled⟩, first⟩ := alone
      refine ⟨fun name value => ?_, fun _ _ unfired' => ?_⟩
      · have none : r.exit.value = none := by simpa [Latch.isFired] using first
        rw [exit, Latch.value_fire, none] at value
        cases value
        rw [h.happened]
        exact before.firstExit ih o unfired uncancelled first
      · rw [exit, Latch.isFired_fire] at unfired'
        cases unfired'
    | false =>
      rw [alone, if_neg Bool.false_ne_true] at exit
      refine ⟨fun name value => ?_, fun open' uncancelled unfired => ?_⟩
      · rw [h.happened]
        exact (ih.first name (exit ▸ value)).append _
      · have unfiredCause : r.cause.isFired = false := before.isFired_eq.trans (h.hasShutDown_of_not open')
        rw [exit] at unfired
        simp [unfiredCause, h.uncancelled uncancelled, unfired] at alone

theorem Passes.watchful (h : Passes settings services cur r) : Watchful settings r := by
  refine h.invariant (P := Watchful settings) ?_ (fun _ _ _ _ _ ih => ⟨ih.first, ih.noticed⟩) ?_ fun before h ih =>
    h.watchful before ih
  · intro quota
    exact ⟨fun name value => (by cases value), fun _ _ _ e o flag mem => (by cases mem)⟩
  · intro os r r' _ h ih
    refine ih.same h.keeps.exit h.happened (h.hasShutDown ▸ id) ?_ fun e o flag mem => ?_
    · exact eq_false_of_imp fun cancelled => h.cancelled_iff.mpr (.inl cancelled)
    · cases h.isAside _ mem

/-! ### Shutdown -/

theorem Passes.justified_of_reason {c : Cause} (h : Passes settings services cur r) (reason : Reason os c r r') :
    c.Justified settings (r.happened ++ os) := by
  cases reason with
  | cancelled cancelled => exact List.mem_append_left _ (h.cancelled_iff.mp cancelled)
  | exited _ exit => exact (h.watchful.first _ exit).append []
  | signal queue =>
    rw [List.append_nil]
    exact h.attentive.raised _ (queue ▸ List.mem_cons_self)
  | requested queue => exact List.mem_append_left _ (h.obedient.accepted _ (queue ▸ List.mem_cons_self))

theorem split_snoc {o o' : Occurrence} {earlier later : List Occurrence} (h : os ++ [o] = earlier ++ o' :: later)
    (absent : o' ∉ os) : earlier = os ∧ o' = o := by
  rcases List.append_eq_append_iff.mp h with ⟨between, rfl, rest⟩ | ⟨between, rfl, rest⟩
  · cases between with
    | nil => simp_all
    | cons => simp at rest
  · cases between with
    | nil => simp_all
    | cons => simp_all

theorem Reason.shutDown_not_mem {c c' : Cause} (h : Reason os c r r') : .shutDown c' ∉ os := by
  cases h <;> simp

theorem Act.shuts {earlier later : List Occurrence} {c : Cause} (h : Act t os r r')
    (split : os = earlier ++ .shutDown c :: later) : ∃ r₁, Reason earlier c r r₁ := by
  have mem : .shutDown c ∈ os := split ▸ List.mem_append_right _ List.mem_cons_self
  cases h with
  | aside h => cases h.isAside _ mem
  | @shutDown _ r₁ _ _ _ _ reason =>
    obtain ⟨rfl, same⟩ := split_snoc split reason.shutDown_not_mem
    cases same
    exact ⟨r₁, reason⟩
  | _ => simp at mem

theorem Passes.justified (h : Passes settings services cur r) :
    Throughout (fun earlier o => ∀ c, o = .shutDown c → c.Justified settings earlier) r.happened := by
  refine h.invariant (P := fun r => Throughout (fun earlier o => ∀ c, o = .shutDown c → c.Justified settings earlier)
    r.happened) ?_ (fun _ _ _ _ _ ih => ih) ?_ ?_
  · intro quota earlier o later split
    simp [Run.happened, Run.initial] at split
  · intro os r r' _ h ih
    rw [h.happened]
    refine ih.append fun earlier o later split c same => ?_
    cases h.isAside (.shutDown c) (split ▸ same ▸ List.mem_append_right _ List.mem_cons_self)
  · intro t os r r' before h ih
    rw [h.happened]
    refine ih.append fun earlier o later split c same => ?_
    obtain ⟨r₁, reason⟩ := h.shuts (same ▸ split)
    exact before.justified_of_reason reason

/-- The cause recorded is that of the first shutdown, and it is justified by what had happened before. -/
theorem Passes.cause_justified {c : Cause} (h : Passes settings services cur r) (cause : r.cause.value = some c) :
    ∃ earlier later, r.happened = earlier ++ .shutDown c :: later ∧ (∀ c', .shutDown c' ∉ earlier) ∧
      c.Justified settings earlier := by
  rw [h.cause_value, List.findSome?_eq_some_iff] at cause
  obtain ⟨earlier, o, later, split, some, none⟩ := cause
  have same : o = .shutDown c := by cases o <;> simp_all [Occurrence.cause?]
  subst same
  refine ⟨earlier, later, split, fun c' mem => ?_, h.justified earlier _ later split c rfl⟩
  exact absurd (none _ mem) (by simp [Occurrence.cause?])

theorem Passes.running_of_unfired (h : Passes settings services cur r) (setUp : .setUp ∈ r.happened)
    (unfired : r.cause.isFired = false) : ∃ round, r.stage = .running round := by
  have isSetUp := h.isSetUp_iff.mpr setUp
  have stays : r.stage.hasShutDown = false := h.isFired_eq ▸ unfired
  cases stage : r.stage <;> simp_all [Stage.isSetUp, Stage.hasShutDown]

theorem Passes.not_called {round : Round} (h : Passes settings services none r) (settled : r.isSettled = true)
    (running : r.stage = .running round) : r.isCalled round.listening = false := by
  have waits : r.isDue .supervise = false :=
    h.not_due settled trivial (fun _ => by simp [running]) (by rw [isOver, running]; rfl)
  simpa only [isDue, running] using waits

/-- Nothing that triggers a shutdown is left when there is nothing more to do and the run still goes on. -/
theorem Passes.not_triggered (h : Passes settings services none r) (settled : r.isSettled = true)
    (setUp : .setUp ∈ r.happened) (unfired : r.cause.isFired = false) : ¬ Triggered settings r.happened := by
  have open' : r.stage.hasShutDown = false := h.isFired_eq ▸ unfired
  obtain ⟨round, running⟩ := h.running_of_unfired setUp unfired
  have waits := h.not_called settled running
  simp only [isCalled, Bool.or_eq_false_iff] at waits
  obtain ⟨⟨⟨⟨uncancelled, noExit⟩, noSignal⟩, -⟩, noCommand⟩ := waits
  rintro (cancelled | ⟨n, listed, raised⟩ | ⟨e, o, flag, ended⟩ | accepted)
  · exact h.not_cancelled uncancelled cancelled
  · exact h.attentive.noticed open' n listed raised (by simpa using noSignal)
  · exact h.watchful.noticed open' uncancelled noExit e o flag ended
  · have waiting := h.obedient.kept open' accepted
    cases listening : round.listening with
    | false =>
      rw [(h.deaf running listening).2] at waiting
      cases waiting
    | true =>
      simp only [listening, Bool.true_and, Bool.or_eq_false_iff] at noCommand
      rw [show r.commands = [] by simpa using noCommand.1] at waiting
      cases waiting

theorem Passes.stop_began (h : Passes settings services none r) (settled : r.isSettled = true)
    (fired : r.cause.isFired = true) (he : e < settings.entries.length) : .began e .stop ∈ r.happened := by
  have setUp : .setUp ∈ r.happened := h.isSetUp_iff.mp (Stage.isSetUp_of_hasShutDown (h.isFired_eq ▸ fired))
  have begun : (r.member e).stop ≠ .unbegun := fun unbegun => by
    have waits : r.isDue (.stop e) = false :=
      h.not_due settled ⟨setUp, h.settings_eq.symm ▸ he⟩ (by simp) (by simp [isOver, unbegun, CallState.isEnded])
    simp only [isDue, unbegun, fired] at waits
    cases waits
  have counted := (h.tally he).begun .stop
  refine List.count_pos_iff.mp ?_
  rw [← begunCalls, counted]
  cases stop : (r.member e).stop <;> simp_all [Member.begun, CallState.begun]

/-- A run that was set up shuts down exactly when it was triggered. The cause is that of the first shutdown and had
happened by then; and whenever there is nothing more to do, the run has shut down if and only if anything has triggered
it, and if it has, every stop call has begun. -/
theorem shutDown_exactly_when_triggered (h : (initial settings services).Reaches r) (setUp : .setUp ∈ r.happened) :
    (∀ c, r.cause.value = some c → ∃ earlier later, r.happened = earlier ++ .shutDown c :: later ∧
      (∀ c', .shutDown c' ∉ earlier) ∧ c.Justified settings earlier) ∧
    (r.isSettled = true → (r.cause.isFired = true ↔ Triggered settings r.happened) ∧
      (r.cause.isFired = true → ∀ e < settings.entries.length, .began e .stop ∈ r.happened)) := by
  have passes := Passes.of_reaches h
  refine ⟨fun c cause => passes.cause_justified cause, fun settled => ⟨⟨fun fired => ?_, fun triggered => ?_⟩, ?_⟩⟩
  · obtain ⟨c, cause⟩ := Option.isSome_iff_exists.mp fired
    obtain ⟨earlier, later, split, -, justified⟩ := passes.cause_justified cause
    rw [split]
    exact justified.triggered
  · cases fired : r.cause.isFired with
    | true => rfl
    | false => exact absurd triggered (passes.not_triggered settled setUp fired)
  · exact fun fired e he => passes.stop_began settled fired he

theorem shutDown_exactly_when_triggered_pair :
    (pairRun.cause.isFired = true ↔ Triggered pairSettings pairRun.happened) ∧
      ∀ e < 2, .began e .stop ∈ pairRun.happened := by
  obtain ⟨-, whenSettled⟩ := shutDown_exactly_when_triggered reaches_pairRun (by decide)
  obtain ⟨triggered, stops⟩ := whenSettled (by rfl)
  exact ⟨triggered, stops (by rfl)⟩

end Run

end Supervision
