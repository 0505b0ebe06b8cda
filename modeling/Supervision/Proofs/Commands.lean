import Supervision.Proofs.AllOrNothing
import Supervision.Proofs.Fanout
import Supervision.Proofs.Trigger

/-! What becomes of the commands. Those accepted wait in a queue, and the supervising task acts on them one after the
other until there is a cause to shut down; from then on none is accepted and none is acted on. So what was acted on and
what waits make up what was accepted, in the same order, whoever sent it and whenever. -/

namespace Supervision

def Occurrence.accepted? : Occurrence → Option Command
  | .accepted c => some c
  | _ => none

def Occurrence.obeyed? : Occurrence → Option Command
  | .obeyed c => some c
  | _ => none

def Occurrence.received? : Occurrence → Option Int
  | .received n => some n
  | _ => none

/-- Whether the run fires for it. -/
def Occurrence.isPrompt : Occurrence → Bool
  | .obeyed .restart | .received _ => true
  | _ => false

def Occurrence.isEarly : Occurrence → Bool
  | .accepted _ | .obeyed _ | .received _ | .fired | .shutDown _ => true
  | _ => false

def acceptedIn (os : List Occurrence) : List Command :=
  os.filterMap Occurrence.accepted?

def obeyedIn (os : List Occurrence) : List Command :=
  os.filterMap Occurrence.obeyed?

def receivedIn (os : List Occurrence) : List Int :=
  os.filterMap Occurrence.received?

@[simp] theorem acceptedIn_append (os os' : List Occurrence) : acceptedIn (os ++ os') = acceptedIn os ++ acceptedIn os' :=
  List.filterMap_append

@[simp] theorem obeyedIn_append (os os' : List Occurrence) : obeyedIn (os ++ os') = obeyedIn os ++ obeyedIn os' :=
  List.filterMap_append

@[simp] theorem receivedIn_append (os os' : List Occurrence) : receivedIn (os ++ os') = receivedIn os ++ receivedIn os' :=
  List.filterMap_append

theorem mem_acceptedIn {c : Command} {os : List Occurrence} : c ∈ acceptedIn os ↔ .accepted c ∈ os := by
  simp only [acceptedIn, List.mem_filterMap]
  refine ⟨fun ⟨o, mem, same⟩ => ?_, fun mem => ⟨_, mem, rfl⟩⟩
  cases o <;> simp_all [Occurrence.accepted?]

theorem mem_obeyedIn {c : Command} {os : List Occurrence} : c ∈ obeyedIn os ↔ .obeyed c ∈ os := by
  simp only [obeyedIn, List.mem_filterMap]
  refine ⟨fun ⟨o, mem, same⟩ => ?_, fun mem => ⟨_, mem, rfl⟩⟩
  cases o <;> simp_all [Occurrence.obeyed?]

theorem acceptedIn_eq_nil {os : List Occurrence} (h : ∀ c, .accepted c ∉ os) : acceptedIn os = [] :=
  List.eq_nil_iff_forall_not_mem.mpr fun c mem => h c (mem_acceptedIn.mp mem)

theorem obeyedIn_eq_nil {os : List Occurrence} (h : ∀ c, .obeyed c ∉ os) : obeyedIn os = [] :=
  List.eq_nil_iff_forall_not_mem.mpr fun c mem => h c (mem_obeyedIn.mp mem)

def promptsAndFirings (os : List Occurrence) : List Occurrence :=
  os.filter fun o => o.isPrompt || o = .fired

/-- The run fires once for everything that it has to fire for, at once, and for nothing else. -/
def FiresInTurn (os : List Occurrence) : Prop :=
  promptsAndFirings os = (os.filter Occurrence.isPrompt).flatMap fun o => [o, .fired]

theorem FiresInTurn.append {os os' : List Occurrence} (h : FiresInTurn os) (h' : FiresInTurn os') :
    FiresInTurn (os ++ os') := by
  unfold FiresInTurn promptsAndFirings at *
  rw [List.filter_append, h, h', List.filter_append, List.flatMap_append]

theorem count_fired_flatMap {os : List Occurrence} (h : ∀ o ∈ os, o.isPrompt = true) :
    (os.flatMap fun o => [o, .fired]).count .fired = os.length := by
  induction os with
  | nil => rfl
  | cons o os ih =>
    have other : o ≠ .fired := fun same => by cases same ▸ h o List.mem_cons_self
    rw [List.flatMap_cons, List.count_append, ih fun o' mem => h o' (List.mem_cons_of_mem o mem)]
    simp [other, Nat.add_comm]

theorem countP_isPrompt (os : List Occurrence) :
    os.countP Occurrence.isPrompt = (obeyedIn os).count .restart + (receivedIn os).length := by
  induction os with
  | nil => rfl
  | cons o os ih =>
    have head : [o].countP Occurrence.isPrompt = (obeyedIn [o]).count .restart + (receivedIn [o]).length := by
      cases o with
      | obeyed c => cases c <;> rfl
      | _ => rfl
    rw [← List.singleton_append, List.countP_append, obeyedIn_append, receivedIn_append, List.count_append,
      List.length_append, head, ih]
    omega

theorem FiresInTurn.count {os : List Occurrence} (h : FiresInTurn os) :
    os.count .fired = (obeyedIn os).count .restart + (receivedIn os).length := by
  have kept : (promptsAndFirings os).count .fired = os.count .fired := List.count_filter (by simp)
  rw [← kept, h, count_fired_flatMap fun o mem => (List.mem_filter.mp mem).2, ← List.countP_eq_length_filter,
    countP_isPrompt]

namespace Run

variable {settings : Settings} {services : List Service} {r r' : Run} {t : Task} {cur : Option Task}
  {os earlier later : List Occurrence} {o : Occurrence}

/-! ### The queue -/

/-- What waits and what is accepted is acted on or waits. -/
theorem Act.commands_flow (h : Act t os r r') : r.commands ++ acceptedIn os = obeyedIn os ++ r'.commands := by
  rcases h.commands with ⟨same, none⟩ | ⟨c, rfl, -, sent⟩ | ⟨queue, rfl⟩ | ⟨queue, rfl⟩
  · rw [same, acceptedIn_eq_nil fun c => (none c).1, obeyedIn_eq_nil fun c => (none c).2, List.append_nil, List.nil_append]
  · exact sent.symm
  · rw [queue]
    exact List.append_nil _
  · rw [queue]
    exact List.append_nil _

theorem Outside.obeyedIn_eq_nil (h : Outside os r r') : obeyedIn os = [] :=
  Supervision.obeyedIn_eq_nil fun _ mem => by cases h.isAside _ mem

theorem Outside.commands_flow (h : Outside os r r') : r.commands ++ acceptedIn os = obeyedIn os ++ r'.commands := by
  rw [h.obeyedIn_eq_nil, List.nil_append]
  rcases h.commands with ⟨same, none⟩ | ⟨c, rfl, -, sent⟩
  · rw [same, acceptedIn_eq_nil none, List.append_nil]
  · exact sent.symm

theorem inOrder_append (h : acceptedIn r.happened = obeyedIn r.happened ++ r.commands)
    (happened : r'.happened = r.happened ++ os) (flow : r.commands ++ acceptedIn os = obeyedIn os ++ r'.commands) :
    acceptedIn r'.happened = obeyedIn r'.happened ++ r'.commands := by
  rw [happened, acceptedIn_append, obeyedIn_append, h, List.append_assoc, flow, List.append_assoc]

theorem Passes.commands_inOrder (h : Passes settings services cur r) :
    acceptedIn r.happened = obeyedIn r.happened ++ r.commands := by
  refine h.invariant (P := fun r => acceptedIn r.happened = obeyedIn r.happened ++ r.commands) (fun _ => rfl)
    (fun _ _ _ _ _ ih => ih) ?_ ?_
  · exact fun _ h ih => inOrder_append ih h.happened h.commands_flow
  · exact fun _ h ih => inOrder_append ih h.happened h.commands_flow

/-! ### Until there is a cause -/

theorem snoc_last {o' : Occurrence} (h : os ++ [o'] = earlier ++ o :: later) : earlier <+: os := by
  rcases List.append_eq_append_iff.mp h with ⟨between, rfl, rest⟩ | ⟨between, rfl, -⟩
  · cases between with
    | nil => simp
    | cons => simp at rest
  · exact List.prefix_append earlier between

theorem not_isEarly_of_isNote (h : o.isNote = true) : o.isEarly = false := by
  cases o <;> simp_all [Occurrence.isNote, Occurrence.isEarly]

theorem Passes.open_of_accepts (h : Passes settings services cur r) (accepts : r.commandsClosed = false) :
    r.stage.hasShutDown = false :=
  eq_false_of_imp (fun shut => by simp [h.commandsClosed, Stage.isClosed, shut]) accepts

theorem Effect.early (before : Passes settings services cur r) (h : Effect os r r') (mem : o ∈ os)
    (early : o.isEarly = true) : r.stage.hasShutDown = false := by
  cases h with
  | send _ accepts => exact before.open_of_accepts accepts
  | cancel | release =>
    cases List.mem_singleton.mp mem
    cases early

theorem Act.early (before : Passes settings services (some t) r) (h : Act t os r r')
    (split : os = earlier ++ o :: later) (early : o.isEarly = true) :
    r.stage.hasShutDown = false ∧ ∀ c, .shutDown c ∉ earlier := by
  have mem : o ∈ os := split ▸ List.mem_append_right _ List.mem_cons_self
  have within {o' : Occurrence} (there : o' ∈ earlier) : o' ∈ os := split ▸ List.mem_append_left _ there
  cases h with
  | aside h =>
    refine ⟨?_, fun c there => by cases h.isAside _ (within there)⟩
    cases h with
    | effect h => exact h.early before mem early
    | note _ note =>
      cases List.mem_singleton.mp mem
      rw [not_isEarly_of_isNote note] at early
      cases early
    | lend | spend | defer => cases mem
  | receive running | obey running => exact ⟨by rw [running]; rfl, fun c there => by simpa using within there⟩
  | shutDown running reason =>
    exact ⟨by rw [running]; rfl, fun c there => reason.shutDown_not_mem ((snoc_last split).subset there)⟩
  | beginStart | endStart | beginRestart | endRestart | beginStop | endStop | deliver | miss | fail | equip | finish |
      expire =>
    cases List.mem_singleton.mp mem
    cases early
  | _ => cases mem

theorem Act.early_of_mem (before : Passes settings services (some t) r) (h : Act t os r r') (mem : o ∈ os)
    (early : o.isEarly = true) : r.stage.hasShutDown = false := by
  obtain ⟨_, _, split⟩ := List.append_of_mem mem
  exact (h.early before split early).1

theorem Outside.early (before : Passes settings services none r) (h : Outside os r r')
    (mem : o ∈ os) (early : o.isEarly = true) : r.stage.hasShutDown = false := by
  cases h with
  | effect h => exact h.early before mem early
  | _ => cases mem

theorem Passes.early (h : Passes settings services cur r) :
    Throughout (fun earlier o => o.isEarly = true → ∀ c, .shutDown c ∉ earlier) r.happened := by
  refine h.invariant (P := fun r => Throughout _ r.happened) ?_ (fun _ _ _ _ _ ih => ih) ?_ ?_
  · intro quota earlier o later split
    simp [Run.happened, Run.initial] at split
  · intro os r r' before h ih
    rw [h.happened]
    refine ih.append fun earlier o later split early c mem => ?_
    rcases List.mem_append.mp mem with old | now
    · exact before.not_shutDown (h.early before (split ▸ by simp) early) c old
    · cases h.isAside _ (split ▸ List.mem_append_left _ now)
  · intro t os r r' before h ih
    rw [h.happened]
    refine ih.append fun earlier o later split early c mem => ?_
    obtain ⟨unfired, none⟩ := h.early before split early
    exact (List.mem_append.mp mem).elim (before.not_shutDown unfired c) (none c)

theorem Passes.cause_eq_iff {c : Cause} (h : Passes settings services cur r) :
    r.cause.value = some c ↔ .shutDown c ∈ r.happened := by
  constructor
  · intro cause
    obtain ⟨earlier, later, split, -⟩ := h.cause_justified cause
    rw [split]
    exact List.mem_append_right _ List.mem_cons_self
  · intro mem
    obtain ⟨earlier, later, split⟩ := List.append_of_mem mem
    have first : earlier.findSome? Occurrence.cause? = none := by
      rw [List.findSome?_eq_none_iff]
      intro o there
      cases o with
      | shutDown c' => exact absurd there (h.early earlier _ later split rfl c')
      | _ => rfl
    rw [h.cause_value, split, List.findSome?_append, first]
    rfl

/-! ### What is acted on -/

theorem Act.requested (h : Act t os r r') : .obeyed .shutdown ∈ os ↔ .shutDown .requested ∈ os := by
  cases h with
  | aside h => exact ⟨fun mem => (by cases h.isAside _ mem), fun mem => (by cases h.isAside _ mem)⟩
  | shutDown _ reason => cases reason <;> simp
  | _ => simp

/-- Restarts are acted on as long as no shutdown is, and nothing after a shutdown. -/
def ObeysInTurn (r : Run) : Prop :=
  ∃ n, obeyedIn r.happened = List.replicate n .restart ++ if .shutDown .requested ∈ r.happened then [.shutdown] else []

theorem Act.obeysInTurn (before : Passes settings services (some t) r) (h : Act t os r r') (ih : r.ObeysInTurn) :
    r'.ObeysInTurn := by
  obtain ⟨n, obeyed⟩ := ih
  have happened := h.happened
  unfold ObeysInTurn
  rcases h.commands with ⟨-, none⟩ | ⟨c, rfl, -⟩ | ⟨-, rfl⟩ | ⟨-, rfl⟩
  · have absent : .shutDown .requested ∉ os := fun mem => (none _).2 (h.requested.mpr mem)
    refine ⟨n, ?_⟩
    rw [happened, obeyedIn_append, obeyedIn_eq_nil fun c => (none c).2, List.append_nil, obeyed]
    simp only [List.mem_append, absent, or_false]
  · refine ⟨n, ?_⟩
    rw [happened, obeyedIn_append, obeyed]
    simp [obeyedIn, Occurrence.obeyed?]
  · have absent := before.not_shutDown (h.early_of_mem before List.mem_cons_self rfl) .requested
    refine ⟨n + 1, ?_⟩
    rw [happened, obeyedIn_append, obeyed, if_neg absent]
    simp [absent, obeyedIn, Occurrence.obeyed?, List.replicate_succ']
  · have absent := before.not_shutDown (h.early_of_mem before List.mem_cons_self rfl) .requested
    refine ⟨n, ?_⟩
    rw [happened, obeyedIn_append, obeyed, if_neg absent]
    simp [obeyedIn, Occurrence.obeyed?]

theorem Passes.obeysInTurn (h : Passes settings services cur r) : r.ObeysInTurn := by
  refine h.invariant (P := ObeysInTurn) (fun _ => ⟨0, rfl⟩) (fun _ _ _ _ _ ih => ih) ?_ fun before h ih =>
    h.obeysInTurn before ih
  · rintro os r r' _ h ⟨n, obeyed⟩
    refine ⟨n, ?_⟩
    have absent : .shutDown .requested ∉ os := fun mem => by cases h.isAside _ mem
    rw [h.happened, obeyedIn_append, h.obeyedIn_eq_nil, List.append_nil, obeyed]
    simp only [List.mem_append, absent, or_false]

/-! ### Firings -/

theorem not_isPrompt_of_isAside (h : o.isAside = true) : o.isPrompt = false ∧ o ≠ .fired := by
  cases o <;> simp_all [Occurrence.isAside, Occurrence.isNote, Occurrence.isPrompt]

theorem firesInTurn_of_quiet (h : ∀ o ∈ os, o.isPrompt = false ∧ o ≠ .fired) : FiresInTurn os := by
  have noPrompt : os.filter Occurrence.isPrompt = [] := List.filter_eq_nil_iff.mpr fun o mem => by simp [(h o mem).1]
  rw [FiresInTurn, noPrompt, promptsAndFirings]
  exact List.filter_eq_nil_iff.mpr fun o mem => by simp [h o mem]

theorem Act.firesInTurn (h : Act t os r r') : FiresInTurn os := by
  cases h with
  | aside h => exact firesInTurn_of_quiet fun o mem => not_isPrompt_of_isAside (h.isAside o mem)
  | receive | obey => rfl
  | shutDown _ reason => cases reason <;> exact firesInTurn_of_quiet (by simp [Occurrence.isPrompt])
  | _ => exact firesInTurn_of_quiet (by simp [Occurrence.isPrompt])

theorem Passes.firesInTurn (h : Passes settings services cur r) : FiresInTurn r.happened := by
  refine h.invariant (P := fun r => FiresInTurn r.happened) (fun _ => rfl) (fun _ _ _ _ _ ih => ih) ?_ ?_
  · intro os r r' _ h ih
    rw [h.happened]
    exact ih.append (firesInTurn_of_quiet fun o mem => not_isPrompt_of_isAside (h.isAside o mem))
  · intro t os r r' _ h ih
    rw [h.happened]
    exact ih.append h.firesInTurn

/-- The broadcast of a run that has any entries keeps every firing. -/
theorem Act.fired (before : Passes settings services (some t) r) (h : Act t os r r') (he : 0 < settings.entries.length)
    (ih : r.restarts.fired = r.happened.count .fired) : r'.restarts.fired = r'.happened.count .fired := by
  rw [h.happened, List.count_append]
  cases h with
  | aside h =>
    have quiet : os.count .fired = 0 := List.count_eq_zero.mpr fun mem => (not_fired_of_isAside (h.isAside _ mem)).1 rfl
    rw [h.spares.restarts, ih, quiet, Nat.add_zero]
  | receive running | obey running =>
    have setUp : .setUp ∈ r.happened := before.isSetUp_iff.mp (by rw [running]; rfl)
    have somebody := ((before.fanned he).registered setUp).readerCount_ne
    simp [wake, Broadcast.fire, somebody, ih]
  | takeFirings _ _ next =>
    obtain ⟨-, -, moved⟩ := Broadcast.next_firings next
    simp [Run.takeFirings, update, moved, Broadcast.moveReader, ih]
  | equip spawned has =>
    have unfired : .fired ∉ r.happened := fun fired => by
      obtain ⟨earlier, later, split⟩ := List.append_of_mem fired
      have setUp := (before.fires_inTime earlier _ later split rfl).1
      exact before.not_setUp (by rw [spawned]; rfl) (split ▸ List.mem_append_left _ setUp)
    obtain ⟨-, -, -, rfl⟩ := acquire_ok has
    have none : r.happened.count .fired = 0 := List.count_eq_zero.mpr unfired
    simp [Run.equip, spawn, mark, log, Broadcast.foldl_subscribe, Broadcast.withBacklog, none]
  | shutDown _ reason => cases reason <;> simpa [announce, mark, log, wake] using ih
  | endStart | endRestart | endStop | deliver | fail | finish | expire =>
    simpa [Run.endStart, Run.endRestart, Run.endStop, Run.deliver, Run.fail, Run.finish, giveVerdict, update, report,
      markEnd, mark, log, wake, Broadcast.close] using ih
  | _ => simpa using ih

theorem Passes.fired (h : Passes settings services cur r) (he : 0 < settings.entries.length) :
    r.restarts.fired = r.happened.count .fired := by
  refine h.invariant (P := fun r => r.restarts.fired = r.happened.count .fired) (fun _ => rfl) (fun _ _ _ _ _ ih => ih) ?_
    fun before h ih => h.fired before he ih
  intro os r r' _ h ih
  have quiet : os.count .fired = 0 := List.count_eq_zero.mpr fun mem => (not_fired_of_isAside (h.isAside _ mem)).1 rfl
  rw [h.keeps.restarts, h.happened, List.count_append, ih, quiet, Nat.add_zero]

/-! ### Neither lost nor doubled -/

theorem Passes.no_commands (h : Passes settings services none r) (setUp : .setUp ∈ r.happened)
    (settled : r.isSettled = true) (unfired : r.cause.value = none) : r.commands = [] := by
  obtain ⟨round, running⟩ := h.running_of_unfired setUp (by rw [Latch.isFired, unfired]; rfl)
  have waits := h.not_called settled running
  cases listening : round.listening with
  | false => exact (h.deaf running listening).2
  | true =>
    simp only [isCalled, Bool.or_eq_false_iff, listening, Bool.true_and] at waits
    simpa using waits.2.1

theorem send_cases (r : Run) (c : Command) :
    ((r.send c).1 = .sent ∧ (r.send c).2.commands = r.commands ++ [c] ∧
      acceptedIn (r.send c).2.happened = acceptedIn r.happened ++ [c]) ∨
    (r.send c).1 ≠ .sent ∧ (r.send c).2 = r := by
  unfold send
  split
  · exact .inr ⟨by simp, rfl⟩
  · split
    · exact .inr ⟨by simp, rfl⟩
    · refine .inl ⟨rfl, by simp only [wake], ?_⟩
      simp [wake, mark, Run.happened, acceptedIn, Occurrence.accepted?]

/-- Commands are kept and acted on in turn. -/
structure Delivers (r : Run) : Prop where
  /-- A command is sent and waits, or it is not sent and leaves no trace. -/
  answered : ∀ c, ((r.send c).1 = .sent ∧ (r.send c).2.commands = r.commands ++ [c] ∧
      acceptedIn (r.send c).2.happened = acceptedIn r.happened ++ [c]) ∨
    (r.send c).1 ≠ .sent ∧ (r.send c).2 = r
  /-- What was acted on is the beginning of what was sent, and what waits is the rest. -/
  inOrder : acceptedIn r.happened = obeyedIn r.happened ++ r.commands
  /-- At most one shutdown is acted on, after all restarts, and then it is the cause. -/
  inTurn : ∃ n, obeyedIn r.happened =
    List.replicate n .restart ++ if r.cause.value = some .requested then [.shutdown] else []
  fires : FiresInTurn r.happened
  counted : r.happened.count .fired = (obeyedIn r.happened).count .restart + (receivedIn r.happened).length
  broadcast : 0 < r.settings.entries.length → r.restarts.fired = r.happened.count .fired
  /-- What waited when the cause was fixed waits for ever, and nothing comes after it. -/
  left : ∀ earlier c later, r.happened = earlier ++ .shutDown c :: later →
    acceptedIn earlier = obeyedIn earlier ++ r.commands ∧ acceptedIn later = [] ∧ obeyedIn later = []
  idle : r.isSettled = true → r.cause.value = none → r.commands = []

theorem Passes.left {c : Cause} (h : Passes settings services cur r) (split : r.happened = earlier ++ .shutDown c :: later) :
    acceptedIn earlier = obeyedIn earlier ++ r.commands ∧ acceptedIn later = [] ∧ obeyedIn later = [] := by
  have late {o : Occurrence} (there : o ∈ later) : o.isEarly ≠ true := fun early => by
    obtain ⟨before, after, rfl⟩ := List.append_of_mem there
    exact h.early (earlier ++ .shutDown c :: before) o after (by simp [split]) early c (by simp)
  have accepted : acceptedIn (.shutDown c :: later) = [] := acceptedIn_eq_nil fun c' there => by
    rcases List.mem_cons.mp there with same | there
    · cases same
    · exact late there rfl
  have obeyed : obeyedIn (.shutDown c :: later) = [] := obeyedIn_eq_nil fun c' there => by
    rcases List.mem_cons.mp there with same | there
    · cases same
    · exact late there rfl
  have inOrder := h.commands_inOrder
  rw [split, acceptedIn_append, obeyedIn_append, accepted, obeyed, List.append_nil, List.append_nil] at inOrder
  exact ⟨inOrder, accepted, obeyed⟩

/-- In every state of a run that was set up, whoever sent the commands and whenever, none is lost and none is acted on
twice. -/
theorem commands_neither_lost_nor_doubled (h : (initial settings services).Reaches r) (setUp : .setUp ∈ r.happened) :
    r.Delivers := by
  have passes := Passes.of_reaches h
  exact {
    answered := r.send_cases
    inOrder := passes.commands_inOrder
    inTurn := by
      simp only [passes.cause_eq_iff]
      exact passes.obeysInTurn
    fires := passes.firesInTurn
    counted := passes.firesInTurn.count
    broadcast := fun he => passes.fired (passes.settings_eq ▸ he)
    left := fun _ _ _ => passes.left
    idle := passes.no_commands setUp }

def eagerServices : List Service :=
  [{ start := .command .restart (.awaitCause .done), restarts := [.command .restart .done, .done], stop := .done },
    { start := .awaitCause .done, stop := .command .restart .done }]

/-- The pair, asked for a restart before it is run, and later for another, for a shutdown and for a third restart at
once. -/
def eagerRun : Run :=
  (((((((initial pairSettings eagerServices).perform (.command .restart 1)).2.perform .run).2.serve 20).perform
    (.command .restart 1)).2.perform (.command .shutdown 1)).2.perform (.command .restart 1)).2.serve 20

theorem reaches_eagerRun : (initial pairSettings eagerServices).Reaches eagerRun :=
  ((((((Reaches.rfl.act (.command .restart 1) rfl).act .run rfl).serve 20).act (.command .restart 1) rfl).act
    (.command .shutdown 1) rfl).act (.command .restart 1) rfl).serve 20

/-- The last restart waits for ever. -/
theorem commands_neither_lost_nor_doubled_eager :
    eagerRun.Delivers ∧ eagerRun.commands = [.restart] ∧
      obeyedIn eagerRun.happened = [.restart, .restart, .restart, .restart, .shutdown] ∧
      eagerRun.cause.value = some .requested :=
  ⟨commands_neither_lost_nor_doubled reaches_eagerRun (by decide), by decide, by decide, by decide⟩

end Run

end Supervision
