import Supervision.Proofs.Lifecycle

/-! The verdict of a run is what its history says: the failures of the calls that ended before it returned, each under the
name of its entry, in the order in which the calls ended. -/

namespace Supervision

/-- What the end of a call is reported as. A stop call is passed over if it gave up with the mark of cancellation in a
run that was cancelled by then. -/
def Occurrence.failure? (entries : List Entry) : Occurrence → Option Failure
  | .ended e phase (.failed err) flag =>
    if phase = .stop ∧ flag = true ∧ err.isCancellation = true then none
    else entries[e]?.map fun entry => ⟨entry.name, phase, .error err⟩
  | .ended e phase (.panicked p) _ => entries[e]?.map fun entry => ⟨entry.name, phase, .panic p.message⟩
  | _ => none

theorem Occurrence.failure?_of_entry? {entries : List Entry} {o : Occurrence} (h : o.entry? = none) :
    o.failure? entries = none := by
  cases o <;> first | rfl | cases h

def beforeReturn (os : List Occurrence) : List Occurrence :=
  os.takeWhile (· ≠ .returned)

theorem beforeReturn_append_of_mem {os : List Occurrence} (h : .returned ∈ os) (os' : List Occurrence) :
    beforeReturn (os ++ os') = beforeReturn os := by
  obtain ⟨before, after, rfl⟩ := List.append_of_mem h
  simp [beforeReturn, List.takeWhile_append]

theorem beforeReturn_append_of_not_mem {os : List Occurrence} (h : .returned ∉ os) (os' : List Occurrence) :
    beforeReturn (os ++ os') = os ++ beforeReturn os' := by
  have all : ∀ o ∈ os, decide (o ≠ .returned) = true := fun o mem => decide_eq_true fun same => h (same ▸ mem)
  rw [beforeReturn, List.takeWhile_append_of_pos all, beforeReturn]

theorem beforeReturn_snoc {os : List Occurrence} (h : .returned ∉ os) : beforeReturn (os ++ [.returned]) = os := by
  rw [beforeReturn_append_of_not_mem h]
  simp [beforeReturn]

def failuresAtReturn (entries : List Entry) (os : List Occurrence) : List Failure :=
  (beforeReturn os).filterMap (Occurrence.failure? entries)

/-- A verdict tells the history up to the return, or what kept the run from being set up. -/
def Verdict.Tells (v : Verdict) (settings : Settings) (os : List Occurrence) : Prop :=
  (∃ f, v = .fault f ∧ Run.acquire settings = .error f) ∨
    v = Verdict.ofFailures (failuresAtReturn settings.entries os)

namespace Run

variable {settings : Settings} {services : List Service} {r r' : Run} {t : Task} {cur : Option Task} {e : Nat}
  {os : List Occurrence}

/-! ### The failures recorded -/

theorem failure?_ended {entry : Entry} (h : r.settings.entries[e]? = some entry) {phase : Phase} (other : phase ≠ .stop)
    (o : Outcome) (flag : Bool) :
    (Occurrence.ended e phase o flag).failure? r.settings.entries = o.failure? (r.nameOf e) phase := by
  cases o <;> simp [Occurrence.failure?, Outcome.failure?, Outcome.fault?, nameOf_of_entry h, h, other]

theorem failure?_ended_stop {entry : Entry} (h : r.settings.entries[e]? = some entry) (o : Outcome) :
    (Occurrence.ended e .stop o r.cancelled).failure? r.settings.entries =
      (if r.isAbandoned o then .done else o).failure? (r.nameOf e) .stop := by
  cases o with
  | done => rfl
  | failed err =>
    simp only [Occurrence.failure?, isAbandoned, h, true_and, Bool.and_eq_true]
    split
    · rfl
    · simp [Outcome.failure?, Outcome.fault?, nameOf_of_entry h]
  | panicked p => simp [Occurrence.failure?, isAbandoned, Outcome.failure?, Outcome.fault?, nameOf_of_entry h, h]

theorem toList_eq_filterMap {α β : Type} (f : α → Option β) (a : α) : (f a).toList = [a].filterMap f := by
  cases h : f a <;> simp [h]

theorem failures_endStart (r : Run) (e : Nat) (o : Outcome) :
    (r.endStart e o).failures = r.failures ++ (o.failure? (r.nameOf e) .start).toList := by
  simp only [endStart, wake, update, report, markEnd, mark]
  rfl

theorem failures_endRestart (r : Run) (e : Nat) (o : Outcome) :
    (r.endRestart e o).failures = r.failures ++ (o.failure? (r.nameOf e) .restart).toList := by
  simp only [endRestart, update, report, markEnd, mark]
  rfl

theorem failures_endStop (r : Run) (e : Nat) (o : Outcome) :
    (r.endStop e o).failures =
      r.failures ++ ((if r.isAbandoned o then .done else o).failure? (r.nameOf e) .stop).toList := by
  simp only [endStop, wake, update, report, markEnd, mark]
  rfl

theorem Act.failures (before : Passes settings services (some t) r) (h : Act t os r r') :
    r'.failures = r.failures ++ os.filterMap (Occurrence.failure? settings.entries) := by
  rw [← before.settings_eq]
  cases h with
  | aside h =>
    have none : os.filterMap (Occurrence.failure? r.settings.entries) = [] :=
      List.filterMap_eq_nil_iff.mpr fun o ho => Occurrence.failure?_of_entry? (entry?_of_isAside (h.isAside o ho))
    rw [none, List.append_nil, h.spares.failures]
  | endStart h o =>
    obtain ⟨entry, present⟩ := before.entry .start
    rw [r.failures_endStart, ← toList_eq_filterMap, failure?_ended present (by decide)]
  | endRestart h o =>
    obtain ⟨entry, present⟩ := before.entry .restart
    rw [r.failures_endRestart, ← toList_eq_filterMap, failure?_ended present (by decide)]
  | endStop h o =>
    obtain ⟨entry, present⟩ := before.entry .stop
    rw [r.failures_endStop, ← toList_eq_filterMap, failure?_ended_stop present]
  | takeFirings | deliver | fail | equip | receive | obey | finish | expire =>
    simp only [Run.takeFirings, Run.deliver, Run.fail, Run.equip, Run.finish, giveVerdict, update, mark, log, spawn, wake]
    exact (List.append_nil _).symm
  | shutDown _ reason =>
    cases reason <;> simp only [announce, mark, log, wake] <;> exact (List.append_nil _).symm
  | _ => exact (List.append_nil _).symm

theorem Passes.failures (h : Passes settings services cur r) :
    r.failures = r.happened.filterMap (Occurrence.failure? settings.entries) := by
  refine h.invariant (P := fun r => r.failures = r.happened.filterMap (Occurrence.failure? settings.entries))
    (fun _ => rfl) (fun _ _ _ _ _ ih => ih) ?_ ?_
  · intro os r r' _ h ih
    have none : os.filterMap (Occurrence.failure? settings.entries) = [] :=
      List.filterMap_eq_nil_iff.mpr fun o ho => Occurrence.failure?_of_entry? (entry?_of_isAside (h.isAside o ho))
    rw [h.keeps.failures, h.happened, List.filterMap_append, none, List.append_nil, ih]
  · intro t os r r' before h ih
    rw [h.failures before, h.happened, List.filterMap_append, ih]

/-! ### The verdict given -/

theorem Act.verdict {v : Verdict} {time : Nat} (h : Act t os r r') (returned : r'.stage = .returned v time) :
    r.stage = .returned v time ∨ os = [.returned] ∧ r.stage.hasReturned = false ∧
      ((∃ f, v = .fault f ∧ acquire r.settings = .error f) ∨ v = Verdict.ofFailures r.failures) := by
  cases h.advance with
  | stay same => exact .inl (same ▸ returned)
  | fail f spawned lacks stage =>
    cases stage.symm.trans returned
    exact .inr ⟨rfl, by rw [spawned]; rfl, .inl ⟨f, rfl, lacks⟩⟩
  | finish deadline leaving _ stage =>
    cases stage.symm.trans returned
    exact .inr ⟨rfl, by rw [leaving]; rfl, .inr rfl⟩
  | equip _ stage | pass _ _ _ stage | shutDown _ _ _ _ stage | leave _ _ stage => cases stage.symm.trans returned

theorem Passes.verdict {v : Verdict} {time : Nat} (h : Passes settings services cur r)
    (returned : r.stage = .returned v time) : v.Tells settings r.happened := by
  refine h.invariant (P := fun r => ∀ v time, r.stage = .returned v time → v.Tells settings r.happened)
    ?_ (fun _ _ _ _ _ ih => ih) ?_ ?_ v time returned
  · intro quota v time returned
    cases returned
  · intro os r r' before h ih v time returned
    have earlier : r.stage = .returned v time := h.stage_of returned (by simp)
    have mem : .returned ∈ r.happened := before.hasReturned_iff.mp (by rw [earlier]; rfl)
    rw [Verdict.Tells, failuresAtReturn, h.happened, beforeReturn_append_of_mem mem]
    exact ih v time earlier
  · intro t os r r' before h ih v time returned
    rcases h.verdict returned with earlier | ⟨rfl, unreturned, tells⟩
    · have mem : .returned ∈ r.happened := before.hasReturned_iff.mp (by rw [earlier]; rfl)
      rw [Verdict.Tells, failuresAtReturn, h.happened, beforeReturn_append_of_mem mem]
      exact ih v time earlier
    · have absent := before.not_returned unreturned
      rw [Verdict.Tells, failuresAtReturn, h.happened, beforeReturn_snoc absent, ← before.failures, ← before.settings_eq]
      exact tells

theorem Passes.entry_lt_of_ended {phase : Phase} {o : Outcome} {flag : Bool} (h : Passes settings services cur r)
    (mem : .ended e phase o flag ∈ r.happened) : e < settings.entries.length :=
  (h.registered_of_call mem rfl).2

/-- Whether the signals of a configuration can be listened to. -/
def registers (s : Settings) : Prop :=
  ∃ shutdown restart, Inbox.listen s.signals .shutdown = .ok shutdown ∧ Inbox.listen s.signals .restart = .ok restart

theorem isPanic_of_registers {f : SetupFault} (h : registers settings) (lacks : acquire settings = .error f) :
    f.isPanic = true := by
  obtain ⟨shutdown, restart, hears, hearsToo⟩ := h
  simp only [acquire, hears, hearsToo] at lacks
  split at lacks
  · cases lacks
    rfl
  · cases lacks

/-- The verdict of a run whose signals were registered and that returned without a panic is made of the failures of the
calls that had ended by then. Each call that ended was one of a registered entry, and the history tells whether the run
was cancelled when it ended. -/
theorem verdict_exact (h : (initial settings services).Reaches r) (registered : registers settings) {v : Verdict}
    {time : Nat} (returned : r.stage = .returned v time) (sound : ∀ f, v = .fault f → f.isPanic = false) :
    (failuresAtReturn settings.entries r.happened = [] ∧ v = .ok ∨
      failuresAtReturn settings.entries r.happened ≠ [] ∧
        v = .failures (failuresAtReturn settings.entries r.happened)) ∧
    ∀ earlier e phase o flag later, r.happened = earlier ++ .ended e phase o flag :: later →
      e < settings.entries.length ∧ (flag = true ↔ .cancelled ∈ earlier) := by
  have passes := Passes.of_reaches h
  refine ⟨?_, fun earlier e phase o flag later split => ⟨?_, ?_⟩⟩
  · rcases passes.verdict returned with ⟨f, rfl, lacks⟩ | tells
    · have panic := isPanic_of_registers registered lacks
      rw [sound f rfl] at panic
      cases panic
    · rw [tells]
      cases failuresAtReturn settings.entries r.happened with
      | nil => exact .inl ⟨rfl, rfl⟩
      | cons f rest => exact .inr ⟨List.cons_ne_nil f rest, rfl⟩
  · exact passes.entry_lt_of_ended (split ▸ List.mem_append_right _ List.mem_cons_self)
  · exact passes.inOrder earlier _ later split

theorem verdict_exact_pair :
    failuresAtReturn pairSettings.entries pairRun.happened = [⟨"second", .stop, .panic "stuck"⟩] := by
  have returned : pairRun.stage = .returned (.failures [⟨"second", .stop, .panic "stuck"⟩]) 0 := by rfl
  have registered : registers pairSettings := ⟨_, _, rfl, rfl⟩
  obtain ⟨⟨-, ok⟩ | ⟨-, failures⟩, -⟩ := verdict_exact reaches_pairRun registered returned fun _ fault => by cases fault
  · cases ok
  · exact (Verdict.failures.inj failures).symm

end Run

end Supervision
