import Supervision.Proofs.AllOrNothing

/-! Which failures a run passes over. A stop call that gave up because the run was cancelled is not reported, and every
other failure is. It does not matter why the run shut down, nor whether it was cancelled before the stop call began or in
the course of it; and an error tells that it is about a cancellation by what it is or by a context that was put on it,
never by its text or by what caused it. -/

namespace Supervision

namespace ErrorValue

def Marked (err : ErrorValue) : Prop :=
  err.base = .cancelled ∨ .cancelled ∈ err.contexts

instance (err : ErrorValue) : Decidable err.Marked :=
  inferInstanceAs (Decidable (_ ∨ _))

variable {err : ErrorValue}

theorem isCancellation_iff : err.isCancellation = true ↔ err.Marked := by
  simp only [isCancellation, Marked, Bool.or_eq_true, beq_iff_eq, List.contains_iff_mem]

theorem foldl_context (err : ErrorValue) (ms : List Message) :
    ms.foldl context err = { err with contexts := err.contexts ++ ms } := by
  induction ms generalizing err with
  | nil => simp only [List.foldl_nil, List.append_nil]
  | cons m ms ih => simp only [List.foldl_cons, ih, context, List.append_assoc, List.singleton_append]

theorem Marked.contexts (h : err.Marked) (ms : List Message) : (ms.foldl context err).Marked := by
  rw [foldl_context]
  exact h.imp_right (List.mem_append_left ms)

end ErrorValue

variable {entries : List Entry} {entry : Entry} {e : Nat} {phase : Phase} {o : Outcome} {flag : Bool} {fault : Fault}

/-- A call gave up: it is a stop call that returned an error with the mark when the run was cancelled. -/
def Outcome.GaveUp (phase : Phase) (cancelled : Bool) : Outcome → Prop
  | .failed err => phase = .stop ∧ cancelled = true ∧ err.Marked
  | _ => False

instance : Decidable (o.GaveUp phase flag) :=
  match o with
  | .failed _ => inferInstanceAs (Decidable (_ ∧ _ ∧ _))
  | .done | .panicked _ => inferInstanceAs (Decidable False)

theorem not_gaveUp (h : phase ≠ .stop ∨ flag = false ∨ (∃ p, o = .panicked p) ∨ ∃ err, o = .failed err ∧ ¬ err.Marked) :
    ¬ o.GaveUp phase flag := by
  cases o with
  | done | panicked => exact id
  | failed err =>
    rintro ⟨stop, cancelled, marked⟩
    rcases h with other | uncancelled | ⟨p, panic⟩ | ⟨err', same, unmarked⟩
    · exact other stop
    · rw [cancelled] at uncancelled
      cases uncancelled
    · cases panic
    · cases same
      exact unmarked marked

theorem gaveUp_failed_iff {err : ErrorValue} :
    (Outcome.failed err).GaveUp phase flag ↔ phase = .stop ∧ flag = true ∧ err.isCancellation = true := by
  rw [ErrorValue.isCancellation_iff]
  rfl

theorem Outcome.GaveUp.contexts {err : ErrorValue} (h : (Outcome.failed err).GaveUp phase flag) (ms : List Message) :
    (Outcome.failed (ms.foldl ErrorValue.context err)).GaveUp phase flag :=
  ⟨h.1, h.2.1, h.2.2.contexts ms⟩

def failuresIn (entries : List Entry) (os : List Occurrence) : List Failure :=
  os.filterMap (Occurrence.failure? entries)

theorem failure?_of_fault (registered : entries[e]? = some entry) (failing : o.fault? = some fault) :
    (Occurrence.ended e phase o flag).failure? entries =
      if o.GaveUp phase flag then none else some ⟨entry.name, phase, fault⟩ := by
  cases o with
  | done => cases failing
  | failed err =>
    cases failing
    by_cases gaveUp : (Outcome.failed err).GaveUp phase flag
    · rw [if_pos gaveUp]
      exact if_pos (gaveUp_failed_iff.mp gaveUp)
    · rw [if_neg gaveUp, Occurrence.failure?, registered]
      exact if_neg (mt gaveUp_failed_iff.mpr gaveUp)
  | panicked p =>
    cases failing
    rw [if_neg (show ¬ (Outcome.panicked p).GaveUp phase flag from id), Occurrence.failure?, registered]
    rfl

theorem failuresIn_split (registered : entries[e]? = some entry) (failing : o.fault? = some fault)
    (earlier later : List Occurrence) :
    failuresIn entries (earlier ++ .ended e phase o flag :: later) =
      failuresIn entries earlier ++ (if o.GaveUp phase flag then [] else [⟨entry.name, phase, fault⟩]) ++
        failuresIn entries later := by
  rw [failuresIn, List.filterMap_append, List.filterMap_cons, failure?_of_fault registered failing]
  by_cases gaveUp : o.GaveUp phase flag
  · simp only [if_pos gaveUp, List.append_nil, failuresIn]
  · simp only [if_neg gaveUp, List.append_assoc, List.singleton_append, failuresIn]

namespace Run

variable {settings : Settings} {services : List Service} {r : Run} {cur : Option Task} {v : Verdict} {time : Nat}
  {earlier later : List Occurrence}

theorem Passes.verdict_of_setUp (h : Passes settings services cur r) (setUp : .setUp ∈ r.happened)
    (returned : r.stage = .returned v time) :
    v = Verdict.ofFailures (failuresIn settings.entries (beforeReturn r.happened)) := by
  rcases h.verdict returned with ⟨f, -, lacks⟩ | told
  · exact absurd setUp (h.not_setUp_of_lacks lacks)
  · exact told

/-- A call that failed is left out of what a run keeps, and of its verdict if it ended before the return, exactly if it
gave up. What the other calls failed with is kept all the same. No start call or restart call gives up, nor does a call
that panics, that ends while the run is not cancelled, or whose error has no mark; and a call that gave up would have done
so with more contexts on its error as well. -/
theorem left_out_iff_gave_up (h : (initial settings services).Reaches r)
    (split : r.happened = earlier ++ .ended e phase o flag :: later) (failing : o.fault? = some fault) :
    (flag = true ↔ .cancelled ∈ earlier) ∧
    (∃ entry own, settings.entries[e]? = some entry ∧
      own = (if o.GaveUp phase flag then [] else [⟨entry.name, phase, fault⟩]) ∧
      r.failures = failuresIn settings.entries earlier ++ own ++ failuresIn settings.entries later ∧
      ∀ v time, r.stage = .returned v time → .returned ∉ earlier →
        v = .ofFailures (failuresIn settings.entries earlier ++ own ++
          failuresIn settings.entries (beforeReturn later))) ∧
    (phase ≠ .stop ∨ flag = false ∨ (∃ p, o = .panicked p) ∨ (∃ err, o = .failed err ∧ ¬ err.Marked) →
      ¬ o.GaveUp phase flag) ∧
    ∀ err (contexts : List Message), o = .failed err → o.GaveUp phase flag →
      (Outcome.failed (contexts.foldl ErrorValue.context err)).GaveUp phase flag := by
  have passes := Passes.of_reaches h
  have ended : .ended e phase o flag ∈ r.happened := split ▸ List.mem_append_right _ List.mem_cons_self
  obtain ⟨setUp, registered⟩ := passes.registered_of_call ended rfl
  have entry := List.getElem?_eq_getElem registered
  refine ⟨passes.inOrder earlier _ later split,
    ⟨settings.entries[e], _, entry, rfl, ?_, fun v time returned unreturned => ?_⟩, not_gaveUp, ?_⟩
  · rw [← failuresIn_split entry failing, ← split]
    exact passes.failures
  · have before : beforeReturn r.happened = earlier ++ .ended e phase o flag :: beforeReturn later := by
      rw [split, beforeReturn_append_of_not_mem unreturned]
      rfl
    rw [passes.verdict_of_setUp setUp returned, before, failuresIn_split entry failing]
  · rintro err contexts rfl gaveUp
    exact gaveUp.contexts contexts

def quietSettings : Settings :=
  { signals := .silent, entries := [⟨"quiet", 0⟩, ⟨"loud", 1⟩] }

def givingUp : ErrorValue :=
  { base := .text "gave up", contexts := [.cancelled, .text "while closing"] }

/-- An error that only sounds as if a call had given up, and was caused by a cancellation. -/
def soundingAlike : ErrorValue :=
  { base := .text "operation cancelled", sources := [.cancelled] }

def quietServices : List Service :=
  [{ start := .awaitCancel .done, stop := .cancel (.fail givingUp) },
    { start := .awaitCancel .done, stop := .fail soundingAlike }]

/-- The run is asked to shut down, and is cancelled in the course of its first stop call. -/
def quietRun : Run :=
  ((((initial quietSettings quietServices).perform .run).2.serve 20).perform (.command .shutdown 1)).2.serve 20

theorem reaches_quietRun : (initial quietSettings quietServices).Reaches quietRun :=
  (((Reaches.rfl.act .run rfl).serve 20).act (.command .shutdown 1) rfl).serve 20

theorem left_out_iff_gave_up_quiet :
    quietRun.happened = quietRun.happened.take 8 ++
      .ended 0 .stop (.failed givingUp) true :: quietRun.happened.drop 9 ∧
    (Outcome.failed givingUp).GaveUp .stop true ∧
    quietRun.failures = [⟨"loud", .stop, .error soundingAlike⟩] ∧
    quietRun.stage = .returned (.failures [⟨"loud", .stop, .error soundingAlike⟩]) 0 := by
  have ended : quietRun.happened = quietRun.happened.take 8 ++
      .ended 0 .stop (.failed givingUp) true :: quietRun.happened.drop 9 := by rfl
  obtain ⟨-, ⟨entry, own, -, rfl, kept, verdict⟩, -⟩ := left_out_iff_gave_up reaches_quietRun ended rfl
  obtain ⟨v, returned⟩ : ∃ v, quietRun.stage = .returned v 0 := ⟨_, rfl⟩
  have told := verdict v 0 returned (by decide)
  exact ⟨ended, by decide, kept, returned.trans (congrArg (Stage.returned · 0) told)⟩

end Run

end Supervision
