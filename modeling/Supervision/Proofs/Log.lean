import Mathlib.Algebra.BigOperators.Group.Finset.Basic
import Supervision.Proofs.Closing

/-! The log tells the truth. Most of what it tells it tells at once: for everything that occurs there is a fixed list of
events, possibly empty, which is written when it occurs. Two kinds of events are written only under circumstances: that a
service exited on its own, and that the grace is over. Of all of them every act writes what it has to, so that the whole
log is that of the whole history. -/

namespace Supervision

/-! ### What is told of what -/

def Event.ofBegin (service : String) : Phase → Event
  | .start => .starting service
  | .restart => .restarting service
  | .stop => .stopping service

/-- What is told when a call ends so. A stop call that gives up with the mark of cancellation in a cancelled run is told to
be abandoned. -/
def Outcome.told (service : String) (phase : Phase) (cancelled : Bool) : Outcome → List Event
  | .done => []
  | .failed err =>
    if phase = .stop ∧ cancelled = true ∧ err.isCancellation = true then [.stopAbandoned service]
    else [.failed ⟨service, phase, .error err⟩]
  | .panicked p => [.panicked service phase p.message, .failed ⟨service, phase, .panic p.message⟩]

def Occurrence.endTold (nameOf : Nat → String) : Occurrence → List Event
  | .ended e phase o flag => o.told (nameOf e) phase flag
  | _ => []

/-- What is told at once, if this is how entries are called. -/
def Occurrence.told (nameOf : Nat → String) : Occurrence → List Event
  | .began e phase => [.ofBegin (nameOf e) phase]
  | .ended e phase o flag => o.told (nameOf e) phase flag
  | .received n => [.restartSignal n]
  | .obeyed .restart => [.restartRequested]
  | .shutDown c => [.shuttingDown c]
  | _ => []

namespace Event

def isPlain : Event → Bool
  | .starting _ | .restarting _ | .stopping _ | .failed _ | .stopAbandoned _ | .panicked _ _ _ | .restartSignal _
  | .restartRequested | .shuttingDown _ => true
  | _ => false

def isPrompt : Event → Bool
  | .restartRequested | .restartSignal _ => true
  | _ => false

def isShutDown : Event → Bool
  | .shuttingDown _ => true
  | _ => false

def isOfEnd : Event → Bool
  | .failed _ | .stopAbandoned _ | .panicked _ _ _ => true
  | _ => false

def isExit : Event → Bool
  | .exitedAlone _ => true
  | _ => false

def isExpiry : Event → Bool
  | .graceExpired _ => true
  | _ => false

end Event

namespace Run

variable {settings : Settings} {services : List Service} {r r' : Run} {t : Task} {cur : Option Task} {e : Nat}
  {os : List Occurrence}

/-! ### What an act writes -/

theorem Aside.trace (h : Aside t os r r') : r'.trace = r.trace := by
  cases h with
  | effect h => cases h <;> simp only [wake]
  | _ => rfl

theorem Outside.trace (h : Outside os r r') : r'.trace = r.trace := by
  cases h with
  | effect h => cases h <;> simp only [wake]
  | _ => rfl

theorem told_of_isAside {nameOf : Nat → String} {o : Occurrence} (h : o.isAside = true) : o.told nameOf = [] := by
  cases o <;> simp_all [Occurrence.isAside, Occurrence.isNote, Occurrence.told]

/-- What an act writes to the log. -/
structure Writes (os : List Occurrence) (r r' : Run) (events : List Event) : Prop where
  trace : r'.trace = r.trace ++ events
  plain : events.filter Event.isPlain = os.flatMap (Occurrence.told r.nameOf)
  /-- That a service exited on its own is written when its name is kept. -/
  exit : events.filter Event.isExit = [] ∧ r'.exit = r.exit ∨
    ∃ name, events.filter Event.isExit = [.exitedAlone name] ∧ r.exit.value = none ∧ r'.exit.value = some name
  /-- That the grace is over is written when the run gives up on start calls. -/
  expiry : events.filter Event.isExpiry = [] ∧
      (.returned ∈ os → os = [.returned] ∧ (r.stage = .spawned ∨ r.allExited = true)) ∨
    events.filter Event.isExpiry = [.graceExpired r.stillRunning] ∧ os = [.returned] ∧ r.allExited = false ∧
      ∃ deadline, r.stage = .leaving deadline

theorem filter_of_isPlain {events : List Event} (plain : ∀ event ∈ events, event.isPlain = true) {p : Event → Bool}
    (other : ∀ event, event.isPlain = true → p event = false) : events.filter p = [] :=
  List.filter_eq_nil_iff.mpr fun event mem => by simp [other event (plain event mem)]

theorem writes_of (plain rest : List Event) (trace : r'.trace = r.trace ++ (plain ++ rest))
    (told : os.flatMap (Occurrence.told r.nameOf) = plain) (isPlain : ∀ event ∈ plain, event.isPlain = true)
    (notPlain : ∀ event ∈ rest, event.isPlain = false)
    (exit : rest.filter Event.isExit = [] ∧ r'.exit = r.exit ∨
      ∃ name, rest.filter Event.isExit = [.exitedAlone name] ∧ r.exit.value = none ∧ r'.exit.value = some name)
    (expiry : rest.filter Event.isExpiry = [] ∧
        (.returned ∈ os → os = [.returned] ∧ (r.stage = .spawned ∨ r.allExited = true)) ∨
      rest.filter Event.isExpiry = [.graceExpired r.stillRunning] ∧ os = [.returned] ∧ r.allExited = false ∧
        ∃ deadline, r.stage = .leaving deadline) : Writes os r r' (plain ++ rest) where
  trace := trace
  plain := by
    rw [List.filter_append, List.filter_eq_self.mpr isPlain,
      List.filter_eq_nil_iff.mpr fun event mem => by simp [notPlain event mem], List.append_nil, told]
  exit := by
    have none : plain.filter Event.isExit = [] :=
      filter_of_isPlain isPlain fun event plain => by cases event <;> first | rfl | cases plain
    rwa [List.filter_append, none, List.nil_append]
  expiry := by
    have none : plain.filter Event.isExpiry = [] :=
      filter_of_isPlain isPlain fun event plain => by cases event <;> first | rfl | cases plain
    rwa [List.filter_append, none, List.nil_append]

theorem writes_plain (plain : List Event) (trace : r'.trace = r.trace ++ plain)
    (told : os.flatMap (Occurrence.told r.nameOf) = plain) (isPlain : ∀ event ∈ plain, event.isPlain = true)
    (exit : r'.exit = r.exit) (stays : .returned ∉ os) : ∃ events, Writes os r r' events :=
  ⟨_, writes_of plain [] (by rw [trace, List.append_nil]) told isPlain (by simp) (.inl ⟨rfl, exit⟩)
    (.inl ⟨rfl, fun mem => absurd mem stays⟩)⟩

theorem ofFailure_told {phase : Phase} (other : phase ≠ .stop) (service : String) (cancelled : Bool) (o : Outcome) :
    (o.failure? service phase).toList.flatMap Event.ofFailure = o.told service phase cancelled := by
  cases o <;> simp [Outcome.failure?, Outcome.fault?, Outcome.told, Event.ofFailure, other]

theorem isOfEnd_told {service : String} {phase : Phase} {cancelled : Bool} {o : Outcome} :
    ∀ event ∈ o.told service phase cancelled, event.isOfEnd = true := by
  cases o with
  | done => simp [Outcome.told]
  | failed err =>
    rw [Outcome.told]
    split <;> simp [Event.isOfEnd]
  | panicked p => simp [Outcome.told, Event.isOfEnd]

theorem isPlain_of_isOfEnd {event : Event} (ends : event.isOfEnd = true) : event.isPlain = true := by
  cases event <;> first | rfl | cases ends

theorem stop_told (r : Run) (service : String) (o : Outcome) :
    ((if r.isAbandoned o then .done else o).failure? service .stop).toList.flatMap Event.ofFailure ++
      (if r.isAbandoned o then [.stopAbandoned service] else []) = o.told service .stop r.cancelled := by
  cases o with
  | failed err =>
    simp only [isAbandoned, Outcome.told, true_and, Bool.and_eq_true]
    split <;> simp [Outcome.failure?, Outcome.fault?, Event.ofFailure]
  | _ => simp [isAbandoned, Outcome.failure?, Outcome.fault?, Event.ofFailure, Outcome.told]

theorem writes_endStart (r : Run) (e : Nat) (o : Outcome) :
    ∃ events, Writes [.ended e .start o r.cancelled] r (r.endStart e o) events := by
  let alone := !(r.cause.isFired || r.cancelled || r.exit.isFired)
  have exit : (r.endStart e o).exit = if alone then r.exit.fire (r.nameOf e) else r.exit := by
    simp only [Run.endStart, wake, update, report, markEnd, mark]
    rfl
  refine ⟨_, writes_of (o.told (r.nameOf e) .start r.cancelled) (if alone then [.exitedAlone (r.nameOf e)] else []) ?_
    (List.append_nil _) (fun event mem => isPlain_of_isOfEnd (isOfEnd_told event mem)) ?_ ?_ (.inl ⟨?_, by simp⟩)⟩
  · rw [← ofFailure_told (by decide), ← List.append_assoc]
    simp only [Run.endStart, wake, update, report, markEnd, mark]
    rfl
  · split <;> simp [Event.isPlain]
  · rw [exit]
    cases isAlone : alone with
    | false => exact .inl ⟨rfl, rfl⟩
    | true =>
      have unfired : r.exit.value = none := by simp_all [alone, Latch.isFired]
      exact .inr ⟨r.nameOf e, rfl, unfired, by simp [Latch.fire, Latch.isFired, unfired]⟩
  · split <;> rfl

theorem writes_finish (exited : r.allExited = true) : ∃ events, Writes [.returned] r r.finish events := by
  refine ⟨_, writes_of [] [if r.failures.isEmpty then .runFinished else .runFailed r.failures.length] rfl
    rfl (by simp) ?_ (.inl ⟨?_, rfl⟩) (.inl ⟨?_, fun _ => ⟨rfl, .inr exited⟩⟩)⟩
  · split <;> simp [Event.isPlain]
  · split <;> simp [Event.isExit]
  · split <;> simp [Event.isExpiry]

theorem writes_expire {deadline : Option Nat} (leaving : r.stage = .leaving deadline) (left : r.allExited = false) :
    ∃ events, Writes [.returned] r (r.log (.graceExpired r.stillRunning)).finish events := by
  refine ⟨_, writes_of [] [.graceExpired r.stillRunning,
    if r.failures.isEmpty then .runFinished else .runFailed r.failures.length] ?_ rfl (by simp) ?_ (.inl ⟨?_, rfl⟩)
    (.inr ⟨?_, rfl, left, _, leaving⟩)⟩
  · simp [Run.finish, giveVerdict, mark, log, wake]
  · split <;> simp [Event.isPlain]
  · split <;> simp [Event.isExit]
  · split <;> rfl

theorem Act.writes (h : Act t os r r') : ∃ events, Writes os r r' events := by
  cases h with
  | aside h =>
    refine writes_plain [] (by rw [h.trace, List.append_nil]) ?_ (by simp) h.spares.exit fun mem => ?_
    · exact List.flatMap_eq_nil_iff.mpr fun o mem => told_of_isAside (h.isAside o mem)
    · cases h.isAside _ mem
  | beginStart | beginRestart | beginStop => exact writes_plain _ rfl rfl (by simp [Event.isPlain]) rfl (by simp)
  | endStart _ o => exact writes_endStart r _ o
  | @endRestart _ e _ h o =>
    refine writes_plain (o.told (r.nameOf e) .restart r.cancelled) ?_ (List.append_nil _)
      (fun event mem => isPlain_of_isOfEnd (isOfEnd_told event mem)) rfl (by simp)
    rw [← ofFailure_told (by decide)]
    rfl
  | @endStop _ e _ h o =>
    refine writes_plain (o.told (r.nameOf e) .stop r.cancelled) ?_ (List.append_nil _)
      (fun event mem => isPlain_of_isOfEnd (isOfEnd_told event mem)) ?_ (by simp)
    · rw [← stop_told]
      simp only [Run.endStop, wake, update, report, markEnd, mark, List.append_assoc]
      rfl
    · simp only [Run.endStop, wake, update, report, markEnd, mark]
  | @takeFirings _ e n b =>
    refine ⟨_, writes_of [] (if 1 < n then [.fellBehind (r.nameOf e) n] else []) rfl rfl (by simp) ?_
      (.inl ⟨?_, rfl⟩) (.inl ⟨?_, by simp⟩)⟩ <;> split <;> simp [Event.isPlain, Event.isExit, Event.isExpiry]
  | @deliver _ n =>
    refine ⟨_, writes_of [] _ rfl rfl (by simp) ?_ (.inl ⟨?_, rfl⟩) (.inl ⟨?_, by simp⟩)⟩
    · exact fun event mem => List.eq_of_mem_replicate mem ▸ rfl
    · exact List.filter_replicate_of_neg (by simp [Event.isExit])
    · exact List.filter_replicate_of_neg (by simp [Event.isExpiry])
  | equip =>
    exact ⟨_, writes_of [] [.runStarting r.settings.entries.length] rfl rfl (by simp)
      (by simp [Event.isPlain]) (.inl ⟨rfl, rfl⟩) (.inl ⟨rfl, by simp⟩)⟩
  | receive | obey => exact writes_plain _ rfl rfl (by simp [Event.isPlain]) rfl (by simp)
  | shutDown _ reason =>
    cases reason <;> exact writes_plain _ rfl rfl (by simp [Event.isPlain]) rfl (by simp)
  | fail spawned =>
    exact ⟨_, writes_of [] [] (by simp [Run.fail, giveVerdict, mark]) rfl (by simp) (by simp)
      (.inl ⟨rfl, rfl⟩) (.inl ⟨rfl, fun _ => ⟨rfl, .inl spawned⟩⟩)⟩
  | finish _ exited => exact writes_finish exited
  | expire leaving left => exact writes_expire leaving left
  | _ => exact writes_plain [] (List.append_nil _).symm (by simp [Occurrence.told]) (by simp) rfl (by simp)

/-! ### What the log of a run tells -/

theorem nameOf_of_settings (h : r'.settings = r.settings) : r'.nameOf = r.nameOf := by
  funext e
  rw [nameOf, nameOf, h]

/-- What is told at once is told of everything that occurs, in the same order. -/
theorem Passes.plain (h : Passes settings services cur r) :
    r.trace.filter Event.isPlain = r.happened.flatMap (Occurrence.told r.nameOf) := by
  refine h.invariant (P := fun r => r.trace.filter Event.isPlain = r.happened.flatMap (Occurrence.told r.nameOf))
    (fun _ => rfl) (fun _ _ _ _ _ ih => ih) ?_ ?_
  · intro os r r' _ h ih
    rw [h.trace, h.happened, List.flatMap_append, nameOf_of_settings h.keeps.settings, ih,
      List.flatMap_eq_nil_iff.mpr fun o mem => told_of_isAside (h.isAside o mem), List.append_nil]
  · intro t os r r' _ h ih
    obtain ⟨events, writes⟩ := h.writes
    rw [writes.trace, List.filter_append, ih, writes.plain, h.happened, List.flatMap_append,
      nameOf_of_settings h.steady.settings]

theorem Passes.tells {p : Event → Bool} (h : Passes settings services cur r)
    (plain : ∀ event, p event = true → event.isPlain = true) :
    r.trace.filter p = r.happened.flatMap fun o => (o.told r.nameOf).filter p := by
  rw [← List.filter_flatMap, ← h.plain, List.filter_filter]
  refine List.filter_congr fun event _ => ?_
  cases told : p event with
  | false => rfl
  | true => rw [plain event told, Bool.and_self]

/-- That a service exited on its own is told once, when its name is kept. -/
theorem Passes.exit_told (h : Passes settings services cur r) :
    r.trace.filter Event.isExit = r.exit.value.toList.map .exitedAlone := by
  refine h.invariant (P := fun r => r.trace.filter Event.isExit = r.exit.value.toList.map .exitedAlone)
    (fun _ => rfl) (fun _ _ _ _ _ ih => ih) ?_ ?_
  · intro os r r' _ h ih
    rw [h.trace, h.keeps.exit, ih]
  · intro t os r r' before h ih
    obtain ⟨events, writes⟩ := h.writes
    rw [writes.trace, List.filter_append, ih]
    rcases writes.exit with ⟨none, same⟩ | ⟨name, told, before, after⟩
    · rw [none, same, List.append_nil]
    · rw [told, before, after]
      rfl

theorem Passes.exit_of_cause {name : String} (h : Passes settings services cur r)
    (cause : r.cause.value = some (.exited name)) : r.exit.value = some name := by
  refine h.invariant (P := fun r => ∀ name, r.cause.value = some (.exited name) → r.exit.value = some name)
    (fun _ _ cause => by cases cause) (fun _ _ _ _ _ ih => ih) ?_ ?_ name cause
  · intro os r r' _ h ih name cause
    rw [h.keeps.exit]
    exact ih name (h.keeps.cause ▸ cause)
  · intro t os r r' before h ih name cause
    have kept (exit : r.exit.value = some name) : r'.exit.value = some name := by
      obtain ⟨events, writes⟩ := h.writes
      rcases writes.exit with ⟨-, same⟩ | ⟨_, -, unfired, -⟩
      · rw [same, exit]
      · rw [unfired] at exit
        cases exit
    rw [h.cause_value, Option.or_eq_some_iff] at cause
    rcases cause with old | ⟨-, now⟩
    · exact kept (ih name old)
    · obtain ⟨o, mem, shuts⟩ := List.exists_of_findSome?_eq_some now
      cases o with
      | shutDown c =>
        obtain ⟨earlier, later, split⟩ := List.append_of_mem mem
        obtain ⟨_, reason⟩ := h.shuts split
        cases shuts
        cases reason with
        | exited _ exit => exact kept exit
      | _ => cases shuts

/-- Where nothing comes after a shutdown that could be another, there is at most one. -/
theorem causes_of_early (once : Throughout (fun earlier o => o.isEarly = true → ∀ c, .shutDown c ∉ earlier) os) :
    os.filterMap Occurrence.cause? = (os.findSome? Occurrence.cause?).toList := by
  induction os using List.reverseRecOn with
  | nil => rfl
  | append_singleton os o ih =>
    rw [List.filterMap_append, List.findSome?_append, ih once.of_append]
    cases o with
    | shutDown c =>
      have none : os.findSome? Occurrence.cause? = none := by
        refine List.findSome?_eq_none_iff.mpr fun o mem => ?_
        cases o with
        | shutDown c' => exact absurd mem (once os (.shutDown c) [] rfl rfl c')
        | _ => rfl
      rw [none]
      rfl
    | _ => simp [Occurrence.cause?]

theorem filter_told_ended {nameOf : Nat → String} {phase : Phase} {o : Outcome} {cancelled : Bool} {p : Event → Bool}
    (other : ∀ event, event.isOfEnd = true → p event = false) :
    ((Occurrence.ended e phase o cancelled).told nameOf).filter p = [] :=
  List.filter_eq_nil_iff.mpr fun event mem => by simp [other event (isOfEnd_told event mem)]

theorem Passes.shutDown_told (h : Passes settings services cur r) :
    r.trace.filter Event.isShutDown = r.cause.value.toList.map .shuttingDown := by
  have told (o : Occurrence) : (o.told r.nameOf).filter Event.isShutDown = o.cause?.toList.map .shuttingDown := by
    cases o with
    | began e phase => cases phase <;> rfl
    | ended => exact filter_told_ended fun event ends => by cases event <;> first | rfl | cases ends
    | obeyed c => cases c <;> rfl
    | _ => rfl
  have plain (event : Event) (shuts : event.isShutDown = true) : event.isPlain = true := by
    cases event <;> first | rfl | cases shuts
  rw [h.tells plain, h.cause_value, ← causes_of_early h.early, List.filterMap_eq_flatMap_toList, List.map_flatMap]
  simp only [told]

theorem Passes.ends_told (h : Passes settings services cur r) :
    r.trace.filter Event.isOfEnd = r.happened.flatMap (Occurrence.endTold r.nameOf) := by
  have told (o : Occurrence) : (o.told r.nameOf).filter Event.isOfEnd = o.endTold r.nameOf := by
    cases o with
    | began e phase => cases phase <;> rfl
    | ended => exact List.filter_eq_self.mpr isOfEnd_told
    | obeyed c => cases c <;> rfl
    | _ => rfl
  rw [h.tells fun event => isPlain_of_isOfEnd]
  simp only [told]

/-! ### Numbers -/

/-- Whatever is counted of a history, it is enough to count it of each occurrence. -/
theorem length_flatMap_eq {f : Occurrence → List Event} {count : List Occurrence → Nat} (nil : count [] = 0)
    (cons : ∀ o os, count (o :: os) = count [o] + count os) (one : ∀ o ∈ os, (f o).length = count [o]) :
    (os.flatMap f).length = count os := by
  induction os with
  | nil => rw [List.flatMap_nil, nil, List.length_nil]
  | cons o os ih =>
    rw [List.flatMap_cons, List.length_append, one o List.mem_cons_self,
      ih fun o mem => one o (List.mem_cons_of_mem _ mem), cons o os]

theorem Passes.firings_told (h : Passes settings services cur r) :
    r.trace.countP Event.isPrompt = r.happened.count .fired := by
  have told (o : Occurrence) : ((o.told r.nameOf).filter Event.isPrompt).length = [o].countP Occurrence.isPrompt := by
    cases o with
    | began e phase => cases phase <;> rfl
    | ended =>
      exact congrArg List.length (filter_told_ended fun event ends => by cases event <;> first | rfl | cases ends)
    | obeyed c => cases c <;> rfl
    | _ => rfl
  have plain (event : Event) (prompt : event.isPrompt = true) : event.isPlain = true := by
    cases event <;> first | rfl | cases prompt
  rw [h.firesInTurn.count, ← countP_isPrompt, List.countP_eq_length_filter, h.tells plain]
  refine length_flatMap_eq rfl (fun o os => ?_) fun o _ => told o
  rw [← List.singleton_append, List.countP_append]

/-- How many calls of a phase have begun to those of the first `n` entries that go by one name. -/
def callsUnder (nameOf : Nat → String) (n : Nat) (name : String) (phase : Phase) (os : List Occurrence) : Nat :=
  ∑ e ∈ Finset.range n, if nameOf e = name then begunCalls os e phase else 0

section

variable {nameOf : Nat → String} {n : Nat} {name : String} {phase : Phase}

theorem callsUnder_cons (o : Occurrence) (os : List Occurrence) :
    callsUnder nameOf n name phase (o :: os) = callsUnder nameOf n name phase [o] + callsUnder nameOf n name phase os := by
  rw [callsUnder, callsUnder, callsUnder, ← Finset.sum_add_distrib]
  refine Finset.sum_congr rfl fun e _ => ?_
  split
  · exact begunCalls_append [o] os e phase
  · rfl

theorem callsUnder_eq_zero (none : ∀ e, .began e phase ∉ os) : callsUnder nameOf n name phase os = 0 := by
  refine Finset.sum_eq_zero fun e _ => ?_
  rw [begunCalls, List.count_eq_zero.mpr (none e), ite_self]

theorem ofBegin_inj {name name' : String} {phase phase' : Phase} :
    Event.ofBegin name' phase' = .ofBegin name phase ↔ name' = name ∧ phase' = phase := by
  cases phase <;> cases phase' <;> simp [Event.ofBegin]

theorem callsUnder_began {e' : Nat} (he : e' < n) (phase' : Phase) :
    callsUnder nameOf n name phase [.began e' phase'] =
      [Event.ofBegin (nameOf e') phase'].countP (· == .ofBegin name phase) := by
  have elsewhere (e : Nat) (other : e ≠ e') : begunCalls [.began e' phase'] e phase = 0 :=
    begunCalls_eq_zero (by simpa [Occurrence.entry?] using other.symm) phase
  rw [callsUnder, Finset.sum_eq_single e' (fun e _ other => by rw [elsewhere e other, ite_self])
    fun absent => absurd (Finset.mem_range.mpr he) absent]
  by_cases named : nameOf e' = name <;> by_cases same : phase' = phase <;> simp [named, same, ofBegin_inj]

end

theorem Passes.begins_told (h : Passes settings services cur r) (name : String) (phase : Phase) :
    r.trace.count (.ofBegin name phase) = callsUnder r.nameOf settings.entries.length name phase r.happened := by
  have plain (event : Event) (begins : (event == .ofBegin name phase) = true) : event.isPlain = true := by
    rw [beq_iff_eq.mp begins]
    cases phase <;> rfl
  rw [List.count_eq_length_filter, h.tells plain]
  refine length_flatMap_eq (callsUnder_eq_zero fun _ => List.not_mem_nil) callsUnder_cons fun o mem => ?_
  by_cases begins : ∃ e' phase', o = .began e' phase'
  · obtain ⟨e', phase', rfl⟩ := begins
    rw [callsUnder_began (h.registered_of_call mem rfl).2, List.countP_eq_length_filter]
    rfl
  · rw [callsUnder_eq_zero fun e' mem => begins ⟨e', phase, (List.mem_singleton.mp mem).symm⟩, List.length_eq_zero_iff]
    cases o with
    | began e' phase' => exact absurd ⟨e', phase', rfl⟩ begins
    | ended => exact filter_told_ended fun event ends => by cases phase <;> cases event <;> first | rfl | cases ends
    | obeyed c => cases c <;> cases phase <;> rfl
    | _ => cases phase <;> rfl

/-! ### How many start calls were given up -/

/-- How many of the first `n` entries have a start call in progress. -/
def stragglers (n : Nat) (os : List Occurrence) : Nat :=
  (List.range n).countP fun e => InProgress os e .start

theorem stragglers_eq_zero {n : Nat} (none : ∀ e < n, ¬ InProgress os e .start) : stragglers n os = 0 :=
  List.countP_eq_zero.mpr fun e mem => by simpa using none e (List.mem_range.mp mem)

theorem Passes.no_stragglers (h : Passes settings services cur r) (quiet : .setUp ∉ r.happened ∨ r.allExited = true) :
    stragglers settings.entries.length r.happened = 0 := by
  refine stragglers_eq_zero fun e he ongoing => ?_
  rcases quiet with notSetUp | exited
  · have begun : 0 < begunCalls r.happened e .start := Nat.zero_lt_of_lt ongoing
    exact notSetUp (h.registered_of_call (List.count_pos_iff.mp begun) rfl).1
  · have tally := h.tally he
    have ended := tally.ended .start
    rw [Member.ongoing, allExited_iff.mp exited e, ← tally.begun] at ended
    exact absurd ongoing (Nat.not_lt.mpr (Nat.le_of_eq ended.symm))

theorem members_eq_map (r : Run) : r.members = (List.range r.members.length).map r.member := by
  refine List.ext_getElem (by simp) fun e he _ => ?_
  simp [member, he]

/-- Once the stop calls are over, every start call has begun, and what the run counts as left are those in progress. -/
theorem Passes.stillRunning_eq (h : Passes settings services cur r) (stopped : r.allStopped = true) :
    r.stillRunning = stragglers settings.entries.length r.happened := by
  rw [stillRunning, members_eq_map, List.countP_map, h.members_length, stragglers]
  refine List.countP_congr fun e mem => ?_
  have he := List.mem_range.mp mem
  have once := (h.completed stopped he).start_once
  have le := h.ended_le_begun he .start
  have ended := ended_eq_one_iff (c := (r.member e).start) ((h.tally he).ended .start)
  have ongoing : InProgress r.happened e .start ↔ (r.member e).start ≠ .ended := by
    rw [InProgress, once, Ne, ← ended]
    omega
  rw [decide_eq_true_iff, ongoing, Ne, ← isEnded_iff]
  simp

theorem stillRunning_eq_zero_iff : r.stillRunning = 0 ↔ r.allExited = true := by
  rw [stillRunning, List.countP_eq_zero, allExited, List.all_eq_true]
  simp

def expiryTold (n : Nat) (os : List Occurrence) : List Event :=
  if .returned ∈ os ∧ stragglers n (beforeReturn os) ≠ 0 then [.graceExpired (stragglers n (beforeReturn os))] else []

theorem expiryTold_append (n : Nat) (os' : List Occurrence) (same : .returned ∈ os ∨ .returned ∉ os') :
    expiryTold n (os ++ os') = expiryTold n os := by
  by_cases returned : .returned ∈ os
  · simp [expiryTold, returned, beforeReturn_append_of_mem returned]
  · simp [expiryTold, returned, same.resolve_left returned]

theorem expiryTold_return (n : Nat) (live : .returned ∉ os) :
    expiryTold n (os ++ [.returned]) = if stragglers n os ≠ 0 then [.graceExpired (stragglers n os)] else [] := by
  simp [expiryTold, beforeReturn_snoc live]

/-- That the grace is over is told once, with the number of start calls in progress, if the run returns without them. -/
theorem Passes.expiry_told (h : Passes settings services cur r) :
    r.trace.filter Event.isExpiry = expiryTold settings.entries.length r.happened := by
  refine h.invariant (P := fun r => r.trace.filter Event.isExpiry = expiryTold settings.entries.length r.happened)
    (fun _ => rfl) (fun _ _ _ _ _ ih => ih) ?_ ?_
  · intro os r r' _ h ih
    rw [h.trace, h.happened, ih, expiryTold_append]
    exact .inr fun now => by cases h.isAside _ now
  · intro t os r r' before h ih
    obtain ⟨events, writes⟩ := h.writes
    rw [writes.trace, List.filter_append, ih, h.happened]
    rcases writes.expiry with ⟨none, law⟩ | ⟨told, rfl, left, deadline, leaving⟩
    · rw [none, List.append_nil]
      by_cases returned : .returned ∈ r.happened ∨ .returned ∉ os
      · rw [expiryTold_append _ _ returned]
      · rw [not_or, Classical.not_not] at returned
        obtain ⟨live, now⟩ := returned
        obtain ⟨rfl, quiet⟩ := law now
        have none := before.no_stragglers (quiet.imp_left fun spawned => before.not_setUp (by rw [spawned]; rfl))
        rw [expiryTold_return _ live, if_neg (by simpa using none)]
        simp [expiryTold, live]
    · have live : .returned ∉ r.happened := before.not_returned (by rw [leaving]; rfl)
      have stopped : r.allStopped = true := before.allStopped (by rw [leaving]; rfl)
      have some : r.stillRunning ≠ 0 := fun none => by simp [stillRunning_eq_zero_iff.mp none] at left
      rw [before.stillRunning_eq stopped] at told some
      rw [told, expiryTold_return _ live, if_pos some]
      simp [expiryTold, live]

/-! ### The truth -/

/-- What the log tells is so, and everything that it has to tell is told. -/
structure Truthful (settings : Settings) (r : Run) : Prop where
  /-- Restarts are told to be requested or signalled as often as the run fires. -/
  fired : r.trace.countP Event.isPrompt = r.happened.count .fired
  began : ∀ name phase, r.trace.count (.ofBegin name phase) = callsUnder r.nameOf settings.entries.length name phase r.happened
  /-- A call that fails or panics is told once, with its failure or as abandoned, and before that a panic is told of. -/
  ended : r.trace.filter Event.isOfEnd = r.happened.flatMap (Occurrence.endTold r.nameOf)
  exitedOnce : r.trace.countP Event.isExit ≤ 1
  exited : ∀ name, r.cause.value = some (.exited name) → r.trace.filter Event.isExit = [.exitedAlone name]
  /-- The shutdown is told once if there is a cause, and then with it. -/
  shutDown : r.trace.filter Event.isShutDown = r.cause.value.toList.map .shuttingDown
  /-- The end of the grace is told once if the run returned while start calls were in progress, and then with their number. -/
  expired : r.trace.filter Event.isExpiry =
    if .returned ∈ r.happened ∧ stragglers settings.entries.length (beforeReturn r.happened) ≠ 0 then
      [.graceExpired (stragglers settings.entries.length (beforeReturn r.happened))]
    else []

theorem log_truthful (h : (initial settings services).Reaches r) : Truthful settings r := by
  have passes := Passes.of_reaches h
  have exit := passes.exit_told
  refine ⟨passes.firings_told, passes.begins_told, passes.ends_told, ?_, fun name cause => ?_, passes.shutDown_told,
    passes.expiry_told⟩
  · rw [List.countP_eq_length_filter, exit]
    cases r.exit.value <;> simp
  · rw [exit, passes.exit_of_cause cause]
    rfl

/-- The log of the pair that a service ends by itself, and that gives up on the other service. -/
theorem log_truthful_stuck :
    Truthful pairSettings stuckRun ∧ stuckRun.trace.filter Event.isExit = [.exitedAlone "first"] ∧
      stuckRun.trace.filter Event.isShutDown = [.shuttingDown (.exited "first")] ∧
      stuckRun.trace.filter Event.isExpiry = [.graceExpired 1] ∧ stuckRun.trace.count (.stopping "second") = 1 := by
  have truthful := log_truthful reaches_stuckRun
  have cause : stuckRun.cause.value = some (.exited "first") := by rfl
  refine ⟨truthful, truthful.exited "first" cause, ?_, ?_, (truthful.began "second" .stop).trans (by rfl)⟩
  · rw [truthful.shutDown, cause]
    rfl
  · rw [truthful.expired]
    rfl

end Run

end Supervision
