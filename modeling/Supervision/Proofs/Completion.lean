import Supervision.Proofs.Trigger
import Supervision.Proofs.Verdict

/-! When a run returns. It waits for every stop call to end, and then for the start calls: to their end, or after the exit
of a service no longer than for the exit grace. Once all that is over the run returns at that very moment. -/

namespace Supervision

def Occurrence.endsPhase (phase : Phase) : Occurrence → Bool
  | .ended _ phase' _ _ => phase' = phase
  | _ => false

theorem Occurrence.endsPhase_iff {phase : Phase} {o : Occurrence} :
    o.endsPhase phase = true ↔ ∃ e outcome flag, o = .ended e phase outcome flag := by
  cases o <;> simp [endsPhase]

theorem Occurrence.endsPhase_eq_false {phase : Phase} {o : Occurrence}
    (h : ∀ e outcome flag, o ≠ .ended e phase outcome flag) : o.endsPhase phase = false := by
  refine Bool.eq_false_iff.mpr fun ends => ?_
  obtain ⟨e, outcome, flag, same⟩ := endsPhase_iff.mp ends
  exact h e outcome flag same

theorem Occurrence.endsPhase_of_isAside {o : Occurrence} (h : o.isAside = true) (phase : Phase) :
    o.endsPhase phase = false := by
  cases o <;> simp_all [isAside, isNote, endsPhase]

/-! ### The times in a history -/

def AllEnded (entries : Nat) (phase : Phase) (os : List Occurrence) : Prop :=
  ∀ e < entries, endedCalls os e phase = 1

instance (entries : Nat) (phase : Phase) (os : List Occurrence) : Decidable (AllEnded entries phase os) :=
  inferInstanceAs (Decidable (∀ e < entries, _))

def lastEnd (phase : Phase) (hs : List Stamped) : Option Nat :=
  (hs.filter (·.what.endsPhase phase)).getLast?.map Stamped.time

def shutDownTime (hs : List Stamped) : Option Nat :=
  (hs.find? (·.what.cause?.isSome)).map Stamped.time

/-- The time at which the last stop call ended, or that of the shutdown if there was none. -/
def stopsOver (hs : List Stamped) : Nat :=
  ((lastEnd .stop hs).or (shutDownTime hs)).getD 0

def startsOver (entries : Nat) (hs : List Stamped) : Option Nat :=
  if AllEnded entries .start (hs.map Stamped.what) then some ((lastEnd .start hs).getD 0) else none

/-- A time that may never come, or the limit if that comes first. -/
def atMost (limit : Nat) : Option Nat → Nat
  | some time => min time limit
  | none => limit

/-- When a run returns whose stop calls and start calls were over at these times: never if it waits for a start call that
never ends. -/
def returnTime (cause : Option Cause) (grace stops : Nat) (starts : Option Nat) : Option Nat :=
  match cause with
  | some (.exited _) => some (max stops (atMost (stops + grace) starts))
  | _ => starts.map (max stops)

/-- Without waiting for a start call to end a run returns only after the exit of a service and the whole of the grace. -/
theorem grace_of_returnTime {cause : Option Cause} {grace stops time : Nat}
    (h : returnTime cause grace stops none = some time) :
    (∃ name, cause = some (.exited name)) ∧ stops + grace = time := by
  unfold returnTime at h
  split at h
  · rename_i name
    refine ⟨⟨name, rfl⟩, ?_⟩
    rw [← Option.some.inj h, atMost]
    omega
  · cases h

theorem returnTime_of_late {cause : Option Cause} {grace stops time now : Nat}
    (h : returnTime cause grace stops none = some time) (late : time ≤ now) :
    returnTime cause grace stops (some now) = some time := by
  obtain ⟨⟨name, rfl⟩, waited⟩ := grace_of_returnTime h
  refine congrArg some ?_
  simp only [atMost]
  omega

/-- Until when the start calls are waited for if the stop calls were over at this time. -/
def graceAfter (cause : Option Cause) (grace stops : Nat) : Option Nat :=
  match cause with
  | some (.exited _) => some (stops + grace)
  | _ => none

theorem returnTime_of_inTime {cause : Option Cause} {grace stops starts now : Nat} (h : max stops starts = now)
    (inTime : ∀ d, graceAfter cause grace stops = some d → now ≤ d) :
    returnTime cause grace stops (some starts) = some now := by
  unfold graceAfter at inTime
  unfold returnTime
  split
  · have := inTime _ rfl
    simp only [atMost, Option.some.injEq]
    omega
  · exact congrArg some h

theorem returnTime_of_expired {cause : Option Cause} {grace stops d : Nat}
    (h : graceAfter cause grace stops = some d) : returnTime cause grace stops none = some d := by
  unfold graceAfter at h
  unfold returnTime
  split at h
  · cases h
    simp only [atMost, Option.some.injEq]
    omega
  · cases h

namespace Run

variable {settings : Settings} {services : List Service} {r r' : Run} {t : Task} {cur : Option Task} {e : Nat}
  {os : List Occurrence} {phase : Phase}

/-! ### What more history does to the times -/

theorem filter_historyWith (r : Run) (os : List Occurrence) (p : Occurrence → Bool) :
    (r.historyWith os).filter (fun s => p s.what) =
      r.history.filter (fun s => p s.what) ++ (os.filter p).map (Stamped.mk r.now) := by
  simp [historyWith, List.filter_map, Function.comp_def]

theorem lastEnd_of_ends (h : ∃ o ∈ os, o.endsPhase phase = true) : lastEnd phase (r.historyWith os) = some r.now := by
  obtain ⟨o, mem, ends⟩ := h
  have kept : o ∈ os.filter (·.endsPhase phase) := List.mem_filter.mpr ⟨mem, ends⟩
  rw [lastEnd, r.filter_historyWith os (·.endsPhase phase), List.getLast?_append, List.getLast?_map]
  cases last : (os.filter (·.endsPhase phase)).getLast? with
  | none =>
    rw [List.getLast?_eq_none_iff.mp last] at kept
    cases kept
  | some o' => rfl

theorem lastEnd_of_not (h : ∀ o ∈ os, o.endsPhase phase = false) :
    lastEnd phase (r.historyWith os) = lastEnd phase r.history := by
  have none : os.filter (·.endsPhase phase) = [] := List.filter_eq_nil_iff.mpr fun o mem => by simp [h o mem]
  rw [lastEnd, r.filter_historyWith os (·.endsPhase phase), none, List.map_nil, List.append_nil, lastEnd]

theorem lastEnd_le {time : Nat} (past : ∀ s ∈ r.history, s.time ≤ time) : (lastEnd phase r.history).getD 0 ≤ time := by
  cases last : (r.history.filter (·.what.endsPhase phase)).getLast? with
  | none => simp [lastEnd, last]
  | some s =>
    have mem := List.mem_filter.mp (List.mem_of_getLast? last)
    simpa [lastEnd, last] using past s mem.1

theorem shutDownTime_of_some {time : Nat} (h : shutDownTime r.history = some time) :
    shutDownTime (r.historyWith os) = some time := by
  simp only [shutDownTime, Option.map_eq_some_iff] at h ⊢
  obtain ⟨s, found, at'⟩ := h
  exact ⟨s, by rw [historyWith, List.find?_append, found, Option.some_or], at'⟩

theorem exists_shutDownTime {c : Cause} (h : .shutDown c ∈ r.happened) :
    ∃ time, shutDownTime r.history = some time := by
  obtain ⟨s, mem, what⟩ := List.mem_map.mp h
  refine Option.isSome_iff_exists.mp ?_
  rw [shutDownTime, Option.isSome_map, List.find?_isSome]
  exact ⟨s, mem, by rw [what]; rfl⟩

theorem shutDownTime_of_mem {c : Cause} (fresh : ∀ c, .shutDown c ∉ r.happened) (mem : .shutDown c ∈ os) :
    shutDownTime (r.historyWith os) = some r.now := by
  have before : r.history.find? (·.what.cause?.isSome) = none := by
    rw [List.find?_eq_none]
    intro s mem some
    obtain ⟨c, cause⟩ := Option.isSome_iff_exists.mp some
    have what : s.what = .shutDown c := by cases same : s.what <;> simp_all [Occurrence.cause?]
    exact fresh c (what ▸ List.mem_map_of_mem mem)
  rw [shutDownTime, historyWith, List.find?_append, before, Option.none_or, List.find?_map, Option.map_map]
  cases found : os.find? ((fun s : Stamped => s.what.cause?.isSome) ∘ Stamped.mk r.now) with
  | none => exact absurd (List.find?_eq_none.mp found _ mem) (by simp [Occurrence.cause?])
  | some o => rfl

theorem stopsOver_of_ends (h : ∃ o ∈ os, o.endsPhase .stop = true) : stopsOver (r.historyWith os) = r.now := by
  rw [stopsOver, lastEnd_of_ends h]
  rfl

/-- After the shutdown only the end of a stop call changes the time at which the last one ended. -/
theorem stopsOver_of_not (h : ∀ o ∈ os, o.endsPhase .stop = false) (shutDown : ∃ c, .shutDown c ∈ r.happened) :
    stopsOver (r.historyWith os) = stopsOver r.history := by
  obtain ⟨c, shutDown⟩ := shutDown
  obtain ⟨time, known⟩ := exists_shutDownTime shutDown
  rw [stopsOver, lastEnd_of_not h, shutDownTime_of_some known, stopsOver, known]

theorem stopsOver_of_shutDown {c : Cause} (before : ∀ o ∈ r.happened, o.endsPhase .stop = false)
    (h : ∀ o ∈ os, o.endsPhase .stop = false) (fresh : ∀ c, .shutDown c ∉ r.happened) (mem : .shutDown c ∈ os) :
    stopsOver (r.historyWith os) = r.now := by
  have none : lastEnd .stop r.history = none := by
    rw [lastEnd, List.filter_eq_nil_iff.mpr fun s mem => ?_]
    · rfl
    · simp [before s.what (List.mem_map_of_mem mem)]
  rw [stopsOver, lastEnd_of_not h, none, shutDownTime_of_mem fresh mem]
  rfl

/-! ### Calls that are over -/

/-- Where the calls of a phase were over they stay so, and none ends any more; and they get over as one of them ends. -/
structure Progresses (phase : Phase) (os : List Occurrence) (finished finished' : Bool) : Prop where
  kept : finished = true → finished' = true ∧ ∀ o ∈ os, o.endsPhase phase = false
  ended : finished' = true → finished = true ∨ ∃ o ∈ os, o.endsPhase phase = true

theorem progresses_of_free {finished finished' : Bool} (same : finished' = finished)
    (free : ∀ o ∈ os, o.endsPhase phase = false) : Progresses phase os finished finished' where
  kept finished := ⟨same.trans finished, free⟩
  ended finished := .inl (same.symm.trans finished)

theorem Act.progresses {call : Member → CallState} {finished finished' : Bool} (h : Act t os r r')
    (before : finished = true ↔ ∀ e, call (r.member e) = .ended)
    (after : finished' = true ↔ ∀ e, call (r'.member e) = .ended)
    (kept : ∀ e, call (r.member e) = .ended → call (r'.member e) = .ended)
    (ends : ∀ e, call (r'.member e) = .ended →
      call (r.member e) = .ended ∨ ∃ outcome flag, os = [.ended e phase outcome flag])
    (live : ∀ {e outcome flag m m'}, Member.Step e t os m m' → .ended e phase outcome flag ∈ os → call m ≠ .ended) :
    Progresses phase os finished finished' where
  kept all := by
    have ended := before.mp all
    refine ⟨after.mpr fun e => kept e (ended e), fun o mem => Occurrence.endsPhase_eq_false ?_⟩
    rintro e outcome flag rfl
    rcases h.steps e with ⟨-, free⟩ | step
    · exact free _ mem rfl
    · exact live step mem (ended e)
  ended all := by
    by_cases already : ∀ e, call (r.member e) = .ended
    · exact .inl (before.mpr already)
    · obtain ⟨e, unended⟩ := Classical.not_forall.mp already
      obtain ⟨outcome, flag, rfl⟩ := (ends e (after.mp all e)).resolve_left unended
      exact .inr ⟨_, List.mem_singleton_self _, Occurrence.endsPhase_iff.mpr ⟨e, outcome, flag, rfl⟩⟩

theorem Act.stops (h : Act t os r r') : Progresses .stop os r.allStopped r'.allStopped := by
  refine h.progresses allStopped_iff allStopped_iff (fun _ => h.stop_ended) (fun _ => h.stop_ended_or) ?_
  intro e outcome flag m m' step mem
  cases step <;> simp_all

theorem Act.exits (h : Act t os r r') : Progresses .start os r.allExited r'.allExited := by
  refine h.progresses allExited_iff allExited_iff (fun _ => h.start_ended) (fun _ => h.start_ended_or) ?_
  intro e outcome flag m m' step mem
  cases step <;> simp_all

/-! ### The end of a run, step by step -/

/-- What an act does to a run on its way from the shutdown to the return. -/
inductive Closes (os : List Occurrence) (r r' : Run) : Prop
  | stay (same : r'.stage = r.stage) (quiet : ∀ o ∈ os, o.isMilestone = false)
  | sooner (h : r'.stage.hasShutDown = false)
  | shutDown (c : Cause) (unfired : r.stage.hasShutDown = false) (h : r'.stage = .stopping) (mem : .shutDown c ∈ os)
  | leave (h : r.stage = .stopping) (stopped : r.allStopped = true) (h' : r'.stage = .leaving r.graceEnd?)
      (nothing : os = [])
  | finish (deadline : Option Nat) (fs : List Failure) (h : r.stage = .leaving deadline)
      (finished : r.allExited = true ∨ r.allExited = false ∧ ∃ d, deadline = some d ∧ d ≤ r.now)
      (h' : r'.stage = .returned (Verdict.ofFailures fs) r.now) (nothing : os = [.returned])

theorem Act.closes (h : Act t os r r') : Closes os r r' := by
  cases h.advance with
  | stay same quiet => exact .stay same quiet
  | fail _ _ _ stage | equip _ stage | pass _ _ _ stage => exact .sooner (by rw [stage]; rfl)
  | shutDown _ round c running stage =>
    exact .shutDown c (by rw [running]; rfl) stage (List.mem_append_right _ (List.mem_singleton_self _))
  | leave stopping stopped stage => exact .leave stopping stopped stage rfl
  | finish deadline leaving finished stage => exact .finish deadline _ leaving finished stage rfl

def exitTime (r : Run) : Option Nat :=
  if r.allExited then some ((lastEnd .start r.history).getD 0) else none

/-- A run that waits for its start calls has not waited too long: neither beyond the deadline, nor beyond the end of
the last of them. -/
structure Patient (r : Run) (deadline : Option Nat) : Prop where
  grace : deadline = graceAfter r.cause.value r.settings.exitGrace (stopsOver r.history)
  inTime : ∀ d, deadline = some d → r.now ≤ d
  stopped : stopsOver r.history ≤ r.now
  exited : r.allExited = true → max (stopsOver r.history) ((lastEnd .start r.history).getD 0) = r.now

/-- Nothing has happened later than now, and each step from the shutdown to the return is taken in time. -/
structure Timely (r : Run) : Prop where
  past : ∀ s ∈ r.history, s.time ≤ r.now
  stopping : r.stage = .stopping → r.allStopped = true → stopsOver r.history = r.now
  leaving : ∀ deadline, r.stage = .leaving deadline → r.Patient deadline
  returned : ∀ v time, r.stage = .returned v time → v.isFault = false → time ≤ r.now ∧
    returnTime r.cause.value r.settings.exitGrace (stopsOver r.history) r.exitTime = some time

/-- Some more happens at the same moment, and the supervising task gets no further. -/
structure Continues (os : List Occurrence) (r r' : Run) : Prop where
  stage : r'.stage = r.stage
  now : r'.now = r.now
  settings : r'.settings = r.settings
  cause : r'.cause.value = r.cause.value
  history : r'.history = r.historyWith os
  stops : Progresses .stop os r.allStopped r'.allStopped
  exits : Progresses .start os r.allExited r'.allExited

theorem past_historyWith (h : ∀ s ∈ r.history, s.time ≤ r.now) : ∀ s ∈ r.historyWith os, s.time ≤ r.now := by
  intro s mem
  rcases List.mem_append.mp mem with old | new
  · exact h s old
  · obtain ⟨o, -, rfl⟩ := List.mem_map.mp new
    exact Nat.le_refl _

theorem Continues.stopsOver (before : Passes settings services cur r) (h : Continues os r r')
    (stopped : r.stage.hasStopped = true) : stopsOver r'.history = stopsOver r.history := by
  rw [h.history]
  refine stopsOver_of_not (h.stops.kept (before.allStopped stopped)).2 ?_
  exact before.hasShutDown_iff.mp (Stage.hasShutDown_of_hasStopped stopped)

theorem Patient.continues {deadline : Option Nat} (before : Passes settings services cur r) (h : Continues os r r')
    (leaving : r.stage = .leaving deadline) (ih : r.Patient deadline) : r'.Patient deadline := by
  have same : Supervision.stopsOver r'.history = Supervision.stopsOver r.history :=
    h.stopsOver before (by rw [leaving]; rfl)
  refine ⟨?_, fun d some => ?_, ?_, fun exited => ?_⟩
  · rw [same, h.cause, h.settings]
    exact ih.grace
  · rw [h.now]
    exact ih.inTime d some
  · rw [same, h.now]
    exact ih.stopped
  · rw [same, h.now, h.history]
    rcases h.exits.ended exited with finished | ends
    · rw [lastEnd_of_not (h.exits.kept finished).2]
      exact ih.exited finished
    · rw [lastEnd_of_ends ends, Option.getD_some]
      exact Nat.max_eq_right ih.stopped

theorem Timely.continues (before : Passes settings services cur r) (h : Continues os r r') (ih : r.Timely) :
    r'.Timely := by
  refine ⟨?_, fun stage stopped => ?_, fun deadline stage => ?_, fun v time stage sound => ?_⟩
  · rw [h.history, h.now]
    exact past_historyWith ih.past
  · rw [h.stage] at stage
    rw [h.history, h.now]
    rcases h.stops.ended stopped with finished | ends
    · rw [stopsOver_of_not (h.stops.kept finished).2 (before.hasShutDown_iff.mp (by rw [stage]; rfl))]
      exact ih.stopping stage finished
    · exact stopsOver_of_ends ends
  · rw [h.stage] at stage
    exact (ih.leaving deadline stage).continues before h stage
  · rw [h.stage] at stage
    obtain ⟨late, law⟩ := ih.returned v time stage sound
    have same := h.stopsOver before (by simp [stage, Stage.hasStopped, sound])
    refine ⟨h.now.symm ▸ late, ?_⟩
    rw [h.cause, h.settings, same]
    by_cases finished : r.allExited = true
    · obtain ⟨finished', none⟩ := h.exits.kept finished
      rw [exitTime, if_pos finished', h.history, lastEnd_of_not none]
      rwa [exitTime, if_pos finished] at law
    · rw [exitTime, if_neg finished] at law
      by_cases finished' : r'.allExited = true
      · have ends := (h.exits.ended finished').resolve_left finished
        rw [exitTime, if_pos finished', h.history, lastEnd_of_ends ends]
        exact returnTime_of_late law late
      · rwa [exitTime, if_neg finished']

theorem Passes.unstopped (h : Passes settings services cur r) (unfired : r.stage.hasShutDown = false) :
    ∀ o ∈ r.happened, o.endsPhase .stop = false := by
  refine fun o mem => Occurrence.endsPhase_eq_false ?_
  rintro e outcome flag rfl
  have he := h.entry_lt_of_ended mem
  have ended : 0 < endedCalls r.happened e .stop :=
    List.countP_pos_iff.mpr ⟨_, mem, by simp [Occurrence.ends]⟩
  have tally := h.tally he
  have begun : 0 < begunCalls r.happened e .stop := by
    have := tally.ended .stop
    rw [tally.begun]
    omega
  have fired := (h.orderly he).stop_gated begun
  rw [h.isFired_eq, unfired] at fired
  cases fired

theorem Act.continues (h : Act t os r r') (same : r'.stage = r.stage) (quiet : ∀ o ∈ os, o.isMilestone = false) :
    Continues os r r' where
  stage := same
  now := h.steady.now
  settings := h.steady.settings
  cause := by rw [h.cause_value, findSome?_cause?_of_quiet quiet, Option.or_none]
  history := h.history
  stops := h.stops
  exits := h.exits

theorem Act.stopsOver_shutDown {c : Cause} (before : Passes settings services (some t) r) (h : Act t os r r')
    (unfired : r.stage.hasShutDown = false) (mem : .shutDown c ∈ os) : stopsOver r'.history = r'.now := by
  rw [h.history, h.steady.now]
  by_cases ends : ∃ o ∈ os, o.endsPhase .stop = true
  · exact stopsOver_of_ends ends
  · refine stopsOver_of_shutDown (before.unstopped unfired) (fun o mem => ?_) (before.not_shutDown unfired) mem
    exact Bool.eq_false_iff.mpr fun now => ends ⟨o, mem, now⟩

theorem Act.patient (h : Act t [] r r') (past : ∀ s ∈ r.history, s.time ≤ r.now) (finished : stopsOver r.history = r.now) :
    r'.Patient r.graceEnd? := by
  have now := h.steady.now
  have same : r'.history = r.history := h.history.trans (List.append_nil _)
  refine ⟨?_, fun d some => ?_, ?_, fun _ => ?_⟩
  · rw [same, finished, h.steady.settings, h.cause_value, List.findSome?_nil, Option.or_none]
    rfl
  · rw [now]
    unfold graceEnd? at some
    split at some
    · cases some
      exact Nat.le_add_right _ _
    · cases some
  · exact Nat.le_of_eq (by rw [same, finished, now])
  · rw [same, finished, now]
    exact Nat.max_eq_left (lastEnd_le past)

/-- The run returns as the last start call ends or as the grace does, whichever comes first. -/
theorem Act.returnTime {deadline : Option Nat} (before : Passes settings services (some t) r) (h : Act t [.returned] r r')
    (stage : r.stage = .leaving deadline) (patient : r.Patient deadline)
    (finished : r.allExited = true ∨ r.allExited = false ∧ ∃ d, deadline = some d ∧ d ≤ r.now) :
    Supervision.returnTime r'.cause.value r'.settings.exitGrace (stopsOver r'.history) r'.exitTime = some r.now := by
  have shutDown := before.hasShutDown_iff.mp (by rw [stage]; rfl)
  have same : stopsOver r'.history = stopsOver r.history := by
    rw [h.history]
    exact stopsOver_of_not (by simp [Occurrence.endsPhase]) shutDown
  have cause : r'.cause.value = r.cause.value := h.cause_value.trans Option.or_none
  have exits := h.exits
  rw [same, cause, h.steady.settings]
  rcases finished with exited | ⟨left, d, rfl, due⟩
  · rw [exitTime, if_pos (exits.kept exited).1, h.history, lastEnd_of_not (exits.kept exited).2]
    exact returnTime_of_inTime (patient.exited exited) fun d some => patient.inTime d (patient.grace.trans some)
  · have left' : r'.allExited ≠ true := fun exited => by
      rcases exits.ended exited with finished | ⟨o, mem, ends⟩
      · rw [left] at finished
        cases finished
      · cases List.mem_singleton.mp mem
        cases ends
    have onTime : r.now = d := Nat.le_antisymm (patient.inTime d rfl) due
    rw [exitTime, if_neg left', onTime]
    exact returnTime_of_expired patient.grace.symm

theorem Act.timely (before : Passes settings services (some t) r) (h : Act t os r r') (ih : r.Timely) : r'.Timely := by
  have past : ∀ s ∈ r'.history, s.time ≤ r'.now := by
    rw [h.history, h.steady.now]
    exact past_historyWith ih.past
  cases h.closes with
  | stay same quiet => exact ih.continues before (h.continues same quiet)
  | sooner unfired =>
    refine ⟨past, fun stage => ?_, fun deadline stage => ?_, fun v time stage sound => ?_⟩
    · simp [stage, Stage.hasShutDown] at unfired
    · simp [stage, Stage.hasShutDown] at unfired
    · simp [stage, Stage.hasShutDown, sound] at unfired
  | shutDown c unfired stage mem =>
    refine ⟨past, fun _ _ => h.stopsOver_shutDown before unfired mem, fun _ leaving => ?_, fun _ _ returned => ?_⟩
    · simp [stage] at leaving
    · simp [stage] at returned
  | leave stage stopped stage' nothing =>
    subst nothing
    refine ⟨past, fun stopping => ?_, fun deadline leaving => ?_, fun _ _ returned => ?_⟩
    · simp [stage'] at stopping
    · rw [stage'] at leaving
      cases leaving
      exact h.patient ih.past (ih.stopping stage stopped)
    · simp [stage'] at returned
  | finish deadline fs stage finished stage' nothing =>
    subst nothing
    refine ⟨past, fun stopping => ?_, fun _ leaving => ?_, fun v time returned _ => ?_⟩
    · simp [stage'] at stopping
    · simp [stage'] at leaving
    · rw [stage'] at returned
      cases returned
      exact ⟨Nat.le_of_eq h.steady.now.symm, h.returnTime before stage (ih.leaving deadline stage) finished⟩

/-! ### Time -/

theorem Passes.supervise_waits (h : Passes settings services none r) (settled : r.isSettled = true)
    (shutDown : r.stage.hasShutDown = true) (live : r.stage.hasReturned = false) :
    r.isDue .supervise = false ∧ .supervise ∈ r.parked := by
  have spawned : Task.supervise = .supervise → r.stage ≠ .idle := fun _ idle => by
    rw [idle] at shutDown
    cases shutDown
  exact ⟨h.not_due settled trivial spawned live, h.parked_of_settled settled trivial spawned live⟩

theorem left_of_not_isDue {deadline : Option Nat} (stage : r.stage = .leaving deadline)
    (waits : r.isDue .supervise = false) : r.allExited = false ∧ ∀ d, deadline = some d → r.now < d := by
  simp only [isDue, stage] at waits
  cases deadline with
  | none => exact ⟨waits, fun d none => by cases none⟩
  | some d =>
    obtain ⟨left, early⟩ := Bool.or_eq_false_iff.mp waits
    refine ⟨left, fun d' same => ?_⟩
    cases same
    simpa using early

theorem Outside.continues (h : Outside os r r') (stage : r'.stage = r.stage) (now : r'.now = r.now) :
    Continues os r r' where
  stage := stage
  now := now
  settings := h.keeps.settings
  cause := by rw [h.keeps.cause]
  history := h.history
  stops := progresses_of_free (by simp only [Run.allStopped, h.keeps.members]) fun o mem =>
    Occurrence.endsPhase_of_isAside (h.isAside o mem) _
  exits := progresses_of_free (by simp only [Run.allExited, h.keeps.members]) fun o mem =>
    Occurrence.endsPhase_of_isAside (h.isAside o mem) _

/-- While time passes nobody is about to take the next step, and the deadline is not passed over. -/
theorem Timely.pass {time : Nat} (before : Passes settings services none r) (ih : r.Timely) (settled : r.isSettled = true)
    (later : r.now ≤ time) (inTime : ∀ d, r.nextDeadline? = some d → time ≤ d) :
    (wake { r with now := time }).Timely := by
  refine ⟨fun s mem => ?_, fun stage stopped => ?_, fun deadline stage => ?_, fun v returned stage sound => ?_⟩
  · exact Nat.le_trans (ih.past s mem) later
  · have stage : r.stage = .stopping := stage
    obtain ⟨waits, -⟩ := before.supervise_waits settled (by rw [stage]; rfl) (by rw [stage]; rfl)
    simp only [isDue, stage] at waits
    exact absurd stopped (Bool.eq_false_iff.mp waits)
  · have stage : r.stage = .leaving deadline := stage
    have patient := ih.leaving deadline stage
    obtain ⟨waits, parked⟩ := before.supervise_waits settled (by rw [stage]; rfl) (by rw [stage]; rfl)
    refine ⟨patient.grace, fun d some => ?_, Nat.le_trans patient.stopped later, fun exited => ?_⟩
    · obtain ⟨l, le, next⟩ := nextDeadline?_le parked (d := d) (by rw [deadline?, stage, some])
      exact Nat.le_trans (inTime l next) le
    · exact absurd exited (Bool.eq_false_iff.mp (left_of_not_isDue stage waits).1)
  · obtain ⟨le, law⟩ := ih.returned v returned stage sound
    exact ⟨Nat.le_trans le later, law⟩

theorem Outside.timely (before : Passes settings services none r) (h : Outside os r r') (ih : r.Timely) : r'.Timely := by
  have outside := h
  cases h with
  | pass settled later inTime => exact ih.pass before settled later inTime
  | run idle =>
    refine ⟨ih.past, fun stage => ?_, fun _ stage => ?_, fun _ _ stage => ?_⟩
    · cases stage
    · cases stage
    · cases stage
  | effect h => exact ih.continues before (outside.continues h.spares.stage h.spares.now)
  | dropHandle | newHandle | watch | signal | takeUp => exact ih.continues before (outside.continues rfl rfl)

theorem Passes.timely (h : Passes settings services cur r) : r.Timely := by
  refine h.invariant ?_ (fun _ _ _ _ _ ih => ⟨ih.past, ih.stopping, fun d stage => ?_, ih.returned⟩)
    (fun before h ih => h.timely before ih) fun before h ih => h.timely before ih
  · intro quota
    exact ⟨fun s mem => (by cases mem), fun stage => (by cases stage), fun _ stage => (by cases stage),
      fun _ _ stage => (by cases stage)⟩
  · obtain ⟨grace, inTime, stopped, exited⟩ := ih.leaving d stage
    exact ⟨grace, inTime, stopped, exited⟩

/-! ### What the history tells -/

theorem Passes.sorted (h : Passes settings services cur r) : r.history.Pairwise (·.time ≤ ·.time) := by
  have more {r : Run} (timely : r.Timely) (os : List Occurrence) (ih : r.history.Pairwise (·.time ≤ ·.time)) :
      (r.historyWith os).Pairwise (·.time ≤ ·.time) := by
    refine List.pairwise_append.mpr ⟨ih, List.pairwise_map.mpr ?_, fun s mem s' mem' => ?_⟩
    · exact List.pairwise_of_forall fun _ _ => Nat.le_refl _
    · obtain ⟨o, -, rfl⟩ := List.mem_map.mp mem'
      exact timely.past s mem
  refine h.invariant (P := fun r => r.history.Pairwise (·.time ≤ ·.time)) (fun _ => .nil) (fun _ _ _ _ _ ih => ih) ?_ ?_
  · intro os r r' before h ih
    rw [h.history]
    exact more before.timely os ih
  · intro t os r r' before h ih
    rw [h.history]
    exact more before.timely os ih

theorem Passes.le_lastEnd {s : Stamped} (h : Passes settings services cur r) (mem : s ∈ r.history)
    (ends : s.what.endsPhase phase = true) : ∃ time, lastEnd phase r.history = some time ∧ s.time ≤ time := by
  have sorted := h.sorted.filter (·.what.endsPhase phase)
  have kept : s ∈ r.history.filter (·.what.endsPhase phase) := List.mem_filter.mpr ⟨mem, ends⟩
  cases last : (r.history.filter (·.what.endsPhase phase)).getLast? with
  | none =>
    rw [List.getLast?_eq_none_iff.mp last] at kept
    cases kept
  | some s' =>
    obtain ⟨before, split⟩ := List.getLast?_eq_some_iff.mp last
    refine ⟨s'.time, by rw [lastEnd, last]; rfl, ?_⟩
    rw [split] at sorted kept
    rcases List.mem_append.mp kept with earlier | same
    · exact (List.pairwise_append.mp sorted).2.2 s earlier s' (List.mem_singleton_self s')
    · exact Nat.le_of_eq (congrArg Stamped.time (List.mem_singleton.mp same))

theorem ended_eq_one_iff {c : CallState} {ended : Nat} (h : ended + c.pause?.isSome.toNat = c.begun) :
    ended = 1 ↔ c = .ended := by
  cases c <;> simp_all [CallState.pause?, CallState.begun]

theorem Passes.allEnded_iff {call : Member → CallState} (h : Passes settings services cur r)
    (begun : ∀ m : Member, m.begun phase = (call m).begun)
    (ongoing : ∀ m : Member, m.ongoing phase = (call m).pause?.isSome.toNat)
    (absent : call { start := .ended, stop := .ended, retired := true } = .ended) :
    AllEnded settings.entries.length phase r.happened ↔ ∀ e, call (r.member e) = .ended := by
  have tells (e : Nat) (he : e < settings.entries.length) :
      endedCalls r.happened e phase = 1 ↔ call (r.member e) = .ended := by
    have count := (h.tally he).ended phase
    rw [begun, ongoing] at count
    exact ended_eq_one_iff count
  refine ⟨fun all e => ?_, fun all e he => (tells e he).mpr (all e)⟩
  by_cases he : e < settings.entries.length
  · exact (tells e he).mp (all e he)
  · rw [member_of_le (by rw [h.members_length]; omega)]
    exact absent

theorem Passes.allEnded_stop_iff (h : Passes settings services cur r) :
    AllEnded settings.entries.length .stop r.happened ↔ r.allStopped = true :=
  (h.allEnded_iff (fun _ => rfl) (fun _ => rfl) rfl).trans allStopped_iff.symm

theorem Passes.allEnded_start_iff (h : Passes settings services cur r) :
    AllEnded settings.entries.length .start r.happened ↔ r.allExited = true :=
  (h.allEnded_iff (fun _ => rfl) (fun _ => rfl) rfl).trans allExited_iff.symm

theorem Passes.startsOver_eq (h : Passes settings services cur r) :
    startsOver settings.entries.length r.history = r.exitTime := by
  have tells : AllEnded settings.entries.length .start (r.history.map Stamped.what) ↔ r.allExited = true :=
    h.allEnded_start_iff
  by_cases exited : r.allExited = true
  · rw [startsOver, exitTime, if_pos exited, if_pos (tells.mpr exited)]
  · rw [startsOver, exitTime, if_neg exited, if_neg (mt tells.mp exited)]

/-! ### The return -/

/-- A run that has returned had shut down and waited for every stop call, and it gave up on a start call only after the
exit of a service, once the grace was over. -/
theorem Passes.complete {v : Verdict} {time : Nat} (h : Passes settings services cur r) (setUp : .setUp ∈ r.happened)
    (returned : r.stage = .returned v time) :
    r.cause.isFired = true ∧ r.allStopped = true ∧
      (r.allExited = true ∨
        (∃ name, r.cause.value = some (.exited name)) ∧ stopsOver r.history + settings.exitGrace ≤ r.now) ∧
      returnTime r.cause.value settings.exitGrace (stopsOver r.history) r.exitTime = some time := by
  have isSetUp := h.isSetUp_iff.mpr setUp
  have sound : v.isFault = false := by simpa [returned, Stage.isSetUp] using isSetUp
  have stopped : r.stage.hasStopped = true := by simp [returned, Stage.hasStopped, sound]
  obtain ⟨late, law⟩ := h.timely.returned v time returned sound
  rw [h.settings_eq] at law
  refine ⟨h.isFired_eq.trans (Stage.hasShutDown_of_hasStopped stopped), h.allStopped stopped, ?_, law⟩
  by_cases exited : r.allExited = true
  · exact .inl exited
  · rw [exitTime, if_neg exited] at law
    obtain ⟨cause, waited⟩ := grace_of_returnTime law
    exact .inr ⟨cause, waited ▸ late⟩

/-- A run that has nothing more to do although it has not returned waits for a stop call, or for a start call that it is
not to give up on yet. -/
theorem Passes.incomplete (h : Passes settings services none r) (settled : r.isSettled = true)
    (live : r.stage.hasReturned = false) (fired : r.cause.isFired = true) (stopped : r.allStopped = true) :
    r.allExited = false ∧
      ∀ name, r.cause.value = some (.exited name) → r.now < stopsOver r.history + settings.exitGrace := by
  have shutDown : r.stage.hasShutDown = true := h.isFired_eq ▸ fired
  obtain ⟨waits, -⟩ := h.supervise_waits settled shutDown live
  cases stage : r.stage with
  | stopping =>
    simp only [isDue, stage, stopped] at waits
    cases waits
  | leaving deadline =>
    obtain ⟨left, early⟩ := left_of_not_isDue stage waits
    have grace := (h.timely.leaving deadline stage).grace
    rw [h.settings_eq] at grace
    exact ⟨left, fun name cause => early _ (by rw [grace, cause]; rfl)⟩
  | idle | spawned | running => simp [stage, Stage.hasShutDown] at shutDown
  | returned => simp [stage, Stage.hasReturned] at live

/-- Whenever there is nothing more to do, a run that was set up has returned if and only if it has shut down, every stop
call has ended, and either every start call has ended too, or a service exited and the exit grace has passed since the
last stop call ended. It returns at the very moment at which this comes true. -/
theorem returned_exactly_when_complete (h : (initial settings services).Reaches r) (setUp : .setUp ∈ r.happened) :
    (r.isSettled = true → (r.stage.hasReturned = true ↔
      r.cause.isFired = true ∧ AllEnded settings.entries.length .stop r.happened ∧
        (AllEnded settings.entries.length .start r.happened ∨
          (∃ name, r.cause.value = some (.exited name)) ∧ stopsOver r.history + settings.exitGrace ≤ r.now))) ∧
    ∀ v time, r.stage = .returned v time →
      r.cause.isFired = true ∧ AllEnded settings.entries.length .stop r.happened ∧
        (AllEnded settings.entries.length .start r.happened ∨
          (∃ name, r.cause.value = some (.exited name)) ∧ stopsOver r.history + settings.exitGrace ≤ r.now) ∧
        returnTime r.cause.value settings.exitGrace (stopsOver r.history)
          (startsOver settings.entries.length r.history) = some time := by
  have passes := Passes.of_reaches h
  rw [passes.allEnded_stop_iff, passes.allEnded_start_iff, passes.startsOver_eq]
  refine ⟨fun settled => ⟨fun returned => ?_, fun ⟨fired, stopped, finished⟩ => ?_⟩, fun v time returned => ?_⟩
  · cases stage : r.stage with
    | returned v time =>
      obtain ⟨fired, stopped, finished, -⟩ := passes.complete setUp stage
      exact ⟨fired, stopped, finished⟩
    | _ => simp [stage, Stage.hasReturned] at returned
  · cases live : r.stage.hasReturned with
    | true => rfl
    | false =>
      obtain ⟨left, early⟩ := passes.incomplete settled live fired stopped
      rcases finished with exited | ⟨⟨name, cause⟩, late⟩
      · rw [left] at exited
        cases exited
      · exact absurd late (Nat.not_le.mpr (early name cause))
  · exact passes.complete setUp returned

/-- The first service exits at once. The second takes a while to stop, and its start call never ends. -/
def stuckServices : List Service :=
  [{ start := .done, stop := .done }, { start := .never, stop := .sleep 3 .done }]

def stuckStopped : Run :=
  ((((initial pairSettings stuckServices).perform .run).2.serve 20).advance 3).serve 20

def stuckRun : Run :=
  (stuckStopped.advance 5003).serve 20

theorem reaches_stuckStopped : (initial pairSettings stuckServices).Reaches stuckStopped := by
  refine (((Reaches.rfl.act .run rfl).serve 20).advance ?_ fun d next => ?_).serve 20
  · decide
  · exact Nat.le_of_eq (Option.some.inj next)

theorem reaches_stuckRun : (initial pairSettings stuckServices).Reaches stuckRun := by
  refine (reaches_stuckStopped.advance ?_ fun d next => ?_).serve 20
  · decide
  · exact Nat.le_of_eq (Option.some.inj next)

theorem returned_exactly_when_complete_stuck :
    stuckRun.stage.hasReturned = true ∧ AllEnded 2 .stop stuckRun.happened ∧
      returnTime (some (.exited "first")) 5000 3 none = some 5003 := by
  obtain ⟨whenSettled, atReturn⟩ := returned_exactly_when_complete reaches_stuckRun (by decide)
  have stage : stuckRun.stage = .returned .ok 5003 := by rfl
  obtain ⟨fired, stopped, finished, time⟩ := atReturn _ _ stage
  exact ⟨(whenSettled (by rfl)).mpr ⟨fired, stopped, finished⟩, stopped, time⟩

end Run

end Supervision
