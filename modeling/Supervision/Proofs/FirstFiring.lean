import Mathlib.Data.List.Basic
import Supervision.Latch.Session

/-! A latch has one winner. Whatever handles are made and dropped, the first firing on any of them decides: everybody who
asks, looks or waits, before or after, learns its value and no other. -/

namespace Supervision

/-- What becomes of a latch in use: a step is taken, or all waiters have their turns. -/
inductive LatchMove (α : Type)
  | step (s : LatchStep α)
  | turns

abbrev LatchNotes (α : Type) :=
  List (LatchStep α × LatchAnswer α)

namespace LatchNotes

variable {α : Type} (notes : LatchNotes α) (note : LatchStep α × LatchAnswer α)

/-! ### What the notes tell -/

def fired? : LatchStep α × LatchAnswer α → Option α
  | (.fire _ _, .gone) => none
  | (.fire _ a, _) => some a
  | _ => none

def makesHandle : LatchStep α × LatchAnswer α → Bool
  | (.clone _, .index _) => true
  | _ => false

def dropsHandle (h : Nat) : LatchStep α × LatchAnswer α → Bool
  | (.drop h', .dropped) => h' == h
  | _ => false

def makesWaiter : LatchStep α × LatchAnswer α → Bool
  | (.wait _, .index _) => true
  | _ => false

def winner : Option α :=
  notes.findSome? fired?

/-- How many handles there have been. There is one from the beginning. -/
def handles : Nat :=
  notes.countP makesHandle + 1

def waiters : Nat :=
  notes.countP makesWaiter

def hasHandle (h : Nat) : Bool :=
  decide (h < notes.handles) && !notes.any (dropsHandle h)

/-- How a step is bound to be answered after all that is noted. -/
def answer (step : LatchStep α) : LatchAnswer α :=
  if step.handle?.all notes.hasHandle then
    match step with
    | .fire _ _ => .flag notes.winner.isNone
    | .isFired _ => .flag notes.winner.isSome
    | .value _ => .value notes.winner
    | .clone _ => .index notes.handles
    | .drop _ => .dropped
    | .poll _ => .polled notes.winner
    | .wait _ => .index notes.waiters
    | .unknown => .unknown
  else .gone

theorem winner_snoc : winner (notes ++ [note]) = notes.winner.or (fired? note) := by
  rw [winner, List.findSome?_append, List.findSome?_singleton]
  rfl

theorem handles_snoc : handles (notes ++ [note]) = notes.handles + (makesHandle note).toNat := by
  simp only [handles, List.countP_append, List.countP_singleton]
  cases makesHandle note <;> rfl

theorem waiters_snoc : waiters (notes ++ [note]) = notes.waiters + (makesWaiter note).toNat := by
  simp only [waiters, List.countP_append, List.countP_singleton]
  cases makesWaiter note <;> simp

theorem hasHandle_snoc (h : Nat) : hasHandle (notes ++ [note]) h =
    (decide (h < notes.handles + (makesHandle note).toNat) && !(notes.any (dropsHandle h) || dropsHandle h note)) := by
  rw [hasHandle, handles_snoc, List.any_append, List.any_cons, List.any_nil, Bool.or_false]

theorem hasHandle_lt {h : Nat} (there : notes.hasHandle h = true) : h < notes.handles := by
  simp only [hasHandle, Bool.and_eq_true, decide_eq_true_eq] at there
  exact there.1

variable {notes note}

theorem hasHandle_of_keeps (drops : ∀ h, dropsHandle h note = false) (h : Nat) :
    hasHandle (notes ++ [note]) h =
      (decide (h < notes.handles + (makesHandle note).toNat) && !notes.any (dropsHandle h)) := by
  rw [hasHandle_snoc, drops, Bool.or_false]

theorem any_dropsHandle_of_keeps (drops : ∀ h, dropsHandle h note = false) (h : Nat) :
    (notes ++ [note]).any (dropsHandle h) = notes.any (dropsHandle h) := by
  rw [List.any_append, List.any_cons, List.any_nil, drops, Bool.or_false, Bool.or_false]

end LatchNotes

namespace LatchSession

open LatchNotes

variable {α : Type} {s : LatchSession α} {notes : LatchNotes α}

def follow : LatchSession α → List (LatchMove α) → LatchNotes α × LatchSession α
  | s, [] => ([], s)
  | s, .step step :: rest =>
    let (answer, s) := s.perform step
    let (notes, s) := s.follow rest
    ((step, answer) :: notes, s)
  | s, .turns :: rest => s.runWaiters.follow rest

/-! ### One step -/

/-- The session is as the notes tell. -/
structure Agrees (notes : LatchNotes α) (s : LatchSession α) : Prop where
  value : s.latch.value = notes.winner
  handles : s.handles.length = notes.handles
  there : ∀ h, s.hasHandle h = notes.hasHandle h
  dropped : ∀ h, notes.any (dropsHandle h) = true → h < notes.handles
  waiters : s.waiters.length = notes.waiters
  seen : ∀ x ∈ s.waiters, x = none ∨ x = notes.winner

theorem agrees_initial : Agrees [] ({} : LatchSession α) where
  value := rfl
  handles := rfl
  there h := by cases h <;> rfl
  dropped _ mem := by cases mem
  waiters := rfl
  seen _ mem := by cases mem

variable {note : LatchStep α × LatchAnswer α}

theorem Agrees.seen_snoc (h : Agrees notes s) {x : Option α} (mem : x ∈ s.waiters) :
    x = none ∨ x = winner (notes ++ [note]) := by
  rw [winner_snoc]
  rcases h.seen x mem with none | same
  · exact .inl none
  · cases won : notes.winner with
    | none => exact .inl (same.trans won)
    | some a => exact .inr (same.trans won)

theorem Agrees.dropped_snoc (h : Agrees notes s) (drops : ∀ i, dropsHandle i note = false) (i : Nat)
    (gone : (notes ++ [note]).any (dropsHandle i) = true) : i < LatchNotes.handles (notes ++ [note]) := by
  rw [any_dropsHandle_of_keeps drops] at gone
  rw [handles_snoc]
  exact Nat.lt_add_right _ (h.dropped i gone)

/-- What is noted of a step that makes and drops nothing. -/
theorem Agrees.noted (h : Agrees notes s) (handle : makesHandle note = false) (drops : ∀ i, dropsHandle i note = false)
    (waiter : makesWaiter note = false) {latch : Latch α} (value : latch.value = notes.winner.or (fired? note)) :
    Agrees (notes ++ [note]) { s with latch := latch } where
  value := by rw [value, winner_snoc]
  handles := by rw [handles_snoc, handle, h.handles]; rfl
  there i := by
    rw [hasHandle_of_keeps drops, handle]
    exact h.there i
  dropped := h.dropped_snoc drops
  waiters := by rw [waiters_snoc, waiter, h.waiters]; rfl
  seen _ mem := h.seen_snoc mem

theorem Agrees.looked (h : Agrees notes s) (handle : makesHandle note = false) (drops : ∀ i, dropsHandle i note = false)
    (waiter : makesWaiter note = false) (fires : fired? note = none) : Agrees (notes ++ [note]) s :=
  h.noted handle drops waiter (by rw [fires, Option.or_none, h.value])

theorem Agrees.cloned (h : Agrees notes s) (i : Nat) :
    Agrees (notes ++ [(.clone i, .index s.handles.length)]) { s with handles := s.handles ++ [true] } where
  value := by rw [winner_snoc, h.value]; exact Option.or_none.symm
  handles := by rw [handles_snoc, List.length_append, h.handles]; rfl
  there j := by
    have before := h.there j
    rw [hasHandle_of_keeps fun _ => rfl]
    simp only [hasHandle, LatchNotes.hasHandle, List.getElem?_append, makesHandle, Bool.toNat_true] at before ⊢
    by_cases old : j < s.handles.length
    · rw [if_pos old, before]
      rw [h.handles] at old
      simp [old, Nat.lt_succ_of_lt old]
    · have unnoted : notes.any (dropsHandle j) = false :=
        Bool.eq_false_iff.mpr fun gone => old (h.handles ▸ h.dropped j gone)
      rw [if_neg old, unnoted]
      rw [h.handles] at old ⊢
      by_cases new : j = notes.handles
      · simp [new]
      · simp [show ¬ j < notes.handles + 1 by omega, show j - notes.handles ≠ 0 by omega]
  dropped := h.dropped_snoc fun _ => rfl
  waiters := by rw [waiters_snoc, h.waiters]; rfl
  seen _ mem := h.seen_snoc mem

theorem Agrees.gone (h : Agrees notes s) {i : Nat} (there : s.hasHandle i = true) :
    Agrees (notes ++ [(.drop i, .dropped)]) { s with handles := s.handles.set i false } where
  value := by rw [winner_snoc, h.value]; exact Option.or_none.symm
  handles := by rw [handles_snoc, List.length_set, h.handles]; rfl
  there j := by
    have before := h.there j
    rw [hasHandle_snoc]
    by_cases own : i = j
    · have bound : i < s.handles.length := Nat.lt_of_not_le fun absent => by
        simp [hasHandle, List.getElem?_eq_none absent] at there
      simp [hasHandle, dropsHandle, ← own, List.getElem?_set_self bound]
    · simp only [hasHandle, LatchNotes.hasHandle, List.getElem?_set_ne own, makesHandle, dropsHandle, Bool.toNat_false,
        Nat.add_zero, beq_false_of_ne own, Bool.or_false] at before ⊢
      exact before
  dropped j gone := by
    rw [handles_snoc]
    rw [List.any_append, List.any_cons, List.any_nil, Bool.or_false, Bool.or_eq_true] at gone
    rcases gone with before | now
    · exact h.dropped j before
    · have same : i = j := by simpa [dropsHandle] using now
      exact same ▸ hasHandle_lt notes (h.there i ▸ there)
  waiters := by rw [waiters_snoc, h.waiters]; rfl
  seen _ mem := h.seen_snoc mem

theorem Agrees.waited (h : Agrees notes s) (i : Nat) :
    Agrees (notes ++ [(.wait i, .index s.waiters.length)]) { s with waiters := s.waiters ++ [none] } where
  value := by rw [winner_snoc, h.value]; exact Option.or_none.symm
  handles := by rw [handles_snoc, h.handles]; rfl
  there j := by
    rw [hasHandle_of_keeps fun _ => rfl]
    exact h.there j
  dropped := h.dropped_snoc fun _ => rfl
  waiters := by rw [waiters_snoc, List.length_append, h.waiters]; rfl
  seen x mem := by
    rcases List.mem_append.mp mem with old | new
    · exact h.seen_snoc old
    · exact .inl (List.mem_singleton.mp new)

theorem Agrees.act (h : Agrees notes s) {step : LatchStep α} (there : step.handle?.all s.hasHandle = true) :
    (s.act step).1 = notes.answer step ∧ Agrees (notes ++ [(step, (s.act step).1)]) (s.act step).2 := by
  have noted : step.handle?.all notes.hasHandle = true := by rwa [funext h.there] at there
  rw [LatchNotes.answer.eq_def, if_pos noted]
  cases step with
  | fire i a =>
    refine ⟨?_, h.noted rfl (fun _ => rfl) rfl ?_⟩
    · simp [LatchSession.act, Latch.isFired, h.value]
    · rw [Latch.value_fire, h.value]
      rfl
  | isFired i => exact ⟨congrArg (fun v => LatchAnswer.flag (Option.isSome v)) h.value, h.looked rfl (fun _ => rfl) rfl rfl⟩
  | value i => exact ⟨congrArg _ h.value, h.looked rfl (fun _ => rfl) rfl rfl⟩
  | poll i => exact ⟨congrArg _ h.value, h.looked rfl (fun _ => rfl) rfl rfl⟩
  | clone i => exact ⟨congrArg _ h.handles, h.cloned i⟩
  | drop i => exact ⟨rfl, h.gone there⟩
  | wait i => exact ⟨congrArg _ h.waiters, h.waited i⟩
  | unknown => exact ⟨rfl, h.looked rfl (fun _ => rfl) rfl rfl⟩

theorem Agrees.perform (h : Agrees notes s) (step : LatchStep α) :
    (s.perform step).1 = notes.answer step ∧ Agrees (notes ++ [(step, (s.perform step).1)]) (s.perform step).2 := by
  cases there : step.handle?.all s.hasHandle with
  | true =>
    have acts : s.perform step = s.act step := by
      cases handle : step.handle? with
      | none => simp [LatchSession.perform, handle]
      | some i => simp [LatchSession.perform, handle, (by simpa [handle] using there : s.hasHandle i = true)]
    rw [acts]
    exact h.act there
  | false =>
    have noted : step.handle?.all notes.hasHandle = false := by rwa [funext h.there] at there
    have gone : s.perform step = (.gone, s) := by
      cases handle : step.handle? with
      | none => simp [handle] at there
      | some i => simp [LatchSession.perform, handle, (by simpa [handle] using there : s.hasHandle i = false)]
    rw [gone, LatchNotes.answer.eq_def, if_neg (by simp [noted])]
    refine ⟨rfl, h.looked ?_ (fun _ => ?_) ?_ ?_⟩ <;> cases step <;> rfl

/-! ### Any number of steps -/

theorem Agrees.waiters_runWaiters (h : Agrees notes s) :
    s.runWaiters.waiters = List.replicate notes.waiters notes.winner := by
  rw [List.eq_replicate_iff]
  refine ⟨(List.length_map _).trans h.waiters, fun x mem => ?_⟩
  obtain ⟨seen, before, rfl⟩ := List.mem_map.mp mem
  rw [h.value]
  rcases h.seen seen before with rfl | rfl
  · exact Option.none_or
  · exact Option.or_self

theorem Agrees.runWaiters (h : Agrees notes s) : Agrees notes s.runWaiters where
  value := h.value
  handles := h.handles
  there := h.there
  dropped := h.dropped
  waiters := (List.length_map _).trans h.waiters
  seen x mem := by
    rw [h.waiters_runWaiters] at mem
    exact .inr (List.eq_of_mem_replicate mem)

/-- Every step is answered as it must be after the steps before it. -/
def Answered (notes : LatchNotes α) : LatchNotes α → Prop
  | [] => True
  | (step, answer) :: rest => answer = notes.answer step ∧ Answered (notes ++ [(step, answer)]) rest

theorem Agrees.follow (h : Agrees notes s) (moves : List (LatchMove α)) :
    Answered notes (s.follow moves).1 ∧ Agrees (notes ++ (s.follow moves).1) (s.follow moves).2 := by
  induction moves generalizing notes s with
  | nil =>
    refine ⟨trivial, ?_⟩
    rw [LatchSession.follow, List.append_nil]
    exact h
  | cons move rest ih =>
    cases move with
    | turns => exact ih h.runWaiters
    | step step =>
      obtain ⟨answer, after⟩ := h.perform step
      obtain ⟨answers, agrees⟩ := ih after
      rw [List.append_assoc] at agrees
      exact ⟨⟨answer, answers⟩, agrees⟩

theorem Answered.of_split {step : LatchStep α} {answer : LatchAnswer α} {earlier later : LatchNotes α}
    (h : Answered notes (earlier ++ (step, answer) :: later)) : answer = LatchNotes.answer (notes ++ earlier) step := by
  induction earlier generalizing notes with
  | nil =>
    rw [List.append_nil]
    exact h.1
  | cons note earlier ih =>
    have rest := ih h.2
    rwa [List.append_assoc] at rest

/-! A waiter that has seen the value has seen it for good, whatever else is done. -/

theorem waiters_perform (s : LatchSession α) (step : LatchStep α) : s.waiters <+: (s.perform step).2.waiters := by
  have act : s.waiters <+: (s.act step).2.waiters := by
    cases step with
    | wait => exact List.prefix_append _ _
    | _ => exact List.prefix_refl _
  unfold LatchSession.perform
  split
  · split
    · exact act
    · exact List.prefix_refl _
  · exact act

theorem seen_follow {w : Nat} {a : α} (moves : List (LatchMove α)) (seen : s.waiters[w]? = some (some a)) :
    (s.follow moves).2.waiters[w]? = some (some a) := by
  induction moves generalizing s with
  | nil => exact seen
  | cons move rest ih =>
    cases move with
    | turns =>
      refine ih (s := s.runWaiters) ?_
      simp [LatchSession.runWaiters, seen]
    | step step =>
      obtain ⟨more, grown⟩ := s.waiters_perform step
      obtain ⟨bound, -⟩ := List.getElem?_eq_some_iff.mp seen
      refine ih (s := (s.perform step).2) ?_
      rw [← grown, List.getElem?_append_left bound, seen]

/-! ### Bursts -/

/-- The moves of a session whose waiters run after every step, or only after the last. -/
def movesOf (burst : Bool) (steps : List (LatchStep α)) : List (LatchMove α) :=
  (steps.flatMap fun step => if burst then [.step step] else [.step step, .turns]) ++ [.turns]

theorem play_eq_follow (burst : Bool) (s : LatchSession α) (steps : List (LatchStep α)) :
    (play burst s steps).1.map Prod.fst = (s.follow (movesOf burst steps)).1.map Prod.snd ∧
      (play burst s steps).2 = (s.follow (movesOf burst steps)).2 := by
  induction steps generalizing s with
  | nil => exact ⟨rfl, rfl⟩
  | cons step rest ih =>
    cases burst with
    | true =>
      obtain ⟨answers, final⟩ := ih (s.perform step).2
      exact ⟨congrArg (List.cons _) answers, final⟩
    | false =>
      obtain ⟨answers, final⟩ := ih (s.perform step).2.runWaiters
      exact ⟨congrArg (List.cons _) answers, final⟩

/-- Every step is answered as the first firing before it decides, and after their turns all waiters have seen its value, or
nothing if there was none. What a waiter has seen it keeps, no drop of a handle is anything to a waiter, and a session
played with or without bursts is one of these. -/
theorem first_firing_decides (moves : List (LatchMove α)) :
    let notes := (follow {} moves).1
    let s := (follow {} moves).2
    (∀ earlier step answer later, notes = earlier ++ (step, answer) :: later → answer = LatchNotes.answer earlier step) ∧
    (∀ seen ∈ s.waiters, seen = none ∨ seen = notes.winner) ∧
    s.runWaiters.waiters = List.replicate notes.waiters notes.winner ∧
    (∀ (w : Nat) (a : α) more, s.waiters[w]? = some (some a) → (s.follow more).2.waiters[w]? = some (some a)) ∧
    (∀ h, (s.perform (.drop h)).2.waiters = s.waiters) ∧
    ∀ burst steps, (play burst s steps).1.map Prod.fst = (s.follow (movesOf burst steps)).1.map Prod.snd ∧
      (play burst s steps).2 = (s.follow (movesOf burst steps)).2 := by
  intro notes s
  obtain ⟨answered, agrees⟩ := agrees_initial.follow moves
  rw [List.nil_append] at agrees
  refine ⟨fun earlier step answer later split => ?_, agrees.seen, agrees.waiters_runWaiters,
    fun w a more seen => seen_follow more seen, fun h => ?_, fun burst => play_eq_follow burst s⟩
  · have noted : (follow {} moves).1 = earlier ++ (step, answer) :: later := split
    rw [noted] at answered
    exact answered.of_split
  · simp only [LatchSession.perform, LatchStep.handle?, LatchSession.act]
    split <;> rfl

/-- A value that is itself no value is fired on a second handle, which is dropped, and another value on the first. -/
def emptyMoves : List (LatchMove (Option Nat)) :=
  [.step (.clone 0), .step (.wait 1), .step (.fire 1 none), .step (.drop 1), .step (.fire 0 (some 3)), .step (.wait 0),
    .turns, .step (.poll 0)]

theorem first_firing_decides_empty :
    let notes : LatchNotes (Option Nat) := [(.clone 0, .index 1), (.wait 1, .index 0), (.fire 1 none, .flag true),
      (.drop 1, .dropped), (.fire 0 (some 3), .flag false), (.wait 0, .index 1), (.poll 0, .polled (some none))]
    (follow {} emptyMoves).1 = notes ∧
      .flag false = LatchNotes.answer (notes.take 4) (.fire 0 (some 3)) ∧
      .polled (some none) = LatchNotes.answer (notes.take 6) (.poll 0) ∧
      (follow {} emptyMoves).2.runWaiters.waiters = [some none, some none] := by
  obtain ⟨answered, -, seen, -⟩ := first_firing_decides emptyMoves
  exact ⟨rfl, answered _ _ _ [(.wait 0, .index 1), (.poll 0, .polled (some none))] rfl, answered _ _ _ [] rfl, seen⟩

end LatchSession

end Supervision
