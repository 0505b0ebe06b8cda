import Mathlib.Algebra.Ring.Nat
import Mathlib.Data.Nat.Log
import Supervision.Proofs.Readers

/-! Each firing of a broadcast is delivered once to every waiter that is there. What a waiter is told depends on the handles
and their firings and on what is done with this waiter, and on no other: it is one number at first if it has fallen too
far behind, and one firing at a time from then on, until nothing is left and nobody can fire any more. -/

namespace Supervision

theorem bufferSize_eq (backlog : Nat) : bufferSize backlog = 2 ^ Nat.clog 2 (max backlog 1) := by
  unfold bufferSize
  split
  · rename_i small
    rw [Nat.max_eq_right small, Nat.clog_one_right, pow_zero]
  · rename_i large
    have size : 2 ≤ backlog := by omega
    rw [Nat.max_eq_left (by omega), Nat.one_shiftLeft]
    congr 1
    apply Nat.le_antisymm
    · apply Nat.succ_le_of_lt
      rw [Nat.lt_clog_iff_pow_lt (by decide)]
      have below := Nat.log2_self_le (show backlog - 1 ≠ 0 by omega)
      omega
    · apply Nat.clog_le_of_le_pow
      have above := @Nat.lt_log2_self (backlog - 1)
      omega

/-! ### A waiter by itself -/

/-- What becomes of a broadcast in use: a step is taken, or all tasks have their turns. -/
inductive BroadcastMove
  | step (s : BroadcastStep)
  | turns

/-- What may happen to a waiter by itself: something is done with a handle or with this waiter, or tasks have turns. -/
inductive WaiterMove
  | clone (handle : Nat)
  | drop (handle : Nat)
  | fire (handle : Nat) (times : Nat)
  | next
  | dropWaiter
  | spawn
  | turns

/-- What a move is to one waiter. -/
def BroadcastMove.own? (w : Nat) : BroadcastMove → Option WaiterMove
  | .step (.clone h) => some (.clone h)
  | .step (.drop h) => some (.drop h)
  | .step (.fire h times) => some (.fire h times)
  | .step (.next w') => if w' = w then some .next else none
  | .step (.dropWaiter w') => if w' = w then some .dropWaiter else none
  | .step (.spawn w') => if w' = w then some .spawn else none
  | .turns => some .turns
  | _ => none

/-- Where a waiter has got to. A task that reads it, or that did and has ended, has read so much. -/
inductive Lot
  | held
  | reading (read : List Nat)
  | ended (read : List Nat)
  | dropped
deriving DecidableEq, Repr

namespace Lot

def isAlive : Lot → Bool
  | .held | .reading _ => true
  | _ => false

def read : Lot → List Nat
  | .reading ns | .ended ns => ns
  | _ => []

def tasks (w : Nat) : Lot → List ReadingTask
  | .reading ns => [{ reader := w, read := ns }]
  | .ended ns => [{ reader := w, read := ns, ended := true }]
  | _ => []

end Lot

/-- `fired` counts the firings since it subscribed, and `told` what it has told of them to its holder. -/
structure LoneWaiter where
  handles : List Bool
  fired : Nat := 0
  told : Nat := 0
  lot : Lot := .held

namespace LoneWaiter

variable {size : Nat} {x : LoneWaiter}

def hasHandle (x : LoneWaiter) (h : Nat) : Bool :=
  x.handles[h]?.getD false

def unread (x : LoneWaiter) : Nat :=
  x.fired - (x.told + x.lot.read.sum)

def reading (size : Nat) (x : LoneWaiter) : Reading :=
  if size < x.unread then .firings (x.unread - size)
  else if 0 < x.unread then .firings 1
  else if x.handles.any id then .pending
  else .closed

def perform (size : Nat) (x : LoneWaiter) : WaiterMove → Option BroadcastAnswer × LoneWaiter
  | .clone h => (none, if x.hasHandle h then { x with handles := x.handles ++ [true] } else x)
  | .drop h => (none, if x.hasHandle h then { x with handles := x.handles.set h false } else x)
  | .fire h times => (none, if x.hasHandle h then { x with fired := x.fired + times } else x)
  | .next =>
    if x.lot = .held then (some (.reading (x.reading size)), { x with told := x.told + (x.reading size).told })
    else (some .gone, x)
  | .dropWaiter => if x.lot = .held then (some .dropped, { x with lot := .dropped }) else (some .gone, x)
  | .spawn => (none, if x.lot = .held then { x with lot := .reading [] } else x)
  | .turns =>
    match x.lot with
    | .reading ns =>
      let read := ns ++ drain size x.unread
      (none, { x with lot := if x.handles.any id then .reading read else .ended read })
    | _ => (none, x)

def play (size : Nat) : LoneWaiter → List WaiterMove → List BroadcastAnswer × LoneWaiter
  | x, [] => ([], x)
  | x, move :: rest =>
    let (answer, x) := x.perform size move
    let (answers, x) := x.play size rest
    (answer.toList ++ answers, x)

theorem play_cons (size : Nat) (x : LoneWaiter) (move : WaiterMove) (rest : List WaiterMove) :
    x.play size (move :: rest) = ((x.perform size move).1.toList ++ ((x.perform size move).2.play size rest).1,
      ((x.perform size move).2.play size rest).2) := rfl

/-- A waiter is told of no firing that was not made, and its task ends when there is nothing left and can be nothing more. -/
structure Fair (x : LoneWaiter) : Prop where
  told : x.told + x.lot.read.sum ≤ x.fired
  ended : ∀ ns, x.lot = .ended ns → x.handles.any id = false ∧ x.told + ns.sum = x.fired

theorem told_reading (size : Nat) (x : LoneWaiter) : (x.reading size).told ≤ x.unread := by
  unfold reading
  split
  · exact Nat.sub_le _ _
  · split
    · assumption
    · split <;> exact Nat.zero_le _

theorem Fair.read_all {ns : List Nat} (h : x.Fair) (lot : x.lot = .reading ns) (size : Nat) :
    x.told + (ns ++ drain size x.unread).sum = x.fired := by
  have told := h.told
  rw [List.sum_append, sum_drain, unread]
  rw [lot] at told ⊢
  simp only [Lot.read] at told ⊢
  omega

theorem Fair.perform (h : x.Fair) (move : WaiterMove) : (x.perform size move).2.Fair := by
  have notEnded {i : Nat} (there : x.hasHandle i = true) (ns : List Nat) : x.lot ≠ .ended ns := fun ended => by
    have none := (h.ended ns ended).1
    rw [any_of_getElem? there] at none
    cases none
  cases move with
  | clone i | drop i =>
    simp only [LoneWaiter.perform]
    split
    · rename_i there
      exact ⟨h.told, fun ns ended => absurd ended (notEnded there ns)⟩
    · exact h
  | fire i times =>
    simp only [LoneWaiter.perform]
    split
    · rename_i there
      exact ⟨Nat.le_add_right_of_le h.told, fun ns ended => absurd ended (notEnded there ns)⟩
    · exact h
  | next =>
    simp only [LoneWaiter.perform]
    split
    · rename_i held
      refine ⟨?_, fun ns ended => ?_⟩
      · have le := x.told_reading size
        have told := h.told
        simp only [unread] at le
        simp only
        omega
      · rw [show x.lot = .ended ns from ended] at held
        cases held
    · exact h
  | dropWaiter | spawn =>
    simp only [LoneWaiter.perform]
    split
    · refine ⟨?_, fun ns ended => by cases ended⟩
      have told := h.told
      simp only [Lot.read, List.sum_nil, Nat.add_zero]
      omega
    · exact h
  | turns =>
    simp only [LoneWaiter.perform]
    split
    · rename_i ns reading
      have all := h.read_all reading size
      cases any : x.handles.any id with
      | true => exact ⟨Nat.le_of_eq all, fun ns ended => by cases ended⟩
      | false => exact ⟨Nat.le_of_eq all, fun ns ended => by cases ended; exact ⟨any, all⟩⟩
    · exact h

theorem fair_new (handles : List Bool) : Fair { handles := handles } :=
  ⟨Nat.zero_le _, fun ns ended => by cases ended⟩

theorem Fair.turn {ns : List Nat} (h : x.Fair) :
    ((x.perform size .turns).2.lot = .reading ns → x.handles.any id = true ∧ x.told + ns.sum = x.fired) ∧
      ((x.perform size .turns).2.lot = .ended ns → x.handles.any id = false ∧ x.told + ns.sum = x.fired) := by
  simp only [LoneWaiter.perform]
  split
  · rename_i before lot
    have all := h.read_all lot size
    cases x.handles.any id with
    | true => exact ⟨fun reading => by cases reading; exact ⟨rfl, all⟩, fun ended => by cases ended⟩
    | false => exact ⟨fun reading => (by cases reading), fun ended => by cases ended; exact ⟨rfl, all⟩⟩
  · rename_i other
    exact ⟨fun reading => absurd reading (other ns), h.ended ns⟩

theorem Fair.play (h : x.Fair) (moves : List WaiterMove) : (x.play size moves).2.Fair := by
  induction moves generalizing x with
  | nil => exact h
  | cons move rest ih => exact ih (h.perform move)

end LoneWaiter

namespace BroadcastSession

variable {s : BroadcastSession} {x : LoneWaiter} {size w : Nat}

/-! ### A waiter among others -/

/-- Waiter `w` is this waiter. -/
structure Follows (w : Nat) (x : LoneWaiter) (s : BroadcastSession) : Prop where
  there : w < s.waiters.length
  handles : s.handles = x.handles
  held : s.hasWaiter w = decide (x.lot = .held)
  tasks : s.tasks.filter (·.reader = w) = x.lot.tasks w
  unread : x.lot.isAlive = true → s.broadcast.unread w = x.unread

/-- The answers to what is done with one waiter only. -/
def result? (w : Nat) : BroadcastStep × BroadcastAnswer → Option BroadcastAnswer
  | (.next w', answer) | (.dropWaiter w', answer) => if w' = w then some answer else none
  | _ => none

theorem Follows.isAlive (h : Follows w x s) : s.isAlive w = x.lot.isAlive := by
  have running : (s.tasks.any fun t => t.reader == w && !t.ended) = (x.lot.tasks w).any (!·.ended) := by
    rw [← h.tasks, List.any_filter]
    rfl
  rw [BroadcastSession.isAlive, h.held, running]
  cases x.lot <;> rfl

theorem Follows.task {t : ReadingTask} (h : Follows w x s) (mem : t ∈ s.tasks) (own : t.reader = w) :
    x.lot = .reading t.read ∧ t.ended = false ∨ x.lot = .ended t.read ∧ t.ended = true := by
  have mem : t ∈ x.lot.tasks w := h.tasks ▸ List.mem_filter.mpr ⟨mem, decide_eq_true own⟩
  cases lot : x.lot with
  | reading ns =>
    rw [lot] at mem
    exact .inl (by rw [List.mem_singleton.mp mem]; exact ⟨rfl, rfl⟩)
  | ended ns =>
    rw [lot] at mem
    exact .inr (by rw [List.mem_singleton.mp mem]; exact ⟨rfl, rfl⟩)
  | held | dropped =>
    rw [lot] at mem
    cases mem

theorem Follows.other {s' : BroadcastSession} (h : Follows w x s) (there : s.waiters.length ≤ s'.waiters.length)
    (handles : s'.handles = s.handles) (held : s'.hasWaiter w = s.hasWaiter w)
    (tasks : s'.tasks.filter (·.reader = w) = s.tasks.filter (·.reader = w))
    (unread : s'.broadcast.unread w = s.broadcast.unread w) : Follows w x s' where
  there := Nat.lt_of_lt_of_le h.there there
  handles := handles.trans h.handles
  held := held.trans h.held
  tasks := tasks.trans h.tasks
  unread alive := unread.trans (h.unread alive)

theorem unread_next_ne (b : Broadcast) {i j : Nat} (other : j ≠ i) : (b.next i).2.unread j = b.unread j := by
  rcases b.next_cases i with ⟨n, -, -, next⟩ | ⟨-, next⟩
  · rw [next, Broadcast.unread_moveReader_ne b other]
  · rw [next]

theorem unread_dropReader_ne (b : Broadcast) {i j : Nat} (other : i ≠ j) : (b.dropReader i).unread j = b.unread j := by
  rw [Broadcast.unread, Broadcast.position?_dropReader, if_neg other]
  rfl

theorem Follows.reading (h : Follows w x s) (sound : s.Sound size) (held : x.lot = .held) :
    (s.broadcast.next w).1 = x.reading size := by
  have unread := h.unread (by rw [held]; rfl)
  have closed := sound.closed
  rw [h.handles] at closed
  rw [Broadcast.next, LoneWaiter.reading, unread, sound.size, closed]
  split
  · rfl
  · split
    · rfl
    · cases x.handles.any id <;> rfl

theorem Follows.fired (h : Follows w x s) (sound : s.Sound size) (fair : x.Fair) (times : Nat) :
    Follows w { x with fired := x.fired + times } { s with broadcast := (fires times s.broadcast).2 } where
  there := h.there
  handles := h.handles
  held := h.held
  tasks := h.tasks
  unread alive := by
    have there : s.broadcast.Registers w := sound.registers (h.isAlive.trans alive)
    have told := fair.told
    have before := h.unread alive
    rw [LoneWaiter.unread] at before ⊢
    rw [fires_eq, if_neg there.readerCount_ne]
    refine (there.unread_later times).trans ?_
    simp only
    omega

theorem Follows.told (h : Follows w x s) (sound : s.Sound size) (fair : x.Fair) (held : x.lot = .held) :
    Follows w { x with told := x.told + (x.reading size).told } { s with broadcast := (s.broadcast.next w).2 } where
  there := h.there
  handles := h.handles
  held := h.held
  tasks := h.tasks
  unread alive := by
    have account := s.broadcast.told_add_unread_next w
    have before := h.unread alive
    have told := fair.told
    rw [h.reading sound held, before] at account
    rw [LoneWaiter.unread] at account ⊢
    simp only
    omega

theorem Follows.dropped (h : Follows w x s) (held : x.lot = .held) :
    Follows w { x with lot := .dropped }
      { s with waiters := s.waiters.set w false, broadcast := s.broadcast.dropReader w } where
  there := Nat.lt_of_lt_of_eq h.there List.length_set.symm
  handles := h.handles
  held := (s.hasWaiter_set _ _ w w).trans (by simp)
  tasks := h.tasks.trans (by rw [held]; rfl)
  unread alive := by cases alive

theorem Follows.spawned (h : Follows w x s) (held : x.lot = .held) :
    Follows w { x with lot := .reading [] }
      { s with waiters := s.waiters.set w false, tasks := s.tasks ++ [{ reader := w }] } where
  there := Nat.lt_of_lt_of_eq h.there List.length_set.symm
  handles := h.handles
  held := (s.hasWaiter_set _ _ w w).trans (by simp)
  tasks := by
    rw [List.filter_append, h.tasks, held]
    simp [Lot.tasks]
  unread _ := by
    have before := h.unread (by rw [held]; rfl)
    rwa [LoneWaiter.unread, held] at before

theorem Follows.handleDropped (h : Follows w x s) (i : Nat) :
    Follows w { x with handles := x.handles.set i false } (s.dropHandle i) where
  there := h.there
  handles := congrArg (·.set i false) h.handles
  held := h.held
  tasks := h.tasks
  unread alive := by
    refine Eq.trans ?_ (h.unread alive)
    simp only [dropHandle]
    split <;> rfl

theorem Follows.subscribed (h : Follows w x s) (sound : s.Sound size) :
    Follows w x { s with waiters := s.waiters ++ [true], broadcast := s.broadcast.subscribe } := by
  refine h.other (by simp) rfl ?_ rfl ?_
  · rw [hasWaiter, hasWaiter, List.getElem?_append_left h.there]
  · have old : w < s.broadcast.readers.length := sound.readers ▸ h.there
    simp only [Broadcast.unread, Broadcast.position?, Broadcast.subscribe, List.getElem?_append_left old]

theorem Follows.hasWaiter_set_ne {w' : Nat} (tasks : List ReadingTask) (b : Broadcast) (other : w' ≠ w) :
    hasWaiter { s with waiters := s.waiters.set w' false, tasks := tasks, broadcast := b } w = s.hasWaiter w := by
  rw [s.hasWaiter_set tasks b w' w, bne_iff_ne.mpr other, Bool.and_true]

theorem Follows.otherDropped {w' : Nat} (h : Follows w x s) (other : w' ≠ w) :
    Follows w x { s with waiters := s.waiters.set w' false, broadcast := s.broadcast.dropReader w' } :=
  h.other (Nat.le_of_eq List.length_set.symm) rfl (hasWaiter_set_ne _ _ other) rfl (unread_dropReader_ne s.broadcast other)

theorem Follows.otherSpawned {w' : Nat} (h : Follows w x s) (other : w' ≠ w) :
    Follows w x { s with waiters := s.waiters.set w' false, tasks := s.tasks ++ [{ reader := w' }] } := by
  refine h.other (Nat.le_of_eq List.length_set.symm) rfl (hasWaiter_set_ne _ _ other) ?_ rfl
  rw [List.filter_append]
  simp [other]

/-! ### Steps of a handle, of this waiter, and of others -/

theorem Follows.byHandle {i : Nat} {x' : LoneWaiter} {z : BroadcastAnswer × BroadcastSession} (h : Follows w x s)
    (taken : Follows w x' z.2) :
    Follows w (if x.hasHandle i then x' else x) (if s.hasHandle i then z else (.gone, s)).2 := by
  rw [LoneWaiter.hasHandle, ← h.handles, ← hasHandle]
  split
  · exact taken
  · exact h

theorem Follows.byHolder {x' : LoneWaiter} {z : BroadcastAnswer × BroadcastSession} (h : Follows w x s)
    (taken : x.lot = .held → Follows w x' z.2) :
    Follows w (if x.lot = .held then x' else x) (if s.hasWaiter w then z else (.gone, s)).2 := by
  rw [h.held]
  by_cases held : x.lot = .held
  · simpa only [held, decide_true, if_true] using taken held
  · simpa only [held, decide_false, Bool.false_eq_true, if_false] using h

theorem Follows.answer {a : BroadcastAnswer} {z : BroadcastAnswer × BroadcastSession} (h : Follows w x s)
    (same : x.lot = .held → z.1 = a) :
    some (if s.hasWaiter w then z else (.gone, s)).1 = if x.lot = .held then some a else some .gone := by
  rw [h.held]
  by_cases held : x.lot = .held
  · simp only [held, decide_true, if_true, same held]
  · simp only [held, decide_false, Bool.false_eq_true, if_false]

theorem Follows.byOther {w' : Nat} {z : BroadcastAnswer × BroadcastSession} (h : Follows w x s) (taken : Follows w x z.2) :
    Follows w x (if s.hasWaiter w' then z else (.gone, s)).2 := by
  split
  · exact taken
  · exact h

/-- What a step is to a waiter by itself it is to it among others, and the other steps are nothing to it. -/
theorem Follows.perform (h : Follows w x s) (sound : s.Sound size) (fair : x.Fair) (step : BroadcastStep) :
    match (BroadcastMove.step step).own? w with
    | some own => result? w (step, (s.perform step).1) = (x.perform size own).1 ∧
        Follows w (x.perform size own).2 (s.perform step).2
    | none => result? w (step, (s.perform step).1) = none ∧ Follows w x (s.perform step).2 := by
  cases step with
  | unknown => exact ⟨rfl, h⟩
  | count i =>
    simp only [BroadcastMove.own?, BroadcastSession.perform]
    split <;> exact ⟨rfl, h⟩
  | clone i =>
    exact ⟨rfl, h.byHandle ⟨h.there, congrArg (· ++ [true]) h.handles, h.held, h.tasks, h.unread⟩⟩
  | drop i => exact ⟨rfl, h.byHandle (h.handleDropped i)⟩
  | fire i times => exact ⟨rfl, h.byHandle (h.fired sound fair times)⟩
  | subscribe i =>
    simp only [BroadcastMove.own?, BroadcastSession.perform]
    split
    · exact ⟨rfl, h.subscribed sound⟩
    · exact ⟨rfl, h⟩
  | next w' =>
    by_cases own : w' = w
    · subst own
      simp only [BroadcastMove.own?, result?, if_true, LoneWaiter.perform, apply_ite Prod.fst, apply_ite Prod.snd]
      exact ⟨h.answer fun held => congrArg _ (h.reading sound held), h.byHolder (h.told sound fair)⟩
    · simp only [BroadcastMove.own?, result?, if_neg own]
      exact ⟨trivial, h.byOther (h.other (Nat.le_refl _) rfl rfl rfl (unread_next_ne s.broadcast (Ne.symm own)))⟩
  | dropWaiter w' =>
    by_cases own : w' = w
    · subst own
      simp only [BroadcastMove.own?, result?, if_true, LoneWaiter.perform, apply_ite Prod.fst, apply_ite Prod.snd]
      exact ⟨h.answer fun _ => rfl, h.byHolder h.dropped⟩
    · simp only [BroadcastMove.own?, result?, if_neg own]
      exact ⟨trivial, h.byOther (h.otherDropped own)⟩
  | spawn w' =>
    by_cases own : w' = w
    · subst own
      simp only [BroadcastMove.own?, result?, if_true, LoneWaiter.perform]
      exact ⟨trivial, h.byHolder h.spawned⟩
    · simp only [BroadcastMove.own?, result?, if_neg own]
      exact ⟨trivial, h.byOther (h.otherSpawned own)⟩

theorem Follows.runTasks (h : Follows w x s) (sound : s.Sound size) :
    (x.perform size .turns).1 = none ∧ Follows w (x.perform size .turns).2 s.runTasks := by
  obtain ⟨tasks, read⟩ := tasks_runTasks sound
  have own : s.runTasks.tasks.filter (·.reader = w) = (x.lot.tasks w).map s.broadcast.turned := by
    rw [← h.tasks, tasks, List.filter_map]
    simp only [Function.comp_def, reader_turned]
  have reads : (s.tasks.any fun t => t.reader == w && !t.ended) = (x.lot.tasks w).any (!·.ended) := by
    rw [← h.tasks, List.any_filter]
    rfl
  have there : w < s.runTasks.waiters.length := h.there
  have idle (none : (x.lot.tasks w).any (!·.ended) = false)
      (same : (x.lot.tasks w).map s.broadcast.turned = x.lot.tasks w) : Follows w x s.runTasks :=
    h.other (Nat.le_refl _) rfl rfl (own.trans (same.trans h.tasks.symm)) (read.unread (reads.trans none))
  have held := h.held
  have unread := h.unread
  have closed : s.broadcast.closed = !x.handles.any id := h.handles ▸ sound.closed
  cases lot : x.lot with
  | reading ns =>
    rw [lot] at own reads held unread
    simp only [LoneWaiter.perform, lot]
    have unread := unread rfl
    have all : s.broadcast.turned { reader := w, read := ns } =
        { reader := w, read := ns ++ drain size x.unread, ended := s.broadcast.closed } := by
      simp [Broadcast.turned, sound.size, unread]
    rw [Lot.tasks, List.map_singleton, all, closed] at own
    cases any : x.handles.any id with
    | false =>
      rw [any] at own
      exact ⟨trivial, there, h.handles, held, own, fun alive => by cases alive⟩
    | true =>
      rw [any] at own closed
      refine ⟨trivial, there, h.handles, held, own, fun _ => ?_⟩
      have position : s.runTasks.broadcast.position? w = some s.broadcast.fired := by
        rw [read.position, reads, closed]
        rfl
      have all := sum_drain size x.unread
      rw [Broadcast.unread, position, read.fired, LoneWaiter.unread]
      rw [LoneWaiter.unread, lot] at all
      simp only [if_true, Lot.read, List.sum_append, LoneWaiter.unread, lot] at all ⊢
      omega
  | held | ended ns | dropped =>
    simp only [LoneWaiter.perform, lot]
    rw [lot] at idle
    exact ⟨trivial, idle rfl rfl⟩

/-! ### Any number of moves -/

def follow : BroadcastSession → List BroadcastMove → List (BroadcastStep × BroadcastAnswer) × BroadcastSession
  | s, [] => ([], s)
  | s, .step step :: rest =>
    let (answer, s) := s.perform step
    let (notes, s) := s.follow rest
    ((step, answer) :: notes, s)
  | s, .turns :: rest => s.runTasks.follow rest

theorem Sound.follow (h : s.Sound size) (moves : List BroadcastMove) : (s.follow moves).2.Sound size := by
  induction moves generalizing s with
  | nil => exact h
  | cons move rest ih =>
    cases move with
    | step step => exact ih (h.perform step)
    | turns => exact ih h.runTasks

theorem Follows.follow (h : Follows w x s) (sound : s.Sound size) (fair : x.Fair) (moves : List BroadcastMove) :
    (s.follow moves).1.filterMap (result? w) = (x.play size (moves.filterMap (·.own? w))).1 ∧
      Follows w (x.play size (moves.filterMap (·.own? w))).2 (s.follow moves).2 := by
  induction moves generalizing s x with
  | nil => exact ⟨rfl, h⟩
  | cons move rest ih =>
    cases move with
    | turns =>
      obtain ⟨silent, follows⟩ := h.runTasks sound
      obtain ⟨results, follows⟩ := ih follows sound.runTasks (fair.perform .turns)
      have own : (BroadcastMove.turns :: rest).filterMap (·.own? w) = .turns :: rest.filterMap (·.own? w) := rfl
      rw [own, LoneWaiter.play_cons, silent]
      exact ⟨results, follows⟩
    | step step =>
      have stepped := h.perform sound fair step
      rw [List.filterMap_cons, BroadcastSession.follow, List.filterMap_cons]
      cases own : (BroadcastMove.step step).own? w with
      | none =>
        rw [own] at stepped
        obtain ⟨silent, follows⟩ := stepped
        rw [silent]
        exact ih follows (sound.perform step) fair
      | some own' =>
        rw [own] at stepped
        obtain ⟨result, follows⟩ := stepped
        obtain ⟨results, follows⟩ := ih follows (sound.perform step) (fair.perform own')
        rw [result, LoneWaiter.play_cons]
        refine ⟨?_, follows⟩
        cases (x.perform size own').1 with
        | none => exact results
        | some answer => exact congrArg (List.cons answer) results

/-! ### A session that is played -/

/-- The moves of a session whose tasks have their turns after every step. -/
def movesOf (steps : List BroadcastStep) : List BroadcastMove :=
  steps.flatMap fun step => [.step step, .turns]

theorem play_snoc (s : BroadcastSession) (steps : List BroadcastStep) (step : BroadcastStep) :
    s.play (steps ++ [step]) = s.play steps ++
      [(((s.follow (movesOf steps)).2.perform step).1, ((s.follow (movesOf steps)).2.perform step).2.runTasks.tasks)] := by
  induction steps generalizing s with
  | nil => rfl
  | cons first rest ih => exact congrArg (List.cons _) (ih _)

theorem follows_subscribe {h : Nat} (sound : s.Sound size) (subscribed : (s.perform (.subscribe h)).1 = .number w) :
    Follows w { handles := s.handles } (s.perform (.subscribe h)).2 := by
  simp only [BroadcastSession.perform] at subscribed ⊢
  split at subscribed
  · rename_i there
    cases subscribed
    rw [if_pos there]
    have last : s.broadcast.subscribe.position? s.waiters.length = some s.broadcast.fired := by
      simp [Broadcast.position?, Broadcast.subscribe, ← sound.readers]
    refine ⟨by simp, rfl, by simp [hasWaiter], ?_, fun _ => ?_⟩
    · rw [List.filter_eq_nil_iff.mpr fun t mem => ?_]
      · rfl
      · have := (sound.taken t mem).1
        simp only [decide_eq_true_eq]
        omega
    · rw [Broadcast.unread, last]
      exact Nat.sub_self _
  · cases subscribed

/-- Every firing answers how many waiters are alive, and is nothing where none is. A waiter that subscribes is, from then on,
told what it would be told by itself, whatever becomes of the others: a waiter that is alive has been told of the firings
since then but for those it has not read, and once its task has had a turn it has been told of them all; the task ends
when no handle is left and not before. A session that is played makes its moves in this way. -/
theorem delivers_every_firing_once {backlog : Nat} {initial : BroadcastSession} (started : start? backlog = some initial)
    (before : List BroadcastMove) :
    let size := 2 ^ Nat.clog 2 (max backlog 1)
    let s := (initial.follow before).2
    (∀ h times, s.hasHandle h = true → (s.perform (.fire h times)).1 = .counts (.replicate times s.alive) ∧
      (s.alive = 0 → (s.perform (.fire h times)).2 = s)) ∧
    (∀ h w after, (s.perform (.subscribe h)).1 = .number w →
      let played := (s.perform (.subscribe h)).2.follow after
      let lone := LoneWaiter.play size { handles := s.handles } (after.filterMap (·.own? w))
      played.1.filterMap (result? w) = lone.1 ∧ Follows w lone.2 played.2 ∧
      (played.2.isAlive w = true → lone.2.told + lone.2.lot.read.sum + played.2.broadcast.unread w = lone.2.fired) ∧
      (∀ t ∈ played.2.tasks, t.reader = w → t.ended = true → played.2.handles.any id = false) ∧
      ∀ t ∈ played.2.runTasks.tasks, t.reader = w →
        lone.2.told + t.read.sum = lone.2.fired ∧ t.ended = !played.2.handles.any id) ∧
    ∀ steps step, s.play (steps ++ [step]) = s.play steps ++
      [(((s.follow (movesOf steps)).2.perform step).1, ((s.follow (movesOf steps)).2.perform step).2.runTasks.tasks)] := by
  intro size s
  obtain ⟨fits, rfl⟩ : ¬ backlogLimit < backlog ∧ initial = { broadcast := .withBacklog backlog } := by
    unfold start? at started
    split at started
    · cases started
    · cases started
      exact ⟨‹_›, rfl⟩
  have sound : s.Sound size := by
    have start := sound_initial backlog
    rw [bufferSize_eq] at start
    exact start.follow before
  refine ⟨fun h times there => ?_, fun h w after subscribed => ?_, s.play_snoc⟩
  · simp only [BroadcastSession.perform, if_pos there, fires_eq, sound.readerCount]
    refine ⟨trivial, fun nobody => ?_⟩
    simp only [nobody, if_true]
  · intro played lone
    have sound' := sound.perform (.subscribe h)
    obtain ⟨results, follows⟩ := (follows_subscribe sound subscribed).follow sound' (LoneWaiter.fair_new s.handles) after
    have fair : lone.2.Fair := (LoneWaiter.fair_new s.handles).play _
    have turned := (follows.runTasks (sound'.follow after)).2
    refine ⟨results, follows, fun alive => ?_, fun t mem own ended => ?_, fun t mem own => ?_⟩
    · have told := fair.told
      rw [follows.unread (follows.isAlive ▸ alive), LoneWaiter.unread]
      exact Nat.add_sub_cancel' told
    · rcases follows.task mem own with ⟨-, going⟩ | ⟨lot, -⟩
      · rw [going] at ended
        cases ended
      · rw [follows.handles]
        exact (fair.ended t.read lot).1
    · rw [follows.handles]
      rcases turned.task mem own with ⟨lot, going⟩ | ⟨lot, ended⟩
      · obtain ⟨any, all⟩ := fair.turn.1 lot
        exact ⟨all, by rw [going, any]; rfl⟩
      · obtain ⟨none, all⟩ := fair.turn.2 lot
        exact ⟨all, by rw [ended, none]; rfl⟩

def smallBroadcast : BroadcastSession :=
  { broadcast := .withBacklog 3 }

def lateBefore : List BroadcastMove :=
  [.step (.fire 0 2), .step (.subscribe 0), .step (.fire 0 1)]

/-- The second waiter falls behind, is read by its holder and then by a task, while the first is dropped. -/
def lateAfter : List BroadcastMove :=
  [.step (.fire 0 6), .step (.next 0), .step (.next 1), .step (.next 1), .step (.dropWaiter 0), .step (.clone 0),
    .step (.spawn 1), .step (.fire 1 2), .step (.drop 0), .turns, .step (.next 1), .step (.fire 1 1), .step (.drop 1)]

theorem delivers_every_firing_once_late :
    let opened := (smallBroadcast.follow lateBefore).2.perform (.subscribe 0)
    let played := opened.2.follow lateAfter
    opened.1 = .number 1 ∧
      played.1.filterMap (result? 1) = [.reading (.firings 2), .reading (.firings 1), .gone] ∧
      (opened.2.perform (.fire 0 2)).1 = .counts [2, 2] ∧
      played.2.runTasks.tasks = [{ reader := 1, read := [1, 1, 1, 1, 1, 1], ended := true }] ∧
      ∀ t ∈ played.2.runTasks.tasks, t.reader = 1 → 3 + t.read.sum = 9 ∧ t.ended = true := by
  have started : start? 3 = some smallBroadcast := rfl
  obtain ⟨-, waiters, -⟩ := delivers_every_firing_once started lateBefore
  have second : ((smallBroadcast.follow lateBefore).2.perform (.subscribe 0)).1 = .number 1 := rfl
  obtain ⟨results, -, -, -, tasks⟩ := waiters 0 1 lateAfter second
  obtain ⟨fires, -⟩ := delivers_every_firing_once started (lateBefore ++ [.step (.subscribe 0)])
  exact ⟨second, results.trans rfl, (fires 0 2 rfl).1.trans rfl, rfl, tasks⟩

end BroadcastSession

end Supervision
