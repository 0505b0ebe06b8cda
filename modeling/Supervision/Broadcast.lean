/-! A broadcast of firings. Each firing reaches every reader registered at that moment. The broadcast keeps the
last `size` firings; a reader that fell further behind is told at once how many it missed and goes on with the
oldest firing still kept, so what it is told adds up to what was fired. -/

namespace Supervision

def backlogLimit : Nat := (1 <<< 63) - 1

def defaultBacklog : Nat := 16

/-- The backlog rounded up to a power of two, and at least one. -/
def bufferSize (backlog : Nat) : Nat :=
  if backlog ≤ 1 then 1 else 1 <<< ((backlog - 1).log2 + 1)

theorem bufferSize_pos (backlog : Nat) : 0 < bufferSize backlog := by
  unfold bufferSize
  split
  · exact Nat.one_pos
  · rw [Nat.one_shiftLeft]
    exact Nat.two_pow_pos _

theorem le_bufferSize (backlog : Nat) : backlog ≤ bufferSize backlog := by
  unfold bufferSize
  split
  · assumption
  · have := @Nat.lt_log2_self (backlog - 1)
    rw [Nat.one_shiftLeft]
    omega

/-- `fired` counts the firings kept so far. A reader is its position among them, or `none` once it is gone. -/
structure Broadcast where
  size : Nat
  fired : Nat := 0
  closed : Bool := false
  readers : List (Option Nat) := []
deriving DecidableEq, Repr

/-- What a reader finds: firings to act on, nothing yet, or that there will be no more. -/
inductive Reading
  | firings (n : Nat)
  | pending
  | closed
deriving DecidableEq, Repr

def Reading.told : Reading → Nat
  | .firings n => n
  | _ => 0

namespace Broadcast

def withBacklog (backlog : Nat) : Broadcast :=
  { size := bufferSize backlog }

/-- The new reader sees the firings from now on. Its index is the number of readers before it. -/
def subscribe (b : Broadcast) : Broadcast :=
  { b with readers := b.readers ++ [some b.fired] }

def readerCount (b : Broadcast) : Nat :=
  b.readers.countP Option.isSome

/-- A firing that nobody would see is not kept. -/
def fire (b : Broadcast) : Broadcast :=
  if b.readerCount = 0 then b else { b with fired := b.fired + 1 }

def close (b : Broadcast) : Broadcast :=
  { b with closed := true }

def position? (b : Broadcast) (i : Nat) : Option Nat :=
  b.readers[i]?.join

def unread (b : Broadcast) (i : Nat) : Nat :=
  match b.position? i with
  | some p => b.fired - p
  | none => 0

def hasNews (b : Broadcast) (i : Nat) : Bool :=
  b.closed || b.unread i != 0

def moveReader (b : Broadcast) (i : Nat) (p : Nat) : Broadcast :=
  { b with readers := b.readers.set i (some p) }

def dropReader (b : Broadcast) (i : Nat) : Broadcast :=
  { b with readers := b.readers.set i none }

def next (b : Broadcast) (i : Nat) : Reading × Broadcast :=
  let u := b.unread i
  if b.size < u then (.firings (u - b.size), b.moveReader i (b.fired - b.size))
  else if 0 < u then (.firings 1, b.moveReader i (b.fired - u + 1))
  else if b.closed then (.closed, b)
  else (.pending, b)

theorem position?_moveReader {b : Broadcast} {i : Nat} (h : (b.position? i).isSome) (p : Nat) :
    (b.moveReader i p).position? i = some p := by
  have here : i < b.readers.length := Nat.lt_of_not_le fun absent => by
    simp [position?, List.getElem?_eq_none absent] at h
  simp [position?, moveReader, here]

theorem unread_moveReader {b : Broadcast} {i : Nat} (h : (b.position? i).isSome) (p : Nat) :
    (b.moveReader i p).unread i = b.fired - p := by
  rw [unread, position?_moveReader h]
  rfl

theorem isSome_position?_of_unread_pos {b : Broadcast} {i : Nat} (h : 0 < b.unread i) :
    (b.position? i).isSome := by
  unfold unread at h
  split at h <;> simp_all

theorem unread_le_fired (b : Broadcast) (i : Nat) : b.unread i ≤ b.fired := by
  unfold unread
  split <;> omega

theorem next_cases (b : Broadcast) (i : Nat) :
    (∃ n, 0 < n ∧ n ≤ b.unread i ∧ b.next i = (.firings n, b.moveReader i (b.fired - (b.unread i - n)))) ∨
      b.unread i = 0 ∧ b.next i = (if b.closed then .closed else .pending, b) := by
  have hle := b.unread_le_fired i
  simp only [next]
  split
  · exact .inl ⟨b.unread i - b.size, by omega, by omega, by rw [Nat.sub_sub_self (by omega)]⟩
  · split
    · refine .inl ⟨1, Nat.one_pos, by omega, ?_⟩
      rw [show b.fired - b.unread i + 1 = b.fired - (b.unread i - 1) by omega]
    · refine .inr ⟨by omega, ?_⟩
      split <;> rfl

theorem next_firings {b b' : Broadcast} {i n : Nat} (h : b.next i = (.firings n, b')) :
    0 < n ∧ n ≤ b.unread i ∧ b' = b.moveReader i (b.fired - (b.unread i - n)) := by
  rcases b.next_cases i with ⟨m, pos, le, next⟩ | ⟨-, next⟩
  · rw [next] at h
    cases h
    exact ⟨pos, le, rfl⟩
  · rw [next] at h
    cases closed : b.closed <;> simp [closed] at h

/-- What a reader is told and what it is not told yet add up to what it had not been told before. -/
theorem told_add_unread_next (b : Broadcast) (i : Nat) :
    (b.next i).1.told + (b.next i).2.unread i = b.unread i := by
  have hle := b.unread_le_fired i
  rcases b.next_cases i with ⟨n, pos, le, next⟩ | ⟨none, next⟩
  · rw [next, unread_moveReader (isSome_position?_of_unread_pos (by omega))]
    simp only [Reading.told]
    omega
  · rw [next, none]
    cases b.closed <;> rfl

/-- A reading that tells of firings brings a reader on by more than half of what it tells. -/
theorem told_add_twice_unread_lt {b b' : Broadcast} {i n : Nat} (h : b.next i = (.firings n, b')) :
    n + 2 * b'.unread i < 2 * b.unread i := by
  have hle := b.unread_le_fired i
  obtain ⟨pos, le, rfl⟩ := next_firings h
  rw [unread_moveReader (isSome_position?_of_unread_pos (by omega))]
  omega

theorem hasNews_of_next_pending {b b' : Broadcast} {i : Nat} (h : b.next i = (.pending, b')) : b.hasNews i = false := by
  rcases b.next_cases i with ⟨n, -, -, next⟩ | ⟨none, next⟩
  · rw [next] at h
    cases h
  · rw [next] at h
    cases closed : b.closed <;> simp_all [hasNews]

theorem closed_of_next_closed {b b' : Broadcast} {i : Nat} (h : b.next i = (.closed, b')) :
    b.closed = true ∧ b.unread i = 0 := by
  rcases b.next_cases i with ⟨n, -, -, next⟩ | ⟨none, next⟩
  · rw [next] at h
    cases h
  · rw [next] at h
    cases closed : b.closed <;> simp_all

theorem unread_moveReader_ne (b : Broadcast) {i j : Nat} (other : j ≠ i) (p : Nat) :
    (b.moveReader i p).unread j = b.unread j := by
  simp only [unread, position?, moveReader, List.getElem?_set_ne other.symm]

theorem hasNews_next {b b' : Broadcast} {i j n : Nat} (h : b.next i = (.firings n, b')) (other : j ≠ i) :
    b'.hasNews j = b.hasNews j := by
  obtain ⟨-, -, rfl⟩ := next_firings h
  rw [hasNews, hasNews, unread_moveReader_ne b other]
  rfl

theorem foldl_subscribe {α : Type} (xs : List α) (b : Broadcast) :
    xs.foldl (fun b _ => b.subscribe) b =
      { b with readers := b.readers ++ List.replicate xs.length (some b.fired) } := by
  induction xs generalizing b with
  | nil => simp
  | cons x xs ih =>
    rw [List.foldl_cons, ih, List.length_cons, List.replicate_succ]
    simp [subscribe]

/-- Reader `i` is there, and stands somewhere among the firings. -/
def Registers (b : Broadcast) (i : Nat) : Prop :=
  ∃ p ≤ b.fired, b.position? i = some p

theorem registers_foldl_subscribe {α : Type} {xs : List α} {b : Broadcast} {i : Nat} (empty : b.readers = [])
    (h : i < xs.length) : (xs.foldl (fun b _ => b.subscribe) b).Registers i ∧
      (xs.foldl (fun b _ => b.subscribe) b).unread i = 0 := by
  have position : (xs.foldl (fun b _ => b.subscribe) b).position? i = some b.fired := by
    rw [foldl_subscribe]
    simp [position?, empty, h]
  have fired : (xs.foldl (fun b _ => b.subscribe) b).fired = b.fired := by
    rw [foldl_subscribe]
  refine ⟨⟨b.fired, Nat.le_of_eq fired.symm, position⟩, ?_⟩
  rw [unread, position, fired]
  exact Nat.sub_self b.fired

theorem Registers.readerCount_ne {b : Broadcast} {i : Nat} (h : b.Registers i) : b.readerCount ≠ 0 := by
  obtain ⟨p, -, position⟩ := h
  have here : some p ∈ b.readers := by
    rw [position?, Option.join_eq_some_iff] at position
    exact List.mem_of_getElem? position
  exact Nat.pos_iff_ne_zero.mp (List.countP_pos_iff.mpr ⟨some p, here, rfl⟩)

theorem Registers.fire {b : Broadcast} {i : Nat} (h : b.Registers i) : b.fire.Registers i := by
  have somebody := h.readerCount_ne
  obtain ⟨p, le, position⟩ := h
  rw [Broadcast.fire, if_neg somebody]
  exact ⟨p, Nat.le_succ_of_le le, position⟩

theorem Registers.unread_fire {b : Broadcast} {i : Nat} (h : b.Registers i) : b.fire.unread i = b.unread i + 1 := by
  have somebody := h.readerCount_ne
  obtain ⟨p, le, position⟩ := h
  have stays : ({ b with fired := b.fired + 1 } : Broadcast).position? i = some p := position
  rw [Broadcast.fire, if_neg somebody, unread, unread, position, stays]
  exact Nat.succ_sub le

theorem Registers.moveReader {b : Broadcast} {i j p : Nat} (h : b.Registers i) (le : p ≤ b.fired) :
    (b.moveReader j p).Registers i := by
  obtain ⟨q, leq, position⟩ := h
  by_cases same : j = i
  · subst same
    exact ⟨p, le, position?_moveReader (by simp [position]) p⟩
  · refine ⟨q, leq, ?_⟩
    rwa [position?, Broadcast.moveReader, List.getElem?_set_ne same]

theorem Registers.next {b b' : Broadcast} {i j n : Nat} (h : b.Registers i) (next : b.next j = (.firings n, b')) :
    b'.Registers i := by
  obtain ⟨-, -, rfl⟩ := next_firings next
  exact h.moveReader (Nat.sub_le _ _)

end Broadcast

end Supervision
