import Supervision.Setup

/-! The deliveries of one subscription: a queue of bounded length. Every listed signal has a listener of its own,
so a signal listed twice is delivered twice; a delivery that finds the queue full is dropped. -/

namespace Supervision

structure Inbox where
  kinds : List Int := []
  capacity : Nat := 1
  queue : List Int := []
deriving DecidableEq, Repr

namespace Inbox

/-- A subscription to `kinds` under the capacity of the settings. The size is looked at first, then the signals. -/
def subscribe (s : SignalSettings) (kinds : List Int) : Except SetupFault Inbox :=
  if streamLimit < s.capacity then .error .capacityTooLarge
  else match firstRefused kinds with
    | some (n, why) => .error (.refused n why)
    | none => .ok { kinds := kinds, capacity := s.capacity }

def listen (s : SignalSettings) (p : Purpose) : Except SetupFault Inbox :=
  subscribe s (s.kinds p)

def isFull (b : Inbox) : Bool :=
  b.capacity ≤ b.queue.length

def push (b : Inbox) (n : Int) : Inbox :=
  if b.isFull then b else { b with queue := b.queue ++ [n] }

theorem length_queue_push {b : Inbox} (h : b.queue.length ≤ b.capacity) (n : Int) :
    (b.push n).queue.length ≤ (b.push n).capacity := by
  unfold push
  split
  · exact h
  · rename_i free
    simp only [isFull, decide_eq_true_eq] at free
    simp only [List.length_append, List.length_singleton]
    omega

/-- Offers so many copies of a signal and counts those that were dropped. -/
def offer (n : Int) : Nat → Inbox → Nat × Inbox
  | 0, b => (0, b)
  | copies + 1, b =>
    let (dropped, b') := offer n copies (b.push n)
    (if b.isFull then dropped + 1 else dropped, b')

/-- Delivers a raised signal once per listener. -/
def deliver (b : Inbox) (n : Int) : Nat × Inbox :=
  offer n (b.kinds.count n) b

theorem kinds_push (b : Inbox) (n : Int) : (b.push n).kinds = b.kinds := by
  unfold push
  split <;> rfl

theorem capacity_push (b : Inbox) (n : Int) : (b.push n).capacity = b.capacity := by
  unfold push
  split <;> rfl

theorem queue_push_ne_nil {b : Inbox} (n : Int) (h : b.queue ≠ [] ∨ 0 < b.capacity) : (b.push n).queue ≠ [] := by
  unfold push
  split
  · rename_i full
    simp only [isFull, decide_eq_true_eq] at full
    rcases h with waiting | positive
    · exact waiting
    · exact List.length_pos_iff.mp (Nat.lt_of_lt_of_le positive full)
  · simp

theorem mem_queue_push {b : Inbox} {n m : Int} (h : m ∈ (b.push n).queue) : m ∈ b.queue ∨ m = n := by
  unfold push at h
  split at h
  · exact .inl h
  · simpa using h

theorem kinds_offer (n : Int) (copies : Nat) (b : Inbox) : (offer n copies b).2.kinds = b.kinds := by
  induction copies generalizing b with
  | zero => rfl
  | succ copies ih => exact (ih (b.push n)).trans (kinds_push b n)

theorem capacity_offer (n : Int) (copies : Nat) (b : Inbox) : (offer n copies b).2.capacity = b.capacity := by
  induction copies generalizing b with
  | zero => rfl
  | succ copies ih => exact (ih (b.push n)).trans (capacity_push b n)

theorem queue_offer_ne_nil {b : Inbox} (n : Int) (copies : Nat) (h : b.queue ≠ [] ∨ 0 < copies ∧ 0 < b.capacity) :
    (offer n copies b).2.queue ≠ [] := by
  induction copies generalizing b with
  | zero => exact h.resolve_right fun none => Nat.lt_irrefl 0 none.1
  | succ copies ih => exact ih (.inl (queue_push_ne_nil n (h.imp_right And.right)))

theorem mem_queue_offer {b : Inbox} {n m : Int} {copies : Nat} (h : m ∈ (offer n copies b).2.queue) :
    m ∈ b.queue ∨ m = n ∧ 0 < copies := by
  induction copies generalizing b with
  | zero => exact .inl h
  | succ copies ih =>
    rcases ih h with pushed | ⟨same, -⟩
    · exact (mem_queue_push pushed).imp_right fun same => ⟨same, Nat.succ_pos copies⟩
    · exact .inr ⟨same, Nat.succ_pos copies⟩

theorem mem_queue_deliver {b : Inbox} {n m : Int} (h : m ∈ (b.deliver n).2.queue) :
    m ∈ b.queue ∨ m = n ∧ n ∈ b.kinds :=
  (mem_queue_offer h).imp_right fun ⟨same, copies⟩ => ⟨same, List.count_pos_iff.mp copies⟩

/-- A signal that somebody listens for leaves a delivery behind, its own or others that fill the queue. -/
theorem queue_deliver_ne_nil {b : Inbox} {n : Int} (h : b.queue ≠ [] ∨ n ∈ b.kinds ∧ 0 < b.capacity) :
    (b.deliver n).2.queue ≠ [] :=
  queue_offer_ne_nil n _ (h.imp_right (And.imp_left List.count_pos_iff.mpr))

def receive (b : Inbox) : Option Int × Inbox :=
  match b.queue with
  | [] => (none, b)
  | n :: rest => (some n, { b with queue := rest })

end Inbox

end Supervision
