/-! A latch fires at most once and keeps the value of that firing for everybody who asks, before or after. -/

namespace Supervision

structure Latch (α : Type) where
  value : Option α := none
deriving DecidableEq, Repr

namespace Latch

variable {α : Type}

def isFired (l : Latch α) : Bool :=
  l.value.isSome

/-- Only the first firing sets the value. -/
def fire (l : Latch α) (a : α) : Latch α :=
  if l.isFired then l else ⟨some a⟩

theorem isFired_fire (l : Latch α) (a : α) : (l.fire a).isFired = true := by
  unfold fire
  split <;> simp_all [isFired]

theorem value_fire (l : Latch α) (a : α) : (l.fire a).value = l.value.or (some a) := by
  cases l with
  | mk value => cases value <;> rfl

end Latch

end Supervision
