import Mathlib.Algebra.Ring.Nat
import Mathlib.Data.List.Nodup
import Supervision.Broadcast.Session
import Supervision.Proofs.Lag

/-! The readers of a broadcast in use. A task that has its turn reads everything there is, as if it were alone; and whatever
is done, the readers that the broadcast has are the waiters in the caller's hands and those that a task still reads. -/

namespace Supervision

/-! ### Reading on -/

/-- What is told to a reader that reads on, of so many firings that it has not read. -/
def drain (size unread : Nat) : List Nat :=
  if size < unread then (unread - size) :: List.replicate size 1 else List.replicate unread 1

theorem drain_of_le {size unread : Nat} (fits : unread ≤ size) : drain size unread = List.replicate unread 1 :=
  if_neg (Nat.not_lt.mpr fits)

theorem sum_drain (size unread : Nat) : (drain size unread).sum = unread := by
  unfold drain
  split
  · simp
    omega
  · simp

namespace Broadcast

variable {b : Broadcast} {i j : Nat}

theorem moveReader_moveReader (b : Broadcast) (i p q : Nat) : (b.moveReader i p).moveReader i q = b.moveReader i q := by
  simp [moveReader]

/-- A reader that has read everything stands at the last firing. -/
theorem Registers.moveReader_fired (h : b.Registers i) (none : b.unread i = 0) : b.moveReader i b.fired = b := by
  obtain ⟨p, le, position⟩ := h
  rw [unread, position] at none
  have here : p = b.fired := Nat.le_antisymm le (Nat.le_of_sub_eq_zero none)
  refine eq_of_position? rfl rfl rfl List.length_set fun j => ?_
  by_cases own : j = i
  · rw [own, position?_moveReader (by rw [position]; rfl), position, here]
  · exact position?_moveReader_ne b own _

theorem readAll_eq {fuel : Nat} (h : b.Registers i) (enough : b.unread i < fuel) :
    BroadcastSession.readAll i fuel b =
      (drain b.size (b.unread i), if b.closed then .closed else .pending, b.moveReader i b.fired) := by
  induction fuel generalizing b with
  | zero => exact absurd enough (Nat.not_lt_zero _)
  | succ fuel ih =>
    have there : (b.position? i).isSome := by
      obtain ⟨p, -, position⟩ := h
      rw [position]
      rfl
    have le := b.unread_le_fired i
    have moved (p : Nat) (le : p ≤ b.fired) (rest : b.fired - p < fuel) :
        BroadcastSession.readAll i fuel (b.moveReader i p) =
          (drain b.size (b.fired - p), if b.closed then .closed else .pending, b.moveReader i b.fired) := by
      have unread : (b.moveReader i p).unread i = b.fired - p := unread_moveReader there p
      rw [ih (h.moveReader le) (unread ▸ rest), unread, ← moveReader_moveReader b i p b.fired]
      rfl
    rw [BroadcastSession.readAll, next]
    by_cases behind : b.size < b.unread i
    · simp only [if_pos behind, moved (b.fired - b.size) (Nat.sub_le _ _) (by omega)]
      rw [Nat.sub_sub_self (by omega), drain_of_le (Nat.le_refl _), drain, if_pos behind]
    · cases left : b.unread i with
      | zero =>
        simp only [if_neg (Nat.not_lt_zero _), drain_of_le (Nat.zero_le _), h.moveReader_fired left]
        cases b.closed <;> rfl
      | succ u =>
        have rest : b.fired - (b.fired - (u + 1) + 1) = u := by omega
        have fits : u + 1 ≤ b.size := by omega
        have le' : b.fired - (u + 1) + 1 ≤ b.fired := by omega
        simp only [if_neg (Nat.not_lt.mpr fits), if_pos (Nat.succ_pos u), moved _ le' (by omega), rest]
        rw [drain_of_le (by omega), drain_of_le fits, List.replicate_succ]

theorem Registers.unread_later (h : b.Registers i) (n : Nat) :
    ({ b with fired := b.fired + n } : Broadcast).unread i = b.unread i + n := by
  obtain ⟨p, le, position⟩ := h
  have stays : ({ b with fired := b.fired + n } : Broadcast).position? i = some p := position
  rw [unread, unread, stays, position]
  exact Nat.sub_add_comm le

/-! ### Tasks that read -/

/-- A task once it has had its turn. -/
def turned (b : Broadcast) (t : ReadingTask) : ReadingTask :=
  if t.ended then t else { t with read := t.read ++ drain b.size (b.unread t.reader), ended := b.closed }

/-- Some readers have read everything, and have gone if there will be no more. -/
structure HaveRead (b : Broadcast) (reads : Nat → Bool) (b' : Broadcast) : Prop where
  size : b'.size = b.size
  fired : b'.fired = b.fired
  closed : b'.closed = b.closed
  readers : b'.readers.length = b.readers.length
  position : ∀ j, b'.position? j =
    if reads j then if b.closed then none else some b.fired else b.position? j

variable {b' b'' : Broadcast} {reads reads' : Nat → Bool} {t : ReadingTask}

theorem HaveRead.trans (h : b.HaveRead reads b') (h' : b'.HaveRead reads' b'') :
    b.HaveRead (fun j => reads j || reads' j) b'' where
  size := h'.size.trans h.size
  fired := h'.fired.trans h.fired
  closed := h'.closed.trans h.closed
  readers := h'.readers.trans h.readers
  position j := by
    rw [h'.position, h.position, h.closed, h.fired]
    cases reads j <;> cases reads' j <;> rfl

theorem HaveRead.unread (h : b.HaveRead reads b') (other : reads j = false) : b'.unread j = b.unread j := by
  rw [Broadcast.unread, Broadcast.unread, h.position, h.fired, other]
  rfl

theorem HaveRead.registers (h : b.HaveRead reads b') (other : reads j = false) (there : b.Registers j) :
    b'.Registers j := by
  obtain ⟨p, le, position⟩ := there
  refine ⟨p, h.fired ▸ le, ?_⟩
  rw [h.position, other]
  exact position

theorem position?_dropReader (b : Broadcast) (i j : Nat) :
    (b.dropReader i).position? j = if i = j then none else b.position? j := by
  unfold position? dropReader
  split
  · rename_i own
    rw [own, List.getElem?_set_self']
    cases b.readers[j]? <;> rfl
  · rename_i other
    rw [List.getElem?_set_ne other]

theorem haveRead_runTask (there : t.ended = false → b.Registers t.reader) :
    (BroadcastSession.runTask b t).2 = b.turned t ∧
      b.HaveRead (fun j => t.reader == j && !t.ended) (BroadcastSession.runTask b t).1 := by
  unfold BroadcastSession.runTask turned
  cases ended : t.ended with
  | true => exact ⟨rfl, rfl, rfl, rfl, rfl, fun j => by simp⟩
  | false =>
    have registers := there ended
    have known : (b.position? t.reader).isSome := by
      obtain ⟨p, -, position⟩ := registers
      rw [position]
      rfl
    have moved (j : Nat) : (b.moveReader t.reader b.fired).position? j =
        if t.reader = j then some b.fired else b.position? j := by
      split
      · rename_i own
        rw [← own, position?_moveReader known]
      · rename_i other
        exact position?_moveReader_ne b (Ne.symm other) _
    rw [readAll_eq registers (Nat.lt_succ_self _)]
    cases closed : b.closed with
    | true =>
      refine ⟨rfl, rfl, rfl, rfl, by simp [dropReader, moveReader], fun j => ?_⟩
      show ((b.moveReader t.reader b.fired).dropReader t.reader).position? j = _
      rw [position?_dropReader, moved]
      by_cases own : t.reader = j <;> simp [own, closed]
    | false =>
      refine ⟨by simp, rfl, rfl, rfl, by simp [moveReader], fun j => ?_⟩
      show (b.moveReader t.reader b.fired).position? j = _
      rw [moved]
      by_cases own : t.reader = j <;> simp [own, closed]

/-- Tasks that read different readers read as if each were alone. -/
theorem haveRead_runTasksFrom {ts : List ReadingTask} (apart : (ts.map (·.reader)).Nodup)
    (there : ∀ t ∈ ts, t.ended = false → b.Registers t.reader) :
    (BroadcastSession.runTasksFrom b ts).2 = ts.map b.turned ∧
      b.HaveRead (fun j => ts.any fun t => t.reader == j && !t.ended) (BroadcastSession.runTasksFrom b ts).1 := by
  induction ts generalizing b with
  | nil => exact ⟨rfl, rfl, rfl, rfl, rfl, fun j => rfl⟩
  | cons t rest ih =>
    rw [List.map_cons, List.nodup_cons] at apart
    obtain ⟨turn, read⟩ := haveRead_runTask (there t List.mem_cons_self)
    have other (t' : ReadingTask) (mem : t' ∈ rest) : (t.reader == t'.reader && !t.ended) = false := by
      have ne : t.reader ≠ t'.reader := fun same => apart.1 (same ▸ List.mem_map_of_mem mem)
      simp [ne]
    obtain ⟨turns, reads⟩ := ih (b := (BroadcastSession.runTask b t).1) apart.2 fun t' mem unended =>
      read.registers (other t' mem) (there t' (List.mem_cons_of_mem _ mem) unended)
    refine ⟨?_, ?_⟩
    · -- the other tasks read other readers, to whom nothing has happened
      have same : rest.map (BroadcastSession.runTask b t).1.turned = rest.map b.turned := by
        refine List.map_congr_left fun t' mem => ?_
        rw [turned, turned, read.size, read.closed, read.unread (other t' mem)]
      rw [List.map_cons, ← turn, ← same, ← turns]
      rfl
    · exact read.trans reads

end Broadcast

theorem any_of_getElem? {handles : List Bool} {h : Nat} (there : handles[h]?.getD false = true) :
    handles.any id = true := by
  rw [List.any_eq_true]
  refine ⟨true, List.mem_of_getElem? (i := h) ?_, rfl⟩
  cases look : handles[h]? with
  | none => simp [look] at there
  | some a => simpa [look] using there

namespace BroadcastSession

variable {s : BroadcastSession} {size w : Nat}

/-! ### Who is there -/

/-- A waiter is alive in the caller's hands, and in a task until that ends. -/
def isAlive (s : BroadcastSession) (w : Nat) : Bool :=
  s.hasWaiter w || s.tasks.any fun t => t.reader == w && !t.ended

def alive (s : BroadcastSession) : Nat :=
  (List.range s.waiters.length).countP s.isAlive

/-- The broadcast is closed where there is no handle, and its readers are the waiters that are alive. -/
structure Sound (size : Nat) (s : BroadcastSession) : Prop where
  size : s.broadcast.size = size
  closed : s.broadcast.closed = !s.handles.any id
  readers : s.broadcast.readers.length = s.waiters.length
  alive : ∀ w, (s.broadcast.position? w).isSome = s.isAlive w
  behind : ∀ w p, s.broadcast.position? w = some p → p ≤ s.broadcast.fired
  apart : (s.tasks.map (·.reader)).Nodup
  taken : ∀ t ∈ s.tasks, t.reader < s.waiters.length ∧ s.hasWaiter t.reader = false

theorem lt_of_hasWaiter (held : s.hasWaiter w = true) : w < s.waiters.length := by
  apply Nat.lt_of_not_le
  intro absent
  simp [hasWaiter, List.getElem?_eq_none absent] at held

theorem Sound.registers (h : s.Sound size) (alive : s.isAlive w = true) : s.broadcast.Registers w := by
  rw [← h.alive] at alive
  obtain ⟨p, position⟩ := Option.isSome_iff_exists.mp alive
  exact ⟨p, h.behind w p position, position⟩

theorem Sound.readerCount (h : s.Sound size) : s.broadcast.readerCount = s.alive := by
  have same : s.broadcast.readers.map Option.isSome = (List.range s.waiters.length).map s.isAlive := by
    refine List.ext_getElem (by simp [h.readers]) fun w bound _ => ?_
    rw [List.length_map] at bound
    rw [List.getElem_map, List.getElem_map, List.getElem_range, ← h.alive, Broadcast.position?,
      List.getElem?_eq_getElem bound, Option.join_some]
  calc s.broadcast.readers.countP Option.isSome
      = (s.broadcast.readers.map Option.isSome).countP id := by rw [List.countP_map]; rfl
    _ = s.alive := by rw [same, List.countP_map]; rfl

theorem Sound.no_task (h : s.Sound size) (held : s.hasWaiter w = true) : ∀ t ∈ s.tasks, t.reader ≠ w := by
  rintro t mem rfl
  rw [(h.taken t mem).2] at held
  cases held

/-- A waiter that leaves the caller's hands leaves the others there. -/
theorem hasWaiter_set (s : BroadcastSession) (tasks : List ReadingTask) (b : Broadcast) (w w' : Nat) :
    hasWaiter { s with broadcast := b, waiters := s.waiters.set w false, tasks := tasks } w' =
      (s.hasWaiter w' && w != w') := by
  rw [hasWaiter, hasWaiter]
  by_cases own : w = w'
  · rw [own, List.getElem?_set_self']
    cases s.waiters[w']? <;> simp
  · rw [List.getElem?_set_ne own]
    simp [own]

theorem sound_initial (backlog : Nat) : Sound (bufferSize backlog) { broadcast := .withBacklog backlog } where
  size := rfl
  closed := rfl
  readers := rfl
  alive w := by simp [Broadcast.position?, Broadcast.withBacklog, isAlive, hasWaiter]
  behind w p position := by simp [Broadcast.position?, Broadcast.withBacklog] at position
  apart := List.nodup_nil
  taken t mem := by cases mem

/-! ### What every move keeps -/

theorem fires_eq (times : Nat) (b : Broadcast) :
    fires times b =
      (.replicate times b.readerCount, if b.readerCount = 0 then b else { b with fired := b.fired + times }) := by
  induction times generalizing b with
  | zero => simp [fires]
  | succ times ih =>
    have count : b.fire.readerCount = b.readerCount := by
      unfold Broadcast.fire
      split <;> rfl
    rw [fires, ih, count, List.replicate_succ]
    by_cases nobody : b.readerCount = 0
    · simp [Broadcast.fire, nobody]
    · simp [Broadcast.fire, nobody, Nat.add_assoc, Nat.add_comm 1 times]

theorem Sound.fire (h : s.Sound size) (times : Nat) : Sound size { s with broadcast := (fires times s.broadcast).2 } := by
  rw [fires_eq]
  split
  · exact h
  · have behind := fun w p position => Nat.le_add_right_of_le (k := times) (h.behind w p position)
    exact ⟨h.size, h.closed, h.readers, h.alive, behind, h.apart, h.taken⟩

theorem Sound.subscribe (h : s.Sound size) :
    Sound size { s with waiters := s.waiters ++ [true], broadcast := s.broadcast.subscribe } where
  size := h.size
  closed := h.closed
  readers := by simp [Broadcast.subscribe, h.readers]
  alive w := by
    have before := h.alive w
    simp only [Broadcast.position?, isAlive, hasWaiter, Broadcast.subscribe, List.getElem?_append, h.readers] at before ⊢
    by_cases old : w < s.waiters.length
    · rw [if_pos old, if_pos old, before]
    · have none : (s.tasks.any fun t => t.reader == w && !t.ended) = false := by
        rw [List.any_eq_false]
        intro t mem
        have bound := (h.taken t mem).1
        simp [show t.reader ≠ w by omega]
      rw [if_neg old, if_neg old, none]
      cases w - s.waiters.length <;> rfl
  behind w p position := by
    simp only [Broadcast.position?, Broadcast.subscribe, List.getElem?_append, List.getElem?_singleton] at position
    split at position
    · exact h.behind w p position
    · split at position
      · cases position
        exact Nat.le_refl _
      · cases position
  apart := h.apart
  taken t mem := by
    obtain ⟨bound, held⟩ := h.taken t mem
    simp only [hasWaiter] at held ⊢
    rw [List.getElem?_append_left bound, List.length_append]
    exact ⟨Nat.lt_add_right _ bound, held⟩

theorem Sound.next (h : s.Sound size) (held : s.hasWaiter w = true) :
    Sound size { s with broadcast := (s.broadcast.next w).2 } := by
  have registers : s.broadcast.Registers w := h.registers (by rw [isAlive, held]; rfl)
  rcases s.broadcast.next_cases w with ⟨n, -, -, next⟩ | ⟨-, next⟩
  · rw [next]
    obtain ⟨p, -, here⟩ := registers
    have there : (s.broadcast.position? w).isSome := by rw [here]; rfl
    refine ⟨h.size, h.closed, List.length_set.trans h.readers, fun w' => ?_, fun w' p position => ?_, h.apart, h.taken⟩
    · by_cases own : w' = w
      · subst own
        rw [Broadcast.position?_moveReader there]
        exact there.symm.trans (h.alive w')
      · rw [Broadcast.position?_moveReader_ne _ own]
        exact h.alive w'
    · by_cases own : w' = w
      · subst own
        rw [Broadcast.position?_moveReader there] at position
        cases position
        exact Nat.sub_le _ _
      · rw [Broadcast.position?_moveReader_ne _ own] at position
        exact h.behind w' p position
  · rw [next]
    exact h

theorem Sound.dropWaiter (h : s.Sound size) (held : s.hasWaiter w = true) :
    Sound size { s with waiters := s.waiters.set w false, broadcast := s.broadcast.dropReader w } where
  size := h.size
  closed := h.closed
  readers := by simp [Broadcast.dropReader, h.readers]
  alive w' := by
    rw [Broadcast.position?_dropReader, isAlive, s.hasWaiter_set]
    by_cases own : w = w'
    · subst own
      have none : (s.tasks.any fun t => t.reader == w && !t.ended) = false := by
        rw [List.any_eq_false]
        intro t mem
        simp [h.no_task held t mem]
      simp [none]
    · rw [if_neg own, h.alive, isAlive, bne_iff_ne.mpr own, Bool.and_true]
  behind w' p position := by
    rw [Broadcast.position?_dropReader] at position
    split at position
    · cases position
    · exact h.behind w' p position
  apart := h.apart
  taken t mem := by
    obtain ⟨bound, gone⟩ := h.taken t mem
    rw [s.hasWaiter_set, gone, List.length_set]
    exact ⟨bound, rfl⟩

theorem Sound.spawn (h : s.Sound size) (held : s.hasWaiter w = true) :
    Sound size { s with waiters := s.waiters.set w false, tasks := s.tasks ++ [{ reader := w }] } where
  size := h.size
  closed := h.closed
  readers := by simp [h.readers]
  alive w' := by
    have waiter := s.hasWaiter_set (s.tasks ++ [{ reader := w }]) s.broadcast w w'
    rw [h.alive, isAlive, isAlive, waiter, List.any_append]
    by_cases own : w = w'
    · subst own
      simp [held]
    · rw [bne_iff_ne.mpr own]
      simp [beq_false_of_ne own]
  behind := h.behind
  apart := by
    rw [List.map_append]
    refine h.apart.append (List.nodup_singleton _) fun w' mem new => ?_
    obtain ⟨t, old, rfl⟩ := List.mem_map.mp mem
    exact h.no_task held t old (List.mem_singleton.mp new)
  taken t mem := by
    rw [s.hasWaiter_set, List.length_set]
    rcases List.mem_append.mp mem with old | new
    · obtain ⟨bound, gone⟩ := h.taken t old
      exact ⟨bound, by rw [gone]; rfl⟩
    · rw [List.mem_singleton.mp new]
      exact ⟨lt_of_hasWaiter held, by simp⟩

theorem Sound.dropHandle (h : s.Sound size) {i : Nat} (there : s.hasHandle i = true) : (s.dropHandle i).Sound size := by
  have opened : s.broadcast.closed = false := by rw [h.closed, any_of_getElem? there]; rfl
  cases left : (s.handles.set i false).any id with
  | true =>
    simp only [BroadcastSession.dropHandle, left, if_true]
    exact ⟨h.size, by rw [left, opened]; rfl, h.readers, h.alive, h.behind, h.apart, h.taken⟩
  | false =>
    simp only [BroadcastSession.dropHandle, left, Bool.false_eq_true, if_false]
    exact ⟨h.size, by rw [left]; rfl, h.readers, h.alive, h.behind, h.apart, h.taken⟩

theorem Sound.perform (h : s.Sound size) (step : BroadcastStep) : (s.perform step).2.Sound size := by
  cases step <;> simp only [BroadcastSession.perform]
  case unknown => exact h
  all_goals split
  case clone.isTrue there =>
    refine ⟨h.size, ?_, h.readers, h.alive, h.behind, h.apart, h.taken⟩
    rw [h.closed, any_of_getElem? there]
    simp
  case drop.isTrue there => exact h.dropHandle there
  case subscribe.isTrue => exact h.subscribe
  case fire.isTrue => exact h.fire _
  case next.isTrue held => exact h.next held
  case dropWaiter.isTrue held => exact h.dropWaiter held
  case spawn.isTrue held => exact h.spawn held
  all_goals exact h

theorem tasks_runTasks (h : s.Sound size) :
    s.runTasks.tasks = s.tasks.map s.broadcast.turned ∧
      s.broadcast.HaveRead (fun w => s.tasks.any fun t => t.reader == w && !t.ended) s.runTasks.broadcast :=
  Broadcast.haveRead_runTasksFrom h.apart fun t mem unended =>
    h.registers (by rw [isAlive, List.any_eq_true.mpr ⟨t, mem, by simp [unended]⟩, Bool.or_true])

theorem reader_turned (b : Broadcast) (t : ReadingTask) : (b.turned t).reader = t.reader := by
  unfold Broadcast.turned
  split <;> rfl

theorem ended_turned (b : Broadcast) (t : ReadingTask) : (b.turned t).ended = (t.ended || b.closed) := by
  unfold Broadcast.turned
  cases ended : t.ended <;> simp [ended]

theorem Sound.runTasks (h : s.Sound size) : s.runTasks.Sound size := by
  obtain ⟨tasks, read⟩ := tasks_runTasks h
  refine ⟨read.size.trans h.size, read.closed.trans h.closed, read.readers.trans h.readers, fun w => ?_,
    fun w p position => ?_, ?_, fun t mem => ?_⟩
  · have running : (s.runTasks.tasks.any fun t => t.reader == w && !t.ended) =
        ((s.tasks.any fun t => t.reader == w && !t.ended) && !s.broadcast.closed) := by
      rw [tasks, List.any_map]
      simp only [Function.comp_def, reader_turned, ended_turned]
      cases s.broadcast.closed <;> simp
    rw [read.position, isAlive, running, show s.runTasks.hasWaiter w = s.hasWaiter w from rfl]
    cases reads : s.tasks.any fun t => t.reader == w && !t.ended with
    | false =>
      have before := h.alive w
      rw [isAlive, reads] at before
      simpa using before
    | true =>
      obtain ⟨t, mem, own⟩ := List.any_eq_true.mp reads
      have gone := (h.taken t mem).2
      rw [show t.reader = w by simpa using (Bool.and_eq_true_iff.mp own).1] at gone
      rw [gone]
      cases s.broadcast.closed <;> rfl
  · rw [read.position] at position
    rw [read.fired]
    split at position
    · split at position
      · cases position
      · cases position
        exact Nat.le_refl _
    · exact h.behind w p position
  · have readers : s.runTasks.tasks.map (·.reader) = s.tasks.map (·.reader) := by
      rw [tasks, List.map_map]
      exact List.map_congr_left fun t _ => reader_turned _ t
    exact readers ▸ h.apart
  · rw [tasks] at mem
    obtain ⟨t', old, rfl⟩ := List.mem_map.mp mem
    rw [reader_turned]
    exact h.taken t' old

end BroadcastSession

end Supervision
