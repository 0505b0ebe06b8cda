import Supervision.Proofs.Streams
import Supervision.Run.Supervise

/-! What a run needs before it can begin, and what is left where it cannot be had. A run listens among others that
listen, and whatever it has opened by the time that something fails it closes again; so nobody else receives anything on
its account. -/

namespace Supervision

def SetupFault.ofSignals? (ns : List Int) : Option SetupFault :=
  ns.findSome? fun n => (refusal? n).map (.refused n)

/-- What keeps a run from being set up: streams that are too large, else the first signal listed that is refused, be it
for a shutdown or after those for a restart, else a backlog that is too large. -/
def Settings.setupFault? (s : Settings) : Option SetupFault :=
  if streamLimit < s.signals.capacity then some .capacityTooLarge
  else (SetupFault.ofSignals? (s.signals.shutdown ++ s.signals.restart)).or
    (if backlogLimit < s.restartBacklog then some .backlogTooLarge else none)

theorem ofSignals?_eq (ns : List Int) :
    SetupFault.ofSignals? ns = (firstRefused ns).map fun x => .refused x.1 x.2 := by
  induction ns with
  | nil => rfl
  | cons n rest ih =>
    rw [SetupFault.ofSignals?, List.findSome?_cons, firstRefused]
    cases refusal? n with
    | none => exact ih
    | some why => rfl

/-- A run panics on what it lacks unless that is a signal, which is the error that it returns. -/
theorem isPanic_iff {s : Settings} {f : SetupFault} (h : s.setupFault? = some f) :
    f.isPanic = true ↔
      streamLimit < s.signals.capacity ∨ SetupFault.ofSignals? (s.signals.shutdown ++ s.signals.restart) = none := by
  unfold Settings.setupFault? at h
  rw [ofSignals?_eq] at h ⊢
  split at h
  · rename_i large
    cases h
    simp [SetupFault.isPanic, large]
  · rename_i fits
    cases refused : firstRefused (s.signals.shutdown ++ s.signals.restart) with
    | some x =>
      rw [refused] at h
      cases h
      simp [SetupFault.isPanic, fits]
    | none =>
      rw [refused] at h
      dsimp only [Option.map_none, Option.or] at h
      split at h
      · cases h
        simp [SetupFault.isPanic]
      · cases h

theorem subscribe_eq (s : SignalSettings) (kinds : List Int) :
    Inbox.subscribe s kinds =
      if streamLimit < s.capacity then .error .capacityTooLarge
      else match SetupFault.ofSignals? kinds with
        | some f => .error f
        | none => .ok { kinds := kinds, capacity := s.capacity } := by
  rw [Inbox.subscribe, ofSignals?_eq]
  cases firstRefused kinds <;> rfl

theorem acquire_error_iff {s : Settings} {f : SetupFault} : Run.acquire s = .error f ↔ s.setupFault? = some f := by
  simp only [Run.acquire, Settings.setupFault?, Inbox.listen, subscribe_eq, SignalSettings.kinds,
    SetupFault.ofSignals?, List.findSome?_append]
  by_cases large : streamLimit < s.signals.capacity
  · simp only [if_pos large, Except.error.injEq, Option.some.injEq]
  · simp only [if_neg large]
    cases s.signals.shutdown.findSome? fun n => (refusal? n).map (SetupFault.refused n) with
    | some g => simp
    | none =>
      cases s.signals.restart.findSome? fun n => (refusal? n).map (SetupFault.refused n) with
      | some g => simp
      | none =>
        dsimp only [Option.or]
        split <;> simp

theorem acquire_ok_iff {s : Settings} : (∃ streams, Run.acquire s = .ok streams) ↔ s.setupFault? = none := by
  cases h : Run.acquire s with
  | error f => simp [acquire_error_iff.mp h]
  | ok streams =>
    simp only [Except.ok.injEq, exists_eq', true_iff]
    rw [Option.eq_none_iff_forall_ne_some]
    intro f fault
    rw [acquire_error_iff.mpr fault] at h
    cases h

namespace SignalSession

variable {s s' : SignalSession} {c : Nat}

/-! ### Closing a channel -/

theorem inbox?_put_ne {c' : Nat} (other : c ≠ c') (b : Option Inbox) : (s.put c b).inbox? c' = s.inbox? c' := by
  rw [inbox?, put, List.getElem?_set_ne other]
  rfl

theorem inbox?_put_none (s : SignalSession) (c : Nat) : (s.put c none).inbox? c = none := by
  rw [inbox?, put, List.getElem?_set_self']
  cases s.channels[c]? <;> rfl

theorem Tuned.close (h : s.Tuned) (c : Nat) : (s.put c none).Tuned := by
  apply h.rewired (sameWiring_put s c none)
  intro c' b look
  by_cases same : c = c'
  · rw [← same, inbox?_put_none] at look
    cases look
  · rw [inbox?_put_ne same] at look
    exact ⟨b, look, rfl⟩

theorem agrees_close (unused : c ∉ s.streams) : Agrees s (s.put c none) where
  settings := rfl
  streams := rfl
  look i := by
    cases own : s.streams[i]? with
    | none => simp [stream?, put, own]
    | some c' =>
      have own' : (s.put c none).streams[i]? = some c' := own
      have other : c ≠ c' := by
        rintro rfl
        exact unused (List.mem_of_getElem? own)
      rw [stream?_of_getElem? own, stream?_of_getElem? own', inbox?_put_ne other]

structure Spares (s s' : SignalSession) : Prop where
  tuned : s'.Tuned
  agrees : Agrees s s'
  streams : s'.streams = s.streams

theorem Spares.opened {b : Inbox} (h : Spares s s') : Spares s (s'.opened (some b) b.kinds) where
  tuned := h.tuned.opened fun b' same => by cases same; rfl
  agrees := h.agrees.trans (h.tuned.agrees_opened _ _)
  streams := h.streams

theorem Spares.leaves {s'' : SignalSession} (h : Spares s s') (left : Leaves s' s'') : Spares s s'' where
  tuned := h.tuned.leaves left
  agrees := h.agrees.trans (left.agrees h.tuned)
  streams := by rcases left with rfl | ⟨heard, rfl⟩ <;> exact h.streams

theorem Spares.close (h : Spares s s') (unused : c ∉ s.streams) : Spares s (s'.put c none) where
  tuned := h.tuned.close c
  agrees := h.agrees.trans (agrees_close (h.streams ▸ unused))
  streams := h.streams

theorem Tuned.not_mem_streams (h : s.Tuned) (new : s.channels.length ≤ c) : c ∉ s.streams := by
  intro mem
  have known := h.known c mem
  omega

/-! ### Acquiring -/

/-- Acquires what a run needs where others have streams already. If something cannot be had, the channels that were opened
for the run are closed. -/
def acquire (s : SignalSession) (settings : Settings) : Except SetupFault (Nat × Nat × Broadcast) × SignalSession :=
  match s.subscribe settings.signals (settings.signals.kinds .shutdown) with
  | (.error f, s) => (.error f, s)
  | (.ok c, s) =>
    match s.subscribe settings.signals (settings.signals.kinds .restart) with
    | (.error f, s) => (.error f, s.put c none)
    | (.ok c', s) =>
      if backlogLimit < settings.restartBacklog then (.error .backlogTooLarge, (s.put c' none).put c none)
      else (.ok (c, c', settings.entries.foldl (fun b _ => b.subscribe) (.withBacklog settings.restartBacklog)), s)

theorem acquire_ok {settings : Settings} {shutdown restart : Inbox} {b : Broadcast}
    (h : Run.acquire settings = .ok (shutdown, restart, b)) (s : SignalSession) :
    ∃ c c' s', s.acquire settings = (.ok (c, c', b), s') ∧ s'.inbox? c = some shutdown ∧ s'.inbox? c' = some restart := by
  obtain ⟨hears, hearsToo, fits, rfl⟩ := Run.acquire_ok h
  let first := s.opened (some shutdown) shutdown.kinds
  have opens : s.subscribe settings.signals (settings.signals.kinds .shutdown) = (.ok s.channels.length, first) :=
    subscribe_ok hears s
  have opensToo := subscribe_ok hearsToo first
  refine ⟨s.channels.length, first.channels.length, first.opened (some restart) restart.kinds, ?_, ?_, ?_⟩
  · simp only [acquire, opens, opensToo, if_neg (Nat.not_lt.mpr fits)]
  · have old : s.channels.length ≠ first.channels.length := by simp [first, opened]
    rw [inbox?_opened, if_neg old, inbox?_opened, if_pos rfl]
  · rw [inbox?_opened, if_pos rfl]

/-- What cannot be had is not had here either, and nobody who has a stream notices the attempt. -/
theorem acquire_error {settings : Settings} {f : SetupFault} (h : Run.acquire settings = .error f) (tuned : s.Tuned) :
    ∃ s', s.acquire settings = (.error f, s') ∧ Spares s s' := by
  have start : Spares s s := ⟨tuned, ⟨rfl, rfl, fun _ => rfl⟩, rfl⟩
  have unused : s.channels.length ∉ s.streams := tuned.not_mem_streams (Nat.le_refl _)
  unfold Run.acquire at h
  unfold acquire
  split at h
  · rename_i refused
    cases h
    obtain ⟨s', fails, left⟩ := subscribe_error refused s
    exact ⟨s', by rw [fails], start.leaves left⟩
  · rename_i shutdown hears
    rw [subscribe_ok hears s]
    have opened : Spares s (s.opened (some shutdown) shutdown.kinds) := start.opened
    generalize s.opened (some shutdown) shutdown.kinds = first at opened
    split at h
    · rename_i refused
      cases h
      obtain ⟨s', fails, left⟩ := subscribe_error refused first
      exact ⟨_, by dsimp only; rw [fails], (opened.leaves left).close unused⟩
    · rename_i restart hearsToo
      split at h
      · rename_i large
        cases h
        simp only [subscribe_ok hearsToo first, if_pos large]
        refine ⟨_, rfl, ?_⟩
        apply Spares.close _ unused
        apply opened.opened.close
        rw [← opened.streams]
        exact opened.tuned.not_mem_streams (Nat.le_refl _)
      · cases h

end SignalSession

end Supervision
