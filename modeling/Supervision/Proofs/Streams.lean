import Mathlib.Data.List.Nodup
import Supervision.Signal.Session

/-! Every signal stream is its own queue. A raised signal reaches the listeners one by one, and comes to each stream as one
delivery for each time that the stream lists it; so what a stream receives depends on no other stream, and on no
listener that a failed subscription has left behind. -/

namespace Supervision

namespace SignalSession

variable {s s' : SignalSession} {n : Int} {c i : Nat}

/-! ### Channels -/

theorem inbox?_of_le (h : s.channels.length ≤ c) : s.inbox? c = none := by
  simp [inbox?, List.getElem?_eq_none h]

theorem lt_of_inbox? {b : Inbox} (h : s.inbox? c = some b) : c < s.channels.length := by
  apply Nat.lt_of_not_le
  intro absent
  rw [inbox?_of_le absent] at h
  cases h

theorem inbox?_put (h : c < s.channels.length) (b : Option Inbox) (c' : Nat) :
    (s.put c b).inbox? c' = if c = c' then b else s.inbox? c' := by
  unfold inbox? put
  rw [List.getElem?_set]
  split
  · simp only [Option.join_some]
  · rfl

theorem stream?_of_getElem? (h : s.streams[i]? = some c) : s.stream? i = s.inbox? c := by
  rw [stream?, h]
  rfl

theorem lt_of_stream? {b : Inbox} (h : s.stream? i = some b) : i < s.streams.length := by
  apply Nat.lt_of_not_le
  intro absent
  rw [stream?, List.getElem?_eq_none absent] at h
  cases h

/-- A channel as a subscription leaves it, with the listeners that were registered for it. -/
def opened (s : SignalSession) (b : Option Inbox) (heard : List Int) : SignalSession :=
  { s with
    channels := s.channels ++ [b]
    listeners := s.listeners ++ heard.map (Listener.mk · s.channels.length) }

theorem inbox?_opened (s : SignalSession) (b : Option Inbox) (heard : List Int) (c : Nat) :
    (s.opened b heard).inbox? c = if c = s.channels.length then b else s.inbox? c := by
  unfold inbox? opened
  split
  · rename_i new
    simp [new]
  · rename_i old
    by_cases known : c < s.channels.length
    · rw [List.getElem?_append_left known]
    · rw [List.getElem?_eq_none (by simp; omega), List.getElem?_eq_none (by omega)]

/-! ### What belongs together -/

/-- Each stream has a channel of its own, and the listeners of an open channel are those that its stream lists. -/
structure Tuned (s : SignalSession) : Prop where
  known : ∀ c ∈ s.streams, c < s.channels.length
  apart : s.streams.Nodup
  behind : ∀ l ∈ s.listeners, l.channel < s.channels.length
  heard : ∀ c b, s.inbox? c = some b → ∀ n, s.listeners.count ⟨n, c⟩ = b.kinds.count n

theorem count_listeners (heard : List Int) (n : Int) (c c' : Nat) :
    (heard.map (Listener.mk · c')).count ⟨n, c⟩ = if c = c' then heard.count n else 0 := by
  rw [List.count, List.countP_map]
  split
  · rename_i same
    rw [List.count]
    congr 1
    funext m
    rw [Bool.eq_iff_iff]
    simp [same]
  · rename_i other
    rw [List.countP_eq_zero]
    intro m _
    simp [Ne.symm other]

theorem Tuned.opened {b : Option Inbox} {heard : List Int} (h : s.Tuned) (listed : ∀ b', b = some b' → b'.kinds = heard) :
    (s.opened b heard).Tuned where
  known c mem := by
    have old := h.known c mem
    simp only [SignalSession.opened, List.length_append, List.length_singleton]
    omega
  apart := h.apart
  behind l mem := by
    simp only [SignalSession.opened, List.length_append, List.length_singleton]
    rcases List.mem_append.mp mem with old | new
    · have := h.behind l old
      omega
    · obtain ⟨n, -, rfl⟩ := List.mem_map.mp new
      exact Nat.lt_succ_self _
  heard c b' look n := by
    rw [inbox?_opened] at look
    simp only [SignalSession.opened, List.count_append, count_listeners]
    split at look
    · rename_i new
      have none : s.listeners.count ⟨n, c⟩ = 0 := by
        rw [List.count_eq_zero]
        intro mem
        exact absurd (h.behind _ mem) (by simp [new])
      rw [none, if_pos new, Nat.zero_add, listed b' look]
    · rename_i old
      rw [if_neg old, Nat.add_zero]
      exact h.heard c b' look n

/-- Nothing changes but what is in the channels. -/
structure SameWiring (s s' : SignalSession) : Prop where
  settings : s'.settings = s.settings
  streams : s'.streams = s.streams
  listeners : s'.listeners = s.listeners
  channels : s'.channels.length = s.channels.length

theorem SameWiring.trans {s'' : SignalSession} (h : SameWiring s s') (h' : SameWiring s' s'') : SameWiring s s'' :=
  ⟨h'.settings.trans h.settings, h'.streams.trans h.streams, h'.listeners.trans h.listeners,
    h'.channels.trans h.channels⟩

theorem sameWiring_put (s : SignalSession) (c : Nat) (b : Option Inbox) : SameWiring s (s.put c b) :=
  ⟨rfl, rfl, rfl, List.length_set⟩

theorem Tuned.rewired (h : s.Tuned) (same : SameWiring s s')
    (kinds : ∀ c b', s'.inbox? c = some b' → ∃ b, s.inbox? c = some b ∧ b'.kinds = b.kinds) : s'.Tuned where
  known c mem := by
    rw [same.streams] at mem
    rw [same.channels]
    exact h.known c mem
  apart := same.streams ▸ h.apart
  behind l mem := by
    rw [same.listeners] at mem
    rw [same.channels]
    exact h.behind l mem
  heard c b' look n := by
    obtain ⟨b, look, listed⟩ := kinds c b' look
    rw [same.listeners, listed]
    exact h.heard c b look n

/-! ### Raising a signal -/

theorem sameWiring_hear (n : Int) (s : SignalSession) (l : Listener) : SameWiring s (hear n s l) := by
  unfold hear
  split
  · exact ⟨rfl, rfl, rfl, rfl⟩
  · split
    · exact ⟨rfl, rfl, rfl, rfl⟩
    · exact sameWiring_put s _ _

/-- A listener passes the signal on to its own channel, unless that was closed. -/
theorem inbox?_hear (n : Int) (s : SignalSession) (l : Listener) (c : Nat) :
    (hear n s l).inbox? c = if l.channel = c then (s.inbox? c).map (·.push n) else s.inbox? c := by
  unfold hear
  split
  · rename_i closed
    split
    · rename_i own
      rw [← own, closed]
      rfl
    · rfl
  · rename_i b look
    split
    · rename_i full
      have kept : b.push n = b := if_pos full
      show s.inbox? c = _
      split
      · rename_i own
        rw [← own, look, Option.map_some, kept]
      · rfl
    · rw [inbox?_put (lt_of_inbox? look)]
      split
      · rename_i own
        rw [← own, look, Option.map_some]
      · rfl

theorem sameWiring_foldl_hear (n : Int) (ls : List Listener) (s : SignalSession) :
    SameWiring s (ls.foldl (hear n) s) := by
  induction ls generalizing s with
  | nil => exact ⟨rfl, rfl, rfl, rfl⟩
  | cons l ls ih => exact (sameWiring_hear n s l).trans (ih _)

theorem sameWiring_raise (s : SignalSession) (n : Int) : SameWiring s (s.raise n) :=
  sameWiring_foldl_hear n _ s

theorem inbox?_foldl_hear (n : Int) (ls : List Listener) (s : SignalSession) (c : Nat) :
    (ls.foldl (hear n) s).inbox? c =
      (s.inbox? c).map fun b => (Inbox.offer n (ls.countP (·.channel = c)) b).2 := by
  induction ls generalizing s with
  | nil => simp [Inbox.offer]
  | cons l ls ih =>
    rw [List.foldl_cons, ih, inbox?_hear, List.countP_cons]
    by_cases own : l.channel = c
    · simp only [own, if_true, decide_true, Option.map_map]
      rfl
    · simp only [own, if_false, decide_false, Bool.false_eq_true, Nat.add_zero]

theorem Tuned.countP_listeners {b : Inbox} (h : s.Tuned) (look : s.inbox? c = some b) (n : Int) :
    (s.listeners.filter (·.signal = n)).countP (·.channel = c) = b.kinds.count n := by
  rw [List.countP_filter, ← h.heard c b look n, List.count]
  congr 1
  funext l
  obtain ⟨signal, channel⟩ := l
  rw [Bool.eq_iff_iff]
  simp [and_comm]

/-- A raised signal is delivered to every open channel, whatever other channels and listeners there are. -/
theorem Tuned.inbox?_raise (h : s.Tuned) (n : Int) (c : Nat) :
    (s.raise n).inbox? c = (s.inbox? c).map fun b => (b.deliver n).2 := by
  rw [raise, inbox?_foldl_hear]
  cases look : s.inbox? c with
  | none => rfl
  | some b =>
    rw [h.countP_listeners look]
    rfl

theorem Tuned.raise (h : s.Tuned) (n : Int) : (s.raise n).Tuned := by
  refine h.rewired (s.sameWiring_raise n) fun c b' look => ?_
  rw [h.inbox?_raise, Option.map_eq_some_iff] at look
  obtain ⟨b, look, rfl⟩ := look
  exact ⟨b, look, Inbox.kinds_offer n _ b⟩

/-! ### Subscribing -/

theorem register_cases (kinds : List Int) (s : SignalSession) (c : Nat) :
    firstRefused kinds = none ∧ register c kinds s =
        (.ok c, { s with listeners := s.listeners ++ kinds.map (Listener.mk · c) }) ∨
      ∃ n why, ∃ heard : List Int, firstRefused kinds = some (n, why) ∧ register c kinds s =
        (.error (.refused n why), { s with listeners := s.listeners ++ heard.map (Listener.mk · c) }.put c none) := by
  induction kinds generalizing s with
  | nil => exact .inl ⟨rfl, by simp [register]⟩
  | cons n rest ih =>
    simp only [firstRefused, register]
    cases refusal? n with
    | some why => exact .inr ⟨n, why, [], rfl, by simp⟩
    | none =>
      rcases ih { s with listeners := s.listeners ++ [⟨n, c⟩] } with ⟨fine, done⟩ | ⟨m, why, heard, bad, failed⟩
      · exact .inl ⟨fine, by simp [done]⟩
      · exact .inr ⟨m, why, n :: heard, bad, by simp [failed]⟩

/-- What a failed subscription leaves: nothing, or a closed channel that some listeners still belong to. -/
def Leaves (s s' : SignalSession) : Prop :=
  s' = s ∨ ∃ heard, s' = s.opened none heard

theorem subscribe_ok {settings : SignalSettings} {kinds : List Int} {b : Inbox}
    (h : Inbox.subscribe settings kinds = .ok b) (s : SignalSession) :
    s.subscribe settings kinds = (.ok s.channels.length, s.opened (some b) b.kinds) := by
  unfold Inbox.subscribe at h
  unfold subscribe
  split
  · rename_i large
    rw [if_pos large] at h
    cases h
  · rename_i fits
    rw [if_neg fits] at h
    rcases register_cases kinds { s with channels := s.channels ++ [some ⟨kinds, settings.capacity, []⟩] }
      s.channels.length with ⟨fine, done⟩ | ⟨n, why, heard, bad, -⟩
    · rw [fine] at h
      cases h
      exact done
    · rw [bad] at h
      cases h

/-- A subscription fails as it is bound to, and leaves a closed channel at most. -/
theorem subscribe_error {settings : SignalSettings} {kinds : List Int} {f : SetupFault}
    (h : Inbox.subscribe settings kinds = .error f) (s : SignalSession) :
    ∃ s', s.subscribe settings kinds = (.error f, s') ∧ Leaves s s' := by
  unfold Inbox.subscribe at h
  unfold subscribe
  split
  · rename_i large
    rw [if_pos large] at h
    cases h
    exact ⟨s, rfl, .inl rfl⟩
  · rename_i fits
    rw [if_neg fits] at h
    rcases register_cases kinds { s with channels := s.channels ++ [some ⟨kinds, settings.capacity, []⟩] }
      s.channels.length with ⟨fine, -⟩ | ⟨n, why, heard, bad, failed⟩
    · rw [fine] at h
      cases h
    · -- the listeners registered so far keep the channel, which is closed
      rw [bad] at h
      cases h
      rw [failed]
      refine ⟨_, rfl, .inr ⟨heard, ?_⟩⟩
      simp [put, SignalSession.opened]

theorem Tuned.leaves (h : s.Tuned) (left : Leaves s s') : s'.Tuned := by
  rcases left with rfl | ⟨heard, rfl⟩
  · exact h
  · apply h.opened
    intro b' open'
    cases open'

/-! ### Every step -/

/-- The session with one more stream. -/
def added (s : SignalSession) (b : Inbox) : SignalSession :=
  { s.opened (some b) b.kinds with streams := s.streams ++ [s.channels.length] }

theorem addStream_ok {kinds : List Int} {b : Inbox} (h : Inbox.subscribe s.settings kinds = .ok b) :
    s.addStream kinds = (.index s.streams.length, s.added b) := by
  rw [addStream, subscribe_ok h]
  rfl

theorem addStream_error {kinds : List Int} {f : SetupFault} (h : Inbox.subscribe s.settings kinds = .error f) :
    ∃ s', s.addStream kinds = (.fault f, s') ∧ Leaves s s' := by
  obtain ⟨s', fails, left⟩ := subscribe_error h s
  refine ⟨s', ?_, left⟩
  rw [addStream, fails]

theorem Tuned.added (h : s.Tuned) (b : Inbox) : (s.added b).Tuned := by
  have opened : (s.opened (some b) b.kinds).Tuned := by
    apply h.opened
    intro b' same
    cases same
    rfl
  refine ⟨fun c mem => ?_, ?_, opened.behind, opened.heard⟩
  · rcases List.mem_append.mp mem with old | new
    · exact opened.known c old
    · rw [List.mem_singleton.mp new]
      simp [SignalSession.added, SignalSession.opened]
  · apply List.Nodup.append h.apart (List.nodup_singleton _)
    intro c mem new
    rw [List.mem_singleton.mp new] at mem
    exact absurd (h.known _ mem) (Nat.lt_irrefl _)

theorem Tuned.addStream (h : s.Tuned) (kinds : List Int) : (s.addStream kinds).2.Tuned := by
  cases outcome : Inbox.subscribe s.settings kinds with
  | ok b =>
    rw [addStream_ok outcome]
    exact h.added b
  | error f =>
    obtain ⟨s', fails, left⟩ := addStream_error outcome
    rw [fails]
    exact h.leaves left

theorem sameWiring_putStream (s : SignalSession) (i : Nat) (b : Option Inbox) : SameWiring s (s.putStream i b) := by
  unfold putStream
  split
  · exact sameWiring_put s _ b
  · exact ⟨rfl, rfl, rfl, rfl⟩

/-- No two streams receive from the same channel. -/
theorem Tuned.stream?_putStream (h : s.Tuned) (b : Option Inbox) (there : i < s.streams.length) (j : Nat) :
    (s.putStream i b).stream? j = if i = j then b else s.stream? j := by
  have own : s.streams[i]? = some s.streams[i] := List.getElem?_eq_getElem there
  have known := h.known _ (List.getElem_mem there)
  simp only [putStream, own]
  cases other : s.streams[j]? with
  | none =>
    have ne : i ≠ j := by
      rintro rfl
      rw [own] at other
      cases other
    simp [stream?, put, other, ne]
  | some c =>
    have channels : s.streams[i] = c ↔ i = j := by
      obtain ⟨bound, rfl⟩ := List.getElem?_eq_some_iff.mp other
      exact h.apart.getElem_inj_iff
    have there' : (s.put s.streams[i] b).streams[j]? = some c := other
    rw [stream?_of_getElem? there', stream?_of_getElem? other, inbox?_put known]
    simp only [channels]

theorem Tuned.putStream {b : Inbox} {b' : Option Inbox} (h : s.Tuned) (look : s.stream? i = some b)
    (kinds : ∀ x, b' = some x → x.kinds = b.kinds) : (s.putStream i b').Tuned := by
  refine h.rewired (sameWiring_putStream s i b') fun c x look' => ?_
  have there := lt_of_stream? look
  have own : s.streams[i]? = some s.streams[i] := List.getElem?_eq_getElem there
  rw [stream?_of_getElem? own] at look
  simp only [SignalSession.putStream, own] at look'
  rw [inbox?_put (h.known _ (List.getElem_mem there))] at look'
  split at look'
  · rename_i same
    exact ⟨b, same ▸ look, kinds x look'⟩
  · exact ⟨x, look', rfl⟩

theorem kinds_receive (b : Inbox) : b.receive.2.kinds = b.kinds := by
  unfold Inbox.receive
  split <;> rfl

/-- A step of a reader changes nothing but what is in its own channel. -/
theorem reader_cases (s : SignalSession) {i : Nat} {step : SignalStep} (reads : step = .receive i ∨ step = .drop i) :
    (∃ b b', s.stream? i = some b ∧ (∀ x, b' = some x → x.kinds = b.kinds) ∧ (s.perform step).2 = s.putStream i b') ∨
      (s.perform step).2 = s := by
  cases look : s.stream? i with
  | none => rcases reads with rfl | rfl <;> exact .inr (by simp [perform, look])
  | some b =>
    rcases reads with rfl | rfl
    · exact .inl ⟨b, some b.receive.2, rfl, fun x same => by cases same; exact kinds_receive b, by simp [perform, look]⟩
    · exact .inl ⟨b, none, rfl, fun x same => (by cases same), by simp [perform, look]⟩

theorem Tuned.byReader {step : SignalStep} (h : s.Tuned) (reads : step = .receive i ∨ step = .drop i) :
    (s.perform step).2.Tuned := by
  rcases s.reader_cases reads with ⟨b, b', look, kinds, done⟩ | done
  · rw [done]
    exact h.putStream look kinds
  · rwa [done]

theorem Tuned.perform (h : s.Tuned) (step : SignalStep) : (s.perform step).2.Tuned := by
  cases step with
  | listen p => exact h.addStream _
  | subscribe ns => exact h.addStream ns
  | raise n =>
    unfold SignalSession.perform
    dsimp only
    split
    · exact h.raise n
    · exact h
  | arrive n => exact h.raise n
  | receive i => exact h.byReader (.inl rfl)
  | drop i => exact h.byReader (.inr rfl)
  | unknown => exact h

theorem tuned_initial (settings : SignalSettings) : Tuned { settings := settings } where
  known c mem := by cases mem
  apart := List.nodup_nil
  behind l mem := by cases mem
  heard c b look := by simp [inbox?] at look

theorem Tuned.play (h : s.Tuned) (steps : List SignalStep) : (s.play steps).2.Tuned := by
  induction steps generalizing s with
  | nil => exact h
  | cons step rest ih => exact ih (h.perform step)

/-! ### Streams alike -/

/-- The streams have the same in them, whatever channels and listeners there are besides. -/
structure Agrees (s s' : SignalSession) : Prop where
  settings : s.settings = s'.settings
  streams : s.streams.length = s'.streams.length
  look : ∀ i, s.stream? i = s'.stream? i

theorem stream?_raise (h : s.Tuned) (n : Int) (i : Nat) :
    (s.raise n).stream? i = (s.stream? i).map fun b => (b.deliver n).2 := by
  have streams : (s.raise n).streams = s.streams := (s.sameWiring_raise n).streams
  cases own : s.streams[i]? with
  | none => simp [stream?, streams, own]
  | some c =>
    rw [stream?_of_getElem? own, stream?_of_getElem? (streams ▸ own), h.inbox?_raise]

theorem Agrees.raise (h : Agrees s s') (tuned : s.Tuned) (tuned' : s'.Tuned) (n : Int) :
    Agrees (s.raise n) (s'.raise n) where
  settings := by
    rw [(s.sameWiring_raise n).settings, h.settings, (s'.sameWiring_raise n).settings]
  streams := by
    rw [(s.sameWiring_raise n).streams, h.streams, (s'.sameWiring_raise n).streams]
  look i := by rw [stream?_raise tuned, stream?_raise tuned', h.look]

theorem Agrees.putStream {b : Inbox} (h : Agrees s s') (tuned : s.Tuned) (tuned' : s'.Tuned)
    (look : s'.stream? i = some b) (b' : Option Inbox) : Agrees (s.putStream i b') (s'.putStream i b') where
  settings := by
    rw [(sameWiring_putStream s i b').settings, h.settings, (sameWiring_putStream s' i b').settings]
  streams := by
    rw [(sameWiring_putStream s i b').streams, h.streams, (sameWiring_putStream s' i b').streams]
  look j := by
    have there' := lt_of_stream? look
    rw [tuned.stream?_putStream b' (h.streams ▸ there'), tuned'.stream?_putStream b' there', h.look]

theorem stream?_opened (h : s.Tuned) (b : Option Inbox) (heard : List Int) (i : Nat) :
    (s.opened b heard).stream? i = s.stream? i := by
  cases own : s.streams[i]? with
  | none => simp [stream?, opened, own]
  | some c =>
    have own' : (s.opened b heard).streams[i]? = some c := own
    have old : c ≠ s.channels.length := Nat.ne_of_lt (h.known c (List.mem_of_getElem? own))
    rw [stream?_of_getElem? own, stream?_of_getElem? own', inbox?_opened, if_neg old]

theorem Tuned.agrees_opened (h : s.Tuned) (b : Option Inbox) (heard : List Int) : Agrees s (s.opened b heard) :=
  ⟨rfl, rfl, fun i => (stream?_opened h b heard i).symm⟩

/-- A failed subscription changes no stream. -/
theorem Leaves.agrees (left : Leaves s s') (h : s.Tuned) : Agrees s s' := by
  rcases left with rfl | ⟨heard, rfl⟩
  · exact ⟨rfl, rfl, fun _ => rfl⟩
  · exact h.agrees_opened none heard

theorem Agrees.symm (h : Agrees s s') : Agrees s' s :=
  ⟨h.settings.symm, h.streams.symm, fun i => (h.look i).symm⟩

theorem Agrees.trans {s'' : SignalSession} (h : Agrees s s') (h' : Agrees s' s'') : Agrees s s'' :=
  ⟨h.settings.trans h'.settings, h.streams.trans h'.streams, fun i => (h.look i).trans (h'.look i)⟩

/-- A stream that was added stands behind the others. -/
theorem stream?_added (h : s.Tuned) (b : Inbox) (i : Nat) :
    (s.added b).stream? i = if i = s.streams.length then some b else s.stream? i := by
  have looks (c : Nat) : (s.added b).inbox? c = if c = s.channels.length then some b else s.inbox? c :=
    inbox?_opened s (some b) b.kinds c
  split
  · rename_i new
    have own : (s.added b).streams[i]? = some s.channels.length := by simp [added, new]
    rw [stream?_of_getElem? own, looks, if_pos rfl]
  · rename_i old
    rw [← stream?_opened h (some b) b.kinds]
    have own : (s.added b).streams[i]? = s.streams[i]? := by
      simp only [added, List.getElem?_append, List.getElem?_singleton]
      split
      · rfl
      · rw [if_neg (by omega), List.getElem?_eq_none (by omega)]
    rw [stream?, own]
    rfl

theorem Agrees.addStream (h : Agrees s s') (tuned : s.Tuned) (tuned' : s'.Tuned) (kinds : List Int) :
    (s.addStream kinds).1 = (s'.addStream kinds).1 ∧ Agrees (s.addStream kinds).2 (s'.addStream kinds).2 := by
  cases outcome : Inbox.subscribe s.settings kinds with
  | ok b =>
    rw [addStream_ok outcome, addStream_ok (h.settings ▸ outcome), h.streams]
    refine ⟨rfl, h.settings, ?_, fun i => ?_⟩
    · simp [added, h.streams]
    · rw [stream?_added tuned, stream?_added tuned', h.streams, h.look]
  | error f =>
    obtain ⟨s₁, fails, left⟩ := addStream_error outcome
    obtain ⟨s₁', fails', left'⟩ := addStream_error (s := s') (h.settings ▸ outcome)
    rw [fails, fails']
    exact ⟨rfl, ((left.agrees tuned).symm.trans h).trans (left'.agrees tuned')⟩

/-- Streams that have the same in them answer alike. -/
theorem Agrees.perform (h : Agrees s s') (tuned : s.Tuned) (tuned' : s'.Tuned) (step : SignalStep) :
    (s.perform step).1 = (s'.perform step).1 ∧ Agrees (s.perform step).2 (s'.perform step).2 := by
  cases step with
  | listen p =>
    simp only [SignalSession.perform, h.settings]
    exact h.addStream tuned tuned' _
  | subscribe ns => exact h.addStream tuned tuned' ns
  | raise n =>
    unfold SignalSession.perform
    dsimp only
    split
    · exact ⟨rfl, h.raise tuned tuned' n⟩
    · exact ⟨rfl, h⟩
  | arrive n => exact ⟨rfl, h.raise tuned tuned' n⟩
  | receive i =>
    simp only [SignalSession.perform, h.look]
    cases look : s'.stream? i with
    | none => exact ⟨rfl, h⟩
    | some b => exact ⟨rfl, h.putStream tuned tuned' look _⟩
  | drop i =>
    simp only [SignalSession.perform, h.look]
    cases look : s'.stream? i with
    | none => exact ⟨rfl, h⟩
    | some b => exact ⟨rfl, h.putStream tuned tuned' look _⟩
  | unknown => exact ⟨rfl, h⟩

theorem Agrees.play (h : Agrees s s') (tuned : s.Tuned) (tuned' : s'.Tuned) (steps : List SignalStep) :
    (s.play steps).1 = (s'.play steps).1 ∧ Agrees (s.play steps).2 (s'.play steps).2 := by
  induction steps generalizing s s' with
  | nil => exact ⟨rfl, h⟩
  | cons step rest ih =>
    obtain ⟨answer, agrees⟩ := h.perform tuned tuned' step
    obtain ⟨answers, agrees⟩ := ih agrees (tuned.perform step) (tuned'.perform step)
    exact ⟨congrArg₂ List.cons answer answers, agrees⟩

end SignalSession

end Supervision
