import Mathlib.Algebra.BigOperators.Group.List.Basic
import Mathlib.Algebra.Ring.Nat
import Mathlib.Data.List.Nodup
import Supervision.Proofs.Acquisition

/-! A stream is a queue of bounded length by itself. What its reader gets is told by the list that it was subscribed with,
the capacity, the signals raised since then and its own readings; whatever else is subscribed, read or dropped, and every
subscription that fails, is nothing to it. Of each copy that it has no room for there is one event. -/

namespace Supervision

/-! ### A stream by itself -/

/-- The deliveries of one stream, of which it keeps `c` at most. -/
structure StreamQueue (c : Nat) where
  kinds : List Int
  items : List Int := []
  bounded : items.length ≤ c := by exact Nat.zero_le _

/-- What may happen to a stream by itself. -/
inductive StreamStep
  | raise (n : Int)
  | receive
  | drop

namespace StreamQueue

variable {c : Nat} (q : StreamQueue c) (n : Int)

def push : StreamQueue c :=
  if free : q.items.length < c then
    { q with items := q.items ++ [n], bounded := by rw [List.length_append]; exact free }
  else q

def raise : StreamQueue c :=
  (List.replicate (q.kinds.count n) n).foldl push q

def pop : StreamQueue c :=
  { q with items := q.items.tail, bounded := by rw [List.length_tail]; have := q.bounded; omega }

/-- One step of a stream, with its answer; a stream that was dropped is `none`. -/
def perform : Option (StreamQueue c) → StreamStep → SignalAnswer × Option (StreamQueue c)
  | some q, .raise n => (.raised, some (q.raise n))
  | some q, .receive => (.received q.items.head?, some q.pop)
  | some _, .drop => (.dropped, none)
  | none, .raise _ => (.raised, none)
  | none, _ => (.gone, none)

def play : Option (StreamQueue c) → List StreamStep → List SignalAnswer × Option (StreamQueue c)
  | q, [] => ([], q)
  | q, step :: rest =>
    let (answer, q) := perform q step
    let (answers, q) := play q rest
    (answer :: answers, q)

def inbox : Inbox :=
  ⟨q.kinds, c, q.items⟩

theorem inbox_push : (q.push n).inbox = q.inbox.push n := by
  unfold push Inbox.push
  by_cases free : q.items.length < c
  · rw [dif_pos free, if_neg (by simp [inbox, Inbox.isFull, Nat.not_le.mpr free])]
    rfl
  · rw [dif_neg free, if_pos (by simp [inbox, Inbox.isFull, Nat.not_lt.mp free])]

theorem inbox_foldl_push (copies : Nat) :
    ((List.replicate copies n).foldl push q).inbox = (Inbox.offer n copies q.inbox).2 := by
  induction copies generalizing q with
  | zero => rfl
  | succ copies ih =>
    rw [List.replicate_succ, List.foldl_cons, ih, inbox_push]
    rfl

theorem inbox_raise : (q.raise n).inbox = (q.inbox.deliver n).2 :=
  inbox_foldl_push q n _

theorem receive_inbox : q.inbox.receive = (q.items.head?, q.pop.inbox) := by
  obtain ⟨kinds, items, bounded⟩ := q
  cases items <;> rfl

/-! ### What is kept, and in which order -/

def received (answers : List SignalAnswer) : List Int :=
  answers.filterMap fun
    | .received n => n
    | _ => none

def offered (kinds : List Int) (steps : List StreamStep) : List Int :=
  steps.flatMap fun
    | .raise n => List.replicate (kinds.count n) n
    | _ => []

def waiting (q : Option (StreamQueue c)) : List Int :=
  q.elim [] items

theorem offered_nil (steps : List StreamStep) : offered [] steps = [] := by
  rw [offered, List.flatMap_eq_nil_iff]
  intro step _
  cases step <;> rfl

theorem kinds_push : (q.push n).kinds = q.kinds := by
  unfold push
  split <;> rfl

theorem foldl_push_kept (ns : List Int) :
    (ns.foldl push q).kinds = q.kinds ∧ (ns.foldl push q).items.Sublist (q.items ++ ns) := by
  induction ns generalizing q with
  | nil => simp
  | cons n ns ih =>
    obtain ⟨kinds, kept⟩ := ih (q.push n)
    refine ⟨kinds.trans (q.kinds_push n), kept.trans ?_⟩
    have pushed : (q.push n).items.Sublist (q.items ++ [n]) := by
      unfold push
      split
      · exact List.Sublist.refl _
      · exact List.sublist_append_left _ _
    simpa using pushed.append_right ns

theorem play_none (steps : List StreamStep) :
    received (play (none : Option (StreamQueue c)) steps).1 = [] ∧
      (play (none : Option (StreamQueue c)) steps).2 = none := by
  induction steps with
  | nil => exact ⟨rfl, rfl⟩
  | cons step rest ih => cases step <;> exact ih

theorem received_in_order (steps : List StreamStep) :
    (received (play (some q) steps).1 ++ waiting (play (some q) steps).2).Sublist (q.items ++ offered q.kinds steps) := by
  induction steps generalizing q with
  | nil => simp [play, received, waiting, offered]
  | cons step rest ih =>
    cases step with
    | raise n =>
      obtain ⟨kinds, kept⟩ := q.foldl_push_kept (List.replicate (q.kinds.count n) n)
      have rest := ih (q.raise n)
      rw [show (q.raise n).kinds = q.kinds from kinds] at rest
      have all := rest.trans (kept.append_right (offered q.kinds _))
      rw [List.append_assoc] at all
      exact all
    | receive =>
      have rest : List.Sublist _ (q.items.tail ++ offered q.kinds _) := ih q.pop
      obtain ⟨kinds, items, bounded⟩ := q
      cases items with
      | nil => exact rest
      | cons n items => exact rest.cons_cons n
    | drop =>
      obtain ⟨nothing, gone⟩ := play_none (c := c) rest
      have none : received (play (some q) (.drop :: rest)).1 ++ waiting (play (some q) (.drop :: rest)).2 = [] := by
        simp only [play, perform, received, List.filterMap_cons] at nothing gone ⊢
        rw [nothing, gone]
        rfl
      rw [none]
      exact List.nil_sublist _

end StreamQueue

/-! ### Copies that find no room -/

namespace Inbox

/-- How many of the copies of a signal are not kept: what was there and what came in, less what is there then. -/
def overflow (b : Inbox) (n : Int) : Nat :=
  b.queue.length + b.kinds.count n - (b.deliver n).2.queue.length

theorem dropped_offer (n : Int) (copies : Nat) (b : Inbox) :
    (offer n copies b).1 + (offer n copies b).2.queue.length = b.queue.length + copies := by
  induction copies generalizing b with
  | zero => simp [offer]
  | succ copies ih =>
    have rest := ih (b.push n)
    cases full : b.isFull with
    | true =>
      simp only [offer, push, full, if_true] at rest ⊢
      omega
    | false =>
      simp only [offer, push, full, Bool.false_eq_true, if_false, List.length_append, List.length_singleton] at rest ⊢
      omega

theorem dropped_deliver (b : Inbox) (n : Int) : (b.deliver n).1 = b.overflow n := by
  have all := dropped_offer n (b.kinds.count n) b
  unfold overflow deliver
  omega

end Inbox

def SignalSettings.fault? (s : SignalSettings) (kinds : List Int) : Option SetupFault :=
  if streamLimit < s.capacity then some .capacityTooLarge else SetupFault.ofSignals? kinds

def SignalStep.kinds? (s : SignalSettings) : SignalStep → Option (List Int)
  | .listen p => some (s.kinds p)
  | .subscribe ns => some ns
  | _ => none

/-- What a step is to the stream with this index. -/
def SignalStep.own? (i : Nat) : SignalStep → Option StreamStep
  | .raise n => if n ∈ raisable then some (.raise n) else none
  | .arrive n => some (.raise n)
  | .receive j => if j = i then some .receive else none
  | .drop j => if j = i then some .drop else none
  | _ => none

namespace SignalSession

variable {s : SignalSession} {i : Nat} {c : Nat}

def live (s : SignalSession) : List Inbox :=
  s.streams.filterMap s.inbox?

/-- The events of a step: one for each copy of a raised signal that a stream has no room for. -/
def lost (s : SignalSession) : SignalStep → List Event
  | .raise n => if n ∈ raisable then .replicate (s.live.map (·.overflow n)).sum (.deliveryDropped n) else []
  | .arrive n => .replicate (s.live.map (·.overflow n)).sum (.deliveryDropped n)
  | _ => []

def answersOf (i : Nat) (steps : List SignalStep) (answers : List SignalAnswer) : List SignalAnswer :=
  (steps.zip answers).filterMap fun x => (x.1.own? i).map fun _ => x.2

/-- Every open channel is that of a stream. -/
def Owned (s : SignalSession) : Prop :=
  ∀ c b, s.inbox? c = some b → c ∈ s.streams

/-! ### The events of a raised signal -/

def refused (n : Int) (ls : List Listener) (s : SignalSession) (c : Nat) : Nat :=
  (s.inbox? c).elim 0 fun b => (Inbox.offer n (ls.countP (·.channel = c)) b).1

theorem trace_hear (n : Int) (s : SignalSession) (l : Listener) :
    (hear n s l).trace = s.trace ++ .replicate (refused n [l] s l.channel) (.deliveryDropped n) := by
  unfold hear refused
  cases s.inbox? l.channel with
  | none => simp
  | some b => cases full : b.isFull <;> simp [Inbox.offer, full, put]

theorem refused_cons (n : Int) (l : Listener) (ls : List Listener) (s : SignalSession) (c : Nat) :
    refused n (l :: ls) s c = refused n ls (hear n s l) c + if l.channel = c then refused n [l] s l.channel else 0 := by
  by_cases own : l.channel = c
  · subst own
    rw [refused, refused, refused, inbox?_hear, if_pos rfl, if_pos rfl]
    cases s.inbox? l.channel with
    | none => rfl
    | some b =>
      simp only [List.countP_cons, List.countP_nil, decide_true, if_true, Option.elim_some, Option.map_some, Inbox.offer]
      split <;> simp
  · rw [refused, refused, inbox?_hear, if_neg own, if_neg own]
    simp [own]

theorem Owned.hear (h : s.Owned) (n : Int) (l : Listener) : (hear n s l).Owned := by
  intro c b look
  rw [inbox?_hear] at look
  rw [(sameWiring_hear n s l).streams]
  split at look
  · obtain ⟨b, look, -⟩ := Option.map_eq_some_iff.mp look
    exact h c b look
  · exact h c b look

theorem sum_at (cs : List Nat) (f : Nat → Nat) (x k : Nat) :
    (cs.map fun c => f c + if x = c then k else 0).sum = (cs.map f).sum + cs.count x * k := by
  rw [List.sum_map_add, List.sum_map_ite]
  simp [eq_comm (a := x), List.filter_eq, List.map_replicate, -nsmul_eq_mul]

theorem trace_foldl_hear (n : Int) (ls : List Listener) (owned : s.Owned) (apart : s.streams.Nodup) :
    (ls.foldl (hear n) s).trace = s.trace ++ .replicate (s.streams.map (refused n ls s)).sum (.deliveryDropped n) := by
  induction ls generalizing s with
  | nil =>
    have none : refused n [] s = fun _ => 0 := by
      funext c
      cases look : s.inbox? c <;> simp [refused, look, Inbox.offer]
    simp [none]
  | cons l ls ih =>
    have streams : (hear n s l).streams = s.streams := (sameWiring_hear n s l).streams
    have once : s.streams.count l.channel * refused n [l] s l.channel = refused n [l] s l.channel := by
      cases look : s.inbox? l.channel with
      | none => simp [refused, look]
      | some b => rw [List.count_eq_one_of_mem apart (owned _ b look), Nat.one_mul]
    rw [List.foldl_cons, ih (owned.hear n l) (streams ▸ apart), trace_hear, streams, List.append_assoc,
      List.replicate_append_replicate, funext (refused_cons n l ls s), sum_at, once, Nat.add_comm]

theorem Tuned.trace_raise (h : s.Tuned) (owned : s.Owned) (n : Int) :
    (s.raise n).trace = s.trace ++ .replicate (s.live.map (·.overflow n)).sum (.deliveryDropped n) := by
  have each (c : Nat) : refused n (s.listeners.filter (·.signal = n)) s c =
      (s.inbox? c).elim 0 (·.overflow n) := by
    unfold refused
    cases look : s.inbox? c with
    | none => rfl
    | some b =>
      rw [Option.elim_some, Option.elim_some, ← Inbox.dropped_deliver, Inbox.deliver, h.countP_listeners look]
  have sum (cs : List Nat) : (cs.map fun c => (s.inbox? c).elim 0 (·.overflow n)).sum =
      ((cs.filterMap s.inbox?).map (·.overflow n)).sum := by
    induction cs with
    | nil => rfl
    | cons c cs ih => cases look : s.inbox? c <;> simp [look, ih]
  rw [SignalSession.raise, trace_foldl_hear n _ owned h.apart, funext each, sum]
  rfl

/-! ### What every step keeps -/

theorem perform_of_kinds? {step : SignalStep} {kinds : List Int} (listed : step.kinds? s.settings = some kinds) :
    s.perform step = s.addStream kinds := by
  cases step with
  | listen p =>
    cases listed
    rfl
  | subscribe ns =>
    cases listed
    rfl
  | _ => cases listed

/-- A step that asks for a stream adds an empty one, unless it fails: then it leaves a closed channel at most. -/
theorem addStream_cases (s : SignalSession) (kinds : List Int) :
    (∃ f s', s.settings.fault? kinds = some f ∧ s.addStream kinds = (.fault f, s') ∧ Leaves s s') ∨
      s.settings.fault? kinds = none ∧
        s.addStream kinds = (.index s.streams.length, s.added { kinds := kinds, capacity := s.settings.capacity }) := by
  have outcome : Inbox.subscribe s.settings kinds = (s.settings.fault? kinds).elim
      (.ok { kinds := kinds, capacity := s.settings.capacity }) .error := by
    rw [subscribe_eq, SignalSettings.fault?]
    split
    · rfl
    · cases SetupFault.ofSignals? kinds <;> rfl
  cases fault : s.settings.fault? kinds with
  | some f =>
    rw [fault] at outcome
    obtain ⟨s', fails, left⟩ := addStream_error outcome
    exact .inl ⟨f, s', rfl, fails, left⟩
  | none =>
    rw [fault] at outcome
    exact .inr ⟨rfl, addStream_ok outcome⟩

/-- The session is under these settings, and every open channel is that of a stream. -/
structure Sound (settings : SignalSettings) (s : SignalSession) : Prop where
  tuned : s.Tuned
  owned : s.Owned
  settings : s.settings = settings

variable {settings : SignalSettings}

theorem sound_initial (settings : SignalSettings) : Sound settings { settings := settings } where
  tuned := tuned_initial settings
  owned c b look := by simp [inbox?] at look
  settings := rfl

theorem Sound.addStream (h : s.Sound settings) (kinds : List Int) : (s.addStream kinds).2.Sound settings := by
  have tuned := h.tuned.addStream kinds
  rcases s.addStream_cases kinds with ⟨f, s', -, fails, rfl | ⟨heard, rfl⟩⟩ | ⟨-, done⟩
  · rw [fails]
    exact h
  · rw [fails] at tuned ⊢
    refine ⟨tuned, fun c b look => ?_, h.settings⟩
    rw [inbox?_opened] at look
    split at look
    · cases look
    · exact h.owned c b look
  · rw [done] at tuned ⊢
    refine ⟨tuned, fun c b look => ?_, h.settings⟩
    have look : (s.opened (some { kinds := kinds, capacity := s.settings.capacity }) kinds).inbox? c = some b := look
    rw [inbox?_opened] at look
    split at look
    · rename_i new
      exact List.mem_append_right _ (List.mem_singleton.mpr new)
    · exact List.mem_append_left _ (h.owned c b look)

theorem Sound.raise (h : s.Sound settings) (n : Int) : (s.raise n).Sound settings where
  tuned := h.tuned.raise n
  owned c b look := by
    rw [h.tuned.inbox?_raise] at look
    obtain ⟨b, look, -⟩ := Option.map_eq_some_iff.mp look
    rw [(s.sameWiring_raise n).streams]
    exact h.owned c b look
  settings := (s.sameWiring_raise n).settings.trans h.settings

theorem Owned.putStream (h : s.Owned) (tuned : s.Tuned) (i : Nat) (b : Option Inbox) : (s.putStream i b).Owned := by
  intro c b' look
  rw [(sameWiring_putStream s i b).streams]
  unfold SignalSession.putStream at look
  split at look
  · rename_i c' own
    rw [inbox?_put (tuned.known c' (List.mem_of_getElem? own))] at look
    split at look
    · rename_i same
      exact same ▸ List.mem_of_getElem? own
    · exact h c b' look
  · exact h c b' look

theorem trace_putStream (s : SignalSession) (i : Nat) (b : Option Inbox) : (s.putStream i b).trace = s.trace := by
  unfold putStream
  split <;> rfl

theorem Sound.byReader {step : SignalStep} (h : s.Sound settings) (reads : step = .receive i ∨ step = .drop i) :
    (s.perform step).2.Sound settings := by
  rcases s.reader_cases reads with ⟨b, b', look, kinds, done⟩ | done
  · rw [done]
    exact ⟨h.tuned.putStream look kinds, h.owned.putStream h.tuned i b',
      (sameWiring_putStream s i b').settings.trans h.settings⟩
  · rwa [done]

theorem Sound.perform (h : s.Sound settings) (step : SignalStep) : (s.perform step).2.Sound settings := by
  cases step with
  | listen p => exact h.addStream _
  | subscribe ns => exact h.addStream ns
  | raise n =>
    unfold SignalSession.perform
    dsimp only
    split
    · exact h.raise n
    · exact h
  | arrive n => exact h.raise n
  | receive i => exact h.byReader (.inl rfl)
  | drop i => exact h.byReader (.inr rfl)
  | unknown => exact h

theorem Sound.play (h : s.Sound settings) (steps : List SignalStep) : (s.play steps).2.Sound settings := by
  induction steps generalizing s with
  | nil => exact h
  | cons step rest ih => exact ih (h.perform step)

theorem trace_addStream (s : SignalSession) (kinds : List Int) : (s.addStream kinds).2.trace = s.trace := by
  rcases s.addStream_cases kinds with ⟨f, s', -, fails, rfl | ⟨heard, rfl⟩⟩ | ⟨-, done⟩
  · rw [fails]
  · rw [fails]
    rfl
  · rw [done]
    rfl

theorem trace_byReader (s : SignalSession) {step : SignalStep} (reads : step = .receive i ∨ step = .drop i) :
    (s.perform step).2.trace = s.trace := by
  rcases s.reader_cases reads with ⟨b, b', -, -, done⟩ | done
  · rw [done, trace_putStream]
  · rw [done]

theorem Sound.trace_perform (h : s.Sound settings) (step : SignalStep) :
    (s.perform step).2.trace = s.trace ++ s.lost step := by
  cases step with
  | listen p => exact (s.trace_addStream _).trans (List.append_nil _).symm
  | subscribe ns => exact (s.trace_addStream ns).trans (List.append_nil _).symm
  | raise n =>
    unfold SignalSession.perform lost
    dsimp only
    split
    · exact h.tuned.trace_raise h.owned n
    · exact (List.append_nil _).symm
  | arrive n => exact h.tuned.trace_raise h.owned n
  | receive i => exact (s.trace_byReader (.inl rfl)).trans (List.append_nil _).symm
  | drop i => exact (s.trace_byReader (.inr rfl)).trans (List.append_nil _).symm
  | unknown => exact (List.append_nil _).symm

/-! ### A stream among others -/

variable {q : Option (StreamQueue c)}

/-- The stream with this index is this queue. -/
structure Holds (s : SignalSession) (i : Nat) (q : Option (StreamQueue c)) : Prop where
  there : i < s.streams.length
  look : s.stream? i = q.map StreamQueue.inbox

theorem Holds.addStream (h : s.Holds i q) (tuned : s.Tuned) (kinds : List Int) : (s.addStream kinds).2.Holds i q := by
  rcases s.addStream_cases kinds with ⟨f, s', -, fails, left⟩ | ⟨-, done⟩
  · have agrees := left.agrees tuned
    rw [fails]
    exact ⟨agrees.streams ▸ h.there, (agrees.look i).symm.trans h.look⟩
  · rw [done]
    refine ⟨?_, ?_⟩
    · rw [SignalSession.added, List.length_append]
      exact Nat.lt_add_right _ h.there
    · rw [stream?_added tuned, if_neg (Nat.ne_of_lt h.there)]
      exact h.look

theorem Holds.raise (h : s.Holds i q) (tuned : s.Tuned) (n : Int) : (s.raise n).Holds i (q.map (·.raise n)) where
  there := (s.sameWiring_raise n).streams ▸ h.there
  look := by
    rw [stream?_raise tuned, h.look]
    cases q with
    | none => rfl
    | some q => exact congrArg some (q.inbox_raise n).symm

theorem Holds.putStream (h : s.Holds i q) (tuned : s.Tuned) (q' : Option (StreamQueue c)) :
    (s.putStream i (q'.map StreamQueue.inbox)).Holds i q' where
  there := (sameWiring_putStream s i _).streams ▸ h.there
  look := by rw [tuned.stream?_putStream _ h.there, if_pos rfl]

theorem Holds.byOther {j : Nat} {step : SignalStep} (h : s.Holds i q) (tuned : s.Tuned) (other : j ≠ i)
    (reads : step = .receive j ∨ step = .drop j) : (s.perform step).2.Holds i q := by
  rcases s.reader_cases reads with ⟨b, b', look, -, done⟩ | done
  · rw [done]
    refine ⟨(sameWiring_putStream s j b').streams ▸ h.there, ?_⟩
    rw [tuned.stream?_putStream b' (lt_of_stream? look), if_neg other, h.look]
  · rwa [done]

/-- What a step is to a stream by itself it is to it among others, and the other steps are nothing to it. -/
theorem Holds.perform (h : s.Holds i q) (tuned : s.Tuned) (step : SignalStep) :
    match step.own? i with
    | some own => (s.perform step).1 = (StreamQueue.perform q own).1 ∧
        (s.perform step).2.Holds i (StreamQueue.perform q own).2
    | none => (s.perform step).2.Holds i q := by
  have arrives (n : Int) : SignalAnswer.raised = (StreamQueue.perform q (.raise n)).1 ∧
      (s.raise n).Holds i (StreamQueue.perform q (.raise n)).2 := by
    have own : StreamQueue.perform q (.raise n) = (.raised, q.map (·.raise n)) := by cases q <;> rfl
    rw [own]
    exact ⟨rfl, h.raise tuned n⟩
  cases step with
  | listen p => exact h.addStream tuned _
  | subscribe ns => exact h.addStream tuned ns
  | unknown => exact h
  | arrive n => exact arrives n
  | raise n =>
    simp only [SignalStep.own?, SignalSession.perform]
    by_cases can : n ∈ raisable
    · rw [if_pos can, if_pos can]
      exact arrives n
    · rw [if_neg can, if_neg can]
      exact h
  | receive j =>
    by_cases own : j = i
    · subst own
      simp only [SignalStep.own?, if_true, SignalSession.perform, h.look]
      cases q with
      | none => exact ⟨rfl, h⟩
      | some q =>
        simp only [Option.map_some, q.receive_inbox]
        exact ⟨rfl, h.putStream tuned (some q.pop)⟩
    · simp only [SignalStep.own?, if_neg own]
      exact h.byOther tuned own (.inl rfl)
  | drop j =>
    by_cases own : j = i
    · subst own
      simp only [SignalStep.own?, if_true, SignalSession.perform, h.look]
      cases q with
      | none => exact ⟨rfl, h⟩
      | some q => exact ⟨rfl, h.putStream tuned none⟩
    · simp only [SignalStep.own?, if_neg own]
      exact h.byOther tuned own (.inr rfl)

theorem Holds.play (h : s.Holds i q) (tuned : s.Tuned) (steps : List SignalStep) :
    answersOf i steps (s.play steps).1 = (StreamQueue.play q (steps.filterMap (·.own? i))).1 ∧
      (s.play steps).2.Holds i (StreamQueue.play q (steps.filterMap (·.own? i))).2 := by
  induction steps generalizing s q with
  | nil => exact ⟨rfl, h⟩
  | cons step rest ih =>
    have stepped := h.perform tuned step
    rw [answersOf, SignalSession.play, List.zip_cons_cons, List.filterMap_cons, List.filterMap_cons]
    cases own : step.own? i with
    | none =>
      rw [own] at stepped
      exact ih stepped (tuned.perform step)
    | some own' =>
      rw [own] at stepped
      obtain ⟨answer, holds⟩ := stepped
      obtain ⟨answers, holds⟩ := ih holds (tuned.perform step)
      exact ⟨congrArg₂ List.cons answer answers, holds⟩

/-- A subscription gets a stream or the fault that its settings and its list have, and there is an event for each copy that
a stream has no room for, and no other. The answers of a stream are those of a queue of bounded length by itself, which is
empty when it is subscribed; so a reader gets what came in, but for what is lost, in the order in which it came, and
nothing where nothing is listed. -/
theorem streams_are_bounded_queues (settings : SignalSettings) (before : List SignalStep) :
    let s := (play { settings := settings } before).2
    (∀ step, (s.perform step).2.trace = s.trace ++ s.lost step) ∧
    ∀ step kinds, step.kinds? settings = some kinds →
      (s.perform step).1 = (match settings.fault? kinds with
        | some f => .fault f
        | none => .index s.streams.length) ∧
      ∀ i after, (s.perform step).1 = .index i →
        let played := (s.perform step).2.play after
        let steps := after.filterMap (·.own? i)
        let own := StreamQueue.play (some ({ kinds := kinds } : StreamQueue settings.capacity)) steps
        answersOf i after played.1 = own.1 ∧
        played.2.stream? i = own.2.map StreamQueue.inbox ∧
        (StreamQueue.received own.1 ++ StreamQueue.waiting own.2).Sublist (StreamQueue.offered kinds steps) ∧
        (kinds = [] → StreamQueue.received own.1 = []) := by
  intro s
  have sound : s.Sound settings := (sound_initial settings).play before
  refine ⟨sound.trace_perform, fun step kinds listed => ?_⟩
  rw [perform_of_kinds? (sound.settings ▸ listed)]
  rcases s.addStream_cases kinds with ⟨f, s', fault, fails, -⟩ | ⟨fine, done⟩
  · rw [sound.settings] at fault
    rw [fails, fault]
    exact ⟨rfl, fun i after added => by cases added⟩
  · rw [sound.settings] at fine done
    rw [done, fine]
    refine ⟨rfl, fun i after new => ?_⟩
    cases new
    intro played steps own
    have tuned := sound.tuned.added { kinds := kinds, capacity := settings.capacity }
    have fresh : Holds (s.added { kinds := kinds, capacity := settings.capacity }) s.streams.length
        (some ({ kinds := kinds } : StreamQueue settings.capacity)) :=
      ⟨by simp [SignalSession.added], by rw [stream?_added sound.tuned, if_pos rfl]; rfl⟩
    obtain ⟨answers, holds⟩ := fresh.play tuned after
    have kept := StreamQueue.received_in_order ({ kinds := kinds } : StreamQueue settings.capacity) steps
    refine ⟨answers, holds.look, kept, fun nothing => ?_⟩
    subst nothing
    rw [StreamQueue.offered_nil] at kept
    exact (List.append_eq_nil_iff.mp (List.sublist_nil.mp kept)).1

def crowdedSettings : SignalSettings :=
  { capacity := 2, capacity_pos := Nat.two_pos }

/-- A subscription that fails half-way, and a stream that is never read. -/
def crowdedBefore : List SignalStep :=
  [.subscribe [1, 9], .listen .restart, .raise 1]

def crowdedAfter : List SignalStep :=
  [.arrive 5, .raise 1, .subscribe [3, 9], .receive 1, .raise 9, .receive 1, .drop 0, .raise 1, .receive 1, .drop 1,
    .receive 1]

theorem streams_are_bounded_queues_crowded :
    let opened := (play { settings := crowdedSettings } crowdedBefore).2.perform (.subscribe [1, 5, 1])
    let filled := (play { settings := crowdedSettings } (crowdedBefore ++ [.subscribe [1, 5, 1], .arrive 1])).2
    opened.1 = .index 1 ∧
      answersOf 1 crowdedAfter (opened.2.play crowdedAfter).1 = [.raised, .raised, .received (some 5), .received (some 1),
        .raised, .received (some 1), .dropped, .gone] ∧
      (filled.perform (.raise 1)).2.trace = .replicate 3 (.deliveryDropped 1) := by
  obtain ⟨-, streams⟩ := streams_are_bounded_queues crowdedSettings crowdedBefore
  obtain ⟨answer, queue⟩ := streams (.subscribe [1, 5, 1]) [1, 5, 1] rfl
  have second := answer.trans rfl
  obtain ⟨answers, -⟩ := queue 1 crowdedAfter second
  obtain ⟨trace, -⟩ := streams_are_bounded_queues crowdedSettings (crowdedBefore ++ [.subscribe [1, 5, 1], .arrive 1])
  exact ⟨second, answers.trans rfl, (trace (.raise 1)).trans rfl⟩

end SignalSession

end Supervision
