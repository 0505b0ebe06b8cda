import Supervision.Proofs.OnePlacePerTask

/-! A run beside itself without its handle. As long as nobody uses the handle, two things may differ: whether the run
still listens for commands, and, if it was woken to find that nobody is left to send any, the place of the supervising
task among those that wait. Neither shows at the turns of the other tasks, as long as the supervising task gets ready
alone, or is in the same place. -/

namespace Supervision

/-- What a call does with the handle. Strictly, that the token is cancelled counts as well. -/
def Occurrence.stirs (strict : Bool) : Occurrence → Bool
  | .noted _ _ _ _ | .answered _ _ _ _ => true
  | .cancelled => strict
  | _ => false

def Stage.hearing (listening : Bool) : Stage → Stage
  | .running round => .running { round with listening := listening }
  | s => s

namespace Run

variable {strict : Bool} {k k' d : Run} {l : Bool} {p : List Task} {t : Task} {cur : Option Task} {e : Nat} {phase : Phase}

/-- How many handles were lent and how often one was used, and strictly, whether the token was cancelled. -/
def stirs (r : Run) (strict : Bool) : Nat :=
  r.lent + r.happened.countP (Occurrence.stirs strict)

/-- How often a handle was used: how many were lent, and what calls noted of it or sent by it. -/
def uses (r : Run) : Nat :=
  r.stirs false

def without (listening : Bool) (r : Run) : Run :=
  { r with handleHeld := false, stage := r.stage.hearing listening }

theorem stirs_mark (r : Run) {o : Occurrence} (h : o.stirs strict = false) :
    (r.mark o).stirs strict = r.stirs strict := by
  simp [stirs, mark, happened, h]

theorem stirs_mark_stir (r : Run) {o : Occurrence} (h : o.stirs strict = true) :
    (r.mark o).stirs strict = r.stirs strict + 1 := by
  simp [stirs, mark, happened, h, Nat.add_assoc]

theorem quiet_of_le {m n o : Nat} (first : m ≤ n) (rest : n ≤ o) (quiet : o = m) : n = m ∧ o = n := by
  omega

/-! ### What may be lacking -/

/-- How many commands and restart signals the supervising task may find at its next turn. -/
def mayWait (r : Run) : Nat :=
  r.commands.length +
    if r.stage.isSetUp && !r.settings.signals.restart.isEmpty then r.settings.signals.capacity else 0

def roundCost (s : Settings) : Nat :=
  1 + (if s.signals.shutdown.isEmpty then 1 else 0) + if s.signals.restart.isEmpty then 1 else 0

/-- The budget of a turn is enough for all that may wait, for the discovery that no handle is left, and for a last
round. -/
def Fits (r : Run) : Prop :=
  (r.mayWait + 1) * roundCost r.settings + (if r.settings.signals.shutdown.isEmpty then 1 else 0) < turnQuota

/-- Why the run would not notice, or has noticed already, that no handle is left: another handle is lent, the run is past
the point where it minds, it has not looked yet and is to look anew, or it has looked and no longer listens. -/
inductive Lack (k : Run) : Bool → Prop
  | lent (h : 0 < k.lent) : Lack k true
  | late {listening : Bool} (h : k.stage.isClosed = true) : Lack k listening
  | unaware (queued : ∀ round, k.stage = .running round → .supervise ∈ k.parked → .supervise ∈ k.deferred)
      (anew : k.goesOn = false) (fits : k.Fits) : Lack k true
  | aware {round : Round} (running : k.stage = .running round) (empty : k.commands = []) : Lack k false

/-- A task that waits, and is not at its turn. If it waits for the token, the token is not to be cancelled. -/
structure Bystander (strict : Bool) (cur : Option Task) (k : Run) (t : Task) : Prop where
  other : t ≠ .supervise
  unqueued : t ∉ k.ready
  absent : cur ≠ some t
  still : k.canGoOn t = false
  token : ∀ next, k.pause? t = some (.cancel next) → strict = true

/-- The supervising task waits where it is parked, and nothing has come for it. -/
structure Dormant (k : Run) : Prop where
  unqueued : .supervise ∉ k.ready
  undeferred : .supervise ∉ k.deferred
  unplaced : k.place = none
  still : k.canGoOn .supervise = false

/-- The order in which the tasks of the run without the handle wait: the same, or the supervising task has parked anew
behind some that wait patiently. -/
inductive Order (strict : Bool) (cur : Option Task) (k : Run) : List Task → Prop
  | same {p : List Task} (h : p = k.parked) : Order strict cur k p
  | behind {round : Round} {before passed after : List Task} (running : k.stage = .running round)
      (parked : k.parked = before ++ .supervise :: (passed ++ after)) (dormant : k.Dormant)
      (patient : ∀ t ∈ passed, Bystander strict cur k t) :
      Order strict cur k (before ++ (passed ++ .supervise :: after))

structure Bereft (strict : Bool) (cur : Option Task) (k : Run) (l : Bool) (p : List Task) : Prop where
  held : k.handleHeld = true
  attentive : ∀ round, k.stage = .running round → round.listening = true
  other : cur ≠ some .supervise
  lack : Lack k l
  order : Order strict cur k p

/-- The second run is the first without the handle. -/
def Twin (strict : Bool) (cur : Option Task) (k d : Run) : Prop :=
  ∃ l p, d = { k.without l with parked := p } ∧ Bereft strict cur k l p

theorem Order.mem_iff (h : Order strict cur k p) : t ∈ p ↔ t ∈ k.parked := by
  cases h with
  | same same => rw [same]
  | behind _ parked =>
    rw [parked]
    simp only [List.mem_append, List.mem_cons]
    tauto

theorem Order.filter_of_not {f : Task → Bool} (h : Order strict cur k p) (out : f .supervise = false) :
    p.filter f = k.parked.filter f := by
  cases h with
  | same same => rw [same]
  | behind _ parked => simp [parked, out]

theorem Bystander.mono {cur' : Option Task} (h : Bystander strict cur k t) (unqueued : t ∉ k'.ready)
    (absent : cur' ≠ some t) (still : k'.canGoOn t = false) (pauses : k'.pause? t = k.pause? t) :
    Bystander strict cur' k' t :=
  ⟨h.other, unqueued, absent, still, fun next => pauses ▸ h.token next⟩

/-- The order is kept among those who go on waiting, and before those who begin to, if whoever waits patiently still
does. -/
theorem Order.mono {cur' : Option Task} (h : Order strict cur k p) (stays : Task → Bool) (new : List Task)
    (stage : k'.stage = k.stage) (parked : k'.parked = k.parked.filter stays ++ new)
    (dormant : ∀ round, k.stage = .running round → k.Dormant → stays .supervise = true ∧ k'.Dormant)
    (patient : ∀ round, k.stage = .running round → ∀ t ∈ k.parked, Bystander strict cur k t → stays t = true →
      Bystander strict cur' k' t) : Order strict cur' k' (p.filter stays ++ new) := by
  cases h with
  | same same => exact .same (by rw [parked, same])
  | @behind round before passed after running waiting asleep patiently =>
    obtain ⟨remains, asleep'⟩ := dormant round running asleep
    have split : (before ++ (passed ++ Task.supervise :: after)).filter stays ++ new =
        before.filter stays ++ (passed.filter stays ++ .supervise :: (after.filter stays ++ new)) := by simp [remains]
    rw [split]
    refine .behind (stage.trans running) (by simp [parked, waiting, remains]) asleep' fun t mem => ?_
    obtain ⟨mem, remains⟩ := List.mem_filter.mp mem
    exact patient round running t (by simp [waiting, mem]) (patiently t mem) remains

theorem Order.filter {cur' : Option Task} (h : Order strict cur k p) (stays : Task → Bool) (stage : k'.stage = k.stage)
    (parked : k'.parked = k.parked.filter stays)
    (dormant : ∀ round, k.stage = .running round → k.Dormant → stays .supervise = true ∧ k'.Dormant)
    (patient : ∀ round, k.stage = .running round → ∀ t ∈ k.parked, Bystander strict cur k t → stays t = true →
      Bystander strict cur' k' t) : Order strict cur' k' (p.filter stays) := by
  have kept := h.mono stays [] stage (by rw [parked, List.append_nil]) dormant patient
  rwa [List.append_nil] at kept

theorem Order.append {cur' : Option Task} (h : Order strict cur k p) (new : List Task) (stage : k'.stage = k.stage)
    (parked : k'.parked = k.parked ++ new) (dormant : ∀ round, k.stage = .running round → k.Dormant → k'.Dormant)
    (patient : ∀ round, k.stage = .running round → ∀ t ∈ k.parked, Bystander strict cur k t → Bystander strict cur' k' t) :
    Order strict cur' k' (p ++ new) := by
  have kept := h.mono (fun _ => true) new stage (by rw [parked, List.filter_true])
    (fun round running asleep => ⟨rfl, dormant round running asleep⟩) fun round running t parked waits _ =>
      patient round running t parked waits
  rwa [List.filter_true] at kept

theorem Order.keep {cur' : Option Task} (h : Order strict cur k p) (stage : k'.stage = k.stage)
    (parked : k'.parked = k.parked) (dormant : ∀ round, k.stage = .running round → k.Dormant → k'.Dormant)
    (patient : ∀ round, k.stage = .running round → ∀ t ∈ k.parked, Bystander strict cur k t → Bystander strict cur' k' t) :
    Order strict cur' k' p := by
  have kept := h.append [] stage (by rw [parked, List.append_nil]) dormant patient
  rwa [List.append_nil] at kept

/-- The order differs only while the supervising task has no place besides. -/
theorem Order.eq_of_placed {n : Nat} (h : Order strict cur k p) (placed : k.place = some n) : p = k.parked := by
  cases h with
  | same same => exact same
  | behind _ _ dormant =>
    rw [dormant.unplaced] at placed
    cases placed

theorem Order.placeLeft (h : Order strict cur k p) : Run.placeLeft { k with parked := p } = k.placeLeft := by
  cases h with
  | same same => rw [same]
  | behind _ _ dormant =>
    simp only [Run.placeLeft, dormant.undeferred, false_and, if_false, placeAfter, dormant.unplaced, Option.map_none]

theorem Bereft.canGoOn (held : k.handleHeld = true) (attentive : ∀ round, k.stage = .running round → round.listening = true)
    (lack : Lack k l) (parked : t ∈ k.parked) : ({ k.without l with parked := p } : Run).canGoOn t = k.canGoOn t := by
  cases t with
  | supervise =>
    cases stage : k.stage with
    | running round =>
      have early : ({ k.without l with parked := p } : Run).isDueEarly .supervise = k.isDueEarly .supervise := by
        simp only [isDueEarly, without, stage, Stage.hearing]
        rfl
      by_cases deferred : Task.supervise ∈ k.deferred
      · rw [Run.canGoOn, Run.canGoOn, if_pos (by exact deferred), if_pos deferred, early]
      · rw [Run.canGoOn, Run.canGoOn, if_neg (by exact deferred), if_neg deferred]
        simp only [isDue, without, stage, Stage.hearing, isCalled, orphaned, held, attentive round stage]
        cases lack with
        | lent lent =>
          have some_lent : (k.lent == 0) = false := by simpa using Nat.ne_of_gt lent
          simp [some_lent]
        | late late =>
          rw [stage] at late
          cases late
        | unaware queued => exact absurd (queued round stage parked) deferred
        | aware _ empty => simp [empty]
    | leaving deadline =>
      obtain ⟨⟩ := k
      subst stage
      cases deadline <;> rfl
    | _ =>
      obtain ⟨⟩ := k
      subst stage
      rfl
  | _ => rfl

theorem isCalled_without {listening : Bool} (held : k.handleHeld = true) (called : k.isCalled listening = true) :
    (k.without l).isCalled listening = true := by
  have attached : k.orphaned = false := by rw [orphaned, held]; rfl
  simp only [isCalled, attached, Bool.or_false, Bool.or_eq_true, Bool.and_eq_true] at called ⊢
  exact called.imp_right (And.imp_right .inl)

theorem Bereft.goesOn (h : Bereft strict cur k l p) : (k.without l).goesOn = k.goesOn := by
  cases stage : k.stage with
  | running round =>
    have listening := h.attentive round stage
    cases h.lack with
    | lent lent =>
      have some_lent : (k.lent == 0) = false := by simpa using Nat.ne_of_gt lent
      simp [Run.goesOn, isCalled, without, Stage.hearing, stage, listening, orphaned, h.held, some_lent, Round.isUnderWay]
    | late late =>
      rw [stage] at late
      cases late
    | unaware _ anew =>
      rw [anew, goesOn_eq_false]
      intro round' running underWay
      rw [without, stage, Stage.hearing] at running
      cases running
      exact isCalled_without h.held (listening ▸ goesOn_eq_false.mp anew round stage underWay)
    | aware _ empty =>
      simp [Run.goesOn, isCalled, without, Stage.hearing, stage, listening, orphaned, h.held, empty, Round.isUnderWay]
  | _ => simp only [Run.goesOn, without, stage, Stage.hearing]

/-! ### Small changes -/

/-- What a change leaves as it is that is not about the clock, the token, releases, exits, calls and signals, and about no
other task than the one whose turn it is. -/
structure Frame (cur : Option Task) (k k' : Run) : Prop where
  settings : k'.settings = k.settings
  handleHeld : k'.handleHeld = k.handleHeld
  lent : k'.lent = k.lent
  stage : k'.stage = k.stage
  commands : k'.commands = k.commands
  ready : k'.ready = k.ready
  parked : k'.parked = k.parked
  place : k'.place = k.place
  deferred : ∀ t, cur ≠ some t → (t ∈ k'.deferred ↔ t ∈ k.deferred)
  pauses : ∀ t, cur ≠ some t → k'.pause? t = k.pause? t
  /-- What has come for the supervising task is not taken away. -/
  called : ∀ listening, k.isCalled listening = true → k'.isCalled listening = true

theorem frame_surroundings {now : Nat} {cancelled : Bool} {released : List Nat} {shutdown restart : Inbox}
    {budget : Option Nat} {failures : List Failure} {watches : List (Option (Nat × Cause))}
    {history : List Stamped} {trace : List Event}
    (called : ∀ listening, k.isCalled listening = true →
      isCalled { k with cancelled := cancelled, shutdownInbox := shutdown, restartInbox := restart } listening = true) :
    Frame cur k { k with
      now := now, cancelled := cancelled, released := released, shutdownInbox := shutdown, restartInbox := restart
      budget := budget, failures := failures, watches := watches, history := history, trace := trace } :=
  ⟨rfl, rfl, rfl, rfl, rfl, rfl, rfl, rfl, fun _ _ => .rfl, fun t _ => by cases t <;> rfl, called⟩

theorem Frame.anew (h : Frame cur k k') (anew : k.goesOn = false) : k'.goesOn = false := by
  rw [goesOn_eq_false, h.stage] at *
  exact fun round running underWay => h.called _ (anew round running underWay)

theorem Dormant.frame (h : k.Dormant) (frame : Frame cur k k') (other : cur ≠ some .supervise)
    (still : k'.canGoOn .supervise = false) : k'.Dormant :=
  ⟨frame.ready ▸ h.unqueued, fun mem => h.undeferred ((frame.deferred _ other).mp mem), frame.place.trans h.unplaced,
    still⟩

theorem Lack.frame (h : Lack k l) (frame : Frame cur k k') (other : cur ≠ some .supervise) : Lack k' l := by
  cases h with
  | lent lent => exact .lent (frame.lent ▸ lent)
  | late late => exact .late (frame.stage ▸ late)
  | unaware queued anew fits =>
    refine .unaware (fun round running parked => ?_) (frame.anew anew) ?_
    · rw [frame.parked] at parked
      exact (frame.deferred _ other).mpr (queued round (frame.stage ▸ running) parked)
    · simpa only [Fits, mayWait, frame.settings, frame.commands, frame.stage] using fits
  | aware running empty => exact .aware (frame.stage.trans running) (frame.commands.trans empty)

theorem Bystander.frame (h : Bystander strict cur k t) (frame : Frame cur k k') (still : k'.canGoOn t = false) :
    Bystander strict cur k' t :=
  h.mono (frame.ready ▸ h.unqueued) h.absent still (frame.pauses t h.absent)

/-- A change that lets no other task go on while the run waits for something to happen. -/
structure Unnoticed (cur : Option Task) (k k' : Run) : Prop extends Frame cur k k' where
  still : ∀ round, k.stage = .running round → ∀ t, cur ≠ some t → k.canGoOn t = false → k'.canGoOn t = false

theorem unnoticed_record {budget : Option Nat} {failures : List Failure} {watches : List (Option (Nat × Cause))}
    {history : List Stamped} {trace : List Event} :
    Unnoticed cur k { k with
      budget := budget, failures := failures, watches := watches, history := history, trace := trace } :=
  ⟨frame_surroundings fun _ => id, fun _ _ t _ still => by cases t <;> exact still⟩

theorem Bereft.edit (h : Bereft strict cur k l p) (change : Unnoticed cur k k') : Bereft strict cur k' l p where
  held := change.handleHeld.trans h.held
  attentive round running := h.attentive round (change.stage ▸ running)
  other := h.other
  lack := h.lack.frame change.toFrame h.other
  order := h.order.keep change.stage change.parked
    (fun _ running asleep => asleep.frame change.toFrame h.other (change.still _ running _ h.other asleep.still))
    fun _ running t _ old => old.frame change.toFrame (change.still _ running t old.absent old.still)

/-- A change that does not let the supervising task go on together with one that waits patiently. -/
structure Apart (strict : Bool) (cur : Option Task) (k k' : Run) : Prop extends Frame cur k k' where
  apart : ∀ round, k.stage = .running round → k.canGoOn .supervise = false →
    k'.canGoOn .supervise = false ∨ ∀ t, Bystander strict cur k t → k'.canGoOn t = false

theorem Lack.wake (h : Lack k l) : Lack k.wake l := by
  cases h with
  | lent lent => exact .lent lent
  | late late => exact .late late
  | unaware queued anew fits =>
    exact .unaware (fun round running parked => queued round running (List.mem_filter.mp parked).1) anew fits
  | aware running empty => exact .aware running empty

/-- The order in which tasks wait shows only if the supervising task gets ready together with one that it waits behind. -/
theorem Order.wake (h : Order strict cur k p) (change : Apart strict cur k k') (own : cur ≠ some .supervise) :
    p.filter k'.canGoOn = k'.parked.filter k'.canGoOn ∧ Order strict cur k'.wake (p.filter fun t => !k'.canGoOn t) := by
  have frame := change.toFrame
  cases stays : k'.canGoOn .supervise with
  | false =>
    have unqueued {t : Task} (still : k'.canGoOn t = false) (old : t ∉ k'.ready) : t ∉ k'.wake.ready := fun queued => by
      rcases List.mem_append.mp queued with mem | woken
      · exact old mem
      · simp [still] at woken
    refine ⟨frame.parked ▸ h.filter_of_not stays, h.filter _ frame.stage (by rw [← frame.parked]; rfl)
      (fun _ _ asleep => ?_) fun _ _ t _ old remains => ?_⟩
    · have asleep' := asleep.frame frame own stays
      exact ⟨by rw [stays]; rfl, unqueued stays asleep'.unqueued, asleep'.undeferred, unplaced_wake asleep'.unplaced,
        by rw [canGoOn_wake, stays]⟩
    · have still : k'.canGoOn t = false := by simpa using remains
      have old' := old.frame frame still
      exact old'.mono (unqueued still old'.unqueued) old'.absent (by rw [canGoOn_wake, still]) rfl
  | true =>
    cases h with
    | same same => exact ⟨by rw [same, frame.parked], .same (by rw [same, ← frame.parked]; rfl)⟩
    | @behind round before passed after running parked dormant patient =>
      -- the tasks that it waits behind stay where they are
      have others := (change.apart round running dormant.still).resolve_left (by simp [stays])
      have none : passed.filter k'.canGoOn = [] :=
        List.filter_eq_nil_iff.mpr fun t mem => by simp [others t (patient t mem)]
      have all : passed.filter (fun t => !k'.canGoOn t) = passed :=
        List.filter_eq_self.mpr fun t mem => by simp [others t (patient t mem)]
      refine ⟨by simp [frame.parked, parked, stays, none], .same ?_⟩
      simp [Run.wake, frame.parked, parked, stays, all]

/-- A change that wakes whoever can go on then. -/
theorem Bereft.rouse (h : Bereft strict cur k l p) (change : Apart strict cur k k') :
    ∃ p', wake { k'.without l with parked := p } = { k'.wake.without l with parked := p' } ∧
      Bereft strict cur k'.wake l p' := by
  have frame := change.toFrame
  have held := frame.handleHeld.trans h.held
  have attentive : ∀ round, k'.stage = .running round → round.listening = true :=
    fun round running => h.attentive round (frame.stage ▸ running)
  have lack := h.lack.frame frame h.other
  have same (t : Task) (mem : t ∈ p) : ({ k'.without l with parked := p } : Run).canGoOn t = k'.canGoOn t :=
    Bereft.canGoOn held attentive lack (by rw [frame.parked]; exact h.order.mem_iff.mp mem)
  obtain ⟨ready, order⟩ := h.order.wake change h.other
  refine ⟨p.filter fun t => !k'.canGoOn t, ?_, held, attentive, h.other, lack.wake, order⟩
  have place : ({ k'.without l with parked := p } : Run).placeAfter k'.canGoOn = k'.placeAfter k'.canGoOn := by
    cases placed : k'.place with
    | none => simp only [placeAfter, without, placed, Option.map_none]
    | some n => rw [h.order.eq_of_placed (frame.place ▸ placed), ← frame.parked]; rfl
  have goes : p.filter ({ k'.without l with parked := p } : Run).canGoOn = p.filter k'.canGoOn :=
    List.filter_congr same
  have stays : (p.filter fun t => !({ k'.without l with parked := p } : Run).canGoOn t) =
      p.filter fun t => !k'.canGoOn t := List.filter_congr fun t mem => by rw [same t mem]
  rw [wake, goes, stays, ready, placeAfter_congr same, place]
  rfl

theorem Twin.edit {d' : Run} (h : Twin strict cur k d) (change : Unnoticed cur k k')
    (same : ∀ l p, d = { k.without l with parked := p } → d' = { k'.without l with parked := p }) :
    Twin strict cur k' d' := by
  obtain ⟨l, p, rfl, bereft⟩ := h
  exact ⟨l, p, same l p rfl, bereft.edit change⟩

theorem Twin.rouse {x y : Run} (h : Twin strict cur k d) (change : Apart strict cur k x)
    (same : ∀ l p, d = { k.without l with parked := p } → y = { x.without l with parked := p }) :
    Twin strict cur x.wake y.wake := by
  obtain ⟨l, p, rfl, bereft⟩ := h
  obtain ⟨p', woken, after⟩ := bereft.rouse change
  rw [same l p rfl, woken]
  exact ⟨l, p', rfl, after⟩

/-- Both runs look alike to their calls, except for the handle. -/
structure Reads (k d : Run) : Prop where
  settings : d.settings = k.settings
  services : d.services = k.services
  quota : d.quota = k.quota
  budget : d.budget = k.budget
  readsFreely : d.readsFreely = k.readsFreely
  now : d.now = k.now
  cancelled : d.cancelled = k.cancelled
  released : d.released = k.released
  cause : d.cause = k.cause
  exit : d.exit = k.exit
  restarts : d.restarts = k.restarts
  members : d.members = k.members
  hears : d.stage.hearsSignals = k.stage.hearsSignals

theorem hearsSignals_hearing (l : Bool) (s : Stage) : (s.hearing l).hearsSignals = s.hearsSignals := by
  cases s <;> rfl

theorem Twin.reads (h : Twin strict cur k d) : Reads k d := by
  obtain ⟨l, p, rfl, -⟩ := h
  exact ⟨rfl, rfl, rfl, rfl, rfl, rfl, rfl, rfl, rfl, rfl, rfl, rfl, hearsSignals_hearing l k.stage⟩

namespace Reads

theorem isSpent (h : Reads k d) : d.isSpent = k.isSpent := by
  rw [Run.isSpent, Run.isSpent, h.budget]

theorem isReleased (h : Reads k d) (e : Nat) : d.isReleased (d.serviceOf e) = k.isReleased (k.serviceOf e) := by
  rw [Run.isReleased, Run.isReleased, h.released, serviceOf_of_settings h.settings]

theorem nameOf (h : Reads k d) (e : Nat) : d.nameOf e = k.nameOf e := by
  rw [Run.nameOf, Run.nameOf, h.settings]

theorem service (h : Reads k d) (e : Nat) : d.service e = k.service e := by
  rw [Run.service, Run.service, h.services, serviceOf_of_settings h.settings]

theorem member (h : Reads k d) (e : Nat) : d.member e = k.member e :=
  member_of_members h.members e

theorem lets (h : Reads k d) (e : Nat) (p : Pause) : d.lets (d.serviceOf e) p = k.lets (k.serviceOf e) p := by
  cases p <;> simp only [Run.lets, h.now, h.isReleased, h.cancelled, h.cause]

end Reads

/-! ### What a call does on its way -/

theorem Twin.spend (h : Twin strict cur k d) : Twin strict cur k.spend d.spend :=
  h.edit unnoticed_record (by rintro l p rfl; rfl)

theorem Twin.mark (h : Twin strict cur k d) (o : Occurrence) : Twin strict cur (k.mark o) (d.mark o) :=
  h.edit unnoticed_record (by rintro l p rfl; rfl)

theorem Twin.log (h : Twin strict cur k d) (event : Event) : Twin strict cur (k.log event) (d.log event) :=
  h.edit unnoticed_record (by rintro l p rfl; rfl)

theorem Twin.report (h : Twin strict cur k d) (e : Nat) (phase : Phase) (o : Outcome) :
    Twin strict cur (k.report e phase o) (d.report e phase o) :=
  h.edit unnoticed_record (by rintro l p rfl; rfl)

theorem Twin.defer (h : Twin strict (some t) k d) : Twin strict (some t) (k.defer t) (d.defer t) := by
  have others (t' : Task) (other : some t ≠ some t') : t' ∈ (k.defer t).deferred ↔ t' ∈ k.deferred := by
    have ne : t' ≠ t := fun same => other (congrArg some same.symm)
    simp [Run.defer, ne]
  refine h.edit ⟨⟨rfl, rfl, rfl, rfl, rfl, rfl, rfl, rfl, others, fun t' _ => by cases t' <;> rfl, fun _ => id⟩, ?_⟩
    (by rintro l p rfl; rfl)
  exact fun _ _ t' other still => canGoOn_mono still (others t' other) (by cases t' <;> exact id) (by cases t' <;> exact id)

theorem Twin.deferIfSpent (h : Twin strict (some t) k d) : Twin strict (some t) (k.deferIfSpent t) (d.deferIfSpent t) := by
  have spent : d.isSpent = k.isSpent := by
    obtain ⟨l, p, rfl, -⟩ := h
    rfl
  unfold Run.deferIfSpent
  rw [spent]
  split
  · exact h.defer
  · exact h

structure SameCall (t : Task) (k k' : Run) : Prop where
  start : ∀ e, t = .start e → (k'.member e).start = (k.member e).start
  restarting : ∀ e, t = .restart e → (k'.member e).restarting = (k.member e).restarting
  stop : ∀ e, t = .stop e → (k'.member e).stop = (k.member e).stop

theorem SameCall.pause? (h : SameCall t k k') : k'.pause? t = k.pause? t := by
  cases t with
  | start e => simp only [Run.pause?, h.start e rfl]
  | restart e => simp only [Run.pause?, h.restarting e rfl]
  | stop e => simp only [Run.pause?, h.stop e rfl]
  | supervise | watch | signal => rfl

/-- What a task other than the supervising one waits for is told by its call, the cause and the firings. -/
theorem SameCall.isDue (h : SameCall t k k') (other : t ≠ .supervise) (settings : k'.settings = k.settings)
    (cause : k'.cause = k.cause) (news : ∀ e, t = .restart e → k'.restarts.hasNews e = k.restarts.hasNews e)
    (lets : ∀ service p, k.pause? t = some p → k'.lets service p = k.lets service p) : k'.isDue t = k.isDue t := by
  cases t with
  | supervise => exact absurd rfl other
  | start e =>
    simp only [Run.isDue, h.start e rfl, serviceOf_of_settings settings]
    cases call : (k.member e).start with
    | ongoing p => exact lets _ p (by simp [Run.pause?, call, CallState.pause?])
    | _ => rfl
  | restart e =>
    simp only [Run.isDue, h.restarting e rfl, serviceOf_of_settings settings, news e rfl]
    cases call : (k.member e).restarting with
    | some p => exact lets _ p (by simp [Run.pause?, call])
    | none => rfl
  | stop e =>
    simp only [Run.isDue, h.stop e rfl, serviceOf_of_settings settings, cause]
    cases call : (k.member e).stop with
    | ongoing p => exact lets _ p (by simp [Run.pause?, call, CallState.pause?])
    | _ => rfl
  | watch => simp only [Run.isDue, cause]
  | signal => rfl

theorem isDueEarly_of_other (other : t ≠ .supervise) (r : Run) : r.isDueEarly t = false := by
  cases t with
  | supervise => exact absurd rfl other
  | _ => rfl

theorem canGoOn_supervise {round : Round} (running : k.stage = .running round) (stage : k'.stage = k.stage)
    (deferred : Task.supervise ∈ k'.deferred ↔ .supervise ∈ k.deferred) (cancelled : k'.cancelled = k.cancelled)
    (exit : k'.exit = k.exit) (called : k'.isCalled round.listening = k.isCalled round.listening) :
    k'.canGoOn .supervise = k.canGoOn .supervise := by
  simp only [Run.canGoOn, Run.isDue, isDueEarly, deferred, stage, running, cancelled, exit, called]

theorem Bystander.still_cancelled (h : Bystander false cur k t) :
    Run.canGoOn { k.mark .cancelled with cancelled := true } t = false := by
  have due : Run.isDue { k.mark .cancelled with cancelled := true } t = k.isDue t := by
    have same : SameCall t k { k.mark .cancelled with cancelled := true } :=
      ⟨fun _ _ => rfl, fun _ _ => rfl, fun _ _ => rfl⟩
    refine same.isDue h.other rfl rfl (fun _ _ => rfl) fun service p pause => ?_
    cases p with
    | cancel next => exact absurd (h.token next pause) Bool.false_ne_true
    | _ => rfl
  refine canGoOn_mono h.still Iff.rfl (fun going => due ▸ going) (fun early => ?_)
  rw [isDueEarly_of_other h.other] at early
  cases early

theorem Twin.cancel (h : Twin strict cur k d) (quiet : k.cancel.stirs strict = k.stirs strict) :
    Twin strict cur k.cancel d.cancel := by
  cases strict with
  | false =>
    exact h.rouse (x := { k.mark .cancelled with cancelled := true })
      ⟨frame_surroundings fun _ _ => by simp [isCalled], fun _ _ _ => .inr fun _ patient => patient.still_cancelled⟩
      (by rintro l p rfl; rfl)
  | true =>
    have more : k.cancel.stirs true = k.stirs true + 1 := k.stirs_mark_stir rfl
    omega

theorem Twin.release (h : Twin strict cur k d) (service : Nat) :
    Twin strict cur (k.release service) (d.release service) := by
  refine h.rouse (x := { k.mark (.released service) with released := service :: k.released })
    ⟨frame_surroundings fun _ => id, ?_⟩ (by rintro l p rfl; rfl)
  intro round running still
  exact .inl ((canGoOn_supervise running rfl .rfl rfl rfl rfl).trans still)

/-! ### Calls -/

theorem member_update_or (r : Run) (e : Nat) (f : Member → Member) (e' : Nat) :
    (r.update e f).member e' = r.member e' ∨ e' = e ∧ (r.update e f).member e' = f (r.member e') := by
  by_cases own : e' = e
  · subst own
    by_cases there : e' < r.members.length
    · exact .inr ⟨rfl, member_modify rfl there⟩
    · left
      rw [member_of_le (Nat.not_lt.mp there), member_of_le (by simpa [update] using there)]
  · exact .inl (member_modify_ne rfl own)

def Owns (t : Task) (e : Nat) (f : Member → Member) : Prop :=
  ∀ m, (t ≠ .start e → (f m).start = m.start) ∧ (t ≠ .restart e → (f m).restarting = m.restarting) ∧
    (t ≠ .stop e → (f m).stop = m.stop)

theorem Owns.sameCall {f : Member → Member} (h : Owns t e f) (r : Run) {t' : Task} (other : t ≠ t') :
    SameCall t' r (r.update e f) := by
  refine ⟨fun e' task => ?_, fun e' task => ?_, fun e' task => ?_⟩ <;>
    rcases r.member_update_or e f e' with same | ⟨rfl, changed⟩
  · rw [same]
  · rw [changed, (h _).1 (task ▸ other)]
  · rw [same]
  · rw [changed, (h _).2.1 (task ▸ other)]
  · rw [same]
  · rw [changed, (h _).2.2 (task ▸ other)]

theorem Owns.canGoOn {f : Member → Member} (h : Owns t e f) (r : Run) {t' : Task} (other : t ≠ t')
    (supervises : t' ≠ .supervise) : (r.update e f).canGoOn t' = r.canGoOn t' := by
  have due : (r.update e f).isDue t' = r.isDue t' :=
    (h.sameCall r other).isDue supervises rfl rfl (fun _ _ => rfl) fun _ p _ => by cases p <;> rfl
  simp only [Run.canGoOn, due, isDueEarly_of_other supervises]
  rfl

theorem Twin.update {f : Member → Member} (h : Twin strict (some t) k d) (owns : Owns t e f) :
    Twin strict (some t) (k.update e f) (d.update e f) := by
  have calls (t' : Task) (other : some t ≠ some t') : SameCall t' k (k.update e f) :=
    owns.sameCall k fun same => other (congrArg some same)
  refine h.edit ⟨⟨rfl, rfl, rfl, rfl, rfl, rfl, rfl, rfl, fun _ _ => .rfl, fun t' other => (calls t' other).pause?,
    fun _ => id⟩, ?_⟩ (by rintro l p rfl; rfl)
  intro round running t' other still
  by_cases supervises : t' = .supervise
  · subst supervises
    have same : (k.update e f).canGoOn .supervise = k.canGoOn .supervise :=
      canGoOn_supervise running rfl .rfl rfl rfl rfl
    exact same.trans still
  · exact (owns.canGoOn k (fun same => other (congrArg some same)) supervises).trans still

/-- What comes of one and the same call in both runs. -/
def SamePath (strict : Bool) (t : Task) (x y : Progress × Run) : Prop :=
  y.1 = x.1 ∧ Twin strict (some t) x.2 y.2

theorem Aside.stirs_le {os : List Occurrence} (h : Aside t os k k') : k.stirs strict ≤ k'.stirs strict := by
  have lent : k.lent ≤ k'.lent := by
    cases h with
    | effect h => cases h <;> exact Nat.le_refl _
    | lend => exact Nat.le_succ _
    | _ => exact Nat.le_refl _
  rw [stirs, stirs, happened_of_history h.history, List.countP_append]
  omega

theorem Asides.stirs_le (h : Asides t k k') : k.stirs strict ≤ k'.stirs strict := by
  induction h with
  | refl => exact Nat.le_refl _
  | tail _ aside ih =>
    obtain ⟨os, aside⟩ := aside
    exact Nat.le_trans ih aside.stirs_le

theorem stirs_le_follow (e : Nat) (phase : Phase) (b : Behaviour) (r : Run) :
    r.stirs strict ≤ (follow e phase b r).2.stirs strict :=
  (proceeds_follow e phase b r).1.stirs_le

theorem stirs_deferIfSpent (r : Run) (t : Task) : (r.deferIfSpent t).stirs strict = r.stirs strict := by
  unfold deferIfSpent
  split <;> rfl

theorem stirs_le_cancel (r : Run) : r.stirs strict ≤ r.cancel.stirs strict := by
  show r.stirs strict ≤ (r.mark .cancelled).stirs strict
  simp [stirs, mark, happened]

theorem stirs_release (r : Run) (service : Nat) : (r.release service).stirs strict = r.stirs strict :=
  r.stirs_mark rfl

theorem stirs_send (r : Run) (c : Command) : (r.send c).2.stirs strict = r.stirs strict := by
  unfold send
  split
  · rfl
  · split
    · rfl
    · exact r.stirs_mark rfl

theorem SamePath.ite {c : Prop} [Decidable c] {x x' y y' : Progress × Run} {n : Nat}
    (quiet : (if c then x else x').2.stirs strict = n) (yes : c → x.2.stirs strict = n → SamePath strict t x y)
    (no : ¬c → x'.2.stirs strict = n → SamePath strict t x' y') :
    SamePath strict t (if c then x else x') (if c then y else y') := by
  split
  · rename_i holds
    rw [if_pos holds] at quiet
    exact yes holds quiet
  · rename_i fails
    rw [if_neg fails] at quiet
    exact no fails quiet

/-- A wait that is over at once if `c` is so, and else pauses the call. -/
theorem Twin.wait {c : Prop} [Decidable c] {x y : Progress × Run} {n : Nat} {k' d' : Run} (p : Pause)
    (paused : Twin strict (some t) k' d') (quiet : (if c then x else (.paused p, k')).2.stirs strict = n)
    (atOnce : x.2.stirs strict = n → SamePath strict t x y) :
    SamePath strict t (if c then x else (.paused p, k')) (if c then y else (.paused p, d')) :=
  .ite quiet (fun _ => atOnce) fun _ _ => ⟨rfl, paused⟩

/-- A call that uses the handle is not quiet. -/
theorem stirs_lt_follow {o : Occurrence} (e : Nat) (phase : Phase) (b : Behaviour) (r : Run) (h : o.stirs strict = true) :
    r.stirs strict < (follow e phase b (r.mark o)).2.stirs strict := by
  have more : (r.mark o).stirs strict ≤ _ := stirs_le_follow e phase b (r.mark o)
  rw [stirs_mark_stir r h] at more
  exact more

theorem Twin.follow (b : Behaviour) (h : Twin strict (some (.ofCall e phase)) k d)
    (quiet : (follow e phase b k).2.stirs strict = k.stirs strict) :
    SamePath strict (.ofCall e phase) (follow e phase b k) (follow e phase b d) := by
  induction b generalizing k d with
  | done | fail | panic | never => exact ⟨rfl, h⟩
  | sleep ms next ih =>
    simp only [Run.follow, h.reads.isSpent, h.reads.now] at quiet ⊢
    exact h.deferIfSpent.wait _ quiet (ih h.spend)
  | awaitRelease next ih =>
    simp only [Run.follow, h.reads.isReleased] at quiet ⊢
    exact h.wait _ quiet (ih h)
  | awaitCancel next ih =>
    simp only [Run.follow, h.reads.cancelled] at quiet ⊢
    exact h.wait _ quiet (ih h)
  | awaitReleaseFor ms next ih =>
    simp only [Run.follow, h.reads.isReleased, h.reads.isSpent, h.reads.now] at quiet ⊢
    exact .ite quiet (fun _ _ => ⟨rfl, h⟩) fun _ quiet => h.deferIfSpent.wait _ quiet (ih h.spend)
  | awaitCause next ih =>
    -- to wait for the cause a call is lent a handle, which is not quiet
    obtain ⟨l, p, -, bereft⟩ := h
    simp only [Run.follow, bereft.held, if_true, stirs_deferIfSpent] at quiet
    simp [stirs, happened] at quiet
  | release service next ih =>
    have same : service.getD (d.serviceOf e) = service.getD (k.serviceOf e) := by
      rw [serviceOf_of_settings h.reads.settings]
    simp only [Run.follow, same] at quiet ⊢
    exact ih (h.release _) (quiet.trans (k.stirs_release _).symm)
  | cancel next ih =>
    obtain ⟨first, rest⟩ := quiet_of_le k.stirs_le_cancel (stirs_le_follow e phase next k.cancel) quiet
    exact ih (h.cancel first) rest
  | command c next ih =>
    let answered : Occurrence := .answered e phase c (k.send c).1
    have more : (k.send c).2.stirs strict < (Run.follow e phase next ((k.send c).2.mark answered)).2.stirs strict :=
      stirs_lt_follow e phase next (k.send c).2 rfl
    rw [stirs_send] at more
    exact absurd quiet (Nat.ne_of_gt more)
  | note next ih =>
    exact absurd quiet (Nat.ne_of_gt (stirs_lt_follow e phase next k rfl))
  | ifCancelled yes no ihYes ihNo =>
    simp only [Run.follow, h.reads.cancelled] at quiet ⊢
    exact .ite quiet (fun _ => ihYes h) fun _ => ihNo h

theorem Twin.begin (e : Nat) (phase : Phase) (b : Behaviour) (h : Twin strict (some (.ofCall e phase)) k d)
    (quiet : (k.begin e phase b).2.stirs strict = k.stirs strict) :
    SamePath strict (.ofCall e phase) (k.begin e phase b) (d.begin e phase b) :=
  (h.mark (.began e phase)).follow b (quiet.trans (k.stirs_mark rfl).symm)

theorem Twin.resume (e : Nat) (phase : Phase) (p : Pause) (h : Twin strict (some (.ofCall e phase)) k d)
    (quiet : (k.resume e phase p).2.stirs strict = k.stirs strict) :
    SamePath strict (.ofCall e phase) (k.resume e phase p) (d.resume e phase p) := by
  simp only [Run.resume, h.reads.lets, h.reads.isReleased, h.reads.cause, h.reads.now] at quiet ⊢
  refine h.wait p quiet fun quiet => ?_
  cases p with
  | never => exact ⟨rfl, h⟩
  | «until» time next => exact h.spend.follow next quiet
  | release next | cancel next => exact h.follow next quiet
  | releaseUntil time next => exact .ite quiet (fun _ _ => ⟨rfl, h⟩) fun _ => h.spend.follow next
  | cause next =>
    dsimp only
    split
    · exact ⟨rfl, h.spend.deferIfSpent⟩
    · exact ⟨rfl, h⟩
  | noting time c next =>
    exact (h.spend.mark _).follow next (quiet.trans (k.spend.stirs_mark rfl).symm)

theorem stirs_le_resume (r : Run) (e : Nat) (phase : Phase) (p : Pause) :
    r.stirs strict ≤ (r.resume e phase p).2.stirs strict := by
  unfold Run.resume
  split
  · cases p with
    | never => exact Nat.le_refl _
    | «until» time next => exact stirs_le_follow e phase next r.spend
    | release next | cancel next => exact stirs_le_follow e phase next r
    | releaseUntil time next =>
      dsimp only
      split
      · exact Nat.le_refl _
      · exact stirs_le_follow e phase next r.spend
    | cause next =>
      dsimp only
      split
      · exact Nat.le_of_eq (r.spend.stirs_deferIfSpent _).symm
      · exact Nat.le_refl _
    | noting time c next =>
      refine Nat.le_trans (Nat.le_of_eq ?_) (stirs_le_follow e phase next _)
      exact (r.spend.stirs_mark rfl).symm
  · exact Nat.le_refl _

theorem stirs_le_begin (r : Run) (e : Nat) (phase : Phase) (b : Behaviour) :
    r.stirs strict ≤ (r.begin e phase b).2.stirs strict :=
  Nat.le_trans (Nat.le_of_eq (r.stirs_mark rfl).symm) (stirs_le_follow e phase b (r.mark (.began e phase)))

/-! ### Turns that make calls -/

theorem owns_start (e : Nat) (call : CallState) : Owns (.start e) e fun m => { m with start := call } :=
  fun _ => ⟨fun other => absurd rfl other, fun _ => rfl, fun _ => rfl⟩

theorem owns_stop (e : Nat) (call : CallState) : Owns (.stop e) e fun m => { m with stop := call } :=
  fun _ => ⟨fun _ => rfl, fun _ => rfl, fun other => absurd rfl other⟩

theorem owns_restarting (e : Nat) (p : Option Pause) : Owns (.restart e) e fun m => { m with restarting := p } :=
  fun _ => ⟨fun _ => rfl, fun other => absurd rfl other, fun _ => rfl⟩

theorem Twin.reportEnd (h : Twin strict cur k d) (e : Nat) (phase : Phase) (o o' : Outcome) :
    Twin strict cur ((k.markEnd e phase o).report e phase o') ((d.markEnd e phase o).report e phase o') := by
  have marked := (h.mark (.ended e phase o d.cancelled)).report e phase o'
  rw [markEnd, markEnd, ← h.reads.cancelled]
  exact marked

theorem canGoOn_exit (r : Run) (exit : Latch String) (trace : List Event) (other : t ≠ .supervise) :
    ({ r with exit := exit, trace := trace } : Run).canGoOn t = r.canGoOn t := by
  cases t with
  | supervise => exact absurd rfl other
  | _ => rfl

def exited (r : Run) (e : Nat) : Run :=
  let alone := !(r.cause.isFired || r.cancelled || r.exit.isFired)
  { r.update e fun m => { m with start := .ended } with
    exit := if alone then r.exit.fire (r.nameOf e) else r.exit
    trace := r.trace ++ if alone then [.exitedAlone (r.nameOf e)] else [] }

theorem isCalled_exited (e : Nat) (listening : Bool) (called : k.isCalled listening = true) :
    (k.exited e).isCalled listening = true := by
  have fired (left : k.exit.isFired = true) : (k.exited e).exit.isFired = true := by simp [exited, left]
  simp only [isCalled, Bool.or_eq_true] at called ⊢
  exact called.imp_left (Or.imp_left (Or.imp_left (Or.imp_right fired)))

theorem Twin.endStart (h : Twin strict (some (.start e)) k d) (o : Outcome) :
    Twin strict (some (.start e)) (k.endStart e o) (d.endStart e o) := by
  have owns := owns_start e .ended
  have others (r : Run) (t : Task) (other : some (Task.start e) ≠ some t) : (r.exited e).pause? t = r.pause? t :=
    (owns.sameCall r fun same => other (congrArg some same)).pause?
  refine (h.reportEnd e .start o o).rouse (x := ((k.markEnd e .start o).report e .start o).exited e)
    ⟨⟨rfl, rfl, rfl, rfl, rfl, rfl, rfl, rfl, fun _ _ => .rfl, others _, isCalled_exited e⟩,
      fun _ _ _ => .inr fun t patient => ?_⟩
    (y := ((d.markEnd e .start o).report e .start o).exited e) (by rintro l p same; rw [same]; rfl)
  have same := owns.canGoOn ((k.markEnd e .start o).report e .start o) (fun same => patient.absent (congrArg some same))
    patient.other
  exact (canGoOn_exit _ _ _ patient.other).trans (same.trans patient.still)

theorem Twin.keepStart {x y : Progress × Run} (h : SamePath strict (.start e) x y) :
    Twin strict (some (.start e)) (Run.keepStart e x) (Run.keepStart e y) := by
  obtain ⟨progress, k⟩ := x
  obtain ⟨progress', d⟩ := y
  obtain ⟨same, twin⟩ := h
  have same : progress' = progress := same
  subst same
  cases progress' with
  | paused p => exact Twin.update twin (owns_start e (.ongoing p))
  | ended o => exact Twin.endStart twin o

theorem stirs_endStart (r : Run) (e : Nat) (o : Outcome) : (r.endStart e o).stirs strict = r.stirs strict :=
  r.stirs_mark rfl

theorem stirs_keepStart (e : Nat) (x : Progress × Run) : (Run.keepStart e x).stirs strict = x.2.stirs strict := by
  obtain ⟨progress, r⟩ := x
  cases progress with
  | paused => rfl
  | ended o => exact r.stirs_endStart e o

/-- A turn is quiet in all its parts if it is quiet as a whole. -/
theorem Twin.startTurn (h : Twin strict (some (.start e)) k d) (quiet : (k.startTurn e).stirs strict = k.stirs strict) :
    Twin strict (some (.start e)) (k.startTurn e) (d.startTurn e) := by
  simp only [Run.startTurn, h.reads.member] at quiet ⊢
  cases call : (k.member e).start with
  | unbegun =>
    simp only [call, stirs_keepStart] at quiet ⊢
    have opened := (h.log (.starting (k.nameOf e))).update (owns_start e (.ongoing .never))
    refine Twin.keepStart ?_
    rw [Run.beginStart, Run.beginStart, h.reads.nameOf, opened.reads.service]
    exact Twin.begin e .start _ opened quiet
  | ongoing p =>
    simp only [call, stirs_keepStart] at quiet ⊢
    exact Twin.keepStart (Twin.resume e .start p h quiet)
  | ended => exact h

def stopped (r : Run) (e : Nat) (abandoned : Bool) : Run :=
  { r.update e fun m => { m with stop := .ended } with
    trace := r.trace ++ if abandoned then [.stopAbandoned (r.nameOf e)] else [] }

/-- As long as a run waits for something to happen, its supervising task does not wait for stop calls. -/
theorem Twin.endStop (h : Twin strict (some (.stop e)) k d) (o : Outcome) :
    Twin strict (some (.stop e)) (k.endStop e o) (d.endStop e o) := by
  have owns := owns_stop e .ended
  have others (r : Run) (t : Task) (other : some (Task.stop e) ≠ some t) :
      (r.update e fun m => { m with stop := .ended }).pause? t = r.pause? t :=
    (owns.sameCall r fun same => other (congrArg some same)).pause?
  have abandons : d.isAbandoned o = k.isAbandoned o := by
    cases o <;> simp only [isAbandoned, h.reads.cancelled]
  let o' : Outcome := if k.isAbandoned o then .done else o
  rw [Run.endStop, Run.endStop, abandons]
  refine (h.reportEnd e .stop o o').rouse (x := ((k.markEnd e .stop o).report e .stop o').stopped e (k.isAbandoned o))
    ⟨⟨rfl, rfl, rfl, rfl, rfl, rfl, rfl, rfl, fun _ _ => .rfl, others _, fun _ => id⟩,
      fun round running still => .inl ?_⟩
    (y := ((d.markEnd e .stop o).report e .stop o').stopped e (k.isAbandoned o)) (by rintro l p same; rw [same]; rfl)
  have same : (((k.markEnd e .stop o).report e .stop o').stopped e (k.isAbandoned o)).canGoOn .supervise =
      ((k.markEnd e .stop o).report e .stop o').canGoOn .supervise := canGoOn_supervise running rfl .rfl rfl rfl rfl
  exact same.trans still

theorem Twin.keepStop {x y : Progress × Run} (h : SamePath strict (.stop e) x y) :
    Twin strict (some (.stop e)) (Run.keepStop e x) (Run.keepStop e y) := by
  obtain ⟨progress, k⟩ := x
  obtain ⟨progress', d⟩ := y
  obtain ⟨same, twin⟩ := h
  have same : progress' = progress := same
  subst same
  cases progress' with
  | paused p => exact Twin.update twin (owns_stop e (.ongoing p))
  | ended o => exact Twin.endStop twin o

theorem stirs_keepStop (e : Nat) (x : Progress × Run) : (Run.keepStop e x).stirs strict = x.2.stirs strict := by
  obtain ⟨progress, r⟩ := x
  cases progress with
  | paused => rfl
  | ended o => exact r.stirs_mark rfl

theorem Twin.stopTurn (h : Twin strict (some (.stop e)) k d) (quiet : (k.stopTurn e).stirs strict = k.stirs strict) :
    Twin strict (some (.stop e)) (k.stopTurn e) (d.stopTurn e) := by
  simp only [Run.stopTurn, h.reads.member, h.reads.cause] at quiet ⊢
  cases call : (k.member e).stop with
  | unbegun =>
    simp only [call] at quiet ⊢
    split at quiet
    · rename_i fired
      simp only [if_pos fired, stirs_keepStop] at quiet ⊢
      have waited : Twin strict (some (.stop e)) (if (k.member e).stopAwaited then k.spend else k)
          (if (k.member e).stopAwaited then d.spend else d) := by
        split
        · exact h.spend
        · exact h
      have same : (if (k.member e).stopAwaited then k.spend else k).stirs strict = k.stirs strict := by split <;> rfl
      have opened := (waited.log (.stopping (Run.nameOf (if (k.member e).stopAwaited then k.spend else k) e))).update
        (owns_stop e (.ongoing .never))
      refine Twin.keepStop ?_
      simp only [Run.beginStop, h.reads.member] at quiet ⊢
      rw [waited.reads.nameOf, opened.reads.service]
      exact Twin.begin e .stop _ opened (quiet.trans same.symm)
    · rename_i unfired
      simp only [if_neg unfired]
      exact h.update fun _ => ⟨fun _ => rfl, fun _ => rfl, fun _ => rfl⟩
  | ongoing p =>
    simp only [call, stirs_keepStop] at quiet ⊢
    exact Twin.keepStop (Twin.resume e .stop p h quiet)
  | ended => exact h

theorem Twin.endRestart (h : Twin strict (some (.restart e)) k d) (o : Outcome) :
    Twin strict (some (.restart e)) (k.endRestart e o) (d.endRestart e o) :=
  (h.reportEnd e .restart o o).update (owns_restarting e none)

theorem Twin.beginRestart (h : Twin strict (some (.restart e)) k d)
    (quiet : (k.beginRestart e).2.stirs strict = k.stirs strict) :
    SamePath strict (.restart e) (k.beginRestart e) (d.beginRestart e) := by
  have opened := (h.log (.restarting (k.nameOf e))).update (e := e) (f := fun m =>
    { m with owed := m.owed - 1, restarts := m.restarts + 1, restarting := some .never }) fun _ =>
      ⟨fun _ => rfl, fun other => absurd rfl other, fun _ => rfl⟩
  have counted : d.total (d.serviceOf e) Member.restarts = k.total (k.serviceOf e) Member.restarts := by
    rw [total, total, serviceOf_of_settings h.reads.settings, h.reads.settings, h.reads.members]
  rw [Run.beginRestart, Run.beginRestart, h.reads.nameOf, h.reads.service, counted]
  exact Twin.begin e .restart _ opened quiet

theorem Twin.takeFirings {n : Nat} {b : Broadcast} (h : Twin strict (some (.restart e)) k d)
    (told : k.restarts.next e = (.firings n, b)) :
    Twin strict (some (.restart e)) (k.takeFirings e n b) (d.takeFirings e n b) := by
  have owns : Owns (.restart e) e fun m => { m with owed := n } := fun _ => ⟨fun _ => rfl, fun _ => rfl, fun _ => rfl⟩
  have calls (t : Task) (other : Task.restart e ≠ t) : SameCall t k (k.takeFirings e n b) :=
    ⟨(owns.sameCall k other).start, (owns.sameCall k other).restarting, (owns.sameCall k other).stop⟩
  refine h.edit ⟨⟨rfl, rfl, rfl, rfl, rfl, rfl, rfl, rfl, fun _ _ => .rfl, fun t other =>
    (calls t fun same => other (congrArg some same)).pause?, fun _ => id⟩, fun round running t other still => ?_⟩
    (by rintro l p rfl; rfl)
  by_cases supervises : t = .supervise
  · subst supervises
    have same : (k.takeFirings e n b).canGoOn .supervise = k.canGoOn .supervise :=
      canGoOn_supervise running rfl .rfl rfl rfl rfl
    exact same.trans still
  · have ne : Task.restart e ≠ t := fun same => other (congrArg some same)
    have due : (k.takeFirings e n b).isDue t = k.isDue t := by
      refine (calls t ne).isDue supervises rfl rfl (fun e' task => ?_) fun _ p _ => by cases p <;> rfl
      exact Broadcast.hasNews_next told fun same => ne (task ▸ congrArg Task.restart same.symm)
    refine canGoOn_mono still Iff.rfl (fun going => due ▸ going) (fun early => ?_)
    rw [isDueEarly_of_other supervises] at early
    cases early

theorem stirs_le_beginRestart (r : Run) (e : Nat) : r.stirs strict ≤ (r.beginRestart e).2.stirs strict :=
  stirs_le_begin ((r.log (.restarting (r.nameOf e))).update e fun m =>
    { m with owed := m.owed - 1, restarts := m.restarts + 1, restarting := some .never }) e .restart
    ((r.service e).restart (r.total (r.serviceOf e) Member.restarts))

theorem stirs_le_restartLoop (e fuel : Nat) (r : Run) : r.stirs strict ≤ (restartLoop e fuel r).stirs strict := by
  induction fuel generalizing r with
  | zero => exact Nat.le_refl _
  | succ fuel ih =>
    rw [restartLoop]
    split
    · split
      · exact Nat.le_refl _
      · split
        · rename_i n b told
          have same : (r.spendReading.takeFirings e n b).stirs strict = r.stirs strict := by
            unfold Run.spendReading
            split <;> rfl
          exact same ▸ ih _
        · exact Nat.le_refl _
        · exact Nat.le_refl _
    · have begun : r.stirs strict ≤ (r.beginRestart e).2.stirs strict := stirs_le_beginRestart r e
      generalize r.beginRestart e = x at begun
      obtain ⟨progress, r₁⟩ := x
      cases progress with
      | paused => exact begun
      | ended o =>
        have same : (r₁.endRestart e o).stirs strict = r₁.stirs strict := r₁.stirs_mark rfl
        exact Nat.le_trans (same ▸ begun) (ih _)

theorem Twin.keepRestart (next : Run → Run) {n : Nat} {x y : Progress × Run} (first : n ≤ x.2.stirs strict)
    (path : x.2.stirs strict = n → SamePath strict (.restart e) x y)
    (grows : ∀ r : Run, r.stirs strict ≤ (next r).stirs strict)
    (goes : ∀ {k d : Run}, Twin strict (some (.restart e)) k d → (next k).stirs strict = k.stirs strict →
      Twin strict (some (.restart e)) (next k) (next d))
    (quiet : (Run.keepRestart e next x).stirs strict = n) :
    Twin strict (some (.restart e)) (Run.keepRestart e next x) (Run.keepRestart e next y) := by
  obtain ⟨progress, k⟩ := x
  obtain ⟨progress', d⟩ := y
  cases progress with
  | paused p =>
    obtain ⟨same, twin⟩ := path quiet
    have same : progress' = .paused p := same
    subst same
    exact Twin.update twin (owns_restarting e (some p))
  | ended o =>
    have ended : (k.endRestart e o).stirs strict = k.stirs strict := k.stirs_mark rfl
    obtain ⟨quiet₁, quiet₂⟩ := quiet_of_le first (ended ▸ grows (k.endRestart e o)) quiet
    obtain ⟨same, twin⟩ := path quiet₁
    have same : progress' = .ended o := same
    subst same
    exact goes (Twin.endRestart twin o) (quiet₂.trans ended.symm)

theorem Twin.spendReading (h : Twin strict cur k d) : Twin strict cur k.spendReading d.spendReading := by
  rw [Run.spendReading, Run.spendReading, h.reads.readsFreely]
  split
  · exact h
  · exact h.spend

theorem restarts_spendReading (r : Run) : r.spendReading.restarts = r.restarts := by
  unfold Run.spendReading
  split <;> rfl

theorem stirs_spendReading (r : Run) : r.spendReading.stirs strict = r.stirs strict := by
  unfold Run.spendReading
  split <;> rfl

theorem Twin.restartLoop (fuel : Nat) (h : Twin strict (some (.restart e)) k d)
    (quiet : (restartLoop e fuel k).stirs strict = k.stirs strict) :
    Twin strict (some (.restart e)) (restartLoop e fuel k) (restartLoop e fuel d) := by
  induction fuel generalizing k d with
  | zero => exact h
  | succ fuel ih =>
    have cannot : d.cannotRead = k.cannotRead := by
      rw [cannotRead, cannotRead, h.reads.readsFreely, h.reads.isSpent]
    simp only [Run.restartLoop, h.reads.member, h.reads.restarts, cannot] at quiet ⊢
    split at quiet
    · rename_i none
      simp only [if_pos none]
      split at quiet
      · rename_i spent
        simp only [if_pos spent]
        exact h.defer
      · rename_i reads
        simp only [if_neg reads]
        split at quiet
        · rename_i n b told
          have told' : k.spendReading.restarts.next e = (.firings n, b) := k.restarts_spendReading ▸ told
          exact ih (h.spendReading.takeFirings told') (quiet.trans k.stirs_spendReading.symm)
        · exact h.update fun _ => ⟨fun _ => rfl, fun _ => rfl, fun _ => rfl⟩
        · exact h
    · rename_i owes
      simp only [if_neg owes]
      exact Twin.keepRestart _ (stirs_le_beginRestart k e) h.beginRestart (stirs_le_restartLoop e fuel) ih quiet

theorem Twin.restartAll (h : Twin strict (some (.restart e)) k d) (quiet : (k.restartAll e).stirs strict = k.stirs strict) :
    Twin strict (some (.restart e)) (k.restartAll e) (d.restartAll e) := by
  have steps : d.restartSteps e = k.restartSteps e := by
    rw [restartSteps, restartSteps, h.reads.restarts, h.reads.member]
  rw [Run.restartAll, Run.restartAll, steps]
  exact h.restartLoop _ quiet

theorem Twin.restartTurn (h : Twin strict (some (.restart e)) k d)
    (quiet : (k.restartTurn e).stirs strict = k.stirs strict) :
    Twin strict (some (.restart e)) (k.restartTurn e) (d.restartTurn e) := by
  simp only [Run.restartTurn, h.reads.member] at quiet ⊢
  cases call : (k.member e).restarting with
  | none =>
    simp only [call] at quiet ⊢
    exact h.restartAll quiet
  | some p =>
    simp only [call] at quiet ⊢
    exact Twin.keepRestart (·.restartAll e) (k.stirs_le_resume e .restart p) (h.resume e .restart p)
      (fun r => stirs_le_restartLoop e _ r) Twin.restartAll quiet

/-! ### Watchers and signals -/

theorem Twin.watchTurn {w : Nat} (h : Twin strict cur k d) : Twin strict cur (k.watchTurn w) (d.watchTurn w) := by
  simp only [Run.watchTurn, h.reads.cause]
  split
  · exact h.edit unnoticed_record (by rintro l p rfl; rfl)
  · exact h

theorem isCalled_delivered (n : Int) {listening : Bool} (called : k.isCalled listening = true) :
    isCalled { k with
      shutdownInbox := (k.shutdownInbox.deliver n).2
      restartInbox := (k.restartInbox.deliver n).2 } listening = true := by
  have stays {b : Inbox} (waits : (!b.queue.isEmpty) = true) : (!(b.deliver n).2.queue.isEmpty) = true := by
    have some : b.queue ≠ [] := by simpa using waits
    simpa using Inbox.queue_deliver_ne_nil (n := n) (.inl some)
  simp only [isCalled, Bool.or_eq_true] at called ⊢
  exact called.imp_left (Or.imp (Or.imp_right stays) stays)

theorem Twin.signalTurn {n : Int} (h : Twin strict cur k d) : Twin strict cur (k.signalTurn n) (d.signalTurn n) := by
  simp only [Run.signalTurn, h.reads.hears]
  split
  · refine h.rouse (x := { k.mark (.raised n) with
      shutdownInbox := (k.shutdownInbox.deliver n).2
      restartInbox := (k.restartInbox.deliver n).2
      trace := k.trace ++
        List.replicate ((k.shutdownInbox.deliver n).1 + (k.restartInbox.deliver n).1) (.deliveryDropped n) })
      ⟨frame_surroundings fun _ => isCalled_delivered n, fun _ _ _ => .inr fun t patient => ?_⟩ (by rintro l p rfl; rfl)
    have other := patient.other
    rw [← patient.still]
    cases t with
    | supervise => exact absurd rfl other
    | _ => rfl
  · exact h.mark _

/-- At the turn of any task but the supervising one, both runs go the same way as long as nobody uses a handle. -/
theorem Twin.act (h : Twin strict (some t) k d) (quiet : (k.act t).stirs strict = k.stirs strict) :
    Twin strict (some t) (k.act t) (d.act t) := by
  cases t with
  | supervise =>
    obtain ⟨l, p, same, bereft⟩ := h
    exact absurd rfl bereft.other
  | start e => exact h.startTurn quiet
  | restart e => exact h.restartTurn quiet
  | stop e => exact h.stopTurn quiet
  | watch w => exact h.watchTurn
  | signal n => exact h.signalTurn

end Run

end Supervision
