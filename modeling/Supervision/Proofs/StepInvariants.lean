import Supervision.Proofs.Queue

/-! What the acts do to one entry and to the stage of the run, with the rest of the run left out. Most invariants look at
one of the two only, and have to be checked against these few steps. -/

namespace Supervision

def Occurrence.entry? : Occurrence → Option Nat
  | .began e _ | .ended e _ _ _ => some e
  | _ => none

def Occurrence.isMilestone : Occurrence → Bool
  | .setUp | .shutDown _ | .returned => true
  | _ => false

/-- What the three tasks of entry `e` do to its member. -/
inductive Member.Step (e : Nat) : Task → List Occurrence → Member → Member → Prop
  | beginStart {m : Member} (h : m.start = .unbegun) :
      Step e (.start e) [.began e .start] m { m with start := .ongoing .never }
  | pauseStart {m : Member} {p : Pause} (h : m.start = .ongoing p) (p' : Pause) :
      Step e (.start e) [] m { m with start := .ongoing p' }
  | endStart {m : Member} {p : Pause} (h : m.start = .ongoing p) (o : Outcome) (cancelled : Bool) :
      Step e (.start e) [.ended e .start o cancelled] m { m with start := .ended }
  | takeFirings {m : Member} (idle : m.restarting = none) (n : Nat) : Step e (.restart e) [] m { m with owed := n }
  | retire {m : Member} (idle : m.restarting = none) : Step e (.restart e) [] m { m with retired := true }
  | beginRestart {m : Member} (idle : m.restarting = none) (h : m.owed ≠ 0) :
      Step e (.restart e) [.began e .restart] m
        { m with owed := m.owed - 1, restarts := m.restarts + 1, restarting := some .never }
  | pauseRestart {m : Member} {p : Pause} (h : m.restarting = some p) (p' : Pause) :
      Step e (.restart e) [] m { m with restarting := some p' }
  | endRestart {m : Member} {p : Pause} (h : m.restarting = some p) (o : Outcome) (cancelled : Bool) :
      Step e (.restart e) [.ended e .restart o cancelled] m { m with restarting := none }
  | awaitStop {m : Member} (h : m.stop = .unbegun) : Step e (.stop e) [] m { m with stopAwaited := true }
  | beginStop {m : Member} (h : m.stop = .unbegun) :
      Step e (.stop e) [.began e .stop] m { m with stop := .ongoing .never }
  | pauseStop {m : Member} {p : Pause} (h : m.stop = .ongoing p) (p' : Pause) :
      Step e (.stop e) [] m { m with stop := .ongoing p' }
  | endStop {m : Member} {p : Pause} (h : m.stop = .ongoing p) (o : Outcome) (cancelled : Bool) :
      Step e (.stop e) [.ended e .stop o cancelled] m { m with stop := .ended }

theorem Member.Step.task {e : Nat} {t : Task} {os : List Occurrence} {m m' : Member} (h : Member.Step e t os m m') :
    ∃ phase, t = .ofCall e phase := by
  cases h with
  | beginStart | pauseStart | endStart => exact ⟨.start, rfl⟩
  | takeFirings | retire | beginRestart | pauseRestart | endRestart => exact ⟨.restart, rfl⟩
  | awaitStop | beginStop | pauseStop | endStop => exact ⟨.stop, rfl⟩

inductive Stage.Step : List Occurrence → Stage → Stage → Prop
  | stay {os : List Occurrence} (s : Stage) (h : ∀ o ∈ os, o.isMilestone = false) : Step os s s
  | fail (f : SetupFault) (time : Nat) : Step [.returned] .spawned (.returned (.fault f) time)
  | equip : Step [.setUp] .spawned (.running {})
  | pass (round round' : Round) : Step [] (.running round) (.running round')
  | shutDown {os : List Occurrence} (h : ∀ o ∈ os, o.isMilestone = false) (round : Round) (c : Cause) :
      Step (os ++ [.shutDown c]) (.running round) .stopping
  | leave (deadline : Option Nat) : Step [] .stopping (.leaving deadline)
  | finish (deadline : Option Nat) (fs : List Failure) (time : Nat) :
      Step [.returned] (.leaving deadline) (.returned (Verdict.ofFailures fs) time)

namespace Run

variable {settings : Settings} {services : List Service} {r r' : Run} {t : Task} {cur : Option Task} {e e' : Nat}
  {os : List Occurrence}

theorem isMilestone_of_isAside {o : Occurrence} (h : o.isAside = true) : o.isMilestone = false := by
  cases o <;> simp_all [Occurrence.isAside, Occurrence.isNote, Occurrence.isMilestone]

theorem entry?_of_isAside {o : Occurrence} (h : o.isAside = true) : o.entry? = none := by
  cases o <;> simp_all [Occurrence.isAside, Occurrence.isNote, Occurrence.entry?]

/-! ### One entry -/

/-- Entry `e` as an act finds it and leaves it: either the act has nothing to do with it, or it is a step of its
member. -/
def Steps (e : Nat) (t : Task) (os : List Occurrence) (r r' : Run) : Prop :=
  r'.member e = r.member e ∧ (∀ o ∈ os, o.entry? ≠ some e) ∨ Member.Step e t os (r.member e) (r'.member e)

theorem steps_of_members (h : r'.members = r.members) (free : ∀ o ∈ os, o.entry? = none) (e : Nat) :
    Steps e t os r r' :=
  .inl ⟨member_of_members h e, fun o ho => by simp [free o ho]⟩

theorem steps_of_modify {f : Member → Member} (h : r'.members = r.members.modify e f) (he : e < r.members.length)
    (own : ∀ o ∈ os, o.entry? = some e) (step : Member.Step e t os (r.member e) (f (r.member e))) (e' : Nat) :
    Steps e' t os r r' := by
  by_cases same : e' = e
  · subst same
    right
    rwa [member_modify h he]
  · refine .inl ⟨member_modify_ne h same, fun o ho => ?_⟩
    simpa [own o ho] using Ne.symm same

theorem steps_of_modify_nil {f : Member → Member} (h : r'.members = r.members.modify e f)
    (step : Member.Step e t [] (r.member e) (f (r.member e))) (e' : Nat) : Steps e' t [] r r' := by
  by_cases he : e < r.members.length
  · exact steps_of_modify h he (by simp) step e'
  · refine steps_of_members ?_ (by simp) e'
    rw [h, List.modify_eq_self (Nat.not_lt.mp he)]

theorem Act.touches (h : Act t os r r') :
    (r'.members = r.members ∧ ∀ o ∈ os, o.entry? = none) ∨
      ∃ e f, r'.members = r.members.modify e f ∧ Member.Step e t os (r.member e) (f (r.member e)) ∧
        (os = [] ∨ e < r.members.length ∧ ∀ o ∈ os, o.entry? = some e) := by
  cases h with
  | aside h => exact .inl ⟨h.spares.members, fun o ho => entry?_of_isAside (h.isAside o ho)⟩
  | @beginStart _ e h =>
    exact .inr ⟨e, _, rfl, .beginStart h, .inr ⟨lt_of_start_ne_ended (by simp [h]), by simp [Occurrence.entry?]⟩⟩
  | @pauseStart _ e _ _ h => exact .inr ⟨e, _, rfl, .pauseStart h _, .inl rfl⟩
  | @endStart _ e _ h o =>
    exact .inr ⟨e, _, r.members_endStart e o, .endStart h o _,
      .inr ⟨lt_of_start_ne_ended (by simp [h]), by simp [Occurrence.entry?]⟩⟩
  | @takeFirings _ e n b idle => exact .inr ⟨e, _, r.members_takeFirings e n b, .takeFirings idle n, .inl rfl⟩
  | @retire _ e _ idle => exact .inr ⟨e, _, rfl, .retire idle, .inl rfl⟩
  | @beginRestart _ e idle h =>
    exact .inr ⟨e, _, rfl, .beginRestart idle h, .inr ⟨lt_of_owed h, by simp [Occurrence.entry?]⟩⟩
  | @pauseRestart _ e _ _ h => exact .inr ⟨e, _, rfl, .pauseRestart h _, .inl rfl⟩
  | @endRestart _ e _ h o =>
    exact .inr ⟨e, _, r.members_endRestart e o, .endRestart h o _,
      .inr ⟨lt_of_restarting (by simp [h]), by simp [Occurrence.entry?]⟩⟩
  | @awaitStop _ e h => exact .inr ⟨e, _, rfl, .awaitStop h, .inl rfl⟩
  | @beginStop _ e h =>
    exact .inr ⟨e, _, rfl, .beginStop h, .inr ⟨lt_of_stop_ne_ended (by simp [h]), by simp [Occurrence.entry?]⟩⟩
  | @pauseStop _ e _ _ h => exact .inr ⟨e, _, rfl, .pauseStop h _, .inl rfl⟩
  | @endStop _ e _ h o =>
    exact .inr ⟨e, _, r.members_endStop e o, .endStop h o _,
      .inr ⟨lt_of_stop_ne_ended (by simp [h]), by simp [Occurrence.entry?]⟩⟩
  | deliver | fail | equip | receive | obey | finish | expire =>
    refine .inl ⟨?_, by simp [Occurrence.entry?]⟩
    simp only [Run.deliver, Run.fail, Run.equip, Run.finish, giveVerdict, mark, log, spawn, wake]
  | shutDown _ reason =>
    refine .inl ⟨?_, ?_⟩
    · cases reason <;> simp only [announce, mark, log, wake]
    · cases reason <;> simp [Occurrence.entry?]
  | learn | pass | stopListening | leave | miss => exact .inl ⟨rfl, by simp [Occurrence.entry?]⟩

theorem Act.steps (h : Act t os r r') (e : Nat) : Steps e t os r r' := by
  rcases h.touches with ⟨same, free⟩ | ⟨e', f, modified, step, rfl | ⟨there, own⟩⟩
  · exact steps_of_members same free e
  · exact steps_of_modify_nil modified step e
  · exact steps_of_modify modified there own step e

theorem Act.members_length (h : Act t os r r') : r'.members.length = r.members.length := by
  rcases h.touches with ⟨same, -⟩ | ⟨e, f, modified, -⟩
  · rw [same]
  · rw [modified, List.length_modify]

/-! ### The stage -/

/-- What becomes of the stage of a run at an act, and on what grounds. Whatever depends on how far a run has got follows
from this, without a look at what the act does besides. -/
inductive Advance (r r' : Run) : List Occurrence → Prop
  | stay {os : List Occurrence} (same : r'.stage = r.stage) (quiet : ∀ o ∈ os, o.isMilestone = false) : Advance r r' os
  | fail (f : SetupFault) (spawned : r.stage = .spawned) (lacks : acquire r.settings = .error f)
      (h : r'.stage = .returned (.fault f) r.now) : Advance r r' [.returned]
  | equip (spawned : r.stage = .spawned) (h : r'.stage = .running {}) : Advance r r' [.setUp]
  | pass (round round' : Round) (running : r.stage = .running round) (h : r'.stage = .running round')
      (listens : round'.listening = round.listening ∨ r.orphaned = true ∧ r'.commands = []) : Advance r r' []
  | shutDown {os : List Occurrence} (quiet : ∀ o ∈ os, o.isMilestone = false) (round : Round) (c : Cause)
      (running : r.stage = .running round) (h : r'.stage = .stopping) : Advance r r' (os ++ [.shutDown c])
  | leave (stopping : r.stage = .stopping) (stopped : r.allStopped = true) (h : r'.stage = .leaving r.graceEnd?) :
      Advance r r' []
  | finish (deadline : Option Nat) (leaving : r.stage = .leaving deadline)
      (finished : r.allExited = true ∨ r.allExited = false ∧ ∃ d, deadline = some d ∧ d ≤ r.now)
      (h : r'.stage = .returned (Verdict.ofFailures r.failures) r.now) : Advance r r' [.returned]

theorem Act.advance (h : Act t os r r') : Advance r r' os := by
  cases h with
  | aside h => exact .stay h.spares.stage fun o ho => isMilestone_of_isAside (h.isAside o ho)
  | endStart | endRestart | endStop | takeFirings | deliver | receive | obey =>
    refine .stay ?_ (by simp [Occurrence.isMilestone])
    simp only [Run.endStart, Run.endRestart, Run.endStop, Run.takeFirings, Run.deliver, update, report, markEnd, mark, wake]
  | fail spawned lacks => exact .fail _ spawned lacks rfl
  | equip spawned => exact .equip spawned rfl
  | pass running round' same => exact .pass _ _ running rfl (.inl same)
  | stopListening running empty orphaned => exact .pass _ _ running rfl (.inr ⟨orphaned, empty⟩)
  | shutDown running reason =>
    exact .shutDown (by cases reason <;> simp [Occurrence.isMilestone]) _ _ running (stage_announce _ _)
  | leave stopping stopped => exact .leave stopping stopped rfl
  | finish leaving exited =>
    refine .finish _ leaving (.inl exited) ?_
    simp only [Run.finish, giveVerdict, log, wake, mark]
  | expire leaving left due =>
    refine .finish _ leaving (.inr ⟨left, _, rfl, due⟩) ?_
    simp only [Run.finish, giveVerdict, log, wake, mark]
  | _ => exact .stay rfl (by simp [Occurrence.isMilestone])

theorem Act.stage_step (h : Act t os r r') : Stage.Step os r.stage r'.stage := by
  cases h.advance with
  | stay same quiet =>
    rw [same]
    exact .stay _ quiet
  | fail f spawned _ returned =>
    rw [spawned, returned]
    exact .fail f _
  | equip spawned running =>
    rw [spawned, running]
    exact .equip
  | pass round round' running running' =>
    rw [running, running']
    exact .pass _ _
  | shutDown quiet round c running stopping =>
    rw [running, stopping]
    exact .shutDown quiet _ _
  | leave stopping _ leaving =>
    rw [stopping, leaving]
    exact .leave _
  | finish deadline leaving _ returned =>
    rw [leaving, returned]
    exact .finish _ _ _

/-! ### Between the turns -/

theorem Outside.isAside (h : Outside os r r') : ∀ o ∈ os, o.isAside = true := by
  cases h with
  | effect h => exact (Aside.effect (t := .supervise) h).isAside
  | _ => simp

theorem Outside.stage_eq (h : Outside os r r') : r'.stage = r.stage ∨ r.stage = .idle ∧ r'.stage = .spawned := by
  cases h with
  | effect h => exact .inl h.spares.stage
  | run idle => exact .inr ⟨idle, rfl⟩
  | _ => exact .inl rfl

theorem Outside.stage_congr {α : Type} {f : Stage → α} (h : Outside os r r') (first : f .spawned = f .idle) :
    f r'.stage = f r.stage := by
  rcases h.stage_eq with same | ⟨idle, spawned⟩
  · rw [same]
  · rw [idle, spawned, first]

theorem Outside.stage_of {s : Stage} (h : Outside os r r') (stage : r'.stage = s) (later : s ≠ .spawned) : r.stage = s := by
  rcases h.stage_eq with same | ⟨-, spawned⟩
  · rw [← same, stage]
  · exact absurd (stage.symm.trans spawned) later

/-! ### Invariants -/

/-- What acts preserve, and what can happen between two turns, holds of every state passed, provided that it does not
depend on whose turn it is and how the tasks wait for theirs. -/
theorem Passes.invariant {P : Run → Prop} (initial : ∀ quota, P { Run.initial settings services with quota := quota })
    (queue : ∀ {r : Run} ready parked deferred place budget, P r →
      P { r with ready := ready, parked := parked, deferred := deferred, place := place, budget := budget })
    (outside : ∀ {os r r'}, Passes settings services none r → Outside os r r' → P r → P r')
    (act : ∀ {t os r r'}, Passes settings services (some t) r → Act t os r r' → P r → P r')
    (h : Passes settings services cur r) : P r := by
  induction h with
  | initial quota _ => exact initial quota
  | outside before h ih => exact outside before h ih
  | turn _ _ ih => exact queue _ _ _ _ _ ih
  | act before h ih => exact act before h ih
  | finished _ _ ih => exact ih
  | park _ _ _ _ ih => exact queue _ _ _ _ _ ih

theorem Passes.act_of_mem {o : Occurrence} (h : Passes settings services cur r) (mem : o ∈ r.happened)
    (own : o.isAside = false) :
    ∃ t os r₁ r₂, Passes settings services (some t) r₁ ∧ Act t os r₁ r₂ ∧ o ∈ os ∧ r₁.happened ⊆ r.happened := by
  refine h.invariant (P := fun r => o ∈ r.happened → ∃ t os r₁ r₂, Passes settings services (some t) r₁ ∧
    Act t os r₁ r₂ ∧ o ∈ os ∧ r₁.happened ⊆ r.happened) ?_ (fun _ _ _ _ _ ih => ih) ?_ ?_ mem
  · intro quota mem
    cases mem
  · intro os r r' _ h ih mem
    rw [h.happened] at mem ⊢
    rcases List.mem_append.mp mem with earlier | now
    · obtain ⟨t, os', r₁, r₂, before, act, there, grows⟩ := ih earlier
      exact ⟨t, os', r₁, r₂, before, act, there, List.subset_append_of_subset_left _ grows⟩
    · rw [h.isAside o now] at own
      cases own
  · intro t os r r' before h ih mem
    rw [h.happened] at mem ⊢
    rcases List.mem_append.mp mem with earlier | now
    · obtain ⟨t', os', r₁, r₂, before, act, there, grows⟩ := ih earlier
      exact ⟨t', os', r₁, r₂, before, act, there, List.subset_append_of_subset_left _ grows⟩
    · exact ⟨t, os, r, r', before, h, now, List.subset_append_left _ _⟩

theorem Passes.settings_eq (h : Passes settings services cur r) : r.settings = settings := by
  refine h.invariant (P := fun r => r.settings = settings) (fun _ => rfl) (fun _ _ _ _ _ ih => ih) ?_ ?_
  · exact fun _ h ih => h.keeps.settings.trans ih
  · exact fun _ h ih => h.steady.settings.trans ih

theorem Passes.registered (phase : Phase) (h : Passes settings services (some (.ofCall e phase)) r) :
    .setUp ∈ r.happened ∧ e < settings.entries.length := by
  have known := h.knows (.inr rfl)
  rw [← h.settings_eq]
  cases phase <;> exact known

theorem Passes.registered_of_call {o : Occurrence} (h : Passes settings services cur r) (mem : o ∈ r.happened)
    (call : o.entry? = some e) : .setUp ∈ r.happened ∧ e < settings.entries.length := by
  have own : o.isAside = false := by
    cases aside : o.isAside with
    | false => rfl
    | true =>
      rw [entry?_of_isAside aside] at call
      cases call
  obtain ⟨t, os, r₁, r₂, before, act, now, grows⟩ := h.act_of_mem mem own
  rcases act.steps e with ⟨-, others⟩ | step
  · exact absurd call (others o now)
  · obtain ⟨phase, rfl⟩ := step.task
    exact ⟨grows (before.registered phase).1, (before.registered phase).2⟩

theorem nameOf_of_entry {entry : Entry} (h : r.settings.entries[e]? = some entry) : r.nameOf e = entry.name := by
  simp only [nameOf, h]

theorem Passes.entry (phase : Phase) (h : Passes settings services (some (.ofCall e phase)) r) :
    ∃ entry, r.settings.entries[e]? = some entry :=
  ⟨_, List.getElem?_eq_getElem (h.settings_eq.symm ▸ (h.registered _).2)⟩

theorem Passes.members_length (h : Passes settings services cur r) : r.members.length = settings.entries.length := by
  refine h.invariant (P := fun r => r.members.length = settings.entries.length) ?_ (fun _ _ _ _ _ ih => ih) ?_ ?_
  · exact fun _ => List.length_map ..
  · exact fun _ h ih => (congrArg List.length h.keeps.members).trans ih
  · exact fun _ h ih => h.members_length.trans ih

end Run

end Supervision
