import Mathlib.Data.List.Forall2
import Supervision.Proofs.Move

/-! Two runs side by side. A run is made by choices: which of its moves comes next, and what its caller does. Under the
same choices, two runs that are related at first stay related if every single move keeps them so; then they are also
related after each step of a scenario, however many moves it takes to settle. -/

namespace Supervision

/-- The moves to choose from. -/
inductive Choice
  | turn
  | takeUp
  | pass (time : Nat)
  | signal (n : Int)
  | act (a : Action)
deriving DecidableEq, Repr

namespace Run

variable {R : Run → Run → Prop} {r r' : Run}

/-! ### Choices -/

/-- Whether the clock passes over no deadline on its way. -/
def mayPass (r : Run) (time : Nat) : Bool :=
  r.now ≤ time && r.nextDeadline?.all (time ≤ ·)

/-- Makes a choice. One that is not open changes nothing. -/
def choose (r : Run) : Choice → Answer × Run
  | .turn => (.nothing, r.tick?.getD r)
  | .takeUp => (.nothing, r.takeUp)
  | .pass time => (.nothing, if r.mayPass time then r.advance time else r)
  | .signal n => (.nothing, r.spawn [.signal n])
  | .act a => r.perform a

def chooseAll : Run → List Choice → List Answer × Run
  | r, [] => ([], r)
  | r, c :: rest =>
    let (answer, r) := r.choose c
    let (answers, r) := r.chooseAll rest
    (answer :: answers, r)

theorem snd_chooseAll_append (r : Run) (cs cs' : List Choice) :
    (r.chooseAll (cs ++ cs')).2 = ((r.chooseAll cs).2.chooseAll cs').2 := by
  induction cs generalizing r with
  | nil => rfl
  | cons c rest ih => exact ih (r.choose c).2

theorem Move.exists_choice (h : Move r r') : ∃ c, (r.choose c).2 = r' := by
  cases h with
  | turn h => exact ⟨.turn, by simp [choose, h]⟩
  | takeUp => exact ⟨.takeUp, rfl⟩
  | pass later inTime =>
    rename_i time
    have may : r.mayPass time = true := by
      cases next : r.nextDeadline? <;> simp_all [mayPass]
    exact ⟨.pass time, by simp only [choose, may, if_true]⟩
  | signal n => exact ⟨.signal n, rfl⟩
  | act a => exact ⟨.act a, rfl⟩

/-- Every state that a run can reach is reached by some choices. -/
theorem exists_choices_of_reaches (h : r.Reaches r') : ∃ cs, (r.chooseAll cs).2 = r' := by
  induction h with
  | refl => exact ⟨[], rfl⟩
  | tail _ move ih =>
    obtain ⟨cs, rfl⟩ := ih
    obtain ⟨c, rfl⟩ := move.exists_choice
    exact ⟨cs ++ [c], snd_chooseAll_append r cs [c]⟩

/-! ### Simulations -/

/-- What every move keeps, and what cannot be told apart by a caller who waits. -/
structure Simulation (R : Run → Run → Prop) : Prop where
  tick {r r' : Run} (h : R r r') : Option.Rel R r.tick? r'.tick?
  takeUp {r r' : Run} (h : R r r') : R r.takeUp r'.takeUp
  pass {r r' : Run} (h : R r r') (time : Nat) : R (wake { r with now := time }) (wake { r' with now := time })
  signal {r r' : Run} (h : R r r') (n : Int) : R (r.spawn [.signal n]) (r'.spawn [.signal n])
  act {r r' : Run} (h : R r r') {a : Action} (instant : a.isInstant = true) :
    (r.perform a).1 = (r'.perform a).1 ∧ R (r.perform a).2 (r'.perform a).2
  now {r r' : Run} (h : R r r') : r.now = r'.now
  nextDeadline? {r r' : Run} (h : R r r') : r.nextDeadline? = r'.nextDeadline?
  isSettled {r r' : Run} (h : R r r') : r.isSettled = r'.isSettled
  progression {r r' : Run} (h : R r r') : r.progression = r'.progression

namespace Simulation

theorem hasReturned (sim : Simulation R) (h : R r r') : r.stage.hasReturned = r'.stage.hasReturned := by
  have same := sim.progression h
  unfold Run.progression at same
  split at same <;> split at same <;> simp_all [Stage.hasReturned]

theorem idle_iff (sim : Simulation R) (h : R r r') : r.stage = .idle ↔ r'.stage = .idle := by
  have same := sim.progression h
  unfold Run.progression at same
  split at same <;> split at same <;> simp_all

/-! ### The passing of time -/

theorem serve (sim : Simulation R) (turns : Nat) (h : R r r') : R (r.serve turns) (r'.serve turns) := by
  induction turns generalizing r r' with
  | zero => exact h
  | succ turns ih =>
    have tick := sim.tick h
    simp only [Run.serve]
    generalize r.tick? = o, r'.tick? = o' at tick
    cases tick with
    | none => exact h
    | some h' => exact ih h'

theorem settleFor (sim : Simulation R) (rounds : Nat) (h : R r r') :
    R (Run.settleFor rounds r) (Run.settleFor rounds r') := by
  induction rounds generalizing r r' with
  | zero => exact h
  | succ rounds ih =>
    rw [Run.settleFor, Run.settleFor, sim.isSettled h]
    split
    · exact h
    · exact ih (sim.takeUp (sim.serve lookAfter h))

theorem settle (sim : Simulation R) (h : R r r') : R r.settle r'.settle :=
  sim.settleFor roundLimit h

theorem raise (sim : Simulation R) (h : R r r') (n : Int) : R (r.raise n) (r'.raise n) :=
  sim.settle (sim.takeUp (sim.signal (sim.serve lookAfter h) n))

theorem advance (sim : Simulation R) (h : R r r') (time : Nat) : R (r.advance time) (r'.advance time) := by
  rw [Run.advance, Run.advance, sim.isSettled h]
  split
  · exact sim.pass h time
  · exact h

theorem passTo (sim : Simulation R) (target fuel : Nat) (h : R r r') :
    R (Run.passTo target fuel r) (Run.passTo target fuel r') := by
  induction fuel generalizing r r' with
  | zero => exact h
  | succ fuel ih =>
    simp only [Run.passTo, sim.nextDeadline? h]
    split
    · split
      · exact ih (sim.settle (sim.advance h _))
      · exact sim.advance h target
    · exact sim.advance h target

theorem elapse (sim : Simulation R) (h : R r r') (ms : Nat) : R (r.elapse ms) (r'.elapse ms) := by
  unfold Run.elapse
  split
  · exact h
  · have settled := sim.settle h
    dsimp only
    rw [sim.now settled]
    exact sim.passTo _ ms settled

theorem awaitReturnTo (sim : Simulation R) (target fuel : Nat) (h : R r r') :
    R (Run.awaitReturnTo target fuel r) (Run.awaitReturnTo target fuel r') := by
  induction fuel generalizing r r' with
  | zero => exact h
  | succ fuel ih =>
    simp only [Run.awaitReturnTo, sim.hasReturned h, sim.nextDeadline? h]
    split
    · exact h
    · split
      · split
        · exact ih (sim.settle (sim.advance h _))
        · exact sim.advance h target
      · exact sim.advance h target

/-! ### The caller -/

theorem perform (sim : Simulation R) (h : R r r') (a : Action) :
    (r.perform a).1 = (r'.perform a).1 ∧ R (r.perform a).2 (r'.perform a).2 := by
  cases instant : a.isInstant with
  | true => exact sim.act h instant
  | false =>
    cases a with
    | raise n =>
      unfold Run.perform
      dsimp only
      split
      · exact ⟨rfl, sim.raise h n⟩
      · exact ⟨rfl, h⟩
    | wait ms => exact ⟨rfl, sim.elapse h ms⟩
    | _ => cases instant

theorem choose (sim : Simulation R) (h : R r r') (c : Choice) :
    (r.choose c).1 = (r'.choose c).1 ∧ R (r.choose c).2 (r'.choose c).2 := by
  cases c with
  | turn =>
    refine ⟨rfl, ?_⟩
    have tick := sim.tick h
    simp only [Run.choose]
    generalize r.tick? = o, r'.tick? = o' at tick
    cases tick with
    | none => exact h
    | some h' => exact h'
  | takeUp => exact ⟨rfl, sim.takeUp h⟩
  | pass time =>
    refine ⟨rfl, ?_⟩
    have same : r.mayPass time = r'.mayPass time := by
      rw [mayPass, mayPass, sim.now h, sim.nextDeadline? h]
    simp only [Run.choose, same]
    split
    · exact sim.advance h time
    · exact h
  | signal n => exact ⟨rfl, sim.signal h n⟩
  | act a => exact sim.perform h a

/-- The same choices get the same answers, and keep the runs related. -/
theorem chooseAll (sim : Simulation R) (h : R r r') (cs : List Choice) :
    (r.chooseAll cs).1 = (r'.chooseAll cs).1 ∧ R (r.chooseAll cs).2 (r'.chooseAll cs).2 := by
  induction cs generalizing r r' with
  | nil => exact ⟨rfl, h⟩
  | cons c rest ih =>
    obtain ⟨answer, h'⟩ := sim.choose h c
    obtain ⟨answers, h''⟩ := ih h'
    exact ⟨congrArg₂ List.cons answer answers, h''⟩

mutual

theorem take (sim : Simulation R) : ∀ {r r' : Run}, R r r' → ∀ s : Step,
    (r.take s).1 = (r'.take s).1 ∧ R (r.take s).2 (r'.take s).2
  | r, r', h, .act a => by
    rw [Run.take, Run.take]
    exact sim.perform h a
  | r, r', h, .burst steps => by
    obtain ⟨answers, h'⟩ := sim.takeAll h steps
    rw [Run.take, Run.take]
    exact ⟨congrArg Answer.many answers, h'⟩

theorem takeAll (sim : Simulation R) : ∀ {r r' : Run}, R r r' → ∀ steps : List Step,
    (r.takeAll steps).1 = (r'.takeAll steps).1 ∧ R (r.takeAll steps).2 (r'.takeAll steps).2
  | r, r', h, [] => by
    rw [Run.takeAll, Run.takeAll]
    exact ⟨rfl, h⟩
  | r, r', h, s :: rest => by
    obtain ⟨answer, h'⟩ := sim.take h s
    obtain ⟨answers, h''⟩ := sim.takeAll h' rest
    rw [Run.takeAll, Run.takeAll]
    exact ⟨congrArg₂ List.cons answer answers, h''⟩

end

theorem step (sim : Simulation R) (h : R r r') (s : Step) :
    (r.step s).1 = (r'.step s).1 ∧ R (r.step s).2 (r'.step s).2 := by
  obtain ⟨answer, h'⟩ := sim.take h s
  exact ⟨answer, sim.settle h'⟩

/-- What two callers see who got the same answer and look at related runs. -/
def Sees (R : Run → Run → Prop) (seen seen' : Answer × Snapshot) : Prop :=
  seen.1 = seen'.1 ∧ ∃ r r', R r r' ∧ seen.2 = r.snapshot ∧ seen'.2 = r'.snapshot

theorem steps (sim : Simulation R) (h : R r r') (ss : List Step) :
    List.Forall₂ (Sees R) (r.steps ss).1 (r'.steps ss).1 ∧ R (r.steps ss).2 (r'.steps ss).2 := by
  induction ss generalizing r r' with
  | nil => exact ⟨.nil, h⟩
  | cons s rest ih =>
    obtain ⟨answer, h'⟩ := sim.step h s
    obtain ⟨seen, h''⟩ := ih h'
    exact ⟨.cons ⟨answer, _, _, h', rfl, rfl⟩ seen, h''⟩

/-- Scenarios of the same steps are the same to their callers, as far as related runs are. -/
theorem play (sim : Simulation R) (s s' : Scenario)
    (h : R (initial s.settings s.services) (initial s'.settings s'.services)) (steps : s.steps = s'.steps)
    (limit : s.limit = s'.limit) (drain : s.drain = s'.drain) :
    List.Forall₂ (Sees R) s.play.steps s'.play.steps ∧ R s.play.run s'.play.run ∧
      ∃ r r', R r r' ∧ s.play.ending = Scenario.ending r ∧ s'.play.ending = Scenario.ending r' := by
  obtain ⟨seen, after⟩ := sim.steps h s.steps
  rw [steps] at seen after
  simp only [Scenario.play, steps, limit, drain]
  generalize (initial s.settings s.services).steps s'.steps = x at seen after
  generalize (initial s'.settings s'.services).steps s'.steps = x' at seen after
  have awaited : R (if x.2.stage = .idle then x.2 else x.2.awaitReturn s'.limit)
      (if x'.2.stage = .idle then x'.2 else x'.2.awaitReturn s'.limit) := by
    simp only [sim.idle_iff after]
    split
    · exact after
    · rw [awaitReturn, awaitReturn, sim.now after]
      exact sim.awaitReturnTo _ _ after
  exact ⟨seen, sim.settle (sim.elapse awaited s'.drain), _, _, awaited, rfl, rfl⟩

end Simulation

end Run

end Supervision
