import Supervision.Proofs.MaskedTurn

/-! Failures are contained. How a call ends, well, with an error or in a panic, decides nothing but what is recorded of
it: two runs whose services differ in nothing else take the same course under the same choices. -/

namespace Supervision

open Mask

structure Service.Alike (s s' : Service) : Prop where
  start : blind.behaviour s.start = blind.behaviour s'.start
  restart : ∀ k, blind.behaviour (s.restart k) = blind.behaviour (s'.restart k)
  stop : blind.behaviour s.stop = blind.behaviour s'.stop

theorem Service.Alike.service_eq {s s' : Service} (h : s.Alike s') : blind.service s = blind.service s' := by
  have restarts : (fun k => blind.behaviour (s.restart k)) = fun k => blind.behaviour (s'.restart k) :=
    funext h.restart
  simp only [Mask.service, h.start, h.stop, restarts]

namespace Run

variable {settings : Settings} {services services' : List Service} {r r' : Run}

/-- The runs differ in nothing but the outcomes of the calls, the failures recorded of them, what the log tells of
failures, and the verdict. -/
structure SameCourse (r r' : Run) : Prop where
  seen : blind.run r = blind.run r'
  /-- The same has happened at the same times and in the same order. -/
  history : r.history.map blind.stamped = r'.history.map blind.stamped
  cause : r.cause = r'.cause
  doneAt : r.doneAt = r'.doneAt
  snapshot : r.snapshot = r'.snapshot

theorem doneAt_run (m : Mask) (r : Run) : (m.run r).doneAt = r.doneAt := by
  have stage : (m.run r).stage = m.stage r.stage := rfl
  rw [doneAt, doneAt, stage]
  cases r.stage with
  | returned v time =>
    cases v with
    | failures fs =>
      simp only [Mask.stage, Mask.verdict]
      cases m.ends <;> rfl
    | _ => rfl
  | _ => rfl

theorem callCounts_run (m : Mask) (r : Run) (service : Nat) : (m.run r).callCounts service = r.callCounts service := by
  have begun (x : CallState) : (m.call x).begun = x.begun := by
    cases x <;> rfl
  rw [callCounts, callCounts, total_run r service fun x => begun x.start, total_run r service fun _ => rfl,
    total_run r service fun x => begun x.stop]

/-- A snapshot shows no names but the one in the cause, and nothing of how calls end. -/
theorem snapshot_run (m : Mask) (r : Run) :
    (m.run r).snapshot = { r.snapshot with cause := m.view r.snapshot.cause } := by
  have calls : (m.run r).settings.entries.map (fun entry => (m.run r).callCounts entry.service) =
      r.settings.entries.map fun entry => r.callCounts entry.service := by
    simp only [callCounts_run]
    exact List.map_map
  rw [snapshot, snapshot, calls, progression_run, view_run]
  rfl

theorem sameCourse_of_seen (h : blind.run r = blind.run r') : SameCourse r r' where
  seen := h
  history := congrArg Run.history h
  cause := by
    have causes : r.cause.value.map blind.cause = r'.cause.value.map blind.cause := congrArg (·.cause.value) h
    have shown : blind.cause = id := funext (cause_of_id rfl)
    rw [shown, Option.map_id_apply, Option.map_id_apply] at causes
    exact congrArg Latch.mk causes
  doneAt := by rw [← doneAt_run blind, h, doneAt_run]
  snapshot := by
    have looks (r : Run) : (blind.run r).snapshot = r.snapshot := by
      rw [snapshot_run, view_of_id (m := blind) rfl]
    rw [← looks, h, looks]

theorem blind_simulation : Simulation fun r r' => blind.run r = blind.run r' :=
  Mask.simulation rfl rfl

theorem seen_initial (settings : Settings) (alike : List.Forall₂ Service.Alike services services') :
    blind.run (initial settings services) = blind.run (initial settings services') := by
  have same : services.map blind.service = services'.map blind.service := by
    induction alike with
    | nil => rfl
    | cons h _ ih => rw [List.map_cons, List.map_cons, h.service_eq, ih]
  simp only [Mask.run, initial, same]
  rfl

/-- Under the same choices, services that differ only in how their calls end make the run take the same course, with the
same answers to its caller, and a scenario looks the same at every step. There are choices for every state that can be
reached. -/
theorem failures_contained (alike : List.Forall₂ Service.Alike services services') :
    (∀ choices,
      ((initial settings services).chooseAll choices).1 = ((initial settings services').chooseAll choices).1 ∧
      SameCourse ((initial settings services).chooseAll choices).2 ((initial settings services').chooseAll choices).2) ∧
    (∀ r, (initial settings services).Reaches r → ∃ choices, ((initial settings services).chooseAll choices).2 = r) ∧
    ∀ steps limit drain,
      let report := Scenario.play ⟨settings, services, steps, limit, drain⟩
      let report' := Scenario.play ⟨settings, services', steps, limit, drain⟩
      report.steps = report'.steps ∧ report.final = report'.final ∧ SameCourse report.run report'.run := by
  have start := seen_initial settings alike
  refine ⟨fun choices => ?_, fun r reached => exists_choices_of_reaches reached, fun steps limit drain => ?_⟩
  · obtain ⟨answers, seen⟩ := blind_simulation.chooseAll start choices
    exact ⟨answers, sameCourse_of_seen seen⟩
  · obtain ⟨looks, seen, -⟩ := blind_simulation.play ⟨settings, services, steps, limit, drain⟩
      ⟨settings, services', steps, limit, drain⟩ start rfl rfl rfl
    have course := sameCourse_of_seen seen
    refine ⟨?_, course.snapshot, course⟩
    rw [← List.forall₂_eq_eq_eq]
    refine looks.imp fun seen seen' ⟨answer, r, r', same, look, look'⟩ => ?_
    exact Prod.ext answer (by rw [look, look', (sameCourse_of_seen same).snapshot])

def stumblingServices : List Service :=
  [{ start := .command .restart (.awaitCancel (.fail { base := .text "lost" }))
     restarts := [.panic .other, .fail { base := .text "worn" }]
     stop := .fail { base := .cancelled } },
    { start := .awaitCancel (.panic (.text "torn")), restarts := [.fail { base := .text "worn" }], stop := .done }]

def pairChoices : List Choice :=
  .act .run :: List.replicate 20 .turn ++ .act .cancel :: List.replicate 20 .turn

theorem failures_contained_stumbling :
    List.Forall₂ Service.Alike pairServices stumblingServices ∧
      SameCourse ((initial pairSettings pairServices).chooseAll pairChoices).2
        ((initial pairSettings stumblingServices).chooseAll pairChoices).2 ∧
      ((initial pairSettings pairServices).chooseAll pairChoices).2.failures.length = 1 ∧
      ((initial pairSettings stumblingServices).chooseAll pairChoices).2.failures.length = 4 ∧
      ((initial pairSettings stumblingServices).chooseAll pairChoices).2.doneAt = some 0 := by
  have alike : List.Forall₂ Service.Alike pairServices stumblingServices := by
    refine .cons ⟨rfl, fun k => ?_, rfl⟩ (.cons ⟨rfl, fun k => ?_, rfl⟩ .nil)
    · have among : min k 1 = 0 ∨ min k 1 = 1 := by omega
      rcases among with first | second <;> simp [Service.restart, Mask.behaviour, blind, *]
    · simp [Service.restart, Mask.behaviour, blind]
  exact ⟨alike, ((@failures_contained pairSettings _ _ alike).1 pairChoices).2, by decide, by decide, by decide⟩

end Run

end Supervision
