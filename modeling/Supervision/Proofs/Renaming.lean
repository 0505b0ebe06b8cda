import Supervision.Proofs.Containment
import Supervision.Proofs.Turn

/-! Names are labels. Nothing that a run does depends on how its entries are called: with other names the run is what it
was with the old ones, its names replaced wherever it tells them. That two entries come to share a name makes no
difference either. A service has no more to do with its name than an entry has, so the run is compared through two masks
with its image: one that replaces the names of the run, and one that leaves those of the image as they are. -/

namespace Supervision

variable {f : String → String}

/-! ### Names replaced -/

def Mask.naming (f : String → String) : Mask :=
  { label := f }

def Cause.renamed (f : String → String) : Cause → Cause
  | .exited service => .exited (f service)
  | c => c

def Failure.renamed (f : String → String) (x : Failure) : Failure :=
  { x with service := f x.service }

def Verdict.renamed (f : String → String) : Verdict → Verdict
  | .failures fs => .failures (fs.map (Failure.renamed f))
  | v => v

def Ending.renamed (f : String → String) : Ending → Ending
  | .returned v => .returned (v.renamed f)
  | x => x

def Snapshot.renamed (f : String → String) (s : Snapshot) : Snapshot :=
  { s with cause := (Mask.naming f).view s.cause }

/-- The same entries under other names. -/
def Settings.renamed (f : String → String) (s : Settings) : Settings :=
  { s with entries := s.entries.map fun entry => { entry with name := f entry.name } }

def Run.renamed (f : String → String) (r : Run) : Run :=
  { r with
    settings := r.settings.renamed f
    stage := (Mask.naming f).stage r.stage
    cause := ⟨r.cause.value.map (Cause.renamed f)⟩
    exit := ⟨r.exit.value.map f⟩
    members := r.members.map (Mask.naming f).member
    failures := r.failures.map (Failure.renamed f)
    watches := r.watches.map (Option.map fun (time, c) => (time, c.renamed f))
    history := r.history.map (Mask.naming f).stamped
    trace := r.trace.filterMap (Mask.naming f).event? }

def Occurrence.tellsCause : Occurrence → Bool
  | .shutDown _ | .learned _ _ _ | .noted _ _ _ (.cause _) => true
  | _ => false

theorem Mask.cause_naming (f : String → String) : (naming f).cause = Cause.renamed f := by
  funext c
  cases c <;> rfl

theorem Mask.verdict_naming (f : String → String) (v : Verdict) : (naming f).verdict v = v.renamed f := by
  cases v <;> rfl

/-- Through the mask a run is seen as its image, but for the lists in which its services keep their restart calls. -/
theorem Mask.run_naming (f : String → String) (r : Run) :
    (naming f).run r = { r.renamed f with services := r.services.map (naming f).service } := by
  simp only [run, Run.renamed, cause_naming]
  rfl

/-! A mask that leaves the names as they are shows a run as it is. -/

namespace Mask

theorem behaviour_naming (f : String → String) (b : Behaviour) : (naming f).behaviour b = b := by
  induction b with
  | ifCancelled yes no ihYes ihNo => rw [behaviour, ihYes, ihNo]
  | _ => simp_all [behaviour, naming]

theorem cause_plain : (naming id).cause = id := by
  funext c
  exact cause_of_id rfl c

theorem pause_plain : (naming id).pause = id := by
  funext p
  cases p <;> simp only [pause, behaviour_naming, cause_plain, id]

theorem member_plain : (naming id).member = id := by
  funext x
  have call (x : CallState) : (naming id).call x = x := by
    cases x <;> simp only [Mask.call, pause_plain, id]
  rw [member, call, call, pause_plain, Option.map_id_fun, ahead_of_lags rfl]
  rfl

theorem occurrence_plain : (naming id).occurrence = id := by
  funext o
  cases o with
  | noted e phase cancelled view => exact congrArg _ (view_of_id rfl view)
  | learned e phase c => exact congrArg _ (cause_of_id rfl c)
  | shutDown c => exact congrArg _ (cause_of_id rfl c)
  | _ => rfl

theorem event?_plain : (naming id).event? = some := by
  funext event
  cases event with
  | shuttingDown c => exact congrArg (some ∘ Event.shuttingDown) (cause_of_id rfl c)
  | _ => rfl

end Mask

namespace Run

variable {settings : Settings} {services : List Service} {r r' : Run} {t : Task}

theorem renamed_id (r : Run) : r.renamed id = r := by
  have cause : Cause.renamed id = id := Mask.cause_naming id ▸ Mask.cause_plain
  have failure : Failure.renamed id = id := rfl
  have stage (s : Stage) : (Mask.naming id).stage s = s := by
    cases s with
    | returned v time =>
      cases v with
      | failures fs => simp [Mask.stage, Mask.verdict_naming, Verdict.renamed, failure]
      | _ => rfl
    | _ => rfl
  have stamped : (Mask.naming id).stamped = id := by
    funext s
    rw [Mask.stamped, Mask.occurrence_plain]
    rfl
  have entries (s : Settings) : s.renamed id = s := by
    simp [Settings.renamed]
  rw [renamed, entries, stage, cause, failure, stamped, Mask.member_plain, Mask.event?_plain]
  simp

theorem initial_renamed (f : String → String) (settings : Settings) (services : List Service) :
    (initial settings services).renamed f = initial (settings.renamed f) services := by
  have fresh : (settings.renamed f).entries.map (fun _ => ({} : Member)) = settings.entries.map fun _ => {} :=
    List.map_map
  have unbegun : (Mask.naming f).member {} = {} := rfl
  simp only [Run.renamed, initial, fresh, List.map_map, Function.comp_def, unbegun]
  rfl

/-- A run and its image look alike, each through its mask. -/
theorem seen_iff_renamed (same : r'.services = r.services) :
    (Mask.naming f).run r = (Mask.naming id).run r' ↔ r' = r.renamed f := by
  have service : (Mask.naming f).service = (Mask.naming id).service := by
    funext s
    simp only [Mask.service, Mask.behaviour_naming]
  rw [Mask.run_naming, Mask.run_naming, renamed_id, service]
  constructor
  · intro seen
    calc r'
      _ = { r' with services := r.services } := by rw [← same]
      _ = { r.renamed f with services := r.services } :=
          congrArg (fun x : Run => { x with services := r.services }) seen.symm
      _ = r.renamed f := rfl
  · rintro rfl
    rfl

/-! ### Both runs know their tasks -/

/-- Whatever task a run of these services holds has business in it, and can have a turn. -/
structure Staffed (services : List Service) (r : Run) : Prop where
  services : r.services = services
  quota : r.quota ≠ some 0
  known : ∀ t, r.Holds t → r.Knows t

theorem staffed_initial (settings : Settings) (services : List Service) : Staffed services (initial settings services) where
  services := rfl
  quota := by simp [initial, turnQuota]
  known t held := by simp [Holds, initial] at held

theorem Outside.staffed {os : List Occurrence} (h : Outside os r r') (staffed : Staffed services r) : Staffed services r' where
  services := h.keeps.services.trans staffed.services
  quota := h.keeps.quota ▸ staffed.quota
  known t held := (h.knows_of_holds held).elim (fun old => h.knows (staffed.known t old)) id

theorem Outsides.staffed (h : Outsides r r') (staffed : Staffed services r) : Staffed services r' := by
  induction h with
  | refl => exact staffed
  | tail _ step ih =>
    obtain ⟨os, step⟩ := step
    exact step.staffed ih

theorem Acts.known (h : Acts t r r') (known : ∀ t', r.Holds t' ∨ t' = t → r.Knows t') :
    ∀ t', r'.Holds t' ∨ t' = t → r'.Knows t' := by
  induction h with
  | refl => exact known
  | tail _ act ih =>
    obtain ⟨os, act⟩ := act
    intro t' business
    rcases business with held | own
    · rcases act.knows_of_holds held with old | new
      · exact act.knows (ih t' (.inl old))
      · exact new
    · exact act.knows (ih t' (.inr own))

theorem Staffed.turn {rest : List Task} (staffed : Staffed services r) (ready : r.ready = t :: rest) :
    Staffed services (Run.turn { r with ready := rest } t) := by
  let begun : Run := { r with ready := rest, budget := r.quota, deferred := r.deferred.erase t }
  have known (t' : Task) (business : begun.Holds t' ∨ t' = t) : begun.Knows t' := by
    refine staffed.known t' ?_
    rcases business with (inQueue | parked) | rfl
    · exact .inl (ready ▸ List.mem_cons_of_mem _ inQueue)
    · exact .inr parked
    · exact .inl (ready ▸ List.mem_cons_self)
  have fresh : begun.isSpent = false := by simpa [begun, isSpent] using staffed.quota
  have acts : Acts t begun (begun.act t) := (acts_act fresh fun w watch => by
    have known := known t (.inr rfl)
    rwa [watch] at known).1
  have steady := acts.steady
  have known := acts.known known
  have business (t' : Task) (held : (Run.turn { r with ready := rest } t).Holds t') :
      (begun.act t).Holds t' ∨ t' = t := by
    rcases held with inQueue | parked
    · rw [turn_eq] at inQueue
      exact .inl (.inl inQueue)
    · exact (mem_parked_turn parked).symm.imp_left .inr
  rw [turn_eq] at business ⊢
  exact ⟨steady.services.trans staffed.services, fun none => staffed.quota (steady.quota.symm.trans none),
    fun t' held => known t' (business t' held)⟩

theorem Staffed.tick (staffed : Staffed services r) (turn : r.tick? = some r') : Staffed services r' := by
  obtain ⟨t, rest, ready, rfl⟩ := tick_cases turn
  exact staffed.turn ready

theorem Staffed.pass (staffed : Staffed services r) (time : Nat) : Staffed services (wake { r with now := time }) where
  services := staffed.services
  quota := staffed.quota
  known t held := staffed.known t ((holds_wake { r with now := time } t).mp held)

theorem Staffed.follows (staffed : Staffed services r) (held : r.Holds t) (m : Mask) (lags : m.lags = true) :
    m.Follows r t := by
  have named {e : Nat} (he : e < r.settings.entries.length) : m.Names r e := by
    simp only [Mask.Names, nameOf, Mask.run, Mask.settings, List.getElem?_map, List.getElem?_eq_getElem he]
    rfl
  have known := staffed.known t held
  cases t with
  | supervise => exact fun hidden => by simp [lags] at hidden
  | start e | stop e => exact named known.2
  | restart e => exact ⟨lags, named known.2⟩
  | watch | signal => trivial

/-! ### Side by side -/

/-- One run looks through the one mask as the other does through the other. -/
structure Alike (f : String → String) (services : List Service) (r r' : Run) : Prop where
  seen : (Mask.naming f).run r = (Mask.naming id).run r'
  left : Staffed services r
  right : Staffed services r'

theorem Alike.renamed (h : Alike f services r r') : r' = r.renamed f :=
  (seen_iff_renamed (h.right.services.trans h.left.services.symm)).mp h.seen

theorem alike_initial (f : String → String) (settings : Settings) (services : List Service) :
    Alike f services (initial settings services) (initial (settings.renamed f) services) where
  seen := (seen_iff_renamed (by rfl)).mpr (initial_renamed f settings services).symm
  left := staffed_initial settings services
  right := staffed_initial _ services

theorem alike_simulation (f : String → String) (services : List Service) : Simulation (Alike f services) where
  tick {r r'} h := by
    have ticks := Mask.tick_alike h.seen fun t rest ready ready' =>
      @Mask.turn_alike _ _ _ _ _ rest h.seen (h.left.follows (.inl (ready ▸ List.mem_cons_self)) _ rfl)
        (h.right.follows (.inl (ready' ▸ List.mem_cons_self)) _ rfl)
    cases turn : r.tick? <;> cases turn' : r'.tick? <;> rw [turn, turn'] at ticks <;> cases ticks
    · exact .none
    · rename_i seen
      exact .some ⟨seen, h.left.tick turn, h.right.tick turn'⟩
  takeUp {r r'} h := ⟨congrArg Run.takeUp h.seen, (Outside.takeUp r).staffed h.left, (Outside.takeUp r').staffed h.right⟩
  pass {r r'} h time := ⟨Mask.pass_alike h.seen time, h.left.pass time, h.right.pass time⟩
  signal {r r'} h n :=
    ⟨congrArg (Run.spawn · [.signal n]) h.seen, (Outside.signal r n).staffed h.left, (Outside.signal r' n).staffed h.right⟩
  act {r r'} h a instant := by
    obtain ⟨answer, seen⟩ := Mask.perform_alike h.seen instant
    exact ⟨answer, seen, (outsides_perform r instant).staffed h.left, (outsides_perform r' instant).staffed h.right⟩
  now {r r'} h := show (Mask.run _ r).now = (Mask.run _ r').now from congrArg Run.now h.seen
  nextDeadline? h := Mask.nextDeadline?_alike h.seen
  isSettled {r r'} h := show (Mask.run _ r).isSettled = (Mask.run _ r').isSettled from congrArg Run.isSettled h.seen
  progression h := Mask.progression_alike h.seen

/-! ### What the names make no difference to -/

structure IsRenamed (f : String → String) (r r' : Run) : Prop where
  image : r' = r.renamed f
  /-- The same has happened to the same entries at the same times. -/
  history : r'.history.filter (fun s => !s.what.tellsCause) = r.history.filter fun s => !s.what.tellsCause
  cause : r'.cause.value = r.cause.value.map (Cause.renamed f)
  failures : r'.failures = r.failures.map (Failure.renamed f)
  returned : ∀ v time, r.stage = .returned v time → r'.stage = .returned (v.renamed f) time
  doneAt : r'.doneAt = r.doneAt
  snapshot : r'.snapshot = r.snapshot.renamed f

theorem nameless_renamed (f : String → String) (r : Run) :
    (r.renamed f).history.filter (fun s => !s.what.tellsCause) = r.history.filter fun s => !s.what.tellsCause := by
  have tells (s : Stamped) : ((Mask.naming f).stamped s).what.tellsCause = s.what.tellsCause := by
    obtain ⟨time, o⟩ := s
    cases o with
    | noted e phase cancelled view => cases view <;> rfl
    | _ => rfl
  have same (s : Stamped) (quiet : s.what.tellsCause = false) : (Mask.naming f).stamped s = s := by
    obtain ⟨time, o⟩ := s
    cases o with
    | noted e phase cancelled view => cases view <;> first | rfl | cases quiet
    | shutDown | learned => cases quiet
    | _ => rfl
  show (r.history.map _).filter _ = _
  rw [List.filter_map]
  simp only [Function.comp_def, tells]
  calc (r.history.filter fun s => !s.what.tellsCause).map (Mask.naming f).stamped
    _ = (r.history.filter fun s => !s.what.tellsCause).map id :=
        List.map_congr_left fun s mem => same s (by simpa using (List.mem_filter.mp mem).2)
    _ = _ := List.map_id _

theorem isRenamed_renamed (f : String → String) (r : Run) : IsRenamed f r (r.renamed f) where
  image := rfl
  history := nameless_renamed f r
  cause := rfl
  failures := rfl
  returned v time returned := by
    show (Mask.naming f).stage r.stage = _
    rw [returned, Mask.stage, Mask.verdict_naming]
  doneAt := doneAt_run (Mask.naming f) r
  snapshot := snapshot_run (Mask.naming f) r

theorem ending_renamed (f : String → String) (r : Run) : Scenario.ending (r.renamed f) = (Scenario.ending r).renamed f := by
  show Scenario.ending { r with stage := (Mask.naming f).stage r.stage } = _
  unfold Scenario.ending
  cases r.stage with
  | returned v time => exact congrArg Ending.returned (Mask.verdict_naming f v)
  | _ => rfl

/-- Names are labels: under the same choices, a run whose entries go by other names, and maybe share some, is the image of
the run with the old names, and its caller gets the same answers. There are choices for every state that can be reached.
A scenario looks the same at every step, but for the name of a service that has ended the run by itself. -/
theorem names_are_labels (f : String → String) (settings : Settings) (services : List Service) :
    (∀ choices,
      ((initial (settings.renamed f) services).chooseAll choices).1 = ((initial settings services).chooseAll choices).1 ∧
      IsRenamed f ((initial settings services).chooseAll choices).2
        ((initial (settings.renamed f) services).chooseAll choices).2) ∧
    (∀ r, (initial settings services).Reaches r → ∃ choices, ((initial settings services).chooseAll choices).2 = r) ∧
    ∀ steps limit drain,
      let report := Scenario.play ⟨settings, services, steps, limit, drain⟩
      let report' := Scenario.play ⟨settings.renamed f, services, steps, limit, drain⟩
      report'.steps = report.steps.map (fun (answer, look) => (answer, look.renamed f)) ∧
        report'.final = report.final.renamed f ∧ report'.ending = report.ending.renamed f ∧
        IsRenamed f report.run report'.run := by
  have sim := alike_simulation f services
  have start := alike_initial f settings services
  refine ⟨fun choices => ?_, fun r reached => exists_choices_of_reaches reached, fun steps limit drain => ?_⟩
  · obtain ⟨answers, alike⟩ := sim.chooseAll start choices
    exact ⟨answers.symm, alike.renamed ▸ isRenamed_renamed f _⟩
  · obtain ⟨looks, alike, r, r', alike', ending, ending'⟩ := sim.play ⟨settings, services, steps, limit, drain⟩
      ⟨settings.renamed f, services, steps, limit, drain⟩ start rfl rfl rfl
    have image := alike.renamed ▸ isRenamed_renamed f _
    refine ⟨?_, image.snapshot, by rw [ending', ending, alike'.renamed, ending_renamed], image⟩
    have looks : List.Forall₂ (fun (seen seen' : Answer × Snapshot) => (seen.1, seen.2.renamed f) = seen') _ _ :=
      looks.imp fun seen seen' ⟨answer, r, r', alike, look, look'⟩ => Prod.ext answer (by
        rw [look, look', alike.renamed, (isRenamed_renamed f r).snapshot])
    rw [eq_comm, ← List.forall₂_eq_eq_eq, List.forall₂_map_left_iff]
    exact looks

def leavingServices : List Service :=
  [{ start := .awaitCancel .done, stop := .panic (.text "stuck") }, { start := .done, stop := .done }]

def leavingChoices : List Choice :=
  .act .run :: List.replicate 20 .turn

/-- With one name for both, the same entries start, leave and fail. Only the names no longer tell which is which. -/
theorem names_are_labels_twins :
    let run := ((initial pairSettings leavingServices).chooseAll leavingChoices).2
    let twins := ((initial (pairSettings.renamed fun _ => "twin") leavingServices).chooseAll leavingChoices).2
    IsRenamed (fun _ => "twin") run twins ∧
      run.cause.value = some (.exited "second") ∧ twins.cause.value = some (.exited "twin") ∧
      run.failures = [⟨"first", .stop, .panic "stuck"⟩] ∧ twins.failures = [⟨"twin", .stop, .panic "stuck"⟩] := by
  have image := ((names_are_labels (fun _ => "twin") pairSettings leavingServices).1 leavingChoices).2
  have cause : ((initial pairSettings leavingServices).chooseAll leavingChoices).2.cause.value =
      some (.exited "second") := by decide
  have failures : ((initial pairSettings leavingServices).chooseAll leavingChoices).2.failures =
      [⟨"first", .stop, .panic "stuck"⟩] := by decide
  refine ⟨image, cause, ?_, failures, ?_⟩
  · rw [image.cause, cause]
    rfl
  · rw [image.failures, failures]
    rfl

end Run

end Supervision
