import Supervision.Run.State

/-! What a report shows. The text of an error shows all its messages, the text of a failure names the service and the
phase and shows the error or the message of the panic, and a report shows the texts of all its failures, with their number
and their positions if there are several. Nothing is left out, and the order of arrival is kept, whatever the texts are
made of. -/

namespace Supervision

/-- The texts stand in `s` one behind the other, no two of them overlapping. -/
def Shows (s : String) : List String → Prop
  | [] => True
  | t :: ts => ∃ before after, s = before ++ t ++ after ∧ Shows after ts

namespace Shows

variable {s s' : String} {ts ts' : List String}

theorem behind (h : Shows s ts) (front : String) : Shows (front ++ s) ts := by
  cases ts with
  | nil => trivial
  | cons t ts =>
    obtain ⟨before, after, rfl, rest⟩ := h
    exact ⟨front ++ before, after, by simp only [String.append_assoc], rest⟩

theorem append (h : Shows s ts) (h' : Shows s' ts') : Shows (s ++ s') (ts ++ ts') := by
  induction ts generalizing s with
  | nil => exact h'.behind s
  | cons t ts ih =>
    obtain ⟨before, after, rfl, rest⟩ := h
    exact ⟨before, after ++ s', by simp only [String.append_assoc], ih rest⟩

theorem single (s : String) : Shows s [s] :=
  ⟨"", "", by simp only [String.empty_append, String.append_empty], trivial⟩

theorem cons (h : Shows s ts) (t : String) : Shows (t ++ s) (t :: ts) :=
  (single t).append h

theorem flatMap {α : Type} {text : α → String} {parts : α → List String} {xs : List α} (h : Shows s (xs.map text))
    (inner : ∀ x ∈ xs, Shows (text x) (parts x)) : Shows s (xs.flatMap parts) := by
  induction xs generalizing s with
  | nil => trivial
  | cons x xs ih =>
    obtain ⟨before, after, rfl, rest⟩ := h
    have own := (inner x List.mem_cons_self).behind before
    exact own.append (ih rest fun y mem => inner y (List.mem_cons_of_mem x mem))

end Shows

theorem shows_joinWith (separator : String) (ts : List String) : Shows (joinWith separator ts) ts := by
  induction ts with
  | nil => trivial
  | cons t ts ih =>
    cases ts with
    | nil => exact .single t
    | cons t' ts =>
      rw [joinWith, String.append_assoc]
      exact (ih.behind separator).cons t

namespace Failure

variable {fs gs : List Failure}

/-- What the text of a failure shows behind the service and the phase: the contexts of an error, the newest first, then
its own message and those of its sources, or the message of a panic. -/
def parts (f : Failure) : List String :=
  match f.fault with
  | .error err => err.contexts.reverse.map Message.render ++ err.base.render :: err.sources.map Message.render
  | .panic message => [message]

theorem shows_text (f : Failure) : Shows f.text (f.service :: f.phase.text :: f.parts) := by
  obtain ⟨service, phase, fault⟩ := f
  cases fault with
  | error err =>
    have messages : Shows err.text (err.messages.map Message.render) := shows_joinWith _ _
    rw [ErrorValue.messages, List.map_append, List.map_cons] at messages
    have phaseShown := ((messages.behind ": ").cons phase.text).behind "` failed to "
    have shown := (phaseShown.cons service).behind "service `"
    simpa only [text, parts, String.append_assoc] using shown
  | panic message =>
    have phaseShown := (((Shows.single message).behind ": ").cons phase.text).behind "` panicked during "
    have shown := (phaseShown.cons service).behind "service `"
    simpa only [text, parts, String.append_assoc] using shown

def introduced (f : Failure) (position : Nat) : String :=
  "[" ++ toString position ++ "] " ++ f.text

theorem shows_introduced (f : Failure) (position : Nat) : Shows (f.introduced position) [f.text] :=
  (Shows.single f.text).behind _

theorem shows_numbered (i : Nat) (fs : List Failure) :
    Shows (numbered i fs) ((fs.zipIdx i).map fun (f, position) => f.introduced position) := by
  induction fs generalizing i with
  | nil => trivial
  | cons f fs ih =>
    have opening : "; [" = "; " ++ "[" := by decide
    have shown := ((ih (i + 1)).cons (f.introduced i)).behind "; "
    rw [numbered, List.zipIdx_cons, List.map_cons, opening]
    simpa only [introduced, String.append_assoc] using shown

theorem report_of_several (several : 2 ≤ fs.length) :
    report fs = toString fs.length ++ " service failures" ++ numbered 1 fs := by
  match fs, several with
  | f :: g :: rest, _ => rfl

theorem shows_report (fs : List Failure) : Shows (report fs) (fs.map text) := by
  by_cases several : 2 ≤ fs.length
  · have positions := (shows_numbered 1 fs).behind (toString fs.length ++ " service failures")
    have texts := positions.flatMap fun x _ => x.1.shows_introduced x.2
    rw [← List.map_eq_flatMap, ← Function.comp_def text Prod.fst, ← List.map_map, List.zipIdx_map_fst] at texts
    rwa [report_of_several several]
  · match fs with
    | [] => trivial
    | [f] => exact .single f.text
    | f :: g :: rest => exact absurd (Nat.le_add_left 2 rest.length) several

/-! ### The length of a report -/

theorem utf8ByteSize_numbered (h : fs.Perm gs) (i : Nat) :
    (numbered i fs).utf8ByteSize = (numbered i gs).utf8ByteSize := by
  induction h generalizing i with
  | nil => rfl
  | cons f _ ih => simp only [numbered, String.utf8ByteSize_append, ih]
  | swap f g fs =>
    simp only [numbered, String.utf8ByteSize_append]
    omega
  | trans _ _ ih ih' => exact (ih i).trans (ih' i)

theorem utf8ByteSize_report (h : fs.Perm gs) : (report fs).utf8ByteSize = (report gs).utf8ByteSize := by
  by_cases several : 2 ≤ fs.length
  · rw [report_of_several several, report_of_several (h.length_eq ▸ several), h.length_eq]
    simp only [String.utf8ByteSize_append, utf8ByteSize_numbered h]
  · match fs with
    | [] => rw [h.nil_eq]
    | [f] => rw [List.singleton_perm.mp h]
    | f :: g :: rest => exact absurd (Nat.le_add_left 2 rest.length) several

/-- The error that a run with failures returns shows the text of every failure in the order of arrival, and if there are
several it opens with their number and introduces each by its position. The text of a failure shows all that it tells, so
the whole report does. However the same failures are ordered, the report takes as many bytes. -/
theorem report_shows_every_failure (fs : List Failure) (failed : fs ≠ []) :
    (Verdict.ofFailures fs).errorText? = some (report fs) ∧
    Shows (report fs) (fs.map text) ∧
    (2 ≤ fs.length → ∃ rest, report fs = toString fs.length ++ " service failures" ++ rest ∧
      Shows rest ((fs.zipIdx 1).map fun (f, position) => f.introduced position)) ∧
    (∀ f ∈ fs, Shows f.text (f.service :: f.phase.text :: f.parts)) ∧
    Shows (report fs) (fs.flatMap fun f => f.service :: f.phase.text :: f.parts) ∧
    ∀ gs, fs.Perm gs → (report gs).utf8ByteSize = (report fs).utf8ByteSize := by
  refine ⟨?_, shows_report fs, fun several => ?_, fun f _ => f.shows_text, ?_, fun gs same => ?_⟩
  · cases fs with
    | nil => exact absurd rfl failed
    | cons f rest => rfl
  · exact ⟨numbered 1 fs, report_of_several several, shows_numbered 1 fs⟩
  · exact (shows_report fs).flatMap fun f _ => f.shows_text
  · exact (utf8ByteSize_report same).symm

/-- Two failures whose texts could be taken for parts of a report. -/
def deceptive : List Failure :=
  [⟨"a", .stop, .panic "2 service failures; [2] boom"⟩,
    ⟨"b", .start, .error { base := .text "x", sources := [.cancelled], contexts := [.text "old: ", .text "new"] }⟩]

theorem report_shows_every_failure_deceptive :
    deceptive ≠ [] ∧
      report deceptive = "2 service failures; [1] service `a` panicked during stop: 2 service failures; [2] boom" ++
        "; [2] service `b` failed to start: new: old: : x: operation cancelled" ∧
      Shows (report deceptive) ["a", "stop", "2 service failures; [2] boom",
        "b", "start", "new", "old: ", "x", "operation cancelled"] ∧
      (report deceptive.reverse).utf8ByteSize = (report deceptive).utf8ByteSize := by
  have failed : deceptive ≠ [] := List.cons_ne_nil _ _
  obtain ⟨-, -, -, -, whole, length⟩ := report_shows_every_failure deceptive failed
  exact ⟨failed, by rfl, whole, length _ (List.reverse_perm deceptive).symm⟩

end Failure

end Supervision
