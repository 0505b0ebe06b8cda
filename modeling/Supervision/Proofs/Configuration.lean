import Mathlib.Data.List.Induction
import Supervision.Run.State

/-! Settings are what the changes make of them. A field has the value that the last change that writes it has written, or
its default if there is none; a change of the signals as a whole writes what the changes of these signals have made of
each of their fields. Changes that write different fields can be made in either order, and the entries are those that were
added, in the order in which they were. -/

namespace Supervision

/-! ### The last change that writes a value -/

section

variable {σ γ α : Type} {written? : γ → Option α}

/-- The value is the one that the last change to write it has written, or the default if none of them writes it. -/
def LastWins (written? : γ → Option α) (cs : List γ) (default value : α) : Prop :=
  (∀ c ∈ cs, written? c = none) ∧ value = default ∨
    ∃ before c after, cs = before ++ c :: after ∧ written? c = some value ∧ ∀ d ∈ after, written? d = none

theorem LastWins.snoc {cs : List γ} {default value : α} (h : LastWins written? cs default value) (c : γ) :
    LastWins written? (cs ++ [c]) default ((written? c).getD value) := by
  cases wrote : written? c with
  | some a => exact .inr ⟨cs, c, [], rfl, wrote, fun _ mem => absurd mem List.not_mem_nil⟩
  | none =>
    have alone (d : γ) (mem : d ∈ [c]) : written? d = none := by rwa [List.mem_singleton.mp mem]
    rcases h with ⟨untouched, rfl⟩ | ⟨before, d, after, rfl, last, since⟩
    · exact .inl ⟨fun d mem => (List.mem_append.mp mem).elim (untouched d) (alone d), rfl⟩
    · refine .inr ⟨before, d, after ++ [c], by rw [List.append_assoc, List.cons_append], last, fun d mem => ?_⟩
      exact (List.mem_append.mp mem).elim (since d) (alone d)

theorem lastWins_foldl (change : σ → γ → σ) (read : σ → α)
    (law : ∀ s c, read (change s c) = (written? c).getD (read s)) (s : σ) (cs : List γ) :
    LastWins written? cs (read s) (read (cs.foldl change s)) := by
  induction cs using List.reverseRecOn with
  | nil => exact .inl ⟨fun _ mem => absurd mem List.not_mem_nil, rfl⟩
  | append_singleton cs c ih =>
    rw [List.foldl_append, List.foldl_cons, List.foldl_nil, law]
    exact ih.snoc c

theorem getD_comm {a b : Option α} (h : a = none ∨ b = none) (x : α) : b.getD (a.getD x) = a.getD (b.getD x) := by
  rcases h with rfl | rfl <;> rfl

end

/-! ### The fields of the signal settings -/

inductive SignalField
  | kinds (p : Purpose)
  | capacity
deriving DecidableEq, Repr

def SignalField.Value : SignalField → Type
  | .kinds _ => List Int
  | .capacity => Nat

def SignalField.default : (f : SignalField) → f.Value
  | .kinds .shutdown => [2, 15]
  | .kinds .restart => [1]
  | .capacity => (1 : Nat)

/-- What it holds instead where nothing is to be listened to. -/
def SignalField.silence : (f : SignalField) → f.Value
  | .kinds _ => []
  | .capacity => (1 : Nat)

namespace SignalChange

def written? : SignalChange → (f : SignalField) → Option f.Value
  | .shutdown ns, .kinds .shutdown => some ns
  | .restart ns, .kinds .restart => some ns
  | .capacity n, .capacity => some (max n 1 : Nat)
  | _, _ => none

def Apart (c d : SignalChange) : Prop :=
  ∀ f, c.written? f = none ∨ d.written? f = none

end SignalChange

namespace SignalSettings

def get (s : SignalSettings) : (f : SignalField) → f.Value
  | .kinds p => s.kinds p
  | .capacity => s.capacity

theorem get_change (f : SignalField) (s : SignalSettings) (c : SignalChange) :
    (s.change c).get f = (c.written? f).getD (s.get f) := by
  cases c <;> rcases f with ⟨_ | _⟩ | _ <;> rfl

theorem lastWins_changes (f : SignalField) (s : SignalSettings) (cs : List SignalChange) :
    LastWins (·.written? f) cs (s.get f) ((s.changes cs).get f) :=
  lastWins_foldl change (get · f) (get_change f) s cs

theorem eq_of_get {s s' : SignalSettings} (h : ∀ f, s.get f = s'.get f) : s = s' := by
  obtain ⟨shutdown, restart, capacity, pos⟩ := s
  obtain ⟨shutdown', restart', capacity', pos'⟩ := s'
  obtain rfl : shutdown = shutdown' := h (.kinds .shutdown)
  obtain rfl : restart = restart' := h (.kinds .restart)
  obtain rfl : capacity = capacity' := h .capacity
  rfl

theorem get_default (f : SignalField) : ({} : SignalSettings).get f = f.default := by
  rcases f with ⟨_ | _⟩ | _ <;> rfl

theorem get_silent (f : SignalField) : silent.get f = f.silence := by
  rcases f with ⟨_ | _⟩ | _ <;> rfl

theorem change_comm {c d : SignalChange} (apart : c.Apart d) (s : SignalSettings) :
    (s.change c).change d = (s.change d).change c :=
  eq_of_get fun f => by simp only [get_change, getD_comm (apart f)]

end SignalSettings

/-! ### The fields of the settings -/

/-- The fields that hold one value. The entries are not among them, as each change adds to them. -/
inductive SettingsField
  | signals (f : SignalField)
  | restartBacklog
  | exitGrace
deriving DecidableEq, Repr

def SettingsField.Value : SettingsField → Type
  | .signals f => f.Value
  | .restartBacklog | .exitGrace => Nat

def SettingsField.default : (f : SettingsField) → f.Value
  | .signals f => f.default
  | .restartBacklog => (16 : Nat)
  | .exitGrace => (5000 : Nat)

namespace SettingsChange

def written? : SettingsChange → (f : SettingsField) → Option f.Value
  | .signals s, .signals f => some (s.get f)
  | .shutdownSignals ns, .signals f => (SignalChange.shutdown ns).written? f
  | .restartSignals ns, .signals f => (SignalChange.restart ns).written? f
  | .signalCapacity n, .signals f => (SignalChange.capacity n).written? f
  | .restartBacklog n, .restartBacklog => some n
  | .exitGrace ms, .exitGrace => some ms
  | _, _ => none

/-- A change of the signals as a whole touches all their fields and no other. -/
theorem isSome_written?_signals (source : SignalSettings) (f : SettingsField) :
    ((SettingsChange.signals source).written? f).isSome = true ↔ ∃ g, f = .signals g := by
  cases f with
  | signals g => exact ⟨fun _ => ⟨g, rfl⟩, fun _ => rfl⟩
  | restartBacklog | exitGrace =>
    constructor
    · intro touched
      cases touched
    · rintro ⟨g, same⟩
      cases same

def added? : SettingsChange → Option (List Entry)
  | .entry e => some [e]
  | .entries es => some es
  | _ => none

def Apart (c d : SettingsChange) : Prop :=
  (∀ f, c.written? f = none ∨ d.written? f = none) ∧ (c.added? = none ∨ d.added? = none)

end SettingsChange

namespace Settings

def get (s : Settings) : (f : SettingsField) → f.Value
  | .signals f => s.signals.get f
  | .restartBacklog => s.restartBacklog
  | .exitGrace => s.exitGrace

theorem get_change (f : SettingsField) (s : Settings) (c : SettingsChange) :
    (s.change c).get f = (c.written? f).getD (s.get f) := by
  cases c with
  | shutdownSignals | restartSignals | signalCapacity =>
    cases f with
    | signals f => exact s.signals.get_change f _
    | _ => rfl
  | _ => cases f <;> rfl

theorem lastWins_changes (f : SettingsField) (s : Settings) (cs : List SettingsChange) :
    LastWins (·.written? f) cs (s.get f) ((s.changes cs).get f) :=
  lastWins_foldl change (get · f) (get_change f) s cs

theorem get_default (f : SettingsField) : ({} : Settings).get f = f.default := by
  cases f with
  | signals f => exact SignalSettings.get_default f
  | _ => rfl

theorem entries_change (s : Settings) (c : SettingsChange) :
    (s.change c).entries = s.entries ++ c.added?.getD [] := by
  cases c <;> simp [change, SettingsChange.added?]

theorem entries_changes (s : Settings) (cs : List SettingsChange) :
    (s.changes cs).entries = s.entries ++ cs.flatMap fun c => c.added?.getD [] := by
  induction cs generalizing s with
  | nil => exact (List.append_nil _).symm
  | cons c cs ih =>
    calc (s.changes (c :: cs)).entries = ((s.change c).changes cs).entries := rfl
      _ = s.entries ++ c.added?.getD [] ++ cs.flatMap _ := by rw [ih, entries_change]
      _ = s.entries ++ (c :: cs).flatMap _ := by rw [List.append_assoc, List.flatMap_cons]

theorem eq_of_get {s s' : Settings} (h : ∀ f, s.get f = s'.get f) (entries : s.entries = s'.entries) : s = s' := by
  obtain ⟨signals, backlog, grace, es⟩ := s
  obtain ⟨signals', backlog', grace', es'⟩ := s'
  obtain rfl : signals = signals' := SignalSettings.eq_of_get fun f => h (.signals f)
  obtain rfl : backlog = backlog' := h .restartBacklog
  obtain rfl : grace = grace' := h .exitGrace
  obtain rfl : es = es' := entries
  rfl

theorem change_comm {c d : SettingsChange} (apart : c.Apart d) (s : Settings) :
    (s.change c).change d = (s.change d).change c := by
  obtain ⟨fields, entries⟩ := apart
  refine eq_of_get (fun f => by simp only [get_change, getD_comm (fields f)]) ?_
  simp only [entries_change]
  rcases entries with none | none <;> rw [none] <;> simp only [Option.getD_none, List.append_nil]

theorem changes_swap {c d : SettingsChange} (apart : c.Apart d) (s : Settings) (before after : List SettingsChange) :
    s.changes (before ++ d :: c :: after) = s.changes (before ++ c :: d :: after) := by
  simp only [changes, List.foldl_append, List.foldl_cons, change_comm apart]

/-- Every field of the settings that a run is built with, and of the signal settings that a change puts in as a whole, has
the value written last, or the default of what the changes began with; such a change touches the fields of the signals and
no other. A stream keeps one delivery at least, at every point on the way. The entries are those that were added, in this
order. Two changes that touch different fields, one after the other, could as well be made the other way round. -/
theorem last_change_wins (cs : List SettingsChange) (services : List Service) :
    let built := Run.initial (({} : Settings).changes cs) services
    (∀ f, LastWins (·.written? f) cs f.default (built.settings.get f)) ∧
    (∀ calls f, LastWins (·.written? f) calls (SignalField.default f) ((({} : SignalSettings).changes calls).get f) ∧
      LastWins (·.written? f) calls (SignalField.silence f) ((SignalSettings.silent.changes calls).get f)) ∧
    (∀ source f, ((SettingsChange.signals source).written? f).isSome = true ↔ ∃ g, f = .signals g) ∧
    (∀ earlier later, cs = earlier ++ later → 1 ≤ (({} : Settings).changes earlier).signals.capacity) ∧
    built.settings.entries = (cs.flatMap fun c => c.added?.getD []) ∧
    (∀ before c d after, cs = before ++ c :: d :: after → c.Apart d →
      Run.initial (({} : Settings).changes (before ++ d :: c :: after)) services = built) ∧
    ∀ (s : SignalSettings) c d, c.Apart d → (s.change c).change d = (s.change d).change c := by
  intro built
  refine ⟨fun f => ?_, fun calls f => ⟨?_, ?_⟩, fun source f => ?_, fun earlier later _ => ?_, ?_, ?_,
    fun s c d apart => s.change_comm apart⟩
  · rw [← get_default f]
    exact lastWins_changes f {} cs
  · rw [← SignalSettings.get_default f]
    exact SignalSettings.lastWins_changes f {} calls
  · rw [← SignalSettings.get_silent f]
    exact SignalSettings.lastWins_changes f .silent calls
  · exact SettingsChange.isSome_written?_signals source f
  · exact (({} : Settings).changes earlier).signals.capacity_pos
  · exact (entries_changes {} cs).trans (List.nil_append _)
  · rintro before c d after rfl apart
    exact congrArg (Run.initial · services) (changes_swap apart {} before after)

/-- Signals put in as a whole undo what was set before, and are changed by what is set after. -/
example : ({} : Settings).changes [.shutdownSignals [10, 10], .entry ⟨"a", 0⟩, .exitGrace 7,
      .signals (SignalSettings.silent.changes [.capacity 4, .restart [12, 1, 12]]), .signalCapacity 0,
      .entries [⟨"b", 1⟩, ⟨"a", 0⟩]] =
    { signals := { shutdown := [], restart := [12, 1, 12], capacity := 1 }, exitGrace := 7,
      entries := [⟨"a", 0⟩, ⟨"b", 1⟩, ⟨"a", 0⟩] } := rfl

end Settings

end Supervision
