import Supervision.Proofs.MaskedTurn

/-! Restart calls, seen through a mask that hides how far entries lag. An entry that fell behind is told of several firings
at once and answers them one after the other. It is seen to read them one by one instead, each at the moment when the call
for it begins; so what its restart task does at a turn depends on nothing that the mask hides. -/

namespace Supervision

/-! ### Readers -/

namespace Broadcast

def readOne (b : Broadcast) (i : Nat) : Broadcast :=
  b.moveReader i (b.fired - b.unread i + 1)

/-- Reader `i` has yet to read the last `n` of the firings that it has read. -/
def moveBack (b : Broadcast) (i n : Nat) : Broadcast :=
  { b with readers := b.readers.modify i (Option.map (· - n)) }

theorem position?_moveReader_ne (b : Broadcast) {i j : Nat} (other : j ≠ i) (p : Nat) :
    (b.moveReader i p).position? j = b.position? j := by
  simp only [position?, moveReader, List.getElem?_set_ne other.symm]

theorem position?_moveBack (b : Broadcast) (i n : Nat) :
    (b.moveBack i n).position? i = (b.position? i).map (· - n) := by
  simp only [position?, moveBack, List.getElem?_modify_eq]
  cases b.readers[i]? <;> rfl

theorem position?_moveBack_ne (b : Broadcast) {i j : Nat} (other : j ≠ i) (n : Nat) :
    (b.moveBack i n).position? j = b.position? j := by
  simp [position?, moveBack, other.symm]

theorem eq_of_position? {b b' : Broadcast} (size : b.size = b'.size) (fired : b.fired = b'.fired)
    (closed : b.closed = b'.closed) (readers : b.readers.length = b'.readers.length)
    (position : ∀ i, b.position? i = b'.position? i) : b = b' := by
  have same : b.readers = b'.readers := by
    refine List.ext_getElem readers fun i h h' => ?_
    have there := position i
    rwa [position?, position?, List.getElem?_eq_getElem h, List.getElem?_eq_getElem h', Option.join_some,
      Option.join_some] at there
  obtain ⟨_, _, _, _⟩ := b
  obtain ⟨_, _, _, _⟩ := b'
  subst size fired closed same
  rfl

end Broadcast

namespace Mask

theorem position?_lagless (early : Nat → Nat) (b : Broadcast) (i : Nat) :
    (lagless.broadcast early b).position? i = (b.position? i).map (· - early i) :=
  position?_broadcast early b i (by simp [lagless])

theorem outcome_lagless (o : Outcome) : lagless.outcome o = o := rfl

end Mask

open Mask

namespace Run

variable {r r' : Run} {e : Nat}

/-! ### Updates -/

def withRestarts (r : Run) (b : Broadcast) : Run :=
  { r with restarts := b }

theorem update_update (r : Run) (e : Nat) (f g : Member → Member) :
    (r.update e f).update e g = r.update e fun m => g (f m) := by
  simp only [update, List.modify_modify_eq]
  rfl

theorem update_congr {f g : Member → Member} (same : f (r.member e) = g (r.member e)) : r.update e f = r.update e g := by
  have members : r.members.modify e f = r.members.modify e g := by
    refine List.ext_getElem (by simp) fun i h h' => ?_
    rw [List.getElem_modify, List.getElem_modify]
    split
    · rename_i own
      subst own
      have he : e < r.members.length := by simpa using h
      have there : r.member e = r.members[e] := by simp [member, he]
      rwa [← there]
    · rfl
  rw [update, update, members]

theorem update_eq_self {f : Member → Member} (same : f (r.member e) = r.member e) : r.update e f = r := by
  rw [update_congr (g := id) same, update, List.modify_id]

theorem total_of_counts {count : Member → Nat} (entries : r'.settings.entries = r.settings.entries)
    (counts : r'.members.map count = r.members.map count) (service : Nat) :
    r'.total service count = r.total service count := by
  unfold total
  rw [entries]
  generalize r.settings.entries = es, r'.members = ms', r.members = ms, 0 = n at counts
  induction es generalizing ms ms' n with
  | nil => rfl
  | cons entry es ih =>
    cases ms with
    | nil =>
      rw [List.map_eq_nil_iff.mp counts]
    | cons m ms =>
      cases ms' with
      | nil => cases counts
      | cons m' ms' =>
        obtain ⟨first, rest⟩ := List.cons.inj counts
        simp only [List.zip_cons_cons, List.foldl_cons, first]
        exact ih _ _ _ rest

theorem total_update {count : Member → Nat} {f : Member → Member} (r : Run) (e service : Nat)
    (same : ∀ x, count (f x) = count x) : (r.update e f).total service count = r.total service count := by
  have entries : (r.update e f).settings.entries = r.settings.entries := rfl
  refine total_of_counts entries ?_ service
  have modified : (r.members.modify e f).map count = (r.members.map count).modify e id := map_modify fun x _ => same x
  rwa [List.modify_id] at modified

/-! ### What an entry owes -/

/-- Where the reader of an entry stands, if it is there: not before the firings that the entry owes. -/
def Placed (r : Run) (e : Nat) : Prop :=
  r.restarts.position? e = none ∧ (r.member e).owed = 0 ∨
    ∃ p ≤ r.restarts.fired, r.restarts.position? e = some p ∧ (r.member e).owed ≤ p ∧ e < r.members.length

theorem Placed.lt (placed : r.Placed e) (news : 0 < r.restarts.unread e) : e < r.members.length := by
  rcases placed with ⟨none, -⟩ | ⟨p, -, -, -, he⟩
  · simp [Broadcast.unread, none] at news
  · exact he

theorem Placed.mono (placed : r.Placed e) (position : r'.restarts.position? e = r.restarts.position? e)
    (fired : r.restarts.fired ≤ r'.restarts.fired) (owed : (r'.member e).owed ≤ (r.member e).owed)
    (members : r'.members.length = r.members.length) : r'.Placed e := by
  rcases placed with ⟨nowhere, none⟩ | ⟨p, within, somewhere, le, he⟩
  · exact .inl ⟨position.trans nowhere, Nat.le_zero.mp (none ▸ owed)⟩
  · exact .inr ⟨p, Nat.le_trans within fired, position.trans somewhere, Nat.le_trans owed le, members ▸ he⟩

theorem Placed.same (placed : r.Placed e) (restarts : r'.restarts = r.restarts)
    (owed : (r'.member e).owed ≤ (r.member e).owed) (members : r'.members.length = r.members.length) : r'.Placed e :=
  placed.mono (by rw [restarts]) (Nat.le_of_eq (by rw [restarts])) owed members

theorem Placed.spared (placed : r.Placed e) (spares : Spares r r') : r'.Placed e :=
  placed.same spares.restarts (Nat.le_of_eq (by rw [member_of_members spares.members])) (by rw [spares.members])

theorem Placed.takeFirings {n : Nat} {b : Broadcast} (placed : r.Placed e) (next : r.restarts.next e = (.firings n, b)) :
    (r.takeFirings e n b).Placed e := by
  obtain ⟨pos, le, moved⟩ := Broadcast.next_firings next
  have he := placed.lt (Nat.lt_of_lt_of_le pos le)
  have members := r.members_takeFirings e n b
  have within := r.restarts.unread_le_fired e
  have some := Broadcast.isSome_position?_of_unread_pos (Nat.lt_of_lt_of_le pos le)
  have restarts : (r.takeFirings e n b).restarts = b := rfl
  refine .inr ⟨r.restarts.fired - (r.restarts.unread e - n), ?_, ?_, ?_, ?_⟩
  · rw [restarts, moved]
    exact Nat.sub_le _ _
  · rw [restarts, moved, Broadcast.position?_moveReader some]
  · rw [member_modify members he]
    show n ≤ _
    omega
  · rwa [members, List.length_modify]

theorem member_endRestart {p : Pause} (busy : (r.member e).restarting = some p) (o : Outcome) :
    (r.endRestart e o).member e = { r.member e with restarting := none } :=
  member_modify (r.members_endRestart e o) (lt_of_restarting (by simp [busy]))

theorem Placed.endRestart {p : Pause} (placed : r.Placed e) (busy : (r.member e).restarting = some p) (o : Outcome) :
    (r.endRestart e o).Placed e := by
  refine placed.same rfl (Nat.le_of_eq (by rw [member_endRestart busy])) ?_
  rw [members_endRestart, List.length_modify]

/-! ### What an entry gives back -/

/-- An entry is yet to be told of the firings that it owes. -/
def giveBack (r : Run) (e : Nat) : Run :=
  (r.update e fun m => { m with owed := 0 }).withRestarts (r.restarts.moveBack e (r.member e).owed)

theorem giveBack_of_none (none : (r.member e).owed = 0) : r.giveBack e = r := by
  have readers : r.restarts.moveBack e 0 = r.restarts := by
    refine Broadcast.eq_of_position? rfl rfl rfl (by simp [Broadcast.moveBack]) fun i => ?_
    by_cases own : i = e
    · subst own
      simp [Broadcast.position?_moveBack]
    · rw [Broadcast.position?_moveBack_ne _ own]
  rw [giveBack, none, readers, update_eq_self (by rw [← none])]
  rfl

theorem owed_run_of_idle (idle : (r.member e).restarting = none) :
    ((lagless.run r).member e).owed = (r.member e).owed := by
  rw [member_run, Mask.member, ahead_of_idle idle]
  rfl

/-- The firings that an entry has yet to be restarted for. -/
def outstanding (r : Run) (e : Nat) : Nat :=
  (r.member e).owed + r.restarts.unread e

theorem unread_giveBack (placed : r.Placed e) (idle : (r.member e).restarting = none) :
    ((lagless.run r).giveBack e).restarts.unread e = r.outstanding e := by
  have back : ((lagless.run r).giveBack e).restarts.position? e =
      (r.restarts.position? e).map (· - (r.member e).owed) := by
    rw [giveBack, owed_run_of_idle idle]
    refine (Broadcast.position?_moveBack _ _ _).trans ?_
    rw [position?_run, ahead_of_idle idle]
    cases r.restarts.position? e <;> rfl
  have fired : ((lagless.run r).giveBack e).restarts.fired = r.restarts.fired := rfl
  rw [Broadcast.unread, back, fired, outstanding, Broadcast.unread]
  rcases placed with ⟨position, none⟩ | ⟨p, within, position, le, -⟩
  · simp [position, none]
  · simp only [position, Option.map_some]
    omega

/-! ### Readings -/

theorem moveBack_readings {n : Nat} {b : Broadcast} (placed : r.Placed e) (idle : (r.member e).restarting = none)
    (next : r.restarts.next e = (.firings n, b)) :
    (lagless.broadcast (fun e' => lagless.ahead (r.member e')) b).moveBack e n = (lagless.run r).restarts := by
  obtain ⟨pos, le, rfl⟩ := Broadcast.next_firings next
  have some := Broadcast.isSome_position?_of_unread_pos (Nat.lt_of_lt_of_le pos le)
  refine Broadcast.eq_of_position? rfl rfl rfl ?_ fun i => ?_
  · simp [Mask.run, Broadcast.moveBack, Broadcast.moveReader, length_readers_broadcast]
  · rw [position?_run]
    by_cases own : i = e
    · subst own
      rcases placed with ⟨none, -⟩ | ⟨p, within, position, -⟩
      · simp [none] at some
      · have unread : r.restarts.unread i = r.restarts.fired - p := by rw [Broadcast.unread, position]
        rw [unread] at le ⊢
        rw [Broadcast.position?_moveBack, position?_lagless, Broadcast.position?_moveReader (by simp [position]), position,
          ahead_of_idle idle]
        simp only [Option.map_some, Option.some.injEq] at le ⊢
        omega
    · rw [Broadcast.position?_moveBack_ne _ own, position?_lagless, Broadcast.position?_moveReader_ne _ own]

theorem giveBack_takeFirings {n : Nat} {b : Broadcast} (placed : r.Placed e) (idle : (r.member e).restarting = none)
    (none : (r.member e).owed = 0) (next : r.restarts.next e = (.firings n, b)) :
    (lagless.run (r.takeFirings e n b)).giveBack e = lagless.run r := by
  obtain ⟨pos, le, -⟩ := Broadcast.next_firings next
  have he : e < (lagless.run r).members.length := by
    simpa [Mask.run] using placed.lt (Nat.lt_of_lt_of_le pos le)
  have untold : (if 1 < n then [Event.fellBehind (r.nameOf e) n] else []).filterMap lagless.event? = [] := by
    split <;> rfl
  have read : lagless.run { r with
        restarts := b, trace := r.trace ++ if 1 < n then [.fellBehind (r.nameOf e) n] else [] } =
      (lagless.run r).withRestarts (lagless.broadcast (fun e' => lagless.ahead (r.member e')) b) := by
    simp only [Mask.run, List.filterMap_append, untold, List.append_nil]
    rfl
  have seen : lagless.run (r.takeFirings e n b) =
      ((lagless.run r).update e fun m => { m with owed := n }).withRestarts
        (lagless.broadcast (fun e' => lagless.ahead (r.member e')) b) := by
    refine (run_update _ e ?_ ?_).trans (congrArg (fun x : Run => x.update e fun m => { m with owed := n }) read)
    · exact member_owe idle n
    · exact ahead_owe idle n
  have owes : ((lagless.run (r.takeFirings e n b)).member e).owed = n := by
    have members : (lagless.run (r.takeFirings e n b)).members = _ := congrArg Run.members seen
    exact congrArg Member.owed (member_modify members he)
  have owed : ((lagless.run r).member e).owed = 0 := by
    rw [member_run]
    simp [Mask.member, none]
  rw [giveBack, owes, seen]
  calc (((lagless.run r).update e fun m => { m with owed := n }).update e fun m => { m with owed := 0 }).withRestarts
        ((lagless.broadcast (fun e' => lagless.ahead (r.member e')) b).moveBack e n)
    _ = (lagless.run r).withRestarts (lagless.run r).restarts := by
      rw [moveBack_readings placed idle next, update_update, update_eq_self (by rw [← owed])]
    _ = lagless.run r := rfl

/-! ### Calls -/

theorem takeFirings_giveBack {x : Run} (hx : x = r.giveBack e) (b : Broadcast) :
    x.takeFirings e 1 b = (r.update e fun m => { m with owed := 1 }).withRestarts b := by
  have twice := update_update r e (fun m => { m with owed := 0 }) fun m => { m with owed := 1 }
  have read : x.takeFirings e 1 b = (x.update e fun m => { m with owed := 1 }).withRestarts b := by
    simp only [takeFirings, Nat.lt_irrefl, if_false, List.append_nil]
    rfl
  rw [read, hx, ← twice]
  rfl

/-- A call for one of the firings that the entry owes is about to begin. -/
def answering (r : Run) (e : Nat) : Run :=
  (r.log (.restarting (r.nameOf e))).update e fun m =>
    { m with owed := m.owed - 1, restarts := m.restarts + 1, restarting := some .never }

theorem beginRestart_eq (r : Run) (e : Nat) :
    r.beginRestart e =
      (r.answering e).begin e .restart ((r.service e).restart (r.total (r.serviceOf e) Member.restarts)) :=
  rfl

theorem members_answering (r : Run) (e : Nat) :
    (r.answering e).members = r.members.modify e fun m =>
      { m with owed := m.owed - 1, restarts := m.restarts + 1, restarting := some .never } :=
  rfl

theorem broadcast_answering (placed : r.Placed e) (idle : (r.member e).restarting = none)
    (owes : (r.member e).owed ≠ 0) :
    lagless.broadcast (fun e' => lagless.ahead ((r.answering e).member e')) r.restarts =
      ((lagless.run r).restarts.moveBack e (r.member e).owed).readOne e := by
  refine Broadcast.eq_of_position? rfl rfl rfl ?_ fun i => ?_
  · simp [Mask.run, Broadcast.moveBack, Broadcast.readOne, Broadcast.moveReader, length_readers_broadcast]
  · rw [position?_lagless, Broadcast.readOne]
    by_cases own : i = e
    · subst own
      rcases placed with ⟨-, none⟩ | ⟨p, within, position, le, hi⟩
      · exact absurd none owes
      · have early : lagless.ahead ((r.answering i).member i) = (r.member i).owed - 1 := by
          rw [member_modify (r.members_answering i) hi]
          rfl
        have back : ((lagless.run r).restarts.moveBack i (r.member i).owed).position? i = some (p - (r.member i).owed) := by
          rw [Broadcast.position?_moveBack, position?_run, position, ahead_of_idle idle]
          rfl
        have fired : ((lagless.run r).restarts.moveBack i (r.member i).owed).fired = r.restarts.fired := rfl
        rw [Broadcast.position?_moveReader (by simp [back]), Broadcast.unread, back, position, early, fired]
        simp only [Option.map_some, Option.some.injEq]
        omega
    · have other : (r.answering e).member i = r.member i := member_modify_ne (r.members_answering e) own
      rw [Broadcast.position?_moveReader_ne _ own, Broadcast.position?_moveBack_ne _ own, position?_run, other]

theorem run_answering (placed : r.Placed e) (idle : (r.member e).restarting = none) (owes : (r.member e).owed ≠ 0)
    {x : Run} (hx : x = (lagless.run r).giveBack e) :
    lagless.run (r.answering e) = (x.takeFirings e 1 (x.restarts.readOne e)).answering e := by
  let named := (lagless.run r).log (.restarting (r.nameOf e))
  have logged : lagless.run (r.log (.restarting (r.nameOf e))) = named := run_log r rfl
  have restarts : x.restarts = (lagless.run r).restarts.moveBack e (r.member e).owed := by
    rw [hx, ← owed_run_of_idle idle]
    rfl
  have read := takeFirings_giveBack hx (x.restarts.readOne e)
  have name : (lagless.run r).nameOf e = r.nameOf e := names_of_blank rfl
  -- to owe one firing and to answer it is to owe none, as an entry is seen to do
  have twice := update_update named e (fun m => { m with owed := 1 }) fun m =>
    { m with owed := m.owed - 1, restarts := m.restarts + 1, restarting := some .never }
  calc lagless.run (r.answering e)
    _ = (named.update e fun m =>
          { m with owed := 0, restarts := m.restarts + 1, restarting := some .never }).withRestarts
            (lagless.broadcast (fun e' => lagless.ahead ((r.answering e).member e')) r.restarts) := by
      rw [← logged]
      refine run_update_members _ e ?_
      simp [Mask.member, ahead, lagless, pause]
    _ = (named.update e fun m =>
          { m with owed := 0, restarts := m.restarts + 1, restarting := some .never }).withRestarts
            (x.restarts.readOne e) := by
      rw [broadcast_answering placed idle owes, ← restarts]
    _ = (x.takeFirings e 1 (x.restarts.readOne e)).answering e := by
      rw [read]
      generalize x.restarts.readOne e = b
      have same : (((lagless.run r).update e fun m => { m with owed := 1 }).withRestarts b).nameOf e = r.nameOf e := name
      rw [answering, same]
      exact congrArg (fun y : Run => y.withRestarts b) twice.symm

theorem beginRestart_lagless (placed : r.Placed e) (idle : (r.member e).restarting = none) (owes : (r.member e).owed ≠ 0)
    {x : Run} (hx : x = (lagless.run r).giveBack e) :
    (x.takeFirings e 1 (x.restarts.readOne e)).beginRestart e = (r.beginRestart e).map lagless.progress lagless.run := by
  have began := run_answering placed idle owes hx
  have read := takeFirings_giveBack hx (x.restarts.readOne e)
  generalize x.takeFirings e 1 (x.restarts.readOne e) = z at began read
  have entry : z.serviceOf e = r.serviceOf e := by
    rw [read]
    exact serviceOf_run r e
  have service : z.service e = (lagless.run r).service e := by
    rw [read]
    rfl
  have count : z.total (z.serviceOf e) Member.restarts = r.total (r.serviceOf e) Member.restarts := by
    have kept : ((lagless.run r).update e fun m => { m with owed := 1 }).total (r.serviceOf e) Member.restarts =
        (lagless.run r).total (r.serviceOf e) Member.restarts := total_update _ e _ fun _ => rfl
    rw [entry, ← total_run (m := lagless) r _ fun _ => rfl, read, ← kept]
    rfl
  calc z.beginRestart e
    _ = (lagless.run (r.answering e)).begin e .restart
          (lagless.behaviour ((r.service e).restart (r.total (r.serviceOf e) Member.restarts))) := by
      rw [beginRestart_eq, began, count, service, (service_run r e).2.2]
    _ = (r.beginRestart e).map lagless.progress lagless.run := begin_run (r.answering e) e .restart _

theorem broadcast_endRestart {p : Pause} (busy : (r.member e).restarting = some p) (o : Outcome) :
    (lagless.broadcast (fun e' => lagless.ahead ((r.endRestart e o).member e')) r.restarts).moveBack e (r.member e).owed =
      (lagless.run r).restarts := by
  have idle : ((r.endRestart e o).member e).restarting = none := by rw [member_endRestart busy]
  have early : lagless.ahead (r.member e) = (r.member e).owed := by simp [ahead, lagless, busy]
  refine Broadcast.eq_of_position? rfl rfl rfl ?_ fun i => ?_
  · simp [Mask.run, Broadcast.moveBack, length_readers_broadcast]
  · rw [position?_run]
    by_cases own : i = e
    · subst own
      rw [Broadcast.position?_moveBack, position?_lagless, ahead_of_idle idle, early]
      cases r.restarts.position? i <;> rfl
    · rw [Broadcast.position?_moveBack_ne _ own, position?_lagless, member_modify_ne (r.members_endRestart e o) own]

theorem giveBack_endRestart {p : Pause} (busy : (r.member e).restarting = some p) (o : Outcome) :
    (lagless.run (r.endRestart e o)).giveBack e = (lagless.run r).endRestart e o := by
  let r₁ := (r.markEnd e .restart o).report e .restart o
  have idle : ((r.endRestart e o).member e).restarting = none := by rw [member_endRestart busy]
  have owed : ((r.endRestart e o).member e).owed = (r.member e).owed := by rw [member_endRestart busy]
  have early : lagless.ahead (r₁.member e) = (r.member e).owed := by
    have there : r₁.member e = r.member e := rfl
    simp [ahead, lagless, there, busy]
  have ended : lagless.run r₁ = ((lagless.run r).markEnd e .restart o).report e .restart o :=
    run_reportEnd (names_of_blank rfl) .restart o
  have seen : lagless.run (r.endRestart e o) =
      ((lagless.run r₁).update e fun m => { m with restarting := none, owed := (r.member e).owed }).withRestarts
        (lagless.broadcast (fun e' => lagless.ahead ((r.endRestart e o).member e')) r.restarts) := by
    refine run_update_members r₁ e ?_
    simp [Mask.member, ahead, lagless]
    rfl
  have none : ((lagless.run r₁).member e).owed = 0 := by
    rw [member_run, Mask.member, early]
    exact Nat.sub_self _
  have same := update_congr (r := lagless.run r₁) (e := e) (f := fun m => { m with restarting := .none, owed := 0 })
    (g := fun m => { m with restarting := .none }) (by rw [← none])
  rw [giveBack, owed_run_of_idle idle, owed, seen]
  calc ((((lagless.run r₁).update e fun m => { m with restarting := .none, owed := (r.member e).owed }).withRestarts _).update
        e fun m => { m with owed := 0 }).withRestarts _
    _ = (((lagless.run r₁).update e fun m => { m with restarting := .none, owed := (r.member e).owed }).update
          e fun m => { m with owed := 0 }).withRestarts (lagless.run r).restarts := by
      rw [← broadcast_endRestart busy o]
      rfl
    _ = (lagless.run r₁).update e fun m => { m with restarting := .none } := by
      rw [update_update, same]
      rfl
    _ = (lagless.run r).endRestart e o := by
      rw [ended]
      rfl

/-! ### The loop -/

/-- Reads the firings one by one and answers each with a call, at most `n` of them. -/
def oneByOne (e : Nat) : Nat → Run → Run
  | 0, r => r
  | n + 1, r =>
    if r.restarts.unread e = 0 then
      if r.restarts.closed then r.update e fun m => { m with retired := true } else r
    else
      match (r.takeFirings e 1 (r.restarts.readOne e)).beginRestart e with
      | (.paused p, r) => r.update e fun m => { m with restarting := some p }
      | (.ended o, r) => oneByOne e n (r.endRestart e o)

theorem spares_beginRestart (he : e < r.members.length) :
    ((r.beginRestart e).2.member e).owed = (r.member e).owed - 1 ∧
      ((r.beginRestart e).2.member e).restarting = some .never ∧
      (r.beginRestart e).2.members.length = r.members.length ∧ (r.beginRestart e).2.restarts = r.restarts ∧
      (r.beginRestart e).2.readsFreely = r.readsFreely := by
  let r₁ := (r.answering e).mark (.began e .restart)
  have members : r₁.members = r.members.modify e _ := r.members_answering e
  have spares : Spares r₁ (r.beginRestart e).2 := (proceeds_follow e .restart _ r₁).1.spares
  have same : (r.beginRestart e).2.member e = r₁.member e := member_of_members spares.members e
  rw [same, member_modify members he, spares.members, members, List.length_modify, spares.restarts, spares.readsFreely]
  exact ⟨rfl, rfl, rfl, rfl, rfl⟩

theorem restartLoop_free (free : r.readsFreely = true) (e fuel : Nat) :
    restartLoop e (fuel + 1) r =
      if (r.member e).owed = 0 then
        match r.restarts.next e with
        | (.firings n, b) => restartLoop e fuel (r.takeFirings e n b)
        | (.closed, _) => r.update e fun m => { m with retired := true }
        | (.pending, _) => r
      else
        match r.beginRestart e with
        | (.paused p, r) => r.update e fun m => { m with restarting := some p }
        | (.ended o, r) => restartLoop e fuel (r.endRestart e o) := by
  have can : r.cannotRead = false := by simp [cannotRead, free]
  have spent : r.spendReading = r := by simp [spendReading, free]
  rw [restartLoop, can, spent]
  rfl

/-- However many firings an entry is told of at once, it is seen to read them one by one. -/
theorem run_restartLoop_lagless {fuel n : Nat} (free : r.readsFreely = true) (placed : r.Placed e)
    (idle : (r.member e).restarting = none) (enough : (r.member e).owed + 2 * r.restarts.unread e < fuel)
    (left : r.outstanding e < n) :
    lagless.run (restartLoop e fuel r) = oneByOne e n ((lagless.run r).giveBack e) := by
  induction fuel generalizing r n with
  | zero => omega
  | succ fuel ih =>
    obtain ⟨n, rfl⟩ : ∃ n', n = n' + 1 := ⟨n - 1, by omega⟩
    have unread := unread_giveBack placed idle
    rw [restartLoop_free free]
    split
    · rename_i none
      have same : (lagless.run r).giveBack e = lagless.run r := giveBack_of_none (by rw [owed_run_of_idle idle, none])
      rcases r.restarts.next_cases e with ⟨m, pos, le, next⟩ | ⟨read, next⟩
      · -- to read takes a step of the loop, and is not seen
        have owed := r.owed_takeFirings_le e m (r.restarts.moveReader e (r.restarts.fired - (r.restarts.unread e - m)))
        have total := r.restarts.told_add_unread_next e
        rw [next] at total ⊢
        generalize r.restarts.moveReader e (r.restarts.fired - (r.restarts.unread e - m)) = b at next owed total
        have restarts : (r.takeFirings e m b).restarts = b := rfl
        simp only [Reading.told] at total
        rw [same, ← giveBack_takeFirings placed idle none next]
        refine ih (r := r.takeFirings e m b) free (placed.takeFirings next) ?_ ?_ ?_
        · rw [restarting_takeFirings, idle]
        · rw [restarts]
          omega
        · unfold outstanding at left ⊢
          rw [restarts]
          omega
      · have nothing : (lagless.run r).restarts.unread e = 0 := (unread_run_of_idle idle).trans read
        rw [next, same, oneByOne, if_pos nothing, closed_run]
        cases r.restarts.closed with
        | true => exact run_update r e rfl rfl
        | false => rfl
    · rename_i owes
      have some : r.outstanding e ≠ 0 := by
        unfold outstanding
        omega
      have begins := beginRestart_lagless placed idle owes rfl
      obtain ⟨owed, busy, members, restarts, free'⟩ := spares_beginRestart (r := r) (lt_of_owed owes)
      rw [oneByOne, unread, if_neg some, begins]
      generalize r.beginRestart e = x at owed busy members restarts free'
      obtain ⟨progress, r₁⟩ := x
      cases progress with
      | paused p => exact run_pause busy p
      | ended o =>
        dsimp only at owed busy members restarts free'
        have placed₁ : r₁.Placed e := placed.same restarts (by omega) members
        have restarts' : (r₁.endRestart e o).restarts = r.restarts := restarts
        show lagless.run (restartLoop e fuel (r₁.endRestart e o)) = oneByOne e n ((lagless.run r₁).endRestart e o)
        rw [← giveBack_endRestart busy]
        refine ih (free'.trans free) (placed₁.endRestart busy o) ?_ ?_ ?_
        · rw [member_endRestart busy]
        · rw [restarts', member_endRestart busy, owed]
          omega
        · unfold outstanding at left ⊢
          rw [restarts', member_endRestart busy, owed]
          omega

/-- Two runs that look alike, but for what an idle entry owes and what it has yet to read, look alike once it has answered
every firing. -/
theorem restartAll_alike (alike : (lagless.run r).giveBack e = (lagless.run r').giveBack e) (free : r.readsFreely = true)
    (free' : r'.readsFreely = true) (placed : r.Placed e) (placed' : r'.Placed e)
    (idle : (r.member e).restarting = none) (idle' : (r'.member e).restarting = none) :
    lagless.run (r.restartAll e) = lagless.run (r'.restartAll e) := by
  have same : r'.outstanding e = r.outstanding e := by
    rw [← unread_giveBack placed idle, ← unread_giveBack placed' idle', alike]
  have fuel (r : Run) : (r.member e).owed + 2 * r.restarts.unread e < r.restartSteps e := by
    unfold restartSteps
    omega
  rw [restartAll, restartAll, run_restartLoop_lagless free placed idle (fuel r) (Nat.lt_succ_self _), alike,
    run_restartLoop_lagless free' placed' idle' (fuel r') (Nat.lt_succ_of_le (Nat.le_of_eq same))]

/-! ### The turn -/

theorem restarting_alike (alike : lagless.run r = lagless.run r') :
    (r.member e).restarting.map lagless.pause = (r'.member e).restarting.map lagless.pause := by
  have seen (r : Run) : ((lagless.run r).member e).restarting = (r.member e).restarting.map lagless.pause := by
    rw [member_run]
    rfl
  rw [← seen, alike, seen]

theorem keepRestart_alike {p p' : Pause} {x x' : Progress × Run}
    (alike : x.map lagless.progress lagless.run = x'.map lagless.progress lagless.run) (free : x.2.readsFreely = true)
    (free' : x'.2.readsFreely = true) (placed : x.2.Placed e) (placed' : x'.2.Placed e)
    (busy : (x.2.member e).restarting = some p) (busy' : (x'.2.member e).restarting = some p') :
    lagless.run (keepRestart e (·.restartAll e) x) = lagless.run (keepRestart e (·.restartAll e) x') := by
  obtain ⟨progress, r⟩ := x
  obtain ⟨progress', r'⟩ := x'
  obtain ⟨progresses, seen⟩ := Prod.ext_iff.mp alike
  dsimp only [Prod.map_fst, Prod.map_snd] at progresses seen
  cases progress with
  | paused q =>
    cases progress' with
    | ended => simp [Mask.progress] at progresses
    | paused q' =>
      have same : lagless.pause q = lagless.pause q' := by simpa [Mask.progress] using progresses
      show lagless.run (r.update e _) = lagless.run (r'.update e _)
      rw [run_pause busy, run_pause busy', seen, same]
  | ended o =>
    cases progress' with
    | paused => simp [Mask.progress] at progresses
    | ended o' =>
      have same : o = o' := by simpa [Mask.progress, outcome_lagless] using progresses
      subst same
      have ended : (lagless.run (r.endRestart e o)).giveBack e = (lagless.run (r'.endRestart e o)).giveBack e := by
        rw [giveBack_endRestart busy, giveBack_endRestart busy', seen]
      exact restartAll_alike ended free free' (placed.endRestart busy o) (placed'.endRestart busy' o)
        (by rw [member_endRestart busy]) (by rw [member_endRestart busy'])

/-- A restart task is seen to do the same in two runs that look alike. -/
theorem restartTurn_alike (alike : lagless.run r = lagless.run r') (free : r.readsFreely = true)
    (free' : r'.readsFreely = true) (placed : r.Placed e) (placed' : r'.Placed e) :
    lagless.run (r.restartTurn e) = lagless.run (r'.restartTurn e) := by
  have restarting := restarting_alike (e := e) alike
  unfold restartTurn
  cases h : (r.member e).restarting with
  | none =>
    have h' : (r'.member e).restarting = none := by simpa [h] using restarting.symm
    rw [h']
    exact restartAll_alike (congrArg (giveBack · e) alike) free free' placed placed' h h'
  | some p =>
    obtain ⟨p', h', pauses⟩ : ∃ p', (r'.member e).restarting = some p' ∧ lagless.pause p' = lagless.pause p := by
      simpa [h] using restarting.symm
    have resumed : (r.resume e .restart p).map lagless.progress lagless.run =
        (r'.resume e .restart p').map lagless.progress lagless.run := by
      rw [← resume_run, ← resume_run, alike, pauses]
    have proceeds : Proceeds e .restart r (r.resume e .restart p) := proceeds_resume h
    have proceeds' : Proceeds e .restart r' (r'.resume e .restart p') := proceeds_resume h'
    have spares := proceeds.1.spares
    have spares' := proceeds'.1.spares
    rw [h']
    exact keepRestart_alike resumed (spares.readsFreely.trans free) (spares'.readsFreely.trans free')
      (placed.spared spares) (placed'.spared spares') (by rw [member_of_members spares.members, h])
      (by rw [member_of_members spares'.members, h'])

end Run

end Supervision
