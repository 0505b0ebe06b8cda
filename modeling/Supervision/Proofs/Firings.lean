import Supervision.Proofs.Waking

/-! The broadcast of a run. It is made when the run is set up, it fires only while the run waits for something to shut down
for, and it is closed at the return; so an entry that found it closed has answered every firing that it was told of, and
will hear of no more. -/

namespace Supervision

namespace Run

variable {settings : Settings} {services : List Service} {r r' : Run} {t : Task} {cur : Option Task} {e : Nat}
  {os : List Occurrence}

inductive Rebroadcasts (t : Task) (r r' : Run) : Prop
  | same (h : r'.restarts = r.restarts)
  | equip (h : r.stage = .spawned) (fresh : r'.restarts.closed = false)
  | fire {round : Round} (h : r.stage = .running round) (fired : r'.restarts = r.restarts.fire)
  | read {e n : Nat} (h : t = .restart e) (next : r.restarts.next e = (.firings n, r'.restarts))
  | close (h : r'.stage.hasReturned = true) (closed : r'.restarts = r.restarts.close)

theorem closed_of_acquire {s : Settings} {shutdown restart : Inbox} {b : Broadcast}
    (h : acquire s = .ok (shutdown, restart, b)) : b.closed = false := by
  obtain ⟨-, -, -, rfl⟩ := acquire_ok h
  rw [Broadcast.foldl_subscribe]
  rfl

theorem Act.rebroadcasts (h : Act t os r r') : Rebroadcasts t r r' := by
  cases h with
  | aside h => exact .same h.spares.restarts
  | @takeFirings r e n b _ _ next =>
    exact .read (n := n) rfl next
  | equip spawned has => exact .equip spawned (closed_of_acquire has)
  | receive running | obey running => exact .fire running (by simp only [wake])
  | finish | expire =>
    refine .close ?_ ?_
    · simp only [Run.finish, giveVerdict, Stage.hasReturned]
    · simp only [Run.finish, giveVerdict, mark, log, wake]
  | endStart | endRestart | endStop | deliver | fail =>
    refine .same ?_
    simp only [Run.endStart, Run.endRestart, Run.endStop, Run.deliver, Run.fail, giveVerdict, update, report, markEnd, mark,
      wake]
  | shutDown _ reason => exact .same (by cases reason <;> simp only [announce, mark, log, wake])
  | _ => exact .same rfl

theorem Passes.returned_of_closed (h : Passes settings services cur r) (closed : r.restarts.closed = true) :
    r.stage.hasReturned = true := by
  refine h.invariant (P := fun r => r.restarts.closed = true → r.stage.hasReturned = true) ?_ (fun _ _ _ _ _ ih => ih)
    ?_ ?_ closed
  · intro quota closed
    cases closed
  · intro os r r' _ h ih closed
    rw [h.keeps.restarts] at closed
    exact h.isOver (t := .supervise) (ih closed)
  · intro t os r r' _ h ih closed
    have stays (before : r.restarts.closed = true) : r'.stage.hasReturned = true :=
      h.stage_step.returned_iff.mpr (.inl (ih before))
    cases h.rebroadcasts with
    | same same => exact stays (same ▸ closed)
    | equip _ fresh =>
      rw [fresh] at closed
      cases closed
    | fire _ fired =>
      refine stays ?_
      rw [fired, Broadcast.fire] at closed
      split at closed <;> exact closed
    | read _ next =>
      obtain ⟨-, -, moved⟩ := Broadcast.next_firings next
      rw [moved] at closed
      exact stays closed
    | close returned => exact returned

/-- A retired entry has answered every firing, and there will be no more. -/
structure Retired (r : Run) (e : Nat) : Prop where
  idle : (r.member e).restarting = none
  answered : (r.member e).owed = 0
  closed : r.restarts.closed = true
  read : r.restarts.unread e = 0

/-- A closed broadcast stays as it is for a reader who has nothing left to read. -/
theorem Act.closed_stays (before : Passes settings services (some t) r) (h : Act t os r r')
    (closed : r.restarts.closed = true) (read : r.restarts.unread e = 0) :
    r'.restarts.closed = true ∧ r'.restarts.unread e = 0 := by
  have returned := before.returned_of_closed closed
  cases h.rebroadcasts with
  | same same => exact same ▸ ⟨closed, read⟩
  | equip spawned => simp [spawned, Stage.hasReturned] at returned
  | fire running => simp [running, Stage.hasReturned] at returned
  | @read e' n task next =>
    obtain ⟨pos, le, moved⟩ := Broadcast.next_firings next
    have other : e ≠ e' := fun same => by
      rw [← same, read] at le
      omega
    rw [moved]
    exact ⟨closed, (Broadcast.unread_moveReader_ne _ other _).trans read⟩
  | close _ same => exact same ▸ ⟨rfl, read⟩

theorem Act.others_restart (h : Act t os r r') (other : t ≠ .restart e) :
    (r'.member e).restarting = (r.member e).restarting ∧ (r'.member e).owed = (r.member e).owed ∧
      (r'.member e).retired = (r.member e).retired := by
  rcases h.steps e with ⟨same, -⟩ | step
  · rw [same]
    exact ⟨rfl, rfl, rfl⟩
  · generalize r.member e = m, r'.member e = m' at *
    cases step <;> simp_all

theorem Act.retired_of_retired (before : Passes settings services (some t) r) (h : Act t os r r')
    (retired : (r'.member e).retired = true) (ih : (r.member e).retired = true → r.Retired e)
    (he : e < r.members.length) : r'.Retired e := by
  by_cases task : t = .restart e
  · subst task
    have stays (before' : (r.member e).retired = true) : r'.restarts.closed = true ∧ r'.restarts.unread e = 0 :=
      h.closed_stays before (ih before').closed (ih before').read
    cases h with
    | aside h =>
      have same := member_of_members h.spares.members e
      rw [same] at retired
      obtain ⟨idle, answered, -, -⟩ := ih retired
      exact ⟨same.symm ▸ idle, same.symm ▸ answered, (stays retired).1, (stays retired).2⟩
    | takeFirings _ _ next =>
      rw [member_modify (r.members_takeFirings _ _ _) he] at retired
      obtain ⟨pos, le, -⟩ := Broadcast.next_firings next
      rw [(ih retired).read] at le
      omega
    | retire idle answered next =>
      obtain ⟨closed, read⟩ := Broadcast.closed_of_next_closed next
      refine ⟨?_, ?_, closed, read⟩ <;> rw [member_modify rfl he]
      · exact idle
      · exact answered
    | beginRestart _ owes =>
      rw [member_modify rfl he] at retired
      exact absurd (ih retired).answered owes
    | pauseRestart busy =>
      rw [member_modify rfl he] at retired
      rw [(ih retired).idle] at busy
      cases busy
    | endRestart busy =>
      rw [member_modify (r.members_endRestart _ _) he] at retired
      rw [(ih retired).idle] at busy
      cases busy
  · obtain ⟨restarting, owed, same⟩ := h.others_restart task
    obtain ⟨idle, answered, closed, read⟩ := ih (same ▸ retired)
    obtain ⟨closed', read'⟩ := h.closed_stays before closed read
    exact ⟨restarting.trans idle, owed.trans answered, closed', read'⟩

theorem Passes.retired (h : Passes settings services cur r) (he : e < settings.entries.length)
    (retired : (r.member e).retired = true) : r.Retired e := by
  refine h.invariant (P := fun r => (r.member e).retired = true → r.Retired e) ?_ ?_ ?_ ?_ retired
  · intro quota retired
    simp [Run.member, Run.initial, he] at retired
  · exact fun _ _ _ _ _ ih retired => ⟨(ih retired).idle, (ih retired).answered, (ih retired).closed, (ih retired).read⟩
  · intro os r r' _ h ih retired
    have same := member_of_members h.keeps.members e
    rw [same] at retired
    obtain ⟨idle, answered, closed, read⟩ := ih retired
    exact ⟨same.symm ▸ idle, same.symm ▸ answered, h.keeps.restarts.symm ▸ closed, h.keeps.restarts.symm ▸ read⟩
  · exact fun before h ih retired => h.retired_of_retired before retired ih (before.members_length.symm ▸ he)

end Run

end Supervision
