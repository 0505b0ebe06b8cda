import Supervision.Run.Effect

/-! How a service call proceeds. A call goes on without giving up its turn until it has to wait, has used up the
budget of the turn, or ends; waiting for what has already come is no wait. -/

namespace Supervision

inductive Progress
  | paused (p : Pause)
  | ended (o : Outcome)
deriving DecidableEq, Repr

namespace Run

/-- Follows a behaviour in a call of entry `e`. A wait that is over at once costs budget if it is for the clock, and
none if it is for a release, a cancellation or the cause. -/
def follow (e : Nat) (phase : Phase) : Behaviour → Run → Progress × Run
  | .done, r => (.ended .done, r)
  | .fail err, r => (.ended (.failed err), r)
  | .panic p, r => (.ended (.panicked p), r)
  | .never, r => (.paused .never, r)
  | .sleep ms next, r =>
    if ms = 0 && !r.isSpent then follow e phase next r.spend
    else (.paused (.until (r.now + ms) next), r.deferIfSpent (.ofCall e phase))
  | .awaitRelease next, r =>
    if r.isReleased (r.serviceOf e) then follow e phase next r else (.paused (.release next), r)
  | .awaitReleaseFor ms next, r =>
    if r.isReleased (r.serviceOf e) then (.ended .done, r)
    else if ms = 0 && !r.isSpent then follow e phase next r.spend
    else (.paused (.releaseUntil (r.now + ms) next), r.deferIfSpent (.ofCall e phase))
  | .awaitCancel next, r =>
    if r.cancelled then follow e phase next r else (.paused (.cancel next), r)
  | .awaitCause next, r =>
    if r.handleHeld then
      let p := match r.cause.value with
        | some c => Pause.noting (r.now + noteDelay) c next
        | none => .cause next
      (.paused p, { r with lent := r.lent + 1 }.deferIfSpent (.ofCall e phase))
    else follow e phase next r
  | .release service next, r => follow e phase next (r.release (service.getD (r.serviceOf e)))
  | .cancel next, r => follow e phase next r.cancel
  | .command c next, r =>
    let (answer, r') := r.send c
    follow e phase next (r'.mark (.answered e phase c answer))
  | .note next, r => follow e phase next (r.mark (.noted e phase r.cancelled r.view))
  | .ifCancelled yes no, r => if r.cancelled then follow e phase yes r else follow e phase no r

def begin (r : Run) (e : Nat) (phase : Phase) (b : Behaviour) : Progress × Run :=
  follow e phase b (r.mark (.began e phase))

def resume (r : Run) (e : Nat) (phase : Phase) (p : Pause) : Progress × Run :=
  if r.lets (r.serviceOf e) p then
    match p with
    | .never => (.paused p, r)
    | .until _ next => follow e phase next r.spend
    | .release next | .cancel next => follow e phase next r
    | .releaseUntil _ next =>
      if r.isReleased (r.serviceOf e) then (.ended .done, r) else follow e phase next r.spend
    | .cause next =>
      match r.cause.value with
      | some c => (.paused (.noting (r.now + noteDelay) c next), r.spend.deferIfSpent (.ofCall e phase))
      | none => (.paused p, r)
    | .noting _ c next => follow e phase next (r.spend.mark (.learned e phase c))
  else (.paused p, r)

def markEnd (r : Run) (e : Nat) (phase : Phase) (o : Outcome) : Run :=
  r.mark (.ended e phase o r.cancelled)

end Run

end Supervision
