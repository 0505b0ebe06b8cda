import Supervision.Run.Wake

/-! The effects that tasks and callers have on a run. Each takes place in one moment and wakes at once whoever
waited for it. -/

namespace Supervision

namespace Run

def log (r : Run) (e : Event) : Run :=
  { r with trace := r.trace ++ [e] }

def mark (r : Run) (o : Occurrence) : Run :=
  { r with history := r.history ++ [⟨r.now, o⟩] }

def update (r : Run) (e : Nat) (f : Member → Member) : Run :=
  { r with members := r.members.modify e f }

def cancel (r : Run) : Run :=
  wake { r.mark .cancelled with cancelled := true }

/-- A release is never taken back. -/
def release (r : Run) (service : Nat) : Run :=
  wake { r.mark (.released service) with released := service :: r.released }

def send (r : Run) (c : Command) : CommandAnswer × Run :=
  if !r.handleHeld then (.noHandle, r)
  else if r.commandsClosed then (.refused, r)
  else (.sent, wake { r.mark (.accepted c) with commands := r.commands ++ [c] })

def fire (r : Run) : Run :=
  wake { r.mark .fired with restarts := r.restarts.fire }

def deliver (r : Run) (n : Int) : Run :=
  let shutdown := r.shutdownInbox.deliver n
  let restart := r.restartInbox.deliver n
  wake { r.mark (.raised n) with
    shutdownInbox := shutdown.2
    restartInbox := restart.2
    trace := r.trace ++ List.replicate (shutdown.1 + restart.1) (.deliveryDropped n) }

def dropHandle (r : Run) : Run :=
  wake { r with handleHeld := false }

/-- Keeps what went wrong in a call that ended, if anything did, and writes it to the log. -/
def report (r : Run) (e : Nat) (phase : Phase) (o : Outcome) : Run :=
  let failed := (o.failure? (r.nameOf e) phase).toList
  { r with failures := r.failures ++ failed, trace := r.trace ++ failed.flatMap Event.ofFailure }

end Run

end Supervision
