import Supervision.Broadcast

/-! A broadcast in use: handles that fire it, waiters read one step at a time, and tasks that read until the
broadcast is closed. The broadcast closes when the last handle is dropped. -/

namespace Supervision

/-- A waiter that was given to a task. -/
structure ReadingTask where
  reader : Nat
  read : List Nat := []
  ended : Bool := false
deriving DecidableEq, Repr

/-- `waiters` says which waiters are still in the caller's hands; waiter `i` is reader `i`. -/
structure BroadcastSession where
  broadcast : Broadcast
  handles : List Bool := [true]
  waiters : List Bool := []
  tasks : List ReadingTask := []
deriving DecidableEq, Repr

inductive BroadcastStep
  | clone (handle : Nat)
  | drop (handle : Nat)
  | subscribe (handle : Nat)
  | fire (handle : Nat) (times : Nat)
  | count (handle : Nat)
  | next (waiter : Nat)
  | dropWaiter (waiter : Nat)
  /-- Gives a waiter to a task. -/
  | spawn (waiter : Nat)
  | unknown

inductive BroadcastAnswer
  | number (n : Nat)
  | counts (ns : List Nat)
  | reading (r : Reading)
  | dropped
  | gone
  | unknown

namespace BroadcastSession

def start? (backlog : Nat) : Option BroadcastSession :=
  if backlogLimit < backlog then none else some { broadcast := .withBacklog backlog }

def hasHandle (s : BroadcastSession) (h : Nat) : Bool :=
  s.handles[h]?.getD false

def hasWaiter (s : BroadcastSession) (w : Nat) : Bool :=
  s.waiters[w]?.getD false

def dropHandle (s : BroadcastSession) (h : Nat) : BroadcastSession :=
  let handles := s.handles.set h false
  { s with handles := handles, broadcast := if handles.any id then s.broadcast else s.broadcast.close }

def fires : Nat → Broadcast → List Nat × Broadcast
  | 0, b => ([], b)
  | n + 1, b =>
    let (counts, b') := fires n b.fire
    (b.readerCount :: counts, b')

def readAll (i : Nat) : Nat → Broadcast → List Nat × Reading × Broadcast
  | 0, b => ([], .pending, b)
  | fuel + 1, b =>
    match b.next i with
    | (.firings n, b') =>
      let (ns, last, b'') := readAll i fuel b'
      (n :: ns, last, b'')
    | (last, b') => ([], last, b')

/-- One turn of a task. Its waiter goes away with it. -/
def runTask (b : Broadcast) (t : ReadingTask) : Broadcast × ReadingTask :=
  if t.ended then (b, t)
  else match readAll t.reader (b.unread t.reader + 1) b with
    | (ns, .closed, b') => (b'.dropReader t.reader, { t with read := t.read ++ ns, ended := true })
    | (ns, _, b') => (b', { t with read := t.read ++ ns })

def runTasksFrom : Broadcast → List ReadingTask → Broadcast × List ReadingTask
  | b, [] => (b, [])
  | b, t :: rest =>
    let (b', t') := runTask b t
    let (b'', rest') := runTasksFrom b' rest
    (b'', t' :: rest')

def runTasks (s : BroadcastSession) : BroadcastSession :=
  let (b, tasks) := runTasksFrom s.broadcast s.tasks
  { s with broadcast := b, tasks := tasks }

def perform (s : BroadcastSession) : BroadcastStep → BroadcastAnswer × BroadcastSession
  | .clone h =>
    if s.hasHandle h then (.number s.handles.length, { s with handles := s.handles ++ [true] }) else (.gone, s)
  | .drop h => if s.hasHandle h then (.dropped, s.dropHandle h) else (.gone, s)
  | .subscribe h =>
    if s.hasHandle h then
      (.number s.waiters.length, { s with waiters := s.waiters ++ [true], broadcast := s.broadcast.subscribe })
    else (.gone, s)
  | .fire h times =>
    if s.hasHandle h then
      let (counts, b) := fires times s.broadcast
      (.counts counts, { s with broadcast := b })
    else (.gone, s)
  | .count h => if s.hasHandle h then (.number s.broadcast.readerCount, s) else (.gone, s)
  | .next w =>
    if s.hasWaiter w then
      let (r, b) := s.broadcast.next w
      (.reading r, { s with broadcast := b })
    else (.gone, s)
  | .dropWaiter w =>
    if s.hasWaiter w then
      (.dropped, { s with waiters := s.waiters.set w false, broadcast := s.broadcast.dropReader w })
    else (.gone, s)
  | .spawn w =>
    if s.hasWaiter w then
      (.number s.tasks.length,
        { s with waiters := s.waiters.set w false, tasks := s.tasks ++ [{ reader := w }] })
    else (.gone, s)
  | .unknown => (.unknown, s)

/-- Each answer with the tasks as they stand once all of them have run. -/
def play : BroadcastSession → List BroadcastStep → List (BroadcastAnswer × List ReadingTask)
  | _, [] => []
  | s, step :: rest =>
    let (answer, s') := s.perform step
    let s' := s'.runTasks
    (answer, s'.tasks) :: play s' rest

end BroadcastSession

end Supervision
