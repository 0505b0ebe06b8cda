import Supervision.Event
import Supervision.Signal.Inbox

/-! Signal streams in use: they are subscribed, read and dropped while signals are raised. Every listed signal has a
listener of its own, which passes on what it hears to the channel of its stream. A subscription that is refused a signal
closes its channel; the listeners that it had by then remain, but find the channel closed. -/

namespace Supervision

structure Listener where
  signal : Int
  channel : Nat
deriving DecidableEq, Repr

/-- A channel that was closed is `none`. A stream is the receiving end of its channel. -/
structure SignalSession where
  settings : SignalSettings
  channels : List (Option Inbox) := []
  listeners : List Listener := []
  streams : List Nat := []
  trace : List Event := []

inductive SignalStep
  | listen (p : Purpose)
  | subscribe (ns : List Int)
  /-- A caller raises a signal, as far as it is `raisable`. -/
  | raise (n : Int)
  /-- A signal comes in, whichever it is. -/
  | arrive (n : Int)
  | receive (stream : Nat)
  | drop (stream : Nat)
  | unknown

inductive SignalAnswer
  | index (n : Nat)
  | fault (f : SetupFault)
  | raised
  | notRaisable
  | received (n : Option Int)
  | dropped
  | gone
  | unknown

namespace SignalSession

def inbox? (s : SignalSession) (channel : Nat) : Option Inbox :=
  s.channels[channel]?.join

def stream? (s : SignalSession) (i : Nat) : Option Inbox :=
  s.streams[i]?.bind s.inbox?

def put (s : SignalSession) (channel : Nat) (b : Option Inbox) : SignalSession :=
  { s with channels := s.channels.set channel b }

def putStream (s : SignalSession) (i : Nat) (b : Option Inbox) : SignalSession :=
  match s.streams[i]? with
  | some channel => s.put channel b
  | none => s

/-- Registers a listener for each signal in turn, and gives up at the first that is refused. -/
def register (channel : Nat) : List Int → SignalSession → Except SetupFault Nat × SignalSession
  | [], s => (.ok channel, s)
  | n :: rest, s =>
    match refusal? n with
    | some why => (.error (.refused n why), s.put channel none)
    | none => register channel rest { s with listeners := s.listeners ++ [⟨n, channel⟩] }

/-- Opens a channel for the signals under the capacity of the settings. The answer is its index. -/
def subscribe (s : SignalSession) (settings : SignalSettings) (kinds : List Int) :
    Except SetupFault Nat × SignalSession :=
  if streamLimit < settings.capacity then (.error .capacityTooLarge, s)
  else
    register s.channels.length kinds
      { s with channels := s.channels ++ [some { kinds := kinds, capacity := settings.capacity }] }

/-- Hands out the stream of a subscription that succeeded. -/
def addStream (s : SignalSession) (kinds : List Int) : SignalAnswer × SignalSession :=
  match s.subscribe s.settings kinds with
  | (.ok channel, s) => (.index s.streams.length, { s with streams := s.streams ++ [channel] })
  | (.error f, s) => (.fault f, s)

/-- A listener passes on the signal, unless its channel is closed or full. -/
def hear (n : Int) (s : SignalSession) (l : Listener) : SignalSession :=
  match s.inbox? l.channel with
  | none => s
  | some b => if b.isFull then { s with trace := s.trace ++ [.deliveryDropped n] } else s.put l.channel (some (b.push n))

def raise (s : SignalSession) (n : Int) : SignalSession :=
  (s.listeners.filter (·.signal = n)).foldl (hear n) s

def perform (s : SignalSession) : SignalStep → SignalAnswer × SignalSession
  | .listen p => s.addStream (s.settings.kinds p)
  | .subscribe ns => s.addStream ns
  | .raise n => if n ∈ raisable then (.raised, s.raise n) else (.notRaisable, s)
  | .arrive n => (.raised, s.raise n)
  | .receive i =>
    match s.stream? i with
    | some b =>
      let (n, b') := b.receive
      (.received n, s.putStream i (some b'))
    | none => (.gone, s)
  | .drop i =>
    match s.stream? i with
    | some _ => (.dropped, s.putStream i none)
    | none => (.gone, s)
  | .unknown => (.unknown, s)

def play : SignalSession → List SignalStep → List SignalAnswer × SignalSession
  | s, [] => ([], s)
  | s, step :: rest =>
    let (answer, s') := s.perform step
    let (answers, final) := play s' rest
    (answer :: answers, final)

end SignalSession

end Supervision
