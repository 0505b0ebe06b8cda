/-! What a service can return or panic with, and the text of it. An error keeps its own message, the messages
that caused it and the contexts put on it later; its text holds all of them, the newest context first. -/

namespace Supervision

def joinWith (separator : String) : List String → String
  | [] => ""
  | [s] => s
  | s :: t :: rest => s ++ separator ++ joinWith separator (t :: rest)

/-- One message of an error: a text, or the mark of an operation given up because the run was cancelled. -/
inductive Message
  | text (s : String)
  | cancelled
deriving DecidableEq, Repr

def Message.render : Message → String
  | .text s => s
  | .cancelled => "operation cancelled"

/-- `sources` runs from the nearest cause to the farthest, `contexts` from the oldest to the newest. -/
structure ErrorValue where
  base : Message
  sources : List Message := []
  contexts : List Message := []
deriving DecidableEq, Repr

namespace ErrorValue

def messages (e : ErrorValue) : List Message :=
  e.contexts.reverse ++ e.base :: e.sources

def text (e : ErrorValue) : String :=
  joinWith ": " (e.messages.map Message.render)

def context (e : ErrorValue) (m : Message) : ErrorValue :=
  { e with contexts := e.contexts ++ [m] }

/-- The mark is recognised as the error itself or as a context, never as a mere source. -/
def isCancellation (e : ErrorValue) : Bool :=
  e.base == .cancelled || e.contexts.contains .cancelled

end ErrorValue

inductive PanicPayload
  | text (s : String)
  | other
deriving DecidableEq, Repr

def PanicPayload.message : PanicPayload → String
  | .text s => s
  | .other => "non-string panic payload"

inductive Outcome
  | done
  | failed (e : ErrorValue)
  | panicked (p : PanicPayload)
deriving DecidableEq, Repr

end Supervision
