import ControlChannel.Address.Text
import ControlChannel.Duration

/-!
What can be seen of a control connection from outside: its phase and the events it publishes.
-/

namespace ControlChannel

/-- The phases of a control connection. -/
inductive Phase where
  /-- Nothing was attempted yet, or the first attempt failed. -/
  | disconnected
  /-- The first round is running. -/
  | connecting
  | connected
  /-- A reconnection is running. -/
  | reconnecting
  /-- Shut down for good. -/
  | closed
  deriving DecidableEq, Repr, Inhabited

def Phase.name : Phase → String
  | .disconnected => "DISCONNECTED"
  | .connecting => "CONNECTING"
  | .connected => "CONNECTED"
  | .reconnecting => "RECONNECTING"
  | .closed => "CLOSED"

/-- The phase after a shift: the closed phase is never left. -/
def Phase.shift (old new : Phase) : Phase := if old = .closed then old else new

inductive Event where
  /-- A new connection became the active one. -/
  | connected (address : Address)
  /-- A candidate could not be brought up. -/
  | connectionFailed (address : Address) (message : String)
  /-- A failed attempt is repeated after a delay. -/
  | reconnectionScheduled (delay : Duration)
  /-- An error other than a connection fault was seen. -/
  | unexpectedError (message : String)
  | closed
  deriving DecidableEq, Repr

namespace Event

def name : Event → String
  | .connected _ => "CONNECTED"
  | .connectionFailed .. => "CONNECTION_FAILED"
  | .reconnectionScheduled _ => "RECONNECTION_SCHEDULED"
  | .unexpectedError _ => "UNEXPECTED_ERROR"
  | .closed => "CLOSED"

/-- What an event tells beside its name. -/
def detail? : Event → Option String
  | .connected address => some address.text
  | .connectionFailed address message => some s!"{address.text}: {message}"
  | .reconnectionScheduled delay => some s!"in {delay.millis} ms"
  | .unexpectedError message => some message
  | .closed => none

def text (e : Event) : String :=
  match e.detail? with
  | some detail => s!"{e.name} ({detail})"
  | none => e.name

end Event

@[simp] theorem Phase.shift_closed (new : Phase) : Phase.closed.shift new = .closed := rfl

end ControlChannel
