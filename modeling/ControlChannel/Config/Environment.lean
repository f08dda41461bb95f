import ControlChannel.Config.Declared
import ControlChannel.Text.Pieces

/-!
Settings from environment variables. Contact points are separated by commas, empty ones are passed
over; a number may stand between blanks and is otherwise decimal digits after at most one plus
sign. The first variable that is no number is reported with its text as it is.
-/

namespace ControlChannel.Environment

/-- The variables that are set. -/
abbrev Variables := String → Option String

/-- The pieces between commas, trimmed, without the empty ones. -/
def contactPoints (raw : String) : List String :=
  (((Text.pieces ',' raw.toList).map Text.trimChars).filter (· ≠ [])).map String.ofList

/-- The number below a bound in a variable, if it is set. -/
def number? (vars : Variables) (below : Nat) (name : String) : Except ConfigFault (Option Nat) :=
  match vars name with
  | none => .ok none
  | some raw =>
    match Text.number? below (Text.trimChars raw.toList) with
    | some n => .ok (some n)
    | none => .error (.notNumber name raw)

/-- A number of milliseconds in a variable, if it is set. -/
def millis? (vars : Variables) (name : String) : Except ConfigFault (Option UInt64) :=
  return (← number? vars UInt64.size name).map Nat.toUInt64

/-- The settings in the variables. -/
def declared (vars : Variables) : Except ConfigFault DeclaredConfig := do
  let port ← number? vars UInt16.size "CQL_PORT"
  let timeout ← millis? vars "CQL_CONNECTION_TIMEOUT_MS"
  let base ← millis? vars "CQL_RECONNECT_BASE_DELAY_MS"
  let ceiling ← millis? vars "CQL_RECONNECT_MAX_DELAY_MS"
  return {
    contactPoints := (vars "CQL_CONTACT_POINTS").map contactPoints
    port := port.map Nat.toUInt16
    network := some { connectionTimeout := timeout }
    reconnection := some { baseDelay := base, maxDelay := ceiling } }

/-- The configuration in the variables. -/
def config (vars : Variables) : Except ConfigFault ClientConfig := do (← declared vars).config

end ControlChannel.Environment
