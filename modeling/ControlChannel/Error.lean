import ControlChannel.Address.Text

/-!
The errors of the library, by cause, and their wording. A connection error is about one node; when
a whole round of candidates failed, the error maps each of them to its failure. These two are the
faults that retrying may mend (`Error.isConnectionFault`).
-/

namespace ControlChannel

/-- For each node tried, why it failed, in the order of the addresses. -/
abbrev Failures := Std.ExtTreeMap Address String

inductive Error where
  /-- A node could not be reached, or the channel to it broke. -/
  | connection (address : Address) (message : String)
  /-- Every candidate of a round failed. -/
  | noHost (failures : Failures)
  /-- A node rejected a request. -/
  | server (code : Int32) (message : String)
  /-- A node's answer makes no sense. -/
  | protocol (message : String)
  | invalidArgument (message : String)
  /-- The operation does not fit the present state. -/
  | illegalState (message : String)
  | configuration (message : String)
  | io (message : String)

namespace Error

/-- What was tried and how each failed. -/
def failuresText (failures : Failures) : String :=
  if failures.isEmpty then "no host available (no host was tried)"
  else
    let tried := failures.toList.map fun (address, message) => s!"{address.text} ({message})"
    "no host available (tried: " ++ ", ".intercalate tried ++ ")"

/-- A server's code in hexadecimal, at least four digits; a negative one in two's complement. -/
def codeText (code : Int32) : String :=
  "0x" ++ String.ofList (Text.hexPadded 4 code.toUInt32.toNat)

def message : Error → String
  | .connection address message => s!"connection error on {address.text}: {message}"
  | .noHost failures => failuresText failures
  | .server code message => s!"server error {codeText code}: {message}"
  | .protocol message => s!"protocol error: {message}"
  | .invalidArgument message => s!"invalid argument: {message}"
  | .illegalState message => s!"illegal state: {message}"
  | .configuration message => s!"configuration error: {message}"
  | .io message => s!"I/O error: {message}"

/-- Whether the error comes from nodes that cannot be reached. -/
def isConnectionFault : Error → Bool
  | .connection .. | .noHost _ => true
  | _ => false

/-- The node that the error is about. -/
def address? : Error → Option Address
  | .connection address _ => some address
  | _ => none

/-- The reason as a round records it: a connection error's own words, otherwise the whole
wording. -/
def reason : Error → String
  | .connection _ message => message
  | e => e.message

example : (Error.server (-1) "m").message = "server error 0xffffffff: m" := by decide +kernel
example : (Error.server 10 "m").message = "server error 0x000a: m" := by decide +kernel
example : (Error.noHost ∅).message = "no host available (no host was tried)" := by
  decide +kernel

end Error

end ControlChannel
