import ControlChannel.Config.Declared
import ControlChannel.Config.Toml
import ControlChannel.Config.Yaml
import ControlChannel.Text.Utf8

/-!
Settings files. A format says how its values are taken apart; which settings there are is said
once for both formats. Keys that name no setting are ignored, and a setting given twice or of the
wrong kind spoils the file. The extension of a file's name chooses its format. Main content:
`ConfigFile.load`.
-/

namespace ControlChannel

/-- How the values of a format are taken apart. -/
structure ValueReader (τ : Type) where
  /-- Whether nothing is given. -/
  isNull : τ → Bool
  /-- The values by name, where the names in their order serve for values that have none. -/
  fields? : List String → τ → Option (List (String × τ))
  texts? : τ → Option (List String)
  /-- A whole number below a bound. -/
  number? : Nat → τ → Option Nat

namespace Yaml

/-- A whole number in decimal without a leading zero, or marked as hexadecimal, octal or binary;
one plus sign may stand before it. -/
def number? (below : Nat) (s : List Char) : Option Nat :=
  let whole (base : Nat) (digits : List Char) : Option Nat :=
    match ({ base, below } : Text.NumberRule).read digits with
    | some (n, []) => some n
    | _ => none
  let unsigned := match s with
    | '+' :: s => s
    | s => s
  match unsigned with
  | '0' :: 'x' :: s => whole 16 s
  | '0' :: 'o' :: s => whole 8 s
  | '0' :: 'b' :: s => whole 2 s
  | ['0'] => whole 10 ['0']
  | '0' :: _ => none
  | s => whole 10 s

/-- The spellings of a value that is not given. -/
def nulls : List String := ["", "~", "null", "Null", "NULL"]

def text? : Node → Option String
  | .scalar s _ => some s
  | _ => none

def values : ValueReader Node where
  isNull
    | .scalar s true => nulls.contains s
    | _ => false
  fields? _
    | .map entries => some entries
    | .scalar "" true => some []
    | _ => none
  texts?
    | .list items => items.mapM text?
    | _ => none
  number? below
    | .scalar s true => number? below s.toList
    | _ => none

end Yaml

namespace Toml

def text? : Value → Option String
  | .string s => some s
  | _ => none

def values : ValueReader Value where
  isNull _ := false
  fields? names
    | .table _ t => some t
    | .array items => some (names.zip items)
    | .tables elements => some (names.zip (elements.reverse.map (.table .headed)))
    | _ => none
  texts?
    | .array items => items.mapM text?
    | _ => none
  number? below
    | .integer n => if 0 ≤ n ∧ n < below then some n.toNat else none
    | _ => none

end Toml

namespace ValueReader

variable {τ α : Type}

/-- The setting of that name, which may not be given and must not be given twice. -/
def setting? (r : ValueReader τ) (read : τ → Option α) (fields : List (String × τ))
    (name : String) : Option (Option α) :=
  match fields.filter (·.1 == name) with
  | [] => some none
  | [(_, v)] => if r.isNull v then some none else (read v).map some
  | _ => none

def millis? (r : ValueReader τ) (v : τ) : Option UInt64 :=
  (r.number? UInt64.size v).map Nat.toUInt64

def network? (r : ValueReader τ) (v : τ) : Option DeclaredNetwork := do
  let fields ← r.fields? ["connection-timeout-ms"] v
  return { connectionTimeout := ← r.setting? r.millis? fields "connection-timeout-ms" }

def reconnection? (r : ValueReader τ) (v : τ) : Option DeclaredReconnection := do
  let fields ← r.fields? ["base-delay-ms", "max-delay-ms"] v
  return {
    baseDelay := ← r.setting? r.millis? fields "base-delay-ms"
    maxDelay := ← r.setting? r.millis? fields "max-delay-ms" }

/-- The settings that a value holds. -/
def declared? (r : ValueReader τ) (v : τ) : Option DeclaredConfig := do
  let fields ← r.fields? ["contact-points", "port", "network", "reconnection"] v
  let port ← r.setting? (r.number? UInt16.size) fields "port"
  return {
    contactPoints := ← r.setting? r.texts? fields "contact-points"
    port := port.map Nat.toUInt16
    network := ← r.setting? r.network? fields "network"
    reconnection := ← r.setting? r.reconnection? fields "reconnection" }

end ValueReader

namespace FileFormat

/-- The settings in a text of the format. -/
def declared? : FileFormat → String → Option DeclaredConfig
  | .yaml, text => (Yaml.Node.parse? text).bind Yaml.values.declared?
  | .toml, text => (Toml.Table.parse? text).bind fun t => Toml.values.declared? (.table .headed t)

/-- The format that goes with an extension. -/
def ofExtension? (extension : String) : Option FileFormat :=
  if extension = "yaml" ∨ extension = "yml" then some .yaml
  else if extension = "toml" then some .toml
  else none

/-- The configuration in a file of the format whose settings are read from its text in a given way;
none stands for a file that is missing. -/
def loadBy (read : String → Option DeclaredConfig) (format : FileFormat)
    (content : Option (List UInt8)) : Except ConfigFault ClientConfig := do
  let some bytes := content | throw (.unreadable format .missing)
  let .ok text := Text.Utf8.decode bytes | throw (.unreadable format .notUtf8)
  let some declared := read text | throw (.unparsable format)
  declared.config

def load (format : FileFormat) : Option (List UInt8) → Except ConfigFault ClientConfig :=
  format.loadBy format.declared?

example : FileFormat.toml.declared? "port = 1_000 # peers\n[network]\n" =
    some { port := some 1000, network := some {} } := by decide +kernel
example : FileFormat.yaml.declared? "port: 5\nnetwork:\n  connection-timeout-ms: 7\n" =
    some { port := some 5, network := some { connectionTimeout := some 7 } } := by decide +kernel
example : FileFormat.yaml.declared? "contact-points: [10.0.0.1, \"::1\"]" =
    some { contactPoints := some ["10.0.0.1", "::1"] } := by decide +kernel
example : FileFormat.yaml.declared? "port: 1\nport: 2\n" = none := by decide +kernel

end FileFormat

namespace ConfigFile

/-- What follows the last dot of a file's name, unless that dot starts the name. -/
def extension? (name : String) : Option String :=
  let reversed := name.toList.reverse
  match reversed.dropWhile (· ≠ '.') with
  | [] | ['.'] => none
  | _ =>
    if name = ".." then none else some (String.ofList (reversed.takeWhile (· ≠ '.')).reverse)

/-- The format of a file, by its name. -/
def format (name : String) : Except ConfigFault FileFormat :=
  match extension? name with
  | none => .error .noExtension
  | some extension =>
    match FileFormat.ofExtension? extension with
    | some format => .ok format
    | none => .error (.otherExtension extension)

/-- The configuration in a file, where each format has its way to read the settings. -/
def loadBy (read : FileFormat → String → Option DeclaredConfig) (name : String)
    (content : Option (List UInt8)) : Except ConfigFault ClientConfig := do
  let format ← format name
  format.loadBy (read format) content

def load : String → Option (List UInt8) → Except ConfigFault ClientConfig :=
  loadBy FileFormat.declared?

example : extension? ".hidden.yml" = some "yml" := by decide +kernel
example : extension? ".yaml" = none := by decide +kernel
example : extension? "c." = some "" := by decide +kernel
example : extension? "..yaml" = some "yaml" := by decide +kernel

end ConfigFile

end ControlChannel
