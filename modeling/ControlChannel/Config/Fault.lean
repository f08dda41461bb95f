import ControlChannel.Error

/-!
Why a configuration is refused, and the wording. A fault lies in a value, in a text that should
denote one, or in the file that should hold them.
-/

namespace ControlChannel

/-- The formats of settings files. -/
inductive FileFormat where
  | yaml
  | toml
  deriving DecidableEq, Repr

def FileFormat.name : FileFormat → String
  | .yaml => "YAML"
  | .toml => "TOML"

/-- Why a file cannot be read as a text. -/
inductive ReadFault where
  | missing
  | notUtf8
  deriving DecidableEq, Repr

def ReadFault.message : ReadFault → String
  | .missing => "No such file or directory (os error 2)"
  | .notUtf8 => "stream did not contain valid UTF-8"

inductive ConfigFault where
  | portZero
  | timeoutZero
  | baseZero
  | baseAboveCeiling
  /-- A constant delay of no length. -/
  | delayZero
  | contactPoint (text : String)
  | notNumber (name raw : String)
  | noExtension
  | otherExtension (extension : String)
  | unreadable (format : FileFormat) (cause : ReadFault)
  /-- The text is not one of the format, or not one of settings. -/
  | unparsable (format : FileFormat)
  deriving DecidableEq, Repr

namespace ConfigFault

/-- The extensions as messages list them. -/
def expectedExtensions : String := ".yaml, .yml, or .toml"

def message : ConfigFault → String
  | .portZero => "port must not be 0"
  | .timeoutZero => "connection_timeout must be positive"
  | .baseZero => "base_delay must be positive"
  | .baseAboveCeiling => "base_delay must not exceed max_delay"
  | .delayZero => "delay must be positive"
  | .contactPoint text => s!"invalid contact point: {text}"
  | .notNumber name raw => name ++ " must be a number, got '" ++ raw ++ "'"
  | .noExtension => s!"config file has no extension; expected {expectedExtensions}"
  | .otherExtension extension =>
    s!"unsupported config file extension: .{extension} (expected {expectedExtensions})"
  | .unreadable format cause => s!"failed to read {format.name} config file: {cause.message}"
  | .unparsable format => s!"failed to parse {format.name} config"

def error (fault : ConfigFault) : Error := .configuration fault.message

end ConfigFault

end ControlChannel
