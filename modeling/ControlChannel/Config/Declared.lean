import ControlChannel.Address.Reader
import ControlChannel.Config.Basic
import ControlChannel.Text.Blank

/-!
Settings as they are written down in files and in the environment: contact points as texts and
times in whole milliseconds, each of them given or not. Main statement: a contact point is never
open to two readings: a socket address is taken as one (`denoted?_of_parse`).
-/

namespace ControlChannel

structure DeclaredNetwork where
  connectionTimeout : Option UInt64 := none
  deriving DecidableEq, Repr

structure DeclaredReconnection where
  baseDelay : Option UInt64 := none
  maxDelay : Option UInt64 := none
  deriving DecidableEq, Repr

structure DeclaredConfig where
  contactPoints : Option (List String) := none
  port : Option UInt16 := none
  network : Option DeclaredNetwork := none
  reconnection : Option DeclaredReconnection := none
  deriving DecidableEq, Repr

namespace DeclaredConfig

/-- The address that a text denotes: a socket address, or an internet address on `port`. -/
def denoted? (port : UInt16) (text : List Char) : Option Address :=
  (Address.parse? text).or ((Ip.parse? text).map (Address.ofIp · port))

/-- The address of a contact point. Blanks around it do not matter. -/
def contactPoint (port : UInt16) (raw : String) : Except ConfigFault Address :=
  match denoted? port (Text.trimChars raw.toList) with
  | some a => .ok a
  | none => .error (.contactPoint (Text.trim raw))

/-- A time in milliseconds as a setting. -/
def timeSetting (make : Duration → Setting) (ms : Option UInt64) : List Setting :=
  (ms.map fun ms => make (.ofMillis ms)).toList

/-- The settings that are given, once every contact point is read. -/
def settings (d : DeclaredConfig) : Except ConfigFault (List Setting) := do
  let points ← d.contactPoints.mapM (·.mapM (contactPoint (d.port.getD defaultPort)))
  let network := d.network.getD {}
  let reconnection := d.reconnection.getD {}
  return (d.port.map Setting.port).toList ++ (points.map Setting.contactPoints).toList
    ++ timeSetting .connectionTimeout network.connectionTimeout
    ++ timeSetting .baseDelay reconnection.baseDelay
    ++ timeSetting .maxDelay reconnection.maxDelay

/-- The configuration that the settings amount to. -/
def config (d : DeclaredConfig) : Except ConfigFault ClientConfig := do
  ClientConfig.ofSettings (← d.settings)

theorem denoted?_of_parse {port : UInt16} {text : List Char} {a : Address}
    (h : Address.parse? text = some a) : denoted? port text = some a := by
  rw [denoted?, h, Option.some_or]

end DeclaredConfig

end ControlChannel
