import ControlChannel.Control.Basic

/-!
How the parts of a control connection describe themselves in diagnostics.
-/

namespace ControlChannel

/-- The parts whose description does not depend on their state. -/
inductive Part where
  | listener
  | selector
  | store
  /-- A session, with or without a scheduler of its own. -/
  | session (scheduled : Bool)
  deriving DecidableEq, Repr

def Part.description : Part → String
  | .listener => "HostStateListener"
  | .selector => "HostSelector \x7b policy: LoadBalancingPolicy \x7d"
  | .store => "Metadata \x7b .. \x7d"
  | .session scheduled =>
    "ReconnectionHandler \x7b scheduler: " ++ toString scheduled ++ ", .. \x7d"

/-- The phase as a word. -/
def Phase.word : Phase → String
  | .disconnected => "Disconnected"
  | .connecting => "Connecting"
  | .connected => "Connected"
  | .reconnecting => "Reconnecting"
  | .closed => "Closed"

def Control.description (k : Control) : String :=
  let address := match k.active with
    | some link => "Some(" ++ link.address.text ++ ")"
    | none => "None"
  "ControlConnection \x7b state: " ++ k.phase.word ++ ", connected_address: " ++ address
    ++ ", reconnecting: " ++ toString k.slot.isActive ++ " \x7d"

end ControlChannel
