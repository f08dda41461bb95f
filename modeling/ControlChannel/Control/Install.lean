import ControlChannel.Control.Basic
import ControlChannel.Signal

/-!
Installing a connection as the active one. The swap, the phase and the event belong together;
the connection that was replaced is closed afterwards. A connection that comes after the shutdown
is not installed but closed. Main statements: which connection is active after the swap
(`active_start`).
-/

namespace ControlChannel

/-- An installation that waits for a connection to be closed. -/
structure Install where
  closing : Link
  /-- Whether the new connection was installed. -/
  kept : Bool
  deriving DecidableEq, Repr

namespace Install

/-- Begins to close a connection as the last part of an installation. -/
def close (k : Control) (closing : Link) (kept : Bool) : Control × Progress Install Bool :=
  ({ k with fabric := k.fabric.close closing.id }, .running ⟨closing, kept⟩)

/-- Makes `link` the active connection. -/
def swap (k : Control) (link : Link) : Control :=
  ({ k with active := some link }.shift .connected).publish (.connected link.address)

/-- Installs `link`, or closes it when it comes too late. -/
def start (k : Control) (link : Link) : Control × Progress Install Bool :=
  if k.isShutDown then close k link false
  else
    match k.active with
    | some previous =>
      if k.fabric.isClosed previous.id then (swap k link, .done true)
      else close (swap k link) previous true
    | none => (swap k link, .done true)

/-- Goes on once the connection is closed. -/
def resume (k : Control) (i : Install) (signal : Signal) :
    Option (Control × Progress Install Bool) :=
  match signal with
  | .closed => some ({ k with fabric := k.fabric.lose i.closing.id }, .done i.kept)
  | _ => none

theorem active_start (k : Control) (link : Link) :
    (start k link).1.active = if k.isShutDown then k.active else some link := by
  unfold start
  split
  · rfl
  · have h : (swap k link).active = some link := by simp [swap, Control.publish]
    repeat' split
    all_goals exact h

end Install

end ControlChannel
