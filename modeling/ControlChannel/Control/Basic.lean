import ControlChannel.Backoff
import ControlChannel.Control.Event
import ControlChannel.Fabric
import ControlChannel.Slot

/-!
The state of a control connection, apart from the work that is going on: the fabric it acts on,
the slot of its reconnection session, the active connection, its phase and its events. Shutting
down revokes the slot, and the slot's being revoked is what "shut down" means everywhere. Main
statements: a phase once closed stays closed (`phase_shift_closed`), and shifting counts changes
only.
-/

namespace ControlChannel

structure Settings where
  /-- The port on which peers are expected. -/
  port : UInt16
  connectionTimeout : Duration
  backoff : Backoff

structure Control where
  settings : Settings
  fabric : Fabric
  slot : Slot := {}
  active : Option Link := none
  phase : Phase := .disconnected
  /-- How often the phase has changed. -/
  shifts : Nat := 0
  /-- The latest event first. -/
  events : List Event := []

namespace Control

def isShutDown (k : Control) : Bool := k.slot.revoked

/-- Shifts to a phase; nothing happens in that phase or in the closed one. -/
def shift (k : Control) (phase : Phase) : Control :=
  if k.phase.shift phase = k.phase then k
  else { k with phase := k.phase.shift phase, shifts := k.shifts + 1 }

def publish (k : Control) (e : Event) : Control := { k with events := e :: k.events }

def notConnected : Error := .illegalState "control connection is not connected"
def alreadyConnected : Error := .illegalState "control connection is already connected"
def alreadyShutDown : Error := .illegalState "control connection is shut down"

/-- The active connection, without which an operation is not possible. -/
def requireActive (k : Control) : Except Error Link :=
  match k.active with
  | some link => .ok link
  | none => .error notConnected

@[simp] theorem phase_shift (k : Control) (p : Phase) : (k.shift p).phase = k.phase.shift p := by
  unfold shift
  split
  · rename_i h; exact h.symm
  · rfl

theorem phase_shift_closed {k : Control} (h : k.phase = .closed) (p : Phase) : k.shift p = k := by
  simp [shift, h]

@[simp] theorem fabric_shift (k : Control) (p : Phase) : (k.shift p).fabric = k.fabric := by
  unfold shift; split <;> rfl

@[simp] theorem active_shift (k : Control) (p : Phase) : (k.shift p).active = k.active := by
  unfold shift; split <;> rfl

@[simp] theorem slot_shift (k : Control) (p : Phase) : (k.shift p).slot = k.slot := by
  unfold shift; split <;> rfl

@[simp] theorem events_shift (k : Control) (p : Phase) : (k.shift p).events = k.events := by
  unfold shift; split <;> rfl

end Control

end ControlChannel
