import ControlChannel.Address.Text

/-!
Host records. A record has an identity of its own, its serial number, so that a host that left and
came back is told from one that stayed. Two hosts are the same node when their addresses are
equal, whatever their records say.
-/

namespace ControlChannel

structure Host where
  /-- The identity of the record. -/
  serial : Nat
  address : Address
  /-- Whether the node is believed reachable. -/
  up : Bool := true
  deriving DecidableEq, Repr

namespace Host

def text (h : Host) : String := s!"Host[{h.address.text}]"

def stateName (h : Host) : String := if h.up then "UP" else "DOWN"

/-- The same node, whatever is believed of it. -/
def sameNode (a b : Host) : Bool := a.address == b.address

/-- The record with its liveness set. -/
def mark (h : Host) (up : Bool) : Host := { h with up }

/-- Whether setting the liveness changes the record. -/
def changes (h : Host) (up : Bool) : Bool := h.up != up

theorem mark_eq_self_iff (h : Host) (up : Bool) : h.mark up = h ↔ h.changes up = false := by
  cases h with
  | mk s a u => cases u <;> cases up <;> simp [mark, changes]

end Host

end ControlChannel
