import ControlChannel.ResultSet
import Std.Data.ExtTreeSet

/-!
The hosts that a node's list of peers names, and how they differ from the known ones. The node
that answers belongs to its own list; peers without an address are passed over. Main statements:
membership in both halves of a difference (`mem_toAdd`, `mem_toRemove`).
-/

namespace ControlChannel.Topology

/-- The statement that lists a node's peers. -/
def selectPeers : String := "SELECT peer FROM system.peers"

abbrev Addresses := Std.ExtTreeSet Address

/-- The answering node and its peers on `port`, if every row can be read. -/
def foundHosts (connected : Address) (peers : ResultSet) (port : UInt16) :
    Except RowFault Addresses := do
  let ips ← peers.rows.mapM (·.inet "peer")
  let found := ips.filterMap fun ip => ip.map (Address.ofIp · port)
  return Std.ExtTreeSet.ofList (connected :: found)

/-- What to add to the known hosts and what to remove from them. -/
structure Diff where
  toAdd : Addresses
  toRemove : Addresses

namespace Diff

/-- The changes that turn `known` into `found`. -/
def ofSets (found known : Addresses) : Diff where
  toAdd := found.filter (· ∉ known)
  toRemove := known.filter (· ∉ found)

def isEmpty (d : Diff) : Bool := d.toAdd.isEmpty && d.toRemove.isEmpty

theorem mem_toAdd {found known : Addresses} {a : Address} :
    a ∈ (ofSets found known).toAdd ↔ a ∈ found ∧ a ∉ known := by
  simp [ofSets]

theorem mem_toRemove {found known : Addresses} {a : Address} :
    a ∈ (ofSets found known).toRemove ↔ a ∈ known ∧ a ∉ found := by
  simp [ofSets]

end Diff

end ControlChannel.Topology
