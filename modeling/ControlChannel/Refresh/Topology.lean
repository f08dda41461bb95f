import ControlChannel.Fabric
import ControlChannel.Signal
import ControlChannel.Topology

/-!
A topology refresh over one connection: it asks for the node's peers, compares them with the known
hosts and adds and removes hosts one by one, each in a step of its own. Nothing is added or
removed unless the whole answer can be read.
-/

namespace ControlChannel

inductive TopologyStage where
  | asking
  /-- The hosts found; the known ones are read next. -/
  | listing (found : Topology.Addresses)
  /-- The next host to add, and those after it. -/
  | adding (diff : Topology.Diff) (address : Address) (rest : List Address)
  /-- The next host to look up for removal, and those after it. -/
  | finding (diff : Topology.Diff) (address : Address) (rest : List Address)
  /-- The host to remove, and those after it. -/
  | removing (diff : Topology.Diff) (host : Host) (rest : List Address)

structure TopologyRefresh where
  link : Link
  /-- The port on which peers are expected. -/
  port : UInt16
  stage : TopologyStage

namespace TopologyRefresh

abbrev Result := Except Error (Awaited Topology.Diff)

/-- Starts a refresh, unless it is cancelled already. -/
def start (f : Fabric) (cancelled : Bool) (link : Link) (port : UInt16) :
    Fabric × Progress TopologyRefresh Result :=
  if cancelled then (f, .done (.ok .cancelled))
  else (f.send link.id (.query Topology.selectPeers), .running ⟨link, port, .asking⟩)

/-- The stage at which these hosts are still to be removed. -/
def nextRemoval (diff : Topology.Diff) : List Address → Progress TopologyStage Result
  | [] => .done (.ok (.ready diff))
  | a :: rest => .running (.finding diff a rest)

/-- The stage at which these hosts are still to be added. -/
def nextAddition (diff : Topology.Diff) : List Address → Progress TopologyStage Result
  | [] => nextRemoval diff diff.toRemove.toList
  | a :: rest => .running (.adding diff a rest)

/-- The hosts that a reply names. -/
def found (connected : Address) (port : UInt16) (reply : Reply) :
    Except Error Topology.Addresses := do
  let rows ← reply.resultSet
  (Topology.foundHosts connected rows port).mapError RowFault.error

/-- What a reply leads to. -/
def heard (connected : Address) (port : UInt16) (reply : Reply) :
    Progress TopologyStage Result :=
  match found connected port reply with
  | .error e => .done (.error e)
  | .ok hosts => .running (.listing hosts)

/-- Goes on after a signal that fits the stage. -/
def advance (f : Fabric) (connected : Address) (port : UInt16) (stage : TopologyStage)
    (signal : Signal) : Option (Fabric × Progress TopologyStage Result) :=
  match stage, signal with
  | .asking, .answered .peers (.error e) => some (f, .done (.error e))
  | .asking, .answered .peers (.ok reply) => some (f, heard connected port reply)
  | .asking, .cancelled => some (f, .done (.ok .cancelled))
  | .listing found, .go =>
    let diff := Topology.Diff.ofSets found (Std.ExtTreeSet.ofList f.store.addresses)
    some (f, nextAddition diff diff.toAdd.toList)
  | .adding diff a rest, .go => some (f.addHost a, nextAddition diff rest)
  | .finding diff a rest, .go =>
    match f.store.host? a with
    | some host => some (f, .running (.removing diff host rest))
    | none => some (f, nextRemoval diff rest)
  | .removing diff host rest, .go => some (f.removeHost host.address, nextRemoval diff rest)
  | _, _ => none

/-- Goes on after a signal that fits the position. -/
def resume (f : Fabric) (r : TopologyRefresh) (signal : Signal) :
    Option (Fabric × Progress TopologyRefresh Result) :=
  (advance f r.link.address r.port r.stage signal).map fun (f, p) =>
    (f, p.map fun stage => { r with stage })

/-- Whether the answer about peers is waited for. -/
def waiting (r : TopologyRefresh) : List Question :=
  match r.stage with
  | .asking => [.peers]
  | _ => []

end TopologyRefresh

end ControlChannel
