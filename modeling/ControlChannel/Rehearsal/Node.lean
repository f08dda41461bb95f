import ControlChannel.Control.Task

/-!
Scripted nodes: how a node takes connections and answers requests. A connection is opened after a
delay, or refused, or never; a request goes to the first answer whose lead its text starts with.
Main content: what a node does with an attempt to connect (`Cluster.opening`) and with a request
(`Cluster.reply`), as an outcome that is due at some time.
-/

namespace ControlChannel.Rehearsal

/-- Something that happens later on: at some time if ever, perhaps together with a shutdown of the
control connection, and with a result unless it never comes. -/
structure Scripted (α : Type) where
  due : Option Nat
  shutdown : Bool := false
  outcome : Option (Except Error α)

/-- Nothing that happens any more. -/
def Scripted.never {α : Type} : Scripted α := { due := none, outcome := none }

def Scripted.isDue {α : Type} (s : Scripted α) (now : Nat) : Bool := s.due.any (· ≤ now)

/-- How a node takes connections. -/
inductive Opening where
  | accepts
  | hangs
  | refuses
  | fails (error : Error)

/-- What a node says to a request. -/
inductive Answer where
  /-- What a node without a script says. -/
  | usual
  | reply (reply : Reply)
  /-- The channel fails instead. -/
  | fails (error : Error)
  | hangs

/-- A rule of a script. -/
structure Rule where
  /-- The rule is for requests whose text starts so. -/
  lead : String
  delay : Nat := 0
  shutdown : Bool := false
  answer : Answer := .usual

structure Node where
  opening : Opening := .accepts
  openDelay : Nat := 0
  /-- Connections opened now fail every request. -/
  broken : Bool := false
  shutdown : Bool := false
  rules : List Rule := []

abbrev Cluster := Std.ExtTreeMap Address Node

/-- An acknowledgement, no peers, or no rows at all. -/
def usualReply : Request → Reply
  | .register _ => .ready
  | .query cql =>
    if cql = Topology.selectPeers then .rows (.ofRagged ["peer"] []) else .rows .empty

def Rule.fits (rule : Rule) (request : Request) : Bool :=
  rule.lead.toList.isPrefixOf request.text.toList

def Rule.scripted (rule : Rule) (request : Request) (now : Nat) : Scripted Reply where
  due := some (now + rule.delay)
  shutdown := rule.shutdown
  outcome := match rule.answer with
    | .usual => some (.ok (usualReply request))
    | .reply reply => some (.ok reply)
    | .fails e => some (.error e)
    | .hangs => none

def Node.reply (node : Node) (request : Request) (now : Nat) : Scripted Reply :=
  ((node.rules.find? (·.fits request)).getD { lead := "" }).scripted request now

def refused (address : Address) : Error := .connection address "connection refused"

def resetByPeer (address : Address) : Error := .connection address "connection reset by peer"

/-- What an attempt to connect comes to; with a connection, whether it is broken from the start. -/
def Node.open (node : Node) (address : Address) (now : Nat) : Scripted Bool where
  due := some (now + node.openDelay)
  shutdown := node.shutdown
  outcome := match node.opening with
    | .accepts => some (.ok node.broken)
    | .hangs => none
    | .refuses => some (.error (refused address))
    | .fails e => some (.error e)

namespace Cluster

/-- What an attempt to connect comes to; a node that does not exist refuses at once. -/
def opening (cluster : Cluster) (address : Address) (now : Nat) : Scripted Bool :=
  match cluster[address]? with
  | some node => node.open address now
  | none => { due := some now, outcome := some (.error (refused address)) }

/-- What a request to a node comes to; a node that is gone answers as one without a script. -/
def reply (cluster : Cluster) (address : Address) (request : Request) (now : Nat) :
    Scripted Reply :=
  ((cluster[address]?).getD {}).reply request now

end Cluster

end ControlChannel.Rehearsal
