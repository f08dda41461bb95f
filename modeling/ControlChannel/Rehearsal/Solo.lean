import ControlChannel.Control.Task
import ControlChannel.Rehearsal.Inquiry
import ControlChannel.Rehearsal.Timeline

/-!
A refresh on its own over a scripted node: it runs under a cancellation that may come at some
time, and the clock jumps to whatever happens next. Main content: `Solo.perform`, which plays a
refresh to its end or to a limit of time.
-/

namespace ControlChannel.Rehearsal

/-- A kind of refresh: what its positions wait for and how they go on. -/
structure Machine (μ ρ : Type) where
  need : μ → Need
  resume : Fabric → μ → Signal → Option (Fabric × Progress μ ρ)

def schemaMachine : Machine SchemaRefresh SchemaRefresh.Result where
  need := SchemaRefresh.need
  resume := SchemaRefresh.resume

def topologyMachine : Machine TopologyRefresh TopologyRefresh.Result where
  need := TopologyRefresh.need
  resume := TopologyRefresh.resume

structure Solo (μ ρ : Type) where
  machine : Machine μ ρ
  cluster : Cluster
  /-- Whether the connections opened so far fail every request. -/
  broken : Bool
  address : Address
  /-- When the refresh is cancelled. -/
  cancelAt : Option Nat
  fabric : Fabric
  progress : Progress μ ρ
  inquiry : Option Inquiry := none

namespace Solo

variable {μ ρ : Type}

def isCancelled (s : Solo μ ρ) : Bool := s.cancelAt.any (· ≤ s.fabric.clock)

/-- Delivers a signal to the refresh. -/
def signal (s : Solo μ ρ) (position : μ) (signal : Signal) : Solo μ ρ :=
  match s.machine.resume s.fabric position signal with
  | some (fabric, progress) => { s with fabric, progress }
  | none => s

/-- What a request comes to that is sent now. -/
def ask (s : Solo μ ρ) (c : ConnectionId) (scope : Schema.Scope) (q : Question) :
    Scripted Reply :=
  if s.broken || s.fabric.isClosed c then
    { due := some s.fabric.clock, outcome := some (.error (resetByPeer s.address)) }
  else s.cluster.reply s.address (q.request scope) s.fabric.clock

/-- Runs the refresh to the end of the present poll, in at most `fuel` steps. -/
def runPoll : (fuel : Nat) → Solo μ ρ → Solo μ ρ
  | 0, s => s
  | fuel + 1, s =>
    match s.progress with
    | .done _ => s
    | .running position =>
      match s.machine.need position with
      | .answers c scope waiting unsent =>
        let first := (unsent.or waiting.head?).getD .peers
        let inquiry := s.inquiry.getD (.start first)
        match inquiry.next waiting unsent s.fabric.clock (s.ask c scope) with
        | (.rest, inquiry) => { s with inquiry := some inquiry }
        | (.ask, inquiry) => runPoll fuel ({ s with inquiry := some inquiry }.signal position .go)
        | (.hear q scripted, inquiry) =>
          let s := { s with inquiry := some inquiry }
          match scripted.outcome with
          | none => runPoll fuel s
          | some result => runPoll fuel (s.signal position (.answered q result))
      | _ => runPoll fuel (s.signal position .go)

/-- How many rows a node's script can answer. -/
def rowsOf (node : Node) : Nat :=
  node.rules.foldl (fun n rule =>
    match rule.answer with
    | .reply (.rows set) => n + set.cells.length
    | _ => n) 0

/-- More steps than any poll takes: three surveys, and three for every host. -/
def pollFuel (s : Solo μ ρ) : Nat :=
  20 + 3 * s.cluster.toList.foldl (fun n (_, node) => n + rowsOf node) s.fabric.store.hosts.size

/-- A further poll, which finds a cancellation first. -/
def poll (s : Solo μ ρ) : Solo μ ρ :=
  match s.progress with
  | .done _ => s
  | .running position =>
    let s := if s.isCancelled then s.signal position .cancelled else s
    { s with inquiry := s.inquiry.map Inquiry.renew }.runPoll s.pollFuel

/-- When something happens next. -/
def due? (s : Solo μ ρ) : Option Nat :=
  let cancel := s.cancelAt.filter (s.fabric.clock < ·)
  ((s.inquiry.bind Inquiry.due?).toList ++ cancel.toList).min?

/-- Plays on until the refresh ends or nothing more happens before the limit. -/
def playFrom (limit now : Nat) (s : Solo μ ρ) : Solo μ ρ :=
  let s := { s with fabric := { s.fabric with clock := now } }.poll
  match s.progress with
  | .done _ => s
  | .running _ =>
    match s.due? with
    | some t =>
      if now < t ∧ t ≤ limit then playFrom limit t s
      else { s with fabric := { s.fabric with clock := limit } }
    | none => { s with fabric := { s.fabric with clock := limit } }
termination_by limit - now

/-- Plays from the first poll on. -/
def play (limit : Nat) (s : Solo μ ρ) : Solo μ ρ :=
  let s := s.runPoll s.pollFuel
  match s.progress with
  | .done _ => s
  | .running _ =>
    match s.due? with
    | some t =>
      if t ≤ limit then playFrom limit t s
      else { s with fabric := { s.fabric with clock := limit } }
    | none => { s with fabric := { s.fabric with clock := limit } }

end Solo

/-- What a rehearsed refresh came to. -/
structure SoloResult (ρ : Type) where
  /-- None when it took too long. -/
  result : Option ρ
  fabric : Fabric

/-- Opens a connection to `address` and plays a refresh over it. -/
def Solo.perform {μ α : Type} (machine : Machine μ (Except Error (Awaited α)))
    (cluster : Cluster) (store : Store) (address : Address) (cancelAt : Option Nat)
    (start : Fabric → Bool → Link → Fabric × Progress μ (Except Error (Awaited α))) :
    SoloResult (Except Error (Awaited α)) :=
  let fabric := ({ store, balancing := .ordered ∅ } : Fabric).note (.opening address)
  let opening := cluster.opening address 0
  match opening.outcome with
  | none => ⟨none, { fabric with clock := patience }⟩
  | some (.error e) => ⟨some (.error e), { fabric with clock := opening.due.getD 0 }⟩
  | some (.ok broken) =>
    let now := opening.due.getD 0
    let (fabric, link) := { fabric with clock := now }.accept address
    let (fabric, progress) := start fabric (cancelAt.any (· ≤ now)) link
    let solo : Solo μ (Except Error (Awaited α)) :=
      { machine, cluster, broken, address, cancelAt, fabric, progress }
    let solo := solo.play (now + patience)
    match solo.progress with
    | .done result => ⟨some result, solo.fabric⟩
    | .running _ => ⟨none, solo.fabric⟩

end ControlChannel.Rehearsal
