import ControlChannel.Control.Basic
import ControlChannel.Refresh.Schema
import ControlChannel.Refresh.Topology

/-!
Bringing one candidate up: open a connection within the time allowed, register for events, refresh
the schema and the host list. A connection that fails on the way, or is overtaken by a shutdown,
is closed before the failure is reported. Main content: the positions of a bring-up and which
connection each of them holds (`BringUp.held?`).
-/

namespace ControlChannel

inductive BringUp where
  /-- The connection is being opened since some time on the clock. -/
  | opening (since : Nat)
  | registering (link : Link)
  | schema (link : Link) (refresh : SchemaRefresh)
  | topology (link : Link) (refresh : TopologyRefresh)
  /-- The connection is being closed; with the error that ended the bring-up, or none when it was
  cancelled. -/
  | closing (link : Link) (error : Option Error)

namespace BringUp

abbrev Result := Except Error (Awaited Link)

/-- The connection that a bring-up holds, one that it is closing included. -/
def held? : BringUp → Option Link
  | .opening _ => none
  | .registering link | .schema link _ | .topology link _ | .closing link _ => some link

/-- The error of a connection that took too long to open. -/
def timeout (target : Address) (allowed : Duration) : Error :=
  .connection target s!"timed out after {allowed.millis} ms"

/-- Starts to open a connection. -/
def start (k : Control) (target : Address) : Control × BringUp :=
  ({ k with fabric := k.fabric.note (.opening target) }, .opening k.fabric.clock)

/-- Begins to close the connection and gives the bring-up up. -/
def giveUp (k : Control) (link : Link) (error : Option Error) :
    Control × Progress BringUp Result :=
  ({ k with fabric := k.fabric.close link.id }, .running (.closing link error))

/-- Registers for all kinds of events, unless shut down. -/
def register (k : Control) (link : Link) : Control × Progress BringUp Result :=
  if k.isShutDown then giveUp k link none
  else
    ({ k with fabric := k.fabric.send link.id (.register EventKind.all) },
      .running (.registering link))

/-- Where the bring-up stands after its topology refresh went on. -/
def afterTopology (k : Control) (link : Link) :
    Fabric × Progress TopologyRefresh TopologyRefresh.Result → Control × Progress BringUp Result
  | (fabric, .running r) => ({ k with fabric }, .running (.topology link r))
  | (fabric, .done (.ok (.ready _))) => ({ k with fabric }, .done (.ok (.ready link)))
  | (fabric, .done (.ok .cancelled)) => giveUp { k with fabric } link none
  | (fabric, .done (.error e)) => giveUp { k with fabric } link (some e)

/-- Where the bring-up stands after its schema refresh went on. -/
def afterSchema (k : Control) (link : Link) :
    Fabric × Progress SchemaRefresh SchemaRefresh.Result → Control × Progress BringUp Result
  | (fabric, .running r) => ({ k with fabric }, .running (.schema link r))
  | (fabric, .done (.ok (.ready _))) =>
    afterTopology k link (TopologyRefresh.start fabric k.isShutDown link k.settings.port)
  | (fabric, .done (.ok .cancelled)) => giveUp { k with fabric } link none
  | (fabric, .done (.error e)) => giveUp { k with fabric } link (some e)

/-- What a reply to the registration leads to. -/
def registered (k : Control) (link : Link) (reply : Reply) : Control × Progress BringUp Result :=
  match reply.acknowledge with
  | .error e => giveUp k link (some e)
  | .ok () => afterSchema k link (SchemaRefresh.start k.fabric k.isShutDown link.id .all)

/-- Goes on after a signal that fits the position. -/
def resume (k : Control) (target : Address) (b : BringUp) (signal : Signal) :
    Option (Control × Progress BringUp Result) :=
  match b, signal with
  | .opening _, .opened (.ok ()) =>
    let (fabric, link) := k.fabric.accept target
    some (register { k with fabric } link)
  | .opening _, .opened (.error e) => some (k, .done (.error e))
  | .opening _, .timedOut =>
    some (k, .done (.error (timeout target k.settings.connectionTimeout)))
  | .opening _, .cancelled => some (k, .done (.ok .cancelled))
  | .registering link, .answered .registration (.ok reply) => some (registered k link reply)
  | .registering link, .answered .registration (.error e) => some (giveUp k link (some e))
  | .registering link, .cancelled => some (giveUp k link none)
  | .schema link r, signal => (r.resume k.fabric signal).map (afterSchema k link)
  | .topology link r, signal => (r.resume k.fabric signal).map (afterTopology k link)
  | .closing link (some e), .closed =>
    some ({ k with fabric := k.fabric.lose link.id }, .done (.error e))
  | .closing link none, .closed =>
    some ({ k with fabric := k.fabric.lose link.id }, .done (.ok .cancelled))
  | _, _ => none

end BringUp

end ControlChannel
