import ControlChannel.Control.Attempt
import ControlChannel.Session

/-!
The work that can go on around a control connection: calls of its operations, the background
round that a trigger starts and the session that follows a failed round. Main content: what each
task waits for (`Task.need`) and which connection it holds (`Task.held?`).
-/

namespace ControlChannel

/-- The stage of a session at which its attempt stands so. -/
def Attempt.stage : Attempt → SessionStage Round Install
  | .fresh => .fresh
  | .round r => .attempting r
  | .installing i => .settling i

/-- How far the attempt of a session is. -/
def SessionStage.attempt : SessionStage Round Install → Attempt
  | .fresh | .sleeping .. => .fresh
  | .attempting r => .round r
  | .settling i => .installing i

/-- The operations that take time. -/
inductive Call where
  | connect
  | refreshSchema (keyspace table : Option String)
  | refreshNodes
  | shutdown
  deriving DecidableEq, Repr

/-- What a refresh reports. -/
inductive RefreshOutcome where
  | refreshed
  /-- The connection failed and a reconnection was asked for. -/
  | reconnecting
  | cancelled
  deriving DecidableEq, Repr

/-- What a call returned. -/
inductive CallResult where
  | connected (result : Except Error (Awaited Unit))
  | refreshed (result : Except Error RefreshOutcome)
  | shutDown

inductive Task where
  /-- A call that has not begun. -/
  | called (call : Call)
  | connect (attempt : Attempt)
  | refreshSchema (refresh : SchemaRefresh)
  | refreshNodes (refresh : TopologyRefresh)
  /-- A shutdown that is closing the connection that was active. -/
  | shutdown (closing : Link)
  /-- The round that a trigger starts, under a handle of the slot. -/
  | background (handle : Handle) (attempt : Attempt)
  /-- The session that takes the handle over from a failed round. -/
  | session (handle : Handle) (session : Session Round Install)

/-- What a task waits for. -/
inductive Need where
  /-- Nothing: it can take its next step. -/
  | step
  /-- A connection to `target`, being opened since some time. -/
  | connection (target : Address) (since : Nat)
  /-- The answers to some questions asked on a connection; a further one can be sent. Surveys are
  about a scope. -/
  | answers (connection : ConnectionId) (scope : Schema.Scope) (waiting : List Question)
      (unsent : Option Question)
  /-- A connection being closed. -/
  | closing
  /-- The end of a sleep that began at some time. -/
  | sleep (delay : Duration) (since : Nat)
  deriving DecidableEq

/-- The request that asks a question. -/
def Question.request (scope : Schema.Scope) : Question → Request
  | .registration => .register EventKind.all
  | .survey kind => SchemaRefresh.request scope kind
  | .peers => .query Topology.selectPeers

namespace Need

/-- Whether the wait is polled, and ends early when it is cancelled. -/
def polled : Need → Bool
  | .connection .. | .answers .. | .sleep .. => true
  | .step | .closing => false

end Need

def SchemaRefresh.need (r : SchemaRefresh) : Need :=
  match r.stage with
  | .asking _ => .answers r.connection r.scope r.waiting r.unsent?
  | .applying _ => .step

def TopologyRefresh.need (r : TopologyRefresh) : Need :=
  match r.stage with
  | .asking => .answers r.link.id .all r.waiting none
  | _ => .step

def BringUp.need (target : Address) : BringUp → Need
  | .opening since => .connection target since
  | .registering link => .answers link.id .all [.registration] none
  | .schema _ r => r.need
  | .topology _ r => r.need
  | .closing .. => .closing

def Round.need (r : Round) : Need := r.bringUp.need r.target

def Attempt.need : Attempt → Need
  | .fresh => .step
  | .round r => r.need
  | .installing _ => .closing

namespace Task

def need : Task → Need
  | .called _ => .step
  | .connect a | .background _ a => a.need
  | .refreshSchema r => r.need
  | .refreshNodes r => r.need
  | .shutdown _ => .closing
  | .session _ s =>
    match s.stage with
    | .sleeping delay since => .sleep delay since
    | stage => stage.attempt.need

/-- The connection that a task holds for itself, one that it is closing included. -/
def held? : Task → Option Link
  | .connect a | .background _ a => a.held?
  | .shutdown closing => some closing
  | .session _ s => s.stage.attempt.held?
  | .called _ | .refreshSchema _ | .refreshNodes _ => none

/-- The handle of the slot that a task owns. -/
def handle? : Task → Option Handle
  | .background h _ | .session h _ => some h
  | _ => none

end Task

end ControlChannel
