import ControlChannel.Control.Task
import ControlChannel.Timer

/-!
What one step of a task does: how it changes the control connection, where the task stands
afterwards, which task it starts and what a call returns. A step reads and changes nothing but the
control connection; the tasks in progress do not know of each other. Main content: `Task.resume`,
the step of a task after a signal.
-/

namespace ControlChannel

/-- What one step of a task leads to. -/
structure Turn where
  control : Control
  /-- Where the task stands; none when it is over. -/
  task : Option Task := none
  /-- A task that it starts. -/
  spawned : Option Task := none
  /-- What a call returns when it is over. -/
  result : Option CallResult := none

namespace Control

/-- Occupies the slot for a new session if it is free; with the task that is to run. -/
def trigger (k : Control) : Option (Control × Task) :=
  k.slot.tryOccupy.map fun (handle, slot) =>
    ({ k with slot }.shift .reconnecting, .background handle .fresh)

/-- The error as an event, unless it is a connection fault. -/
def reportUnexpected (k : Control) (e : Error) : Control :=
  if e.isConnectionFault then k else k.publish (.unexpectedError e.message)

/-- What a session publishes of a failure that it reports. -/
def publishFailure (k : Control) (failure : Failure) : Control :=
  (k.reportUnexpected failure.error).publish (.reconnectionScheduled failure.delay)

/-- Whether the wait of a task is cancelled: a sleep with its handle, any other wait with the
whole control connection. -/
def cancels (k : Control) (task : Task) : Bool :=
  match task.need, task.handle? with
  | .sleep .., some handle => k.slot.isCancelled handle
  | _, _ => k.isShutDown

/-- The policy learns the known hosts, and the first round is about to start. -/
def connecting (k : Control) : Control :=
  let fabric := { k.fabric with balancing := k.fabric.balancing.start k.fabric.store.allHosts }
  { k with fabric }.shift .connecting

end Control

namespace Turn

/-- The task goes on. -/
def stay (control : Control) (task : Task) : Turn := { control, task := some task }

/-- The call is over and returns. -/
def answer (control : Control) (result : CallResult) : Turn := { control, result := some result }

/-- The task gives its handle back and is over. -/
def release (k : Control) (handle : Handle) : Turn :=
  { control := { k with slot := k.slot.release handle } }

/-- The background round hands its handle over to a session. -/
def handOver (k : Control) (handle : Handle) : Turn :=
  { control := k, spawned := some (.session handle ⟨k.settings.backoff.schedule, .fresh⟩) }

/-! ## Reconnection -/

/-- The background task after its attempt went on. -/
def ofBackground (handle : Handle) : Control × Progress Attempt Attempt.Result → Turn
  | (k, .running a) => stay k (.background handle a)
  | (k, .done (.ok _)) => release k handle
  | (k, .done (.error e)) =>
    if k.slot.isCancelled handle then release k handle
    else handOver (k.reportUnexpected e) handle

/-- The session task at a new point of its session. -/
def ofSession (k : Control) (handle : Handle) :
    Progress (Session Round Install) SessionOutcome → Turn
  | .running session => stay k (.session handle session)
  | .done _ => release k handle

/-- The session task after its attempt went on. A failure is always followed by a further
attempt. -/
def ofSessionAttempt (handle : Handle) (schedule : Schedule) :
    Control × Progress Attempt Attempt.Result → Turn
  | (k, .running a) => ofSession k handle (.running ⟨schedule, a.stage⟩)
  | (k, .done (.ok _)) => ofSession k handle (.done .reconnected)
  | (k, .done (.error e)) =>
    let cancelled := k.slot.isCancelled handle
    match Session.failure? schedule e cancelled with
    | none => ofSession k handle (.done .cancelled)
    | some failure =>
      ofSession (k.publishFailure failure) handle
        (Session.afterFailure schedule failure true k.fabric.clock cancelled)

/-! ## Calls -/

/-- The call to connect after its attempt went on. -/
def ofConnect : Control × Progress Attempt Attempt.Result → Turn
  | (k, .running a) => stay k (.connect a)
  | (k, .done (.ok (.ready _))) => answer k (.connected (.ok (.ready ())))
  | (k, .done (.ok .cancelled)) => answer k (.connected (.ok .cancelled))
  | (k, .done (.error e)) => answer (k.shift .disconnected) (.connected (.error e))

/-- What a refresh reports at its end. A connection fault asks for a reconnection. -/
def ofRefresh {α : Type} (k : Control) : Except Error (Awaited α) → Turn
  | .ok (.ready _) => answer k (.refreshed (.ok .refreshed))
  | .ok .cancelled => answer k (.refreshed (.ok .cancelled))
  | .error e =>
    if e.isConnectionFault then
      match k.trigger with
      | none => answer k (.refreshed (.ok .reconnecting))
      | some (k, task) => { answer k (.refreshed (.ok .reconnecting)) with spawned := some task }
    else answer (k.publish (.unexpectedError e.message)) (.refreshed (.error e))

/-- The schema refresh after it went on. -/
def ofSchema (k : Control) : Fabric × Progress SchemaRefresh SchemaRefresh.Result → Turn
  | (fabric, .running r) => stay { k with fabric } (.refreshSchema r)
  | (fabric, .done result) => ofRefresh { k with fabric } result

/-- The topology refresh after it went on. -/
def ofNodes (k : Control) : Fabric × Progress TopologyRefresh TopologyRefresh.Result → Turn
  | (fabric, .running r) => stay { k with fabric } (.refreshNodes r)
  | (fabric, .done result) => ofRefresh { k with fabric } result

/-- The call of a schema refresh. The scope is checked before the connection. -/
def beginSchema (k : Control) (keyspace table : Option String) : Turn :=
  match Schema.Scope.ofNames keyspace table, k.requireActive with
  | .error e, _ => answer k (.refreshed (.error e))
  | _, .error e => answer k (.refreshed (.error e))
  | .ok scope, .ok link => ofSchema k (SchemaRefresh.start k.fabric k.isShutDown link.id scope)

/-- The call of a topology refresh. -/
def beginNodes (k : Control) : Turn :=
  match k.requireActive with
  | .error e => answer k (.refreshed (.error e))
  | .ok link => ofNodes k (TopologyRefresh.start k.fabric k.isShutDown link k.settings.port)

/-- The last part of a shutdown. -/
def finishShutdown (k : Control) : Turn := answer ((k.shift .closed).publish .closed) .shutDown

/-- The call of a shutdown: the slot is revoked and emptied, and the active connection is taken
out and closed. A second shutdown does nothing. -/
def beginShutdown (k : Control) : Turn :=
  if k.isShutDown then answer k .shutDown
  else
    let slot := k.slot.revoke.cancel
    match k.active with
    | none => finishShutdown { k with slot }
    | some link =>
      stay { k with slot, active := none, fabric := k.fabric.close link.id } (.shutdown link)

/-- The first step of a call. -/
def begin (k : Control) : Call → Turn
  | .connect =>
    if k.isShutDown then answer k (.connected (.error Control.alreadyShutDown))
    else if k.active.isSome then answer k (.connected (.error Control.alreadyConnected))
    else stay k (.connect .fresh)
  | .refreshSchema keyspace table => beginSchema k keyspace table
  | .refreshNodes => beginNodes k
  | .shutdown => beginShutdown k

end Turn

namespace Task

/-- The session task after a signal. -/
def resumeSession (k : Control) (handle : Handle) (session : Session Round Install)
    (signal : Signal) : Option Turn :=
  match session.stage, signal with
  | .fresh, .go =>
    some (.ofSession k handle
      (Session.start session.schedule k.fabric.clock (k.slot.isCancelled handle)))
  | .fresh, _ => none
  | .sleeping .., .cancelled => some (.ofSession k handle (.done .cancelled))
  | .sleeping delay since, .woken =>
    if Timer.due delay since ≤ k.fabric.clock then
      (Attempt.fresh.resume k .go).map (.ofSessionAttempt handle session.schedule)
    else none
  | .sleeping .., _ => none
  | stage, signal => (stage.attempt.resume k signal).map (.ofSessionAttempt handle session.schedule)

/-- A task after a signal that fits its position. -/
def resume (k : Control) (task : Task) (signal : Signal) : Option Turn :=
  match task, signal with
  | .called call, .go => some (.begin k call)
  | .called _, _ => none
  | .connect .fresh, signal => (Attempt.fresh.resume k.connecting signal).map .ofConnect
  | .connect attempt, signal => (attempt.resume k signal).map .ofConnect
  | .refreshSchema r, signal => (r.resume k.fabric signal).map (.ofSchema k)
  | .refreshNodes r, signal => (r.resume k.fabric signal).map (.ofNodes k)
  | .shutdown closing, .closed =>
    some (.finishShutdown { k with fabric := k.fabric.lose closing.id })
  | .shutdown _, _ => none
  | .background handle attempt, signal => (attempt.resume k signal).map (.ofBackground handle)
  | .session handle s, signal => resumeSession k handle s signal

end Task

end ControlChannel
