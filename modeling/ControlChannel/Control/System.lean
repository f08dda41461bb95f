import ControlChannel.Control.Turn

/-!
A control connection with all the work going on around it. An action starts an operation, delivers
a signal to one task or lets time pass; each is one step of the system, and between two steps of a
task any other steps may come. Whoever runs the system only chooses the next action. Main content:
`System.step`, and `System.Reaches`, its closure under steps.
-/

namespace ControlChannel

abbrev JobId := Nat

/-- A task in progress. -/
structure Job where
  id : JobId
  task : Task
  /-- Whether a poll of its wait is under way. -/
  polled : Bool := false

/-- What a call has returned, and when. -/
structure Returned where
  job : JobId
  time : Nat
  result : CallResult

structure System where
  control : Control
  /-- In the order of their start. -/
  jobs : List Job := []
  nextJob : JobId := 0
  /-- The latest one first. -/
  returned : List Returned := []

/-- The possible next steps of a system. -/
inductive Action where
  /-- Time passes. -/
  | tick (ms : Nat)
  /-- An operation is called; it begins with the first step of its task. -/
  | call (call : Call)
  /-- A reconnection is asked for. -/
  | trigger
  | hostUp (address : Address)
  | hostDown (address : Address)
  | hostAdded (address : Address)
  | hostRemoved (address : Address)
  /-- The wait of a task is polled, which shows first whether it is cancelled. -/
  | poll (job : JobId)
  /-- The poll ends without a result. -/
  | park (job : JobId)
  | signal (job : JobId) (signal : Signal)
  /-- A connection breaks down from outside. -/
  | lose (connection : ConnectionId)
  /-- Someone else adds a host to the store. -/
  | addHost (address : Address)
  | removeHost (address : Address)

namespace System

/-- A control connection on which nothing has been called yet. -/
def initial (settings : Settings) (store : Store) (balancing : Balancing) : System :=
  { control := { settings, fabric := { store, balancing } } }

def job? (s : System) (id : JobId) : Option Job := s.jobs.find? (·.id == id)

/-- Starts a task. -/
def spawn (s : System) (task : Task) : System :=
  { s with jobs := s.jobs ++ [{ id := s.nextJob, task }], nextJob := s.nextJob + 1 }

/-- The task stands at a new position, reached in the poll that is under way. -/
def setTask (s : System) (id : JobId) (task : Task) : System :=
  { s with jobs := s.jobs.map fun j => if j.id == id then { j with task, polled := true } else j }

def setPolled (s : System) (id : JobId) (polled : Bool) : System :=
  { s with jobs := s.jobs.map fun j => if j.id == id then { j with polled } else j }

/-- The task is over. -/
def retire (s : System) (id : JobId) : System :=
  { s with jobs := s.jobs.filter (·.id != id) }

/-- What a call has returned, if it is over. -/
def result? (s : System) (id : JobId) : Option CallResult :=
  (s.returned.find? (·.job == id)).map (·.result)

/-- Changes the state of the control connection. -/
def withControl (s : System) (control : Control) : System := { s with control }

/-- A call returns. -/
def answer (s : System) (id : JobId) (result : CallResult) : System :=
  { s with returned := ⟨id, s.control.fabric.clock, result⟩ :: s.returned }

/-- What one step of a task leads to happens. -/
def apply (s : System) (id : JobId) (turn : Turn) : System :=
  let s := s.withControl turn.control
  let s := match turn.task with
    | some task => s.setTask id task
    | none => s.retire id
  let s := match turn.spawned with
    | some task => s.spawn task
    | none => s
  match turn.result with
  | some result => s.answer id result
  | none => s

/-- Starts a background round if the slot is free, and says whether it did. -/
def trigger (s : System) : Bool × System :=
  match s.control.trigger with
  | none => (false, s)
  | some (control, task) => (true, (s.withControl control).spawn task)

/-! ## Steps -/

/-- Whether the wait of a task is cancelled. -/
def isCancelled (s : System) (task : Task) : Bool := s.control.cancels task

/-- A task goes on after a signal that fits its position. -/
def resume (s : System) (job : Job) (signal : Signal) : Option System :=
  (job.task.resume s.control signal).map (s.apply job.id)

/-- Polls the wait of a task. -/
def poll (s : System) (job : Job) : Option System :=
  if job.polled || !job.task.need.polled then none
  else if s.isCancelled job.task then s.resume job .cancelled
  else some (s.setPolled job.id true)

/-- Ends a poll without a result; every survey is sent by then. -/
def park (s : System) (job : Job) : Option System :=
  match job.task.need with
  | .answers _ _ _ (some _) => none
  | _ => if job.polled then some (s.setPolled job.id false) else none

/-- Whether a signal may reach a job: the end of a polled wait does so within a poll, and only a
poll finds a cancellation. A connection times out no sooner than its time is over. -/
def admits (s : System) (job : Job) : Signal → Bool
  | .go => !job.task.need.polled || job.polled
  | .cancelled => false
  | .closed => true
  | .opened _ | .answered .. | .woken => job.polled
  | .timedOut =>
    match job.task.need with
    | .connection _ since =>
      job.polled
        && decide (Timer.due s.control.settings.connectionTimeout since ≤ s.control.fabric.clock)
    | _ => false

/-- Delivers a signal to a job. -/
def deliver (s : System) (job : Job) (signal : Signal) : Option System :=
  if s.admits job signal then s.resume job signal else none

def withFabric (s : System) (fabric : Fabric) : System :=
  s.withControl { s.control with fabric }

/-- The policy hears that an address is live, or is live no more. -/
def hostJoins (s : System) (a : Address) : System :=
  s.withFabric { s.control.fabric with balancing := s.control.fabric.balancing.join a }

def hostLeaves (s : System) (a : Address) : System :=
  s.withFabric { s.control.fabric with balancing := s.control.fabric.balancing.leave a }

/-- A host went down: if it is the connected one, a reconnection is due. -/
def hostDown (s : System) (a : Address) : System :=
  let s := s.hostLeaves a
  if s.control.active.any (·.address == a) && !s.control.slot.isActive then s.trigger.2 else s

/-- One step of the system; none where the action does not fit. -/
def step (s : System) : Action → Option System
  | .tick ms =>
    some (s.withFabric { s.control.fabric with clock := s.control.fabric.clock + ms })
  | .call call => some (s.spawn (.called call))
  | .trigger => some s.trigger.2
  | .hostUp a | .hostAdded a => some (s.hostJoins a)
  | .hostRemoved a => some (s.hostLeaves a)
  | .hostDown a => some (s.hostDown a)
  | .poll id => (s.job? id).bind s.poll
  | .park id => (s.job? id).bind s.park
  | .signal id signal => (s.job? id).bind fun job => s.deliver job signal
  | .lose c => some (s.withFabric (s.control.fabric.lose c))
  | .addHost a => some (s.withFabric (s.control.fabric.addHost a))
  | .removeHost a => some (s.withFabric (s.control.fabric.removeHost a))

/-- The systems that steps lead to. -/
inductive Reaches : System → System → Prop where
  | refl (s : System) : Reaches s s
  | step {s t u : System} (action : Action) : Reaches s t → t.step action = some u → Reaches s u

/-- The system that a list of actions leads to. -/
def run (s : System) : List Action → Option System
  | [] => some s
  | action :: rest => (s.step action).bind (·.run rest)

theorem Reaches.trans {s t u : System} (h : Reaches s t) (h' : Reaches t u) : Reaches s u := by
  induction h' with
  | refl => exact h
  | step action _ e ih => exact .step action ih e

theorem reaches_run {s t : System} {actions : List Action} (h : s.run actions = some t) :
    Reaches s t := by
  induction actions generalizing s with
  | nil => cases h; exact .refl _
  | cons action rest ih =>
    simp only [run, Option.bind_eq_some_iff] at h
    obtain ⟨u, hu, h⟩ := h
    exact (Reaches.step action (.refl s) hu).trans (ih h)

end System

end ControlChannel
