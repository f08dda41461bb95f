import ControlChannel.Control.System
import ControlChannel.Rehearsal.Inquiry
import ControlChannel.Rehearsal.Timeline

/-!
A control connection on stage with a scripted cluster. The stage chooses the actions of the
system: it runs a job until it waits for something that is not due, takes the next job that can
go on, and lets the clock jump when none can. It changes the system through its actions alone.
Main content: `Stage.run`, which runs one job, and the timeline of a stage.
-/

namespace ControlChannel.Rehearsal

/-- What a job waits for. -/
inductive Wait where
  /-- An attempt to connect and what it comes to. -/
  | opening (scripted : Scripted Bool)
  | answers (inquiry : Inquiry)

structure Stage where
  system : System
  cluster : Cluster
  /-- The connections that fail every request. -/
  broken : List ConnectionId := []
  waits : List (JobId × Wait) := []

namespace Stage

def fabric (s : Stage) : Fabric := s.system.control.fabric

def clock (s : Stage) : Nat := s.fabric.clock

/-- Takes one action of the system. -/
def perform (s : Stage) (action : Action) : Stage :=
  match s.system.step action with
  | some system => { s with system }
  | none => s

/-- What a job waits for, if it is known. -/
def wait? (s : Stage) (id : JobId) : Option Wait := s.waits.lookup id

def setWait (s : Stage) (id : JobId) (wait : Wait) : Stage :=
  { s with waits := (id, wait) :: s.waits.filter (·.1 != id) }

def dropWait (s : Stage) (id : JobId) : Stage :=
  { s with waits := s.waits.filter (·.1 != id) }

/-- Shuts the control connection down at once; a close never takes time here. -/
def shutDown (s : Stage) : Stage :=
  let id := s.system.nextJob
  let s := (s.perform (.call .shutdown)).perform (.signal id .go)
  s.perform (.signal id .closed)

/-- Shuts down if the script says so. -/
def shutDownIf (s : Stage) (b : Bool) : Stage := if b then s.shutDown else s

/-- What a request comes to that is sent now. -/
def ask (s : Stage) (c : ConnectionId) (scope : Schema.Scope) (q : Question) : Scripted Reply :=
  match s.fabric.connection? c with
  | none => .never
  | some connection =>
    if connection.closed || s.broken.contains c then
      { due := some s.clock, outcome := some (.error (resetByPeer connection.address)) }
    else s.cluster.reply connection.address (q.request scope) s.clock

/-- Which of the waits with answers a need is about. -/
def topic (need : Need) : Option (List Question) :=
  match need with
  | .answers _ _ waiting unsent => (unsent.or waiting.head?).map Inquiry.together
  | _ => none

/-- Delivers a signal to a job and forgets its wait if the job has left it. -/
def signal (s : Stage) (job : Job) (signal : Signal) : Stage :=
  let s := s.perform (.signal job.id signal)
  let stays := match s.system.job? job.id with
    | some after => topic after.task.need == topic job.task.need && (topic job.task.need).isSome
    | none => false
  if stays then s else s.dropWait job.id

/-- A job that is polled after a pause looks at its wait anew. -/
def renew (s : Stage) (id : JobId) : Stage :=
  match s.wait? id with
  | some (.answers inquiry) => s.setWait id (.answers inquiry.renew)
  | _ => s

/-- Begins a poll, which may find the wait cancelled. -/
def poll (s : Stage) (job : Job) : Stage :=
  let cancelled := s.system.isCancelled job.task
  let s := s.perform (.poll job.id)
  if cancelled then s.dropWait job.id else s.renew job.id

/-- The connection opens or does not, if that is due, or its time is over. None when the job has
to wait on. -/
def runOpening (s : Stage) (job : Job) (target : Address) (since : Nat) : Option Stage :=
  let scripted := match s.wait? job.id with
    | some (.opening scripted) => scripted
    | _ => s.cluster.opening target s.clock
  let timedOut := Timer.due s.system.control.settings.connectionTimeout since ≤ s.clock
  if scripted.isDue s.clock then
    let s := s.shutDownIf scripted.shutdown
    match scripted.outcome with
    | none => some (s.setWait job.id (.opening .never))
    | some result =>
      let accepted := s.fabric.connections.size
      let s := s.signal job (.opened (result.map fun _ => ()))
      some (match result with
        | .ok true => { s with broken := accepted :: s.broken }
        | _ => s)
  else if timedOut then some (s.signal job .timedOut)
  else none

/-- The job asks or hears one question, if there is one to ask or hear. None when the job has to
wait on; the inquiry is then through with this poll. -/
def runAnswers (s : Stage) (job : Job) (c : ConnectionId) (scope : Schema.Scope)
    (waiting : List Question) (unsent : Option Question) : Option Stage × Inquiry :=
  let first := (unsent.or waiting.head?).getD .peers
  let inquiry := match s.wait? job.id with
    | some (.answers inquiry) => inquiry
    | _ => .start first
  let (move, inquiry) := inquiry.next waiting unsent s.clock (s.ask c scope)
  let s := s.setWait job.id (.answers inquiry)
  match move with
  | .rest => (none, inquiry)
  | .ask => (some (s.signal job .go), inquiry)
  | .hear q scripted =>
    let s := s.shutDownIf scripted.shutdown
    match scripted.outcome with
    | none => (some s, inquiry)
    | some result => (some (s.signal job (.answered q result)), inquiry)

/-- Keeps what a job waits for and ends its poll. -/
def park (s : Stage) (job : Job) (wait : Option Wait) : Stage :=
  let s := s.perform (.park job.id)
  match wait with
  | some wait => s.setWait job.id wait
  | none => s

/-- Runs a job until it has to wait or is over, in at most `fuel` steps. -/
def runIn : (fuel : Nat) → JobId → Stage → Stage
  | 0, _, s => s
  | fuel + 1, id, s =>
    match s.system.job? id with
    | none => s.dropWait id
    | some job =>
      if job.task.need.polled && !job.polled then runIn fuel id (s.poll job)
      else match job.task.need with
        | .step => runIn fuel id (s.signal job .go)
        | .closing => runIn fuel id (s.signal job .closed)
        | .sleep delay since =>
          if Timer.due delay since ≤ s.clock then runIn fuel id (s.signal job .woken)
          else s.park job none
        | .connection target since =>
          match s.runOpening job target since with
          | some s => runIn fuel id s
          | none =>
            let wait := (s.wait? id).getD (.opening (s.cluster.opening target s.clock))
            s.park job (some wait)
        | .answers c scope waiting unsent =>
          match s.runAnswers job c scope waiting unsent with
          | (some s, _) => runIn fuel id s
          | (none, inquiry) => s.park job (some (.answers inquiry))

def run (s : Stage) (id : JobId) : Stage := s.runIn turnLimit id

/-- When a job that waits has something to do, if it is not cancelled. -/
def due? (s : Stage) (job : Job) : Option Nat :=
  match job.task.need, s.wait? job.id with
  | .sleep delay since, _ => some (Timer.due delay since)
  | .connection _ since, some (.opening scripted) =>
    let timeout := Timer.due s.system.control.settings.connectionTimeout since
    some (scripted.due.elim timeout (min timeout))
  | .answers .., some (.answers inquiry) => inquiry.due?
  | _, _ => none

/-- Whether a job can go on at this instant. -/
def isReady (s : Stage) (job : Job) : Bool :=
  !job.task.need.polled || job.polled || s.system.isCancelled job.task
    || (s.due? job).any (· ≤ s.clock)

/-- Runs jobs until none can go on, the oldest that can first, or until `stops`. -/
def settleIn (stops : Stage → Bool) : (fuel : Nat) → Stage → Stage
  | 0, s => s
  | fuel + 1, s =>
    if stops s then s
    else match s.system.jobs.find? s.isReady with
      | some job => settleIn stops fuel (s.run job.id)
      | none => s

def settle (s : Stage) : Stage := s.settleIn (fun _ => false) turnLimit

def timeline (stops : Stage → Bool) : Timeline Stage where
  now := clock
  setNow s now := s.perform (.tick (now - s.clock))
  settle := settleIn stops turnLimit
  due? s := (s.system.jobs.filterMap fun job => (s.due? job).filter (s.clock < ·)).min?
  stops := stops

end Stage

end ControlChannel.Rehearsal
