import ControlChannel.Control.Description
import ControlChannel.Rehearsal.Stage
import ControlChannel.Rehearsal.StoreStep

/-!
A rehearsal of a control connection, step by step, and what can be seen after each step. A step
calls an operation and waits for it, or starts one beside the others, or changes something
outside; then everything that can go on at this instant does, unless the step asks not to wait.
Main content: `Play.perform`.
-/

namespace ControlChannel.Rehearsal

inductive PlayStep where
  /-- Calls an operation and waits for it. -/
  | call (call : Call)
  /-- Starts an operation beside the others. -/
  | spawn (call : Call)
  | trigger
  | hostUp (address : Address)
  | hostDown (address : Address)
  | hostAdded (address : Address)
  | hostRemoved (address : Address)
  | advance (ms : Nat)
  /-- Replaces a node, or takes it away. -/
  | node (address : Address) (node : Option Node)
  /-- The connection fails every request from now on. -/
  | damage (connection : ConnectionId)
  /-- The connection is closed from outside. -/
  | lose (connection : ConnectionId)
  | describe
  | store (step : StoreStep)

inductive PlayResult where
  | nothing
  | flag (b : Bool)
  | returned (result : CallResult)
  /-- The call took too long and was dropped. -/
  | stuck
  | text (s : String)
  | store (result : StoreResult)

/-- A spawned call that is over. -/
structure Done where
  /-- The step that started it. -/
  step : Nat
  time : Nat
  result : CallResult

structure Play where
  stage : Stage
  /-- The number of the next step. -/
  step : Nat := 0
  /-- Which step started which job. -/
  spawned : List (JobId × Nat) := []
  /-- How much of each was seen after the last step. -/
  seenEntries : Nat := 0
  seenEvents : Nat := 0
  seenShifts : Nat := 0
  seenReturned : Nat := 0

/-- What can be seen after a step. -/
structure Seen where
  result : PlayResult
  clock : Nat
  phase : Phase
  shifted : Bool
  active : Option Link
  opened : List ConnectionId
  reconnecting : Bool
  /-- How many events were lost because there were too many. -/
  lost : Nat
  events : List Event
  entries : List Entry
  done : List Done

/-- How many events a listener can be behind. -/
def eventCapacity : Nat := 64

namespace Play

def withStage (p : Play) (stage : Stage) : Play := { p with stage }

/-- Calls an operation and plays on until it returns or takes too long. -/
def call (p : Play) (c : Call) : Play × PlayResult :=
  let s := p.stage
  let id := s.system.nextJob
  let returns : Stage → Bool := fun s => (s.system.result? id).isSome
  let s := (s.perform (.call c)).run id
  let s := if returns s then s
    else ((Stage.timeline returns).advance (s.clock + patience) s).run id
  match s.system.result? id with
  | some result => (p.withStage s, .returned result)
  | none =>
    let s := { s with system := s.system.retire id }.dropWait id
    (p.withStage s, .stuck)

/-- Takes one action and says nothing of it. -/
def act (p : Play) (a : Action) : Play × PlayResult := (p.withStage (p.stage.perform a), .nothing)

/-- Takes one step on the store. Joining and leaving hosts reach the listeners. -/
def onStore (p : Play) (step : StoreStep) : Play × PlayResult :=
  let (fabric, result) := step.perform p.stage.fabric
  let stage := match step with
    | .addHost a => p.stage.perform (.addHost a)
    | .removeHost a => p.stage.perform (.removeHost a)
    | _ => { p.stage with system := p.stage.system.withFabric fabric }
  (p.withStage stage, .store result)

/-- Takes one step, without what follows from it at this instant. -/
def take (p : Play) : PlayStep → Play × PlayResult
  | .call c => p.call c
  | .spawn c =>
    let id := p.stage.system.nextJob
    ({ p with
        stage := p.stage.perform (.call c)
        spawned := (id, p.step) :: p.spawned }, .nothing)
  | .trigger =>
    (p.withStage (p.stage.perform .trigger), .flag p.stage.system.trigger.1)
  | .hostUp a => p.act (.hostUp a)
  | .hostDown a => p.act (.hostDown a)
  | .hostAdded a => p.act (.hostAdded a)
  | .hostRemoved a => p.act (.hostRemoved a)
  | .advance ms =>
    let line := Stage.timeline fun _ => false
    (p.withStage (line.advance (p.stage.clock + ms) p.stage), .nothing)
  | .node a node =>
    let cluster := match node with
      | some node => p.stage.cluster.insert a node
      | none => p.stage.cluster.erase a
    (p.withStage { p.stage with cluster }, .nothing)
  | .damage c => (p.withStage { p.stage with broken := c :: p.stage.broken }, .nothing)
  | .lose c => p.act (.lose c)
  | .describe => (p, .text p.stage.system.control.description)
  | .store step => p.onStore step

/-- The spawned calls that ended since the last step, in order. -/
def done (p : Play) : List Done :=
  let returned := p.stage.system.returned
  (returned.take (returned.length - p.seenReturned)).reverse.filterMap fun r =>
    (p.spawned.lookup r.job).map fun step => ⟨step, r.time, r.result⟩

/-- What can be seen now. -/
def see (p : Play) (result : PlayResult) : Seen :=
  let k := p.stage.system.control
  let fresh := k.events.length - p.seenEvents
  { result
    clock := p.stage.clock
    phase := k.phase
    shifted := k.shifts != p.seenShifts
    active := k.active
    opened := k.fabric.openConnections
    reconnecting := k.slot.isActive
    lost := fresh - eventCapacity
    events := (k.events.take (min fresh eventCapacity)).reverse
    entries := entriesAfter p.seenEntries k.fabric
    done := p.done }

/-- What there is to see has been seen. -/
def noteSeen (p : Play) : Play :=
  let system := p.stage.system
  { p with
    step := p.step + 1
    seenEntries := system.control.fabric.trace.length
    seenEvents := system.control.events.length
    seenShifts := system.control.shifts
    seenReturned := system.returned.length }

/-- Takes one step and shows what can be seen afterwards. -/
def perform (p : Play) (step : PlayStep) (settles : Bool) : Play × Seen :=
  let (p, result) := p.take step
  let p := if settles then p.withStage p.stage.settle else p
  (p.noteSeen, p.see result)

end Play

end ControlChannel.Rehearsal
