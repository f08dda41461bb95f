import ControlChannel.Balancing

/-!
Steps on a round-robin policy: events about hosts, changes of their records, whole plans and plans
that are consumed while the policy changes.
-/

namespace ControlChannel.Rehearsal

structure Rotation where
  policy : RoundRobin
  /-- The hosts that are down; all others are up. -/
  down : List Address := []
  /-- What is left of each plan that was kept. -/
  plans : List (List Address) := []

inductive RotationStep where
  /-- The policy learns of all these hosts at the start. -/
  | start (hosts : List Address)
  /-- Each host becomes live. -/
  | join (hosts : List Address)
  | leave (hosts : List Address)
  /-- Sets the liveness of each record. -/
  | mark (hosts : List Address) (up : Bool)
  | plan
  /-- Keeps a new plan. -/
  | openPlan
  | next (plan : Nat)
  deriving DecidableEq, Repr

inductive RotationResult where
  | nothing
  | flags (changed : List Bool)
  | plan (addresses : List Address)
  | number (plan : Nat)
  | host (address : Option Address)
  deriving DecidableEq, Repr

namespace Rotation

/-- Sets the liveness of one record, and says whether that changed it. -/
def markOne (r : Rotation) (a : Address) (up : Bool) : Rotation × Bool :=
  let isDown := r.down.contains a
  if up then ({ r with down := r.down.filter (· != a) }, isDown)
  else if isDown then (r, false)
  else ({ r with down := a :: r.down }, true)

/-- Sets the liveness of records one after the other. -/
def markAll (r : Rotation) (up : Bool) : List Address → Rotation × List Bool
  | [] => (r, [])
  | a :: rest =>
    let (r, changed) := r.markOne a up
    let (r, flags) := markAll r up rest
    (r, changed :: flags)

def takePlan (r : Rotation) : List Address × Rotation :=
  (r.policy.plan.1, { r with policy := r.policy.plan.2 })

def perform (r : Rotation) : RotationStep → Rotation × RotationResult
  | .start hosts =>
    let up := hosts.filter fun a => !r.down.contains a
    ({ r with policy := up.foldl RoundRobin.join r.policy }, .nothing)
  | .join hosts => ({ r with policy := hosts.foldl RoundRobin.join r.policy }, .nothing)
  | .leave hosts => ({ r with policy := hosts.foldl RoundRobin.leave r.policy }, .nothing)
  | .mark hosts up =>
    let (r, flags) := r.markAll up hosts
    (r, .flags flags)
  | .plan =>
    let (plan, r) := r.takePlan
    (r, .plan plan)
  | .openPlan =>
    let (plan, r) := r.takePlan
    ({ r with plans := r.plans ++ [plan] }, .number r.plans.length)
  | .next n =>
    match r.plans[n]? with
    | some (a :: rest) => ({ r with plans := r.plans.set n rest }, .host (some a))
    | _ => (r, .host none)

end Rotation

end ControlChannel.Rehearsal
