import ControlChannel.Control.BringUp

/-!
A round over the candidates of one plan: each is brought up in turn until one is ready. A
candidate that fails with a connection fault is published, recorded and passed over; any other
error ends the round, and so does a shutdown before a candidate. When no candidate is left, the
round fails with all that was recorded.
-/

namespace ControlChannel

structure Round where
  /-- The candidate being brought up. -/
  target : Address
  /-- The candidates after it. -/
  rest : List Address
  failures : Failures
  bringUp : BringUp

namespace Round

abbrev Result := Except Error (Awaited Link)

/-- Turns to the next candidate, if there is one. -/
def next (k : Control) (failures : Failures) : List Address → Control × Progress Round Result
  | [] => (k, .done (.error (.noHost failures)))
  | target :: rest =>
    if k.isShutDown then (k, .done (.ok .cancelled))
    else
      let (k, bringUp) := BringUp.start k target
      (k, .running { target, rest, failures, bringUp })

/-- Starts a round with a new plan. -/
def start (k : Control) : Control × Progress Round Result :=
  let (plan, fabric) := k.fabric.takePlan
  next { k with fabric } ∅ plan

/-- Where the round stands after its bring-up went on. -/
def afterBringUp (r : Round) :
    Control × Progress BringUp BringUp.Result → Control × Progress Round Result
  | (k, .running bringUp) => (k, .running { r with bringUp })
  | (k, .done (.ok outcome)) => (k, .done (.ok outcome))
  | (k, .done (.error e)) =>
    if e.isConnectionFault then
      next (k.publish (.connectionFailed r.target e.reason))
        (r.failures.insert r.target e.reason) r.rest
    else (k, .done (.error e))

/-- Goes on after a signal that fits the position. -/
def resume (k : Control) (r : Round) (signal : Signal) :
    Option (Control × Progress Round Result) :=
  (r.bringUp.resume k r.target signal).map r.afterBringUp

end Round

end ControlChannel
