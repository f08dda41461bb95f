import ControlChannel.Backoff
import ControlChannel.Error
import ControlChannel.Signal

/-!
A reconnection session: it sleeps, attempts, and on a failure sleeps again for the schedule's next
delay, until an attempt succeeds, a failure callback gives up or the session is cancelled. The
attempt and what follows a success are work of their own, so a session is described for any of
either. Main statements: a failure reports the very delay that is slept next
(`afterFailure_sleeps`), and a cancelled session starts no further sleep.
-/

namespace ControlChannel

inductive SessionOutcome where
  /-- An attempt succeeded and what follows a success is done. -/
  | reconnected
  /-- A failure callback gave up. -/
  | abandoned
  | cancelled
  deriving DecidableEq, Repr

/-- Which callback hears of a failure. -/
inductive FailureKind where
  /-- Unreachable nodes and broken channels. -/
  | known
  | unknown
  deriving DecidableEq, Repr

/-- What a failure callback hears: the error and the delay before the next attempt. -/
structure Failure where
  error : Error
  delay : Duration

def Failure.kind (f : Failure) : FailureKind :=
  if f.error.isConnectionFault then .known else .unknown

/-- A stage of a session whose attempts stand at an `α` and whose success stands at a `σ`. -/
inductive SessionStage (α σ : Type) where
  | fresh
  /-- Sleeping for a delay that began at some time on the clock. -/
  | sleeping (delay : Duration) (since : Nat)
  | attempting (position : α)
  /-- An attempt succeeded; what follows is under way. -/
  | settling (position : σ)

structure Session (α σ : Type) where
  /-- The delays that are left. -/
  schedule : Schedule
  stage : SessionStage α σ

namespace Session

variable {α σ : Type}

/-- Sleeps for a delay, unless cancelled. -/
def sleep (schedule : Schedule) (delay : Duration) (now : Nat) (cancelled : Bool) :
    Progress (Session α σ) SessionOutcome :=
  if cancelled then .done .cancelled else .running ⟨schedule, .sleeping delay now⟩

/-- The first sleep. -/
def start (schedule : Schedule) (now : Nat) (cancelled : Bool) :
    Progress (Session α σ) SessionOutcome :=
  sleep schedule.next.2 schedule.next.1 now cancelled

/-- What is reported of a failed attempt; a cancelled session reports nothing. -/
def failure? (schedule : Schedule) (error : Error) (cancelled : Bool) : Option Failure :=
  if cancelled then none else some ⟨error, schedule.next.1⟩

/-- What follows a reported failure, given whether the callback wants to go on. -/
def afterFailure (schedule : Schedule) (failure : Failure) (keep : Bool) (now : Nat)
    (cancelled : Bool) : Progress (Session α σ) SessionOutcome :=
  if keep then sleep schedule.next.2 failure.delay now cancelled else .done .abandoned

theorem afterFailure_sleeps {schedule : Schedule} {error : Error} {failure : Failure} {now : Nat}
    (h : failure? schedule error false = some failure) :
    (afterFailure schedule failure true now false : Progress (Session α σ) SessionOutcome) =
      .running ⟨schedule.next.2, .sleeping schedule.next.1 now⟩ := by
  cases h
  rfl

theorem sleep_cancelled (schedule : Schedule) (delay : Duration) (now : Nat) :
    (sleep schedule delay now true : Progress (Session α σ) SessionOutcome) = .done .cancelled :=
  rfl

end Session

end ControlChannel
