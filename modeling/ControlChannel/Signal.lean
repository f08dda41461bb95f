import ControlChannel.Message

/-!
How work that has to wait is described. A piece of work is a position: what it waits for and what
it needs to go on. A signal tells a position that its wait is over; the work then runs to its next
wait or to its end. Work that waits for a node, or sleeps, is polled first, and finds out there
whether it was cancelled; what arrives later in the same poll counts even if the cancellation
came in between.
-/

namespace ControlChannel

/-- The result of work that may be given up before it completes. -/
inductive Awaited (α : Type) where
  | ready (value : α)
  | cancelled
  deriving DecidableEq, Repr

/-- Where a piece of work stands: at a position, or at its end. -/
inductive Progress (σ ρ : Type) where
  | running (position : σ)
  | done (result : ρ)
  deriving Repr

namespace Progress

def map {σ τ ρ : Type} (g : σ → τ) : Progress σ ρ → Progress τ ρ
  | .running s => .running (g s)
  | .done r => .done r

end Progress

/-- The three surveys of a schema refresh, in the order in which they are sent. -/
inductive SurveyKind where
  | keyspaces
  | columnFamilies
  | columns
  deriving DecidableEq, Repr

/-- The requests that work may wait to see answered. -/
inductive Question where
  | registration
  | survey (kind : SurveyKind)
  | peers
  deriving DecidableEq, Repr

/-- What ends a wait. -/
inductive Signal where
  /-- Nothing was waited for: take the next step. -/
  | go
  /-- The poll found that the work was cancelled. -/
  | cancelled
  /-- The attempt to open a connection ended. -/
  | opened (result : Except Error Unit)
  /-- The time to open a connection is over. -/
  | timedOut
  | answered (question : Question) (result : Except Error Reply)
  /-- A connection has been closed. -/
  | closed
  /-- The sleep is over. -/
  | woken

end ControlChannel
