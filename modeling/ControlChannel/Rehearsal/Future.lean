import ControlChannel.Error
import ControlChannel.Rehearsal.Timeline
import ControlChannel.Signal

/-!
A single scripted wait and its cancellation. The wait ends with its outcome, or with the
cancellation if that comes first. Main statement: a cancellation before the start wins over an
outcome that is there at once (`await_cancelled`).
-/

namespace ControlChannel.Rehearsal

/-- Something that comes after a delay, if at all. -/
structure Future (α : Type) where
  delay : Nat := 0
  /-- None when it never comes. -/
  outcome : Option (Except Error α)

namespace Future

/-- The result of waiting, none when it takes too long, and when that is known. A cancellation
that is there at the start comes first; later on the outcome does. -/
def await {α : Type} (future : Future α) (cancelAt : Option Nat) :
    Option (Except Error (Awaited α)) × Nat :=
  let comes := future.outcome.filter fun _ => future.delay ≤ patience
  match comes, cancelAt with
  | some outcome, none => (some (outcome.map .ready), future.delay)
  | some outcome, some t =>
    if t = 0 ∨ t < future.delay then (some (.ok .cancelled), t)
    else (some (outcome.map .ready), future.delay)
  | none, some t => if t ≤ patience then (some (.ok .cancelled), t) else (none, patience)
  | none, none => (none, patience)

theorem await_cancelled {α : Type} (future : Future α) :
    future.await (some 0) = (some (.ok .cancelled), 0) := by
  simp only [await]
  cases future.outcome.filter fun _ => decide (future.delay ≤ patience) <;> simp

end Future

end ControlChannel.Rehearsal
