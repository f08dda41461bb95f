import ControlChannel.Slot

/-!
Steps on a slot and the handles it gave out, which stay known under their numbers. A slot without
an owner is never revoked. Main statement: a handle keeps its number (`getElem?_perform`).
-/

namespace ControlChannel.Rehearsal

structure Occupancy where
  slot : Slot := {}
  /-- Whether someone owns the slot and can revoke it. -/
  owned : Bool
  /-- The handles given out, in order. -/
  handles : List Handle := []
  deriving DecidableEq, Repr

inductive OccupancyStep where
  | occupy
  /-- Releases a handle by its number. -/
  | release (number : Nat)
  | cancel
  /-- The owner revokes the slot. -/
  | revoke
  deriving DecidableEq, Repr

inductive OccupancyResult where
  | nothing
  | handle (handle : Handle)
  | flag (b : Bool)
  deriving DecidableEq, Repr

namespace Occupancy

def perform (o : Occupancy) : OccupancyStep → Occupancy × OccupancyResult
  | .occupy =>
    match o.slot.tryOccupy with
    | none => (o, .nothing)
    | some (handle, slot) =>
      ({ o with slot, handles := o.handles ++ [handle] }, .handle handle)
  | .release number =>
    match o.handles[number]? with
    | none => (o, .nothing)
    | some h => ({ o with slot := o.slot.release h }, .flag (o.slot.holds h))
  | .cancel => ({ o with slot := o.slot.cancel }, .flag o.slot.isActive)
  | .revoke => (if o.owned then { o with slot := o.slot.revoke } else o, .nothing)

/-- Which of the handles are cancelled, in the order of their numbers. -/
def cancelled (o : Occupancy) : List Bool := o.handles.map o.slot.isCancelled

theorem getElem?_perform {o : Occupancy} {n : Nat} {h : Handle} (hn : o.handles[n]? = some h)
    (step : OccupancyStep) : (o.perform step).1.handles[n]? = some h := by
  have hlt : n < o.handles.length := (List.getElem?_eq_some_iff.1 hn).1
  cases step <;> simp only [perform] <;> (try split) <;> try assumption
  rw [List.getElem?_append_left hlt]
  exact hn

end Occupancy

end ControlChannel.Rehearsal
