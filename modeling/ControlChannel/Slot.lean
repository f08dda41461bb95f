/-!
The slot that holds the one reconnection session of a control connection. Occupying it yields a
handle; the slot is free again when that handle is released or the slot is cancelled, and a
cancelled slot also revokes the handle it held. Once the slot's owner revokes the whole slot, all
handles count as cancelled and none is given out any more. Main statements: what each operation
does to the holder (`holder_tryOccupy`, `holder_release`, `holder_cancel`).
-/

namespace ControlChannel

/-- Names one session of a slot. -/
structure Handle where
  id : Nat
  deriving DecidableEq, Repr

structure Slot where
  /-- The handle that occupies the slot. -/
  holder : Option Handle := none
  /-- The id of the next handle. -/
  nextId : Nat := 1
  /-- The handles that were cancelled out of the slot. -/
  evicted : List Handle := []
  /-- Whether the owner revoked the slot for good. -/
  revoked : Bool := false
  deriving DecidableEq, Repr

namespace Slot

def isActive (s : Slot) : Bool := s.holder.isSome

/-- Takes the slot if it is free and not revoked. -/
def tryOccupy (s : Slot) : Option (Handle × Slot) :=
  if s.isActive || s.revoked then none
  else
    let handle : Handle := ⟨s.nextId⟩
    some (handle, { s with holder := some handle, nextId := s.nextId + 1 })

def holds (s : Slot) (h : Handle) : Bool := s.holder == some h

/-- Frees the slot if `h` occupies it. -/
def release (s : Slot) (h : Handle) : Slot :=
  if s.holds h then { s with holder := none } else s

/-- Frees the slot and cancels the handle that occupied it. -/
def cancel (s : Slot) : Slot :=
  match s.holder with
  | some h => { s with holder := none, evicted := h :: s.evicted }
  | none => s

/-- Cancels every handle and gives out no more. -/
def revoke (s : Slot) : Slot := { s with revoked := true }

def isCancelled (s : Slot) (h : Handle) : Bool := s.revoked || s.evicted.contains h

theorem tryOccupy_isSome_iff (s : Slot) :
    s.tryOccupy.isSome = true ↔ s.holder = none ∧ s.revoked = false := by
  cases hh : s.holder <;> cases hr : s.revoked <;> simp [tryOccupy, isActive, hh, hr]

theorem holder_tryOccupy {s s' : Slot} {h : Handle} (e : s.tryOccupy = some (h, s')) :
    s'.holder = some h ∧ h.id = s.nextId := by
  unfold tryOccupy at e
  split at e
  · cases e
  · cases e; exact ⟨rfl, rfl⟩

@[simp] theorem holder_release (s : Slot) (h : Handle) :
    (s.release h).holder = if s.holds h then none else s.holder := by
  unfold release
  split <;> rfl

@[simp] theorem holder_cancel (s : Slot) : s.cancel.holder = none := by
  unfold cancel
  split <;> simp_all

theorem isCancelled_cancel {s : Slot} {h : Handle} (hh : s.holder = some h) :
    s.cancel.isCancelled h = true := by
  simp [cancel, hh, isCancelled]

end Slot

end ControlChannel
