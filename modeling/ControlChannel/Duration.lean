/-!
Spans of time in whole nanoseconds. A span never exceeds `Duration.max`, the largest number of
seconds in 64 bits and one nanosecond less than a further second. Main content: readings in
milliseconds, rounded down for texts and up for timers, and a product that refuses to exceed the
largest span.
-/

namespace ControlChannel

/-- A span of time; at most 2^64 seconds less one nanosecond. -/
structure Duration where
  nanos : Nat
  nanos_lt : nanos < 0x10000000000000000 * 1000000000 := by decide
  deriving DecidableEq, Repr

namespace Duration

instance : Inhabited Duration := ⟨⟨0, by decide⟩⟩

instance : LE Duration := ⟨fun a b => a.nanos ≤ b.nanos⟩
instance : LT Duration := ⟨fun a b => a.nanos < b.nanos⟩
instance (a b : Duration) : Decidable (a ≤ b) := inferInstanceAs (Decidable (a.nanos ≤ b.nanos))
instance (a b : Duration) : Decidable (a < b) := inferInstanceAs (Decidable (a.nanos < b.nanos))
instance : Min Duration := minOfLe

def zero : Duration := ⟨0, by decide⟩

/-- The largest span. -/
def max : Duration := ⟨0x10000000000000000 * 1000000000 - 1, by decide⟩

def ofMillis (ms : UInt64) : Duration :=
  ⟨ms.toNat * 1000000, by have := ms.toNat_lt; omega⟩

/-- Whole seconds and the nanoseconds beyond them. -/
def ofParts (secs : UInt64) (nanos : Nat) (h : nanos < 1000000000) : Duration :=
  ⟨secs.toNat * 1000000000 + nanos, by have := secs.toNat_lt; omega⟩

def isZero (d : Duration) : Bool := d.nanos == 0

def seconds (d : Duration) : Nat := d.nanos / 1000000000

/-- The nanoseconds beyond the whole seconds. -/
def subsecond (d : Duration) : Nat := d.nanos % 1000000000

/-- The whole milliseconds, as texts show a span. -/
def millis (d : Duration) : Nat := d.nanos / 1000000

/-- The milliseconds a timer waits: part of a millisecond counts as a whole one. -/
def ticks (d : Duration) : Nat := (d.nanos + (1000000 - 1)) / 1000000

/-- The span taken `n` times, unless that exceeds the largest one. -/
def times? (d : Duration) (n : Nat) : Option Duration :=
  if h : d.nanos * n < 0x10000000000000000 * 1000000000 then some ⟨d.nanos * n, h⟩ else none

theorem ext {a b : Duration} (h : a.nanos = b.nanos) : a = b := by
  cases a; cases b; cases h; rfl

theorem isZero_iff (d : Duration) : d.isZero = true ↔ d = zero := by
  simp only [isZero, beq_iff_eq]
  exact ⟨fun h => ext h, fun h => by rw [h]; rfl⟩

theorem not_lt {a b : Duration} : ¬ a < b ↔ b ≤ a := Nat.not_lt

@[simp] theorem nanos_ofMillis (ms : UInt64) : (ofMillis ms).nanos = ms.toNat * 1000000 := rfl

@[simp] theorem millis_ofMillis (ms : UInt64) : (ofMillis ms).millis = ms.toNat := by
  simp [millis]

@[simp] theorem ticks_ofMillis (ms : UInt64) : (ofMillis ms).ticks = ms.toNat := by
  simp only [ticks, nanos_ofMillis]; omega

theorem nanos_min (a b : Duration) : (min a b).nanos = min a.nanos b.nanos := by
  show (if a ≤ b then a else b).nanos = _
  by_cases h : a ≤ b
  · have h' : a.nanos ≤ b.nanos := h
    simp [h, Nat.min_eq_left h']
  · have h' : ¬ a.nanos ≤ b.nanos := h
    simp [h, Nat.min_eq_right (Nat.le_of_not_le h')]

theorem le_max (d : Duration) : d ≤ max := by
  have := d.nanos_lt
  show d.nanos ≤ 0x10000000000000000 * 1000000000 - 1
  omega

end Duration

end ControlChannel
