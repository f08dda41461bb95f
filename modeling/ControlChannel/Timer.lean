import ControlChannel.Duration

/-!
When timers fire, in whole milliseconds. A delay that ends beyond the range of the clock counts as
thirty years.
-/

namespace ControlChannel.Timer

/-- Thirty years of 365 days, in milliseconds. -/
def farFuture : Nat := 30 * 365 * 86400 * 1000

/-- The seconds that the clock can hold. -/
def clockRange : Nat := 0x8000000000000000

/-- When a timer fires that was set at `since`. -/
def due (delay : Duration) (since : Nat) : Nat :=
  if since / 1000 + delay.seconds < clockRange then since + delay.ticks else since + farFuture

theorem le_due (delay : Duration) (since : Nat) : since ≤ due delay since := by
  unfold due
  split
  · exact Nat.le_add_right _ _
  · exact Nat.le_add_right _ _

end ControlChannel.Timer
