/-!
Virtual time. A world does at each instant all it can, and then the clock jumps to the next
instant at which something is due. Main statement: the clock ends at the target unless the world
stopped before (`clock_advance`).
-/

namespace ControlChannel.Rehearsal

/-- How a world meets the clock. -/
structure Timeline (W : Type) where
  now : W → Nat
  setNow : W → Nat → W
  /-- Does what can be done at this instant. -/
  settle : W → W
  /-- When something is due next. -/
  due? : W → Option Nat
  /-- Whether there is nothing more to wait for. -/
  stops : W → Bool := fun _ => false

namespace Timeline

variable {W : Type}

/-- Lets the clock run from `now` up to the target, instant by instant. What is due at the target
itself is left to be done. -/
def advanceFrom (line : Timeline W) (target now : Nat) (w : W) : W :=
  let w := line.settle (line.setNow w now)
  if line.stops w then w
  else
    match line.due? w with
    | some t =>
      if now < t ∧ t < target then advanceFrom line target t w else line.setNow w target
    | none => line.setNow w target
termination_by target - now

/-- Lets the clock run up to the target. -/
def advance (line : Timeline W) (target : Nat) (w : W) : W :=
  line.advanceFrom target (line.now w) w

theorem clock_advanceFrom (line : Timeline W) (hset : ∀ w n, line.now (line.setNow w n) = n)
    (target now : Nat) (w : W) :
    line.now (line.advanceFrom target now w) = target
      ∨ line.stops (line.advanceFrom target now w) = true := by
  fun_induction advanceFrom line target now w <;> simp_all

theorem clock_advance (line : Timeline W) (hset : ∀ w n, line.now (line.setNow w n) = n)
    (target : Nat) (w : W) :
    line.now (line.advance target w) = target ∨ line.stops (line.advance target w) = true :=
  line.clock_advanceFrom hset target (line.now w) w

end Timeline

/-- How long anyone waits for a call, in milliseconds. -/
def patience : Nat := 10000000

/-- The most turns that are taken at one instant. -/
def turnLimit : Nat := 1000000

/-- The item at a place of a list; the last one stays for all places after it. -/
def pick {α : Type} (l : List α) (i : Nat) : Option α := l[i]?.or l.getLast?

end ControlChannel.Rehearsal
