import ControlChannel.Duration

/-!
Delays between reconnection attempts. A policy hands out schedules, one per session, each of which
starts over. The exponential schedule doubles its delay up to a ceiling and counts attempts only
until it gets there. Main statements: a delay never exceeds the ceiling
(`Doubling.delay_le_ceiling`) and the count never passes thirty-two (`Doubling.attempts_next_le`).
-/

namespace ControlChannel

/-- A policy for the delays between attempts. -/
inductive Backoff where
  | exponential (base ceiling : Duration)
  | constant (delay : Duration)
  /-- The delays as given, one after the other. -/
  | given (delays : Nat → Duration)

/-- Doubling delays: the first one, the ceiling and how often the delay was doubled. -/
structure Doubling where
  base : Duration
  ceiling : Duration
  attempts : Nat := 0
  deriving DecidableEq, Repr

namespace Doubling

/-- The factor is a word of thirty-two bits; beyond it, and beyond the largest span, the ceiling
stands. -/
def delay (s : Doubling) : Duration :=
  if s.attempts < 32 then
    match s.base.times? (1 <<< s.attempts) with
    | some d => min d s.ceiling
    | none => s.ceiling
  else s.ceiling

def next (s : Doubling) : Duration × Doubling :=
  (s.delay, if s.delay < s.ceiling then { s with attempts := s.attempts + 1 } else s)

theorem delay_le_ceiling (s : Doubling) : s.delay ≤ s.ceiling := by
  have hr : s.ceiling ≤ s.ceiling := Nat.le_refl s.ceiling.nanos
  unfold delay
  split
  · split
    · show (min _ s.ceiling).nanos ≤ s.ceiling.nanos
      rw [Duration.nanos_min]
      exact Nat.min_le_right _ _
    · exact hr
  · exact hr

theorem attempts_next_le {s : Doubling} (h : s.attempts ≤ 32) : s.next.2.attempts ≤ 32 := by
  unfold next
  by_cases ha : s.attempts < 32
  · split
    · exact ha
    · exact h
  · have hd : s.delay = s.ceiling := by simp [delay, ha]
    have : ¬ s.delay < s.ceiling := by
      rw [hd]; exact Nat.lt_irrefl s.ceiling.nanos
    simp only [this, if_false]
    exact h

end Doubling

/-- What is left of a policy's delays for one session. -/
inductive Schedule where
  | doubling (state : Doubling)
  | constant (delay : Duration)
  | given (delays : Nat → Duration) (used : Nat)

/-- A schedule of its own for a new session. -/
def Backoff.schedule : Backoff → Schedule
  | .exponential base ceiling => .doubling { base, ceiling }
  | .constant delay => .constant delay
  | .given delays => .given delays 0

namespace Schedule

/-- The delay before the next attempt, and the schedule after it. -/
def next : Schedule → Duration × Schedule
  | .doubling s => (s.next.1, .doubling s.next.2)
  | .constant d => (d, .constant d)
  | .given delays used => (delays used, .given delays (used + 1))

/-- The next `n` delays. -/
def take : Nat → Schedule → List Duration
  | 0, _ => []
  | n + 1, s => s.next.1 :: take n s.next.2

/-- The schedule when this many delays were taken from it. -/
def after (schedule : Schedule) : Nat → Schedule
  | 0 => schedule
  | k + 1 => (schedule.after k).next.2

/-- The delay with this number. -/
def delay (schedule : Schedule) (k : Nat) : Duration := (schedule.after k).next.1

end Schedule

/-- Delays as listed; the last one stays. -/
def Backoff.listed (delays : List Duration) : Backoff :=
  .given fun k => (delays[k]?.or delays.getLast?).getD .zero

end ControlChannel
