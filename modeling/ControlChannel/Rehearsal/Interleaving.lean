import ControlChannel.Backoff

/-!
Several schedules of one policy, drawn from in any order. Each starts over at its first use, and
no draw from one is felt by another. Main statement: draws from a single schedule are that
schedule's own delays (`draws_replicate`).
-/

namespace ControlChannel.Rehearsal

/-- The schedules in use, by number. -/
abbrev OpenSchedules := List (Nat × Schedule)

/-- The schedule of that number, which starts over if it was not used before. -/
def scheduleOf (policy : Backoff) (inUse : OpenSchedules) (number : Nat) : Schedule :=
  (inUse.lookup number).getD policy.schedule

/-- One delay from each numbered schedule in turn. -/
def draws (policy : Backoff) (inUse : OpenSchedules) : List Nat → List Duration
  | [] => []
  | number :: rest =>
    let (delay, schedule) := (scheduleOf policy inUse number).next
    delay :: draws policy ((number, schedule) :: inUse) rest

/-- One delay from each numbered schedule in turn, then the first `count` of a further one. -/
def interleaved (policy : Backoff) (numbers : List Nat) (count : Nat) : List Duration :=
  draws policy [] numbers ++ policy.schedule.take count

theorem draws_replicate (policy : Backoff) (number n : Nat) (inUse : OpenSchedules) :
    draws policy inUse (List.replicate n number) = (scheduleOf policy inUse number).take n := by
  induction n generalizing inUse with
  | zero => rfl
  | succ n ih =>
    have h : scheduleOf policy ((number, (scheduleOf policy inUse number).next.2) :: inUse) number
        = (scheduleOf policy inUse number).next.2 := by
      simp [scheduleOf]
    rw [List.replicate_succ]
    simp only [draws, Schedule.take, ih, h]

end ControlChannel.Rehearsal
