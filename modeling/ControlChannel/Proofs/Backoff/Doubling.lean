import ControlChannel.Backoff
import Mathlib.Algebra.Order.Ring.Nat

/-! # Doubling delays

The delay of a doubling schedule follows from its count alone: the base doubled that often, or the
ceiling where that is less or the count has reached thirty-two (`Doubling.nanos_delay`). The count
is the number of delays taken until one of them was the ceiling, and stays from then on
(`Doubling.Counts`), so the delay with number `k` has a closed form (`nanos_delay_exponential`).
Main statement: `delays_double`, which says how far the doubling goes. -/

namespace ControlChannel

namespace Duration

theorem le_iff {a b : Duration} : a ≤ b ↔ a.nanos ≤ b.nanos := .rfl

theorem lt_iff {a b : Duration} : a < b ↔ a.nanos < b.nanos := .rfl

theorem nanos_times? {d e : Duration} {n : Nat} (h : d.times? n = some e) :
    e.nanos = d.nanos * n := by
  unfold times? at h
  split at h
  · cases h; rfl
  · cases h

/-- A product that exceeds the largest span exceeds every span. -/
theorem lt_of_times?_eq_none {d : Duration} {n : Nat} (h : d.times? n = none) (e : Duration) :
    e.nanos < d.nanos * n := by
  unfold times? at h
  split at h
  · cases h
  · exact Nat.lt_of_lt_of_le e.nanos_lt (Nat.le_of_not_lt ‹_›)

end Duration

namespace Doubling

variable {s : Doubling} {base ceiling : Duration} {k : Nat}

/-- Where the product exceeds the largest span the ceiling is less than it. -/
theorem nanos_delay (s : Doubling) : s.delay.nanos =
    if s.attempts < 32 then min (s.base.nanos * 2 ^ s.attempts) s.ceiling.nanos
    else s.ceiling.nanos := by
  unfold delay
  split
  · rw [← Nat.one_shiftLeft]
    split
    · rename_i d hd
      rw [Duration.nanos_min, Duration.nanos_times? hd]
    · rename_i hnone
      exact (Nat.min_eq_right (Nat.le_of_lt (Duration.lt_of_times?_eq_none hnone _))).symm
  · rfl

/-- The delay stays below the ceiling while the doubled base does and the factor fits its word. -/
theorem delay_lt_ceiling_iff (s : Doubling) : s.delay < s.ceiling ↔
    s.attempts < 32 ∧ s.base.nanos * 2 ^ s.attempts < s.ceiling.nanos := by
  rw [Duration.lt_iff, nanos_delay]
  split <;> omega

/-- A state after `k` delays were taken: they were counted until one was the ceiling. -/
structure Counts (base ceiling : Duration) (k : Nat) (s : Doubling) : Prop where
  base_eq : s.base = base
  ceiling_eq : s.ceiling = ceiling
  attempts_le : s.attempts ≤ k
  within : s.attempts ≤ 32
  stopped : s.attempts < k → ¬ s.delay < s.ceiling

theorem counts_fresh (base ceiling : Duration) : Counts base ceiling 0 { base, ceiling } where
  base_eq := rfl
  ceiling_eq := rfl
  attempts_le := Nat.le_refl 0
  within := Nat.zero_le 32
  stopped h := absurd h (Nat.lt_irrefl 0)

theorem Counts.next (h : Counts base ceiling k s) : Counts base ceiling (k + 1) s.next.2 := by
  have hwithin := attempts_next_le h.within
  unfold Doubling.next at hwithin ⊢
  by_cases hbelow : s.delay < s.ceiling
  · -- so far every delay was below the ceiling, so the count is exact and goes on
    have hexact : s.attempts = k :=
      Nat.le_antisymm h.attempts_le (Nat.not_lt.mp fun hlt => h.stopped hlt hbelow)
    rw [if_pos hbelow] at hwithin ⊢
    exact ⟨h.base_eq, h.ceiling_eq, Nat.succ_le_succ h.attempts_le, hwithin,
      fun hlt => absurd hexact (Nat.ne_of_lt (Nat.lt_of_succ_lt_succ hlt))⟩
  · rw [if_neg hbelow]
    exact ⟨h.base_eq, h.ceiling_eq, Nat.le_succ_of_le h.attempts_le, h.within, fun _ => hbelow⟩

theorem Counts.nanos_delay (h : Counts base ceiling k s) : s.delay.nanos =
    if k < 32 then min (base.nanos * 2 ^ k) ceiling.nanos else ceiling.nanos := by
  rw [Doubling.nanos_delay, h.base_eq, h.ceiling_eq]
  rcases Nat.lt_or_eq_of_le h.attempts_le with hlt | rfl
  · -- the ceiling was reached with fewer doublings, and more of them exceed it too
    have hreached := mt s.delay_lt_ceiling_iff.mpr (h.stopped hlt)
    rw [h.base_eq, h.ceiling_eq] at hreached
    have hmore : base.nanos * 2 ^ s.attempts ≤ base.nanos * 2 ^ k :=
      Nat.mul_le_mul_left _ (Nat.pow_le_pow_right Nat.two_pos h.attempts_le)
    have := h.within
    split <;> split <;> omega
  · rfl

end Doubling

/-! ## The delays of a schedule -/

namespace Schedule

theorem after_next (s : Schedule) (k : Nat) : s.next.2.after k = s.after (k + 1) := by
  induction k with
  | zero => rfl
  | succ k ih => exact congrArg (·.next.2) ih

theorem take_eq (s : Schedule) (n : Nat) : s.take n = (List.range n).map s.delay := by
  induction n generalizing s with
  | zero => rfl
  | succ n ih =>
    have hlater : s.next.2.delay = s.delay ∘ Nat.succ :=
      funext fun k => congrArg (·.next.1) (s.after_next k)
    rw [take, ih, hlater, List.range_succ_eq_map, List.map_cons, List.map_map]
    rfl

end Schedule

namespace Backoff

/-- The doubling schedule after `k` delays. -/
theorem after_exponential (base ceiling : Duration) (k : Nat) :
    ∃ s : Doubling, (exponential base ceiling).schedule.after k = .doubling s ∧
      s.Counts base ceiling k := by
  induction k with
  | zero => exact ⟨_, rfl, Doubling.counts_fresh base ceiling⟩
  | succ k ih =>
    obtain ⟨s, hs, hcounts⟩ := ih
    exact ⟨s.next.2, by rw [Schedule.after, hs]; rfl, hcounts.next⟩

theorem nanos_delay_exponential (base ceiling : Duration) (k : Nat) :
    ((exponential base ceiling).schedule.delay k).nanos =
      if k < 32 then min (base.nanos * 2 ^ k) ceiling.nanos else ceiling.nanos := by
  obtain ⟨s, hs, hcounts⟩ := after_exponential base ceiling k
  rw [Schedule.delay, hs]
  exact hcounts.nanos_delay

/-- **The first thirty-two delays are the base doubled as often as delays came before, or the
ceiling where that is less; every later delay is the ceiling. So the delays double up to the
ceiling exactly as far as the ceiling is reached by thirty-two doublings: the delay with number
`k` is the base doubled `k` times, or the ceiling where that is less, if and only if `k` is below
thirty-two or the base doubled `k` times reaches the ceiling.** -/
theorem delays_double (base ceiling : Duration) (k : Nat) :
    (k < 32 → ((exponential base ceiling).schedule.delay k).nanos =
      min (base.nanos * 2 ^ k) ceiling.nanos) ∧
    (32 ≤ k → (exponential base ceiling).schedule.delay k = ceiling) ∧
    (((exponential base ceiling).schedule.delay k).nanos =
      min (base.nanos * 2 ^ k) ceiling.nanos ↔ k < 32 ∨ ceiling.nanos ≤ base.nanos * 2 ^ k) := by
  have hdelay := nanos_delay_exponential base ceiling k
  refine ⟨fun hk => ?_, fun hk => Duration.ext ?_, ?_⟩
  · rw [hdelay, if_pos hk]
  · rw [hdelay, if_neg (Nat.not_lt.mpr hk)]
  · rw [hdelay]
    split <;> omega

/-- From one millisecond on, with the largest span as the ceiling, thirty-two doublings come to
some fifty days, but the delay with number thirty-two is the ceiling. -/
theorem delay_not_doubled :
    .zero < Duration.ofMillis 1 ∧ Duration.ofMillis 1 ≤ .max ∧
      ((exponential (.ofMillis 1) .max).schedule.delay 32).nanos ≠
        min ((Duration.ofMillis 1).nanos * 2 ^ 32) Duration.max.nanos := by
  decide +kernel

end Backoff

end ControlChannel
