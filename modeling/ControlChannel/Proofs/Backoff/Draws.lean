import ControlChannel.Proofs.Backoff.Doubling
import ControlChannel.Rehearsal.Interleaving

/-! # Delays drawn from several schedules

Schedules of one policy are drawn from in any order. A draw moves on its own schedule and no other
(`scheduleOf_drawn`), so what is drawn from one of them are the first delays of a fresh schedule,
as many as were drawn from it (`drawnFrom_eq`). Main statement: `schedules_grow`, what the delays of
each schedule are like while others are drawn from as well. -/

namespace ControlChannel

namespace Doubling

/-- The next delay comes out exact with a count and a factor in words of thirty-two bits. -/
structure InWords (s : Doubling) : Prop where
  attempts_le : s.attempts ≤ 32
  factor : s.attempts < 32 → ((1 : UInt32) <<< s.attempts.toUInt32).toNat = 2 ^ s.attempts
  delay : s.attempts < 32 →
    s.delay.nanos = min (s.base.nanos * 2 ^ s.attempts) s.ceiling.nanos
  next : (s.attempts.toUInt32 + 1).toNat = s.attempts + 1

theorem inWords_of_le {s : Doubling} (h : s.attempts ≤ 32) : s.InWords where
  attempts_le := h
  factor hlt := by
    have hshift : ∀ n < 32, ((1 : UInt32) <<< (n : Nat).toUInt32).toNat = 2 ^ n := by decide
    exact hshift _ hlt
  delay hlt := by rw [nanos_delay, if_pos hlt]
  next := by
    have hnext : ∀ n < 33, ((n : Nat).toUInt32 + 1).toNat = n + 1 := by decide
    exact hnext _ (Nat.lt_succ_of_le h)

end Doubling

namespace Backoff

variable {base ceiling : Duration}

theorem delay_le_ceiling (base ceiling : Duration) (k : Nat) :
    (exponential base ceiling).schedule.delay k ≤ ceiling := by
  rw [Duration.le_iff, nanos_delay_exponential]
  split
  · exact Nat.min_le_right _ _
  · exact Nat.le_refl _

theorem delay_of_ge (base ceiling : Duration) {k : Nat} (hk : 32 ≤ k) :
    (exponential base ceiling).schedule.delay k = ceiling := by
  refine Duration.ext ?_
  rw [nanos_delay_exponential, if_neg (Nat.not_lt.mpr hk)]

theorem delay_zero (h : base ≤ ceiling) : (exponential base ceiling).schedule.delay 0 = base := by
  refine Duration.ext ?_
  rw [nanos_delay_exponential, if_pos (by decide), Nat.pow_zero, Nat.mul_one]
  exact Nat.min_eq_left h

theorem delay_mono (base ceiling : Duration) {j k : Nat} (hjk : j ≤ k) :
    (exponential base ceiling).schedule.delay j ≤ (exponential base ceiling).schedule.delay k := by
  by_cases hk : 32 ≤ k
  · rw [delay_of_ge base ceiling hk]
    exact delay_le_ceiling base ceiling j
  · have hdoubled : base.nanos * 2 ^ j ≤ base.nanos * 2 ^ k :=
      Nat.mul_le_mul_left _ (Nat.pow_le_pow_right Nat.two_pos hjk)
    rw [Duration.le_iff, nanos_delay_exponential, nanos_delay_exponential,
      if_pos (Nat.lt_of_le_of_lt hjk (Nat.lt_of_not_le hk)), if_pos (Nat.lt_of_not_le hk)]
    omega

/-- Once the ceiling is reached it stays. -/
theorem delay_eq_ceiling {j k : Nat} (hjk : j ≤ k)
    (hj : (exponential base ceiling).schedule.delay j = ceiling) :
    (exponential base ceiling).schedule.delay k = ceiling := by
  have hge := delay_mono base ceiling hjk
  rw [hj] at hge
  exact Duration.ext (Nat.le_antisymm (delay_le_ceiling base ceiling k) hge)

end Backoff

namespace Rehearsal

/-- The schedules in use after one delay from each numbered schedule in turn. -/
def drawn (policy : Backoff) (inUse : OpenSchedules) : List Nat → OpenSchedules
  | [] => inUse
  | number :: rest =>
    drawn policy ((number, (scheduleOf policy inUse number).next.2) :: inUse) rest

/-- The delays drawn from the schedule of this number, in order. -/
def drawnFrom (policy : Backoff) (inUse : OpenSchedules) (numbers : List Nat) (number : Nat) :
    List Duration :=
  ((numbers.zip (draws policy inUse numbers)).filter (·.1 == number)).map (·.2)

variable (policy : Backoff)

theorem scheduleOf_cons (inUse : OpenSchedules) (n number : Nat) (schedule : Schedule) :
    scheduleOf policy ((number, schedule) :: inUse) n =
      if n = number then schedule else scheduleOf policy inUse n := by
  unfold scheduleOf
  by_cases h : n = number
  · simp [h]
  · simp [h, List.lookup_cons, beq_eq_false_iff_ne.mpr h]

theorem scheduleOf_drawn (inUse : OpenSchedules) (numbers : List Nat) (n : Nat) :
    scheduleOf policy (drawn policy inUse numbers) n =
      (scheduleOf policy inUse n).after (numbers.count n) := by
  induction numbers generalizing inUse with
  | nil => rfl
  | cons number rest ih =>
    rw [drawn, ih, scheduleOf_cons]
    by_cases h : n = number
    · rw [if_pos h, h, List.count_cons_self, Schedule.after_next]
    · rw [if_neg h, List.count_cons_of_ne (Ne.symm h)]

theorem drawnFrom_eq (inUse : OpenSchedules) (numbers : List Nat) (n : Nat) :
    drawnFrom policy inUse numbers n = (scheduleOf policy inUse n).take (numbers.count n) := by
  induction numbers generalizing inUse with
  | nil => rfl
  | cons number rest ih =>
    have hrest := ih ((number, (scheduleOf policy inUse number).next.2) :: inUse)
    rw [scheduleOf_cons] at hrest
    rw [drawnFrom, draws, List.zip_cons_cons]
    by_cases h : n = number
    · subst h
      rw [if_pos rfl] at hrest
      rw [List.filter_cons_of_pos (by simp), List.map_cons, ← drawnFrom, hrest,
        List.count_cons_self, Schedule.take]
    · rw [if_neg h] at hrest
      rw [List.filter_cons_of_neg (by simpa using Ne.symm h), ← drawnFrom, hrest,
        List.count_cons_of_ne (Ne.symm h)]

/-- **Of schedules that double up to a ceiling, drawn from in any order, each one gives the first
delays of a fresh schedule, whatever was drawn from the others. They begin with the base, never
decrease and stay between the base and the ceiling; the thirty-third and every later one is the
ceiling, and so is every delay after one that was the ceiling. The count of doublings never passes
thirty-two, so with words of thirty-two bits neither the factor nor the next count overflows, and
the delay is the exact product or the ceiling.** -/
theorem schedules_grow {base ceiling : Duration} (h : base ≤ ceiling) (numbers : List Nat)
    (n : Nat) :
    let policy : Backoff := .exponential base ceiling
    let own := drawnFrom policy [] numbers n
    own = (List.range (numbers.count n)).map policy.schedule.delay ∧
    (∀ d, own.head? = some d → d = base) ∧
    own.Pairwise (· ≤ ·) ∧
    (∀ d ∈ own, base ≤ d ∧ d ≤ ceiling) ∧
    (∀ (k : Nat) d, own[k]? = some d → 32 ≤ k → d = ceiling) ∧
    (∀ (j k : Nat) d, own[j]? = some ceiling → own[k]? = some d → j ≤ k → d = ceiling) ∧
    ∃ s : Doubling, scheduleOf policy (drawn policy [] numbers) n = .doubling s ∧
      s.base = base ∧ s.ceiling = ceiling ∧ s.InWords := by
  intro policy own
  have hown : own = (List.range (numbers.count n)).map policy.schedule.delay := by
    rw [← Schedule.take_eq]
    exact drawnFrom_eq policy [] numbers n
  have hnth : ∀ (k : Nat) d, own[k]? = some d → d = policy.schedule.delay k := by
    intro k d hd
    rw [hown, List.getElem?_map, Option.map_eq_some_iff] at hd
    obtain ⟨i, hi, rfl⟩ := hd
    obtain ⟨_, rfl⟩ := List.getElem?_eq_some_iff.mp hi
    rw [List.getElem_range]
  refine ⟨hown, fun d hd => ?_, ?_, fun d hd => ?_, fun k d hd hk => ?_,
    fun j k d hj hd hjk => ?_, ?_⟩
  · rw [List.head?_eq_getElem?] at hd
    rw [hnth 0 d hd]
    exact Backoff.delay_zero h
  · rw [hown, List.pairwise_map]
    exact List.pairwise_lt_range.imp fun hlt => Backoff.delay_mono base ceiling (Nat.le_of_lt hlt)
  · obtain ⟨k, hk⟩ := List.mem_iff_getElem?.mp hd
    rw [hnth k d hk]
    refine ⟨?_, Backoff.delay_le_ceiling base ceiling k⟩
    have hfirst := Backoff.delay_mono base ceiling (Nat.zero_le k)
    rwa [Backoff.delay_zero h] at hfirst
  · rw [hnth k d hd]
    exact Backoff.delay_of_ge base ceiling hk
  · rw [hnth k d hd]
    exact Backoff.delay_eq_ceiling hjk (hnth j ceiling hj).symm
  · obtain ⟨s, hs, hcounts⟩ := Backoff.after_exponential base ceiling (numbers.count n)
    refine ⟨s, ?_, hcounts.base_eq, hcounts.ceiling_eq, Doubling.inWords_of_le hcounts.within⟩
    rw [scheduleOf_drawn]
    exact hs

/-- Two schedules in turn; the first one reaches its ceiling. -/
theorem schedules_grow_two :
    let policy : Backoff := .exponential (.ofMillis 100) (.ofMillis 250)
    Duration.ofMillis 100 ≤ .ofMillis 250 ∧
      drawnFrom policy [] [0, 1, 0, 0, 1] 0 = [.ofMillis 100, .ofMillis 200, .ofMillis 250] ∧
      drawnFrom policy [] [0, 1, 0, 0, 1] 1 = [.ofMillis 100, .ofMillis 200] ∧
      (∀ d ∈ drawnFrom policy [] [0, 1, 0, 0, 1] 0, d ≤ .ofMillis 250) ∧
      ∃ s : Doubling, scheduleOf policy (drawn policy [] [0, 1, 0, 0, 1]) 0 = .doubling s ∧
        s.InWords := by
  have hle : Duration.ofMillis 100 ≤ .ofMillis 250 := by decide
  obtain ⟨hfirst, _, _, hwithin, _, _, s, hs, _, _, hwords⟩ :=
    schedules_grow hle [0, 1, 0, 0, 1] 0
  obtain ⟨hsecond, _⟩ := schedules_grow hle [0, 1, 0, 0, 1] 1
  refine ⟨hle, hfirst.trans (by decide), hsecond.trans (by decide), fun d hd => (hwithin d hd).2,
    s, hs, hwords⟩

end Rehearsal

end ControlChannel
