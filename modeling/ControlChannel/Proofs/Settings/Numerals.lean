import ControlChannel.Text.Blank
import ControlChannel.Text.Number
import Mathlib.Tactic.IntervalCases

/-! # Numbers read as they were written

The digits that a number is written with denote it (`numeral_toDigits`), and a rule that allows the
number reads exactly these digits, whatever follows that is no digit (`NumberRule.read_toDigits`).
A number on its own is read in the same way (`number?_decimal`). -/

namespace ControlChannel.Text

/-! ## Digits -/

theorem digit?_digitChar {base d : Nat} (hbase : base ≤ 16) (hd : d < base) :
    digit? base (Nat.digitChar d) = some d := by
  have hlt : d < 16 := Nat.lt_of_lt_of_le hd hbase
  unfold digit?
  interval_cases d <;> simp [Nat.digitChar, hd]

theorem isDigit_digitChar {base d : Nat} (hbase : base ≤ 16) (hd : d < base) :
    isDigit base (Nat.digitChar d) = true := by
  rw [isDigit, digit?_digitChar hbase hd]
  rfl

section
variable {base : Nat}

theorem numeral_append (digits : List Char) (c : Char) :
    numeral base (digits ++ [c]) = numeral base digits * base + (digit? base c).getD 0 := by
  simp [numeral]

/-- The digits of a number: those of what is left without the last one, and the last one. -/
theorem toDigits_cases (hbase : 1 < base) (n : Nat) :
    (n < base ∧ Nat.toDigits base n = [Nat.digitChar n]) ∨
    (base ≤ n ∧ Nat.toDigits base n =
      Nat.toDigits base (n / base) ++ [Nat.digitChar (n % base)]) := by
  rcases Nat.lt_or_ge n base with h | h
  · exact .inl ⟨h, Nat.toDigits_of_lt_base h⟩
  · exact .inr ⟨h, Nat.toDigits_of_base_le hbase h⟩

theorem numeral_toDigits (hbase : 1 < base) (hle : base ≤ 16) (n : Nat) :
    numeral base (Nat.toDigits base n) = n := by
  induction n using Nat.strongRecOn with
  | ind n ih =>
    rcases toDigits_cases hbase n with ⟨hlt, heq⟩ | ⟨hge, heq⟩
    · rw [heq]
      simp [numeral, digit?_digitChar hle hlt]
    · have hpos : 0 < base := by omega
      rw [heq, numeral_append, ih (n / base) (Nat.div_lt_self (by omega) hbase),
        digit?_digitChar hle (Nat.mod_lt n hpos)]
      exact Nat.div_add_mod' n base

theorem isDigit_of_mem_toDigits (hbase : 1 < base) (hle : base ≤ 16) {n : Nat} {c : Char}
    (h : c ∈ Nat.toDigits base n) : isDigit base c = true := by
  induction n using Nat.strongRecOn with
  | ind n ih =>
    rcases toDigits_cases hbase n with ⟨hlt, heq⟩ | ⟨hge, heq⟩
    · rw [heq, List.mem_singleton] at h
      rw [h, isDigit_digitChar hle hlt]
    · rw [heq, List.mem_append, List.mem_singleton] at h
      rcases h with h | h
      · exact ih (n / base) (Nat.div_lt_self (by omega) hbase) h
      · rw [h, isDigit_digitChar hle (Nat.mod_lt n (by omega))]

/-- No zero leads. -/
theorem head?_toDigits (hbase : 1 < base) (hle : base ≤ 16) {n : Nat} (hn : n ≠ 0) :
    (Nat.toDigits base n).head? ≠ some '0' := by
  induction n using Nat.strongRecOn with
  | ind n ih =>
    rcases toDigits_cases hbase n with ⟨hlt, heq⟩ | ⟨hge, heq⟩
    · rw [heq, List.head?_cons]
      intro h
      have hzero := digit?_digitChar hle (Nat.zero_lt_of_lt hbase)
      have hdigit := digit?_digitChar hle hlt
      rw [Option.some.inj h] at hdigit
      exact hn (Option.some.inj (hdigit.symm.trans hzero))
    · rw [heq, List.head?_append, Option.or_of_isSome (by simp [Nat.toDigits_ne_nil])]
      have hquotient : 0 < n / base := Nat.div_pos hge (by omega)
      exact ih (n / base) (Nat.div_lt_self (by omega) hbase) (by omega)

end

/-! ## Reading -/

/-- The text goes on with no digit. -/
def Breaks (base : Nat) (rest : List Char) : Prop := ∀ c ∈ rest.head?, isDigit base c = false

theorem breaks_nil (base : Nat) : Breaks base [] := fun c h => by cases h

theorem breaks_cons {base : Nat} {c : Char} {rest : List Char} :
    Breaks base (c :: rest) ↔ isDigit base c = false := by
  simp [Breaks]

theorem takeWhile_of_breaks {base : Nat} {rest : List Char} (h : Breaks base rest) :
    rest.takeWhile (isDigit base) = [] := by
  cases rest with
  | nil => rfl
  | cons c rest => simp [breaks_cons.mp h]

theorem dropWhile_of_breaks {base : Nat} {rest : List Char} (h : Breaks base rest) :
    rest.dropWhile (isDigit base) = rest := by
  cases rest with
  | nil => rfl
  | cons c rest => simp [breaks_cons.mp h]

/-- The rule takes the number as it is written. -/
structure NumberRule.Allows (rule : NumberRule) (n : Nat) : Prop where
  base : 1 < rule.base ∧ rule.base ≤ 16
  digits : ∀ k ∈ rule.digits, (Nat.toDigits rule.base n).length ≤ k
  below : n < rule.below

theorem NumberRule.read_toDigits {rule : NumberRule} {n : Nat} (h : rule.Allows n)
    {rest : List Char} (hrest : Breaks rule.base rest) :
    rule.read (Nat.toDigits rule.base n ++ rest) = some (n, rest) := by
  obtain ⟨hbase, hle⟩ := h.base
  have hdigits : ∀ c ∈ Nat.toDigits rule.base n, isDigit rule.base c = true := fun _ hc =>
    isDigit_of_mem_toDigits hbase hle hc
  have hlength : rule.digits.any (· < (Nat.toDigits rule.base n).length) = false := by
    cases hk : rule.digits with
    | none => rfl
    | some k => simpa using h.digits k hk
  have hzero : (Nat.toDigits rule.base n).head? = some '0' →
      (Nat.toDigits rule.base n).length = 1 := by
    intro hhead
    obtain rfl : n = 0 := by
      by_contra hn
      exact head?_toDigits hbase hle hn hhead
    rw [Nat.toDigits_zero]
    rfl
  unfold read
  simp only [List.takeWhile_append_of_pos hdigits, takeWhile_of_breaks hrest,
    List.dropWhile_append_of_pos hdigits, dropWhile_of_breaks hrest, List.append_nil,
    numeral_toDigits hbase hle, hlength]
  refine if_neg ?_
  simp only [Bool.or_eq_true, Bool.and_eq_true, List.isEmpty_iff, Nat.toDigits_ne_nil,
    beq_iff_eq, decide_eq_true_eq, false_or, Bool.false_eq_true, not_or, not_and, Nat.not_le,
    Nat.not_lt]
  exact ⟨fun ⟨_, hhead⟩ => Nat.le_of_eq (hzero hhead), h.below⟩

theorem NumberRule.rest_of_read {rule : NumberRule} {s rest : List Char} {n : Nat}
    (h : rule.read s = some (n, rest)) : rest = s.dropWhile (isDigit rule.base) := by
  simp only [read] at h
  split at h
  · cases h
  · cases h
    rfl

/-- Nothing is read where no digit stands. -/
theorem NumberRule.read_of_breaks {rule : NumberRule} {rest : List Char}
    (h : Breaks rule.base rest) : rule.read rest = none := by
  simp [read, takeWhile_of_breaks h]

theorem number?_decimal {below n : Nat} (h : n < below) : number? below (decimal n) = some n := by
  have hread : ({ below } : NumberRule).read (decimal n) = some (n, []) := by
    have hallows : ({ below } : NumberRule).Allows n :=
      ⟨⟨by simp, by simp⟩, by simp, h⟩
    simpa [decimal] using NumberRule.read_toDigits hallows (breaks_nil 10)
  unfold number?
  split
  · rename_i rest heq
    have hplus : isDigit 10 '+' = true :=
      isDigit_of_mem_toDigits (n := n) (by decide) (by decide) (by rw [← decimal, heq]; simp)
    cases hplus
  · simp only [hread]

end ControlChannel.Text
