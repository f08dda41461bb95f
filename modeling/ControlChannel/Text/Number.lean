/-!
Whole numbers in texts. A number is a run of digits in some base; a rule bounds the count of its
digits and its value and says whether a zero may lead. Main content: `Rule.read`, which takes the
longest run of digits and never stops short of its end, and the printed forms.
-/

namespace ControlChannel.Text

/-- The value of a digit in `base`; letters of both cases follow the nine. -/
def digit? (base : Nat) (c : Char) : Option Nat :=
  let value :=
    if '0' ≤ c ∧ c ≤ '9' then c.toNat - '0'.toNat
    else if 'a' ≤ c ∧ c ≤ 'z' then c.toNat - 'a'.toNat + 10
    else if 'A' ≤ c ∧ c ≤ 'Z' then c.toNat - 'A'.toNat + 10
    else base
  if value < base then some value else none

def isDigit (base : Nat) (c : Char) : Bool := (digit? base c).isSome

/-- The number that a run of digits denotes. -/
def numeral (base : Nat) (digits : List Char) : Nat :=
  digits.foldl (fun n c => n * base + (digit? base c).getD 0) 0

/-- Which numbers a reader takes. -/
structure NumberRule where
  base : Nat := 10
  /-- The most digits, if bounded. -/
  digits : Option Nat := none
  /-- Whether a zero may stand before further digits. -/
  leadingZero : Bool := true
  /-- The numbers are those below this one. -/
  below : Nat
  deriving Repr

/-- The number that a text starts with, and the rest. The run of digits is taken whole: when it
breaks the rule, nothing is read. -/
def NumberRule.read (rule : NumberRule) (s : List Char) : Option (Nat × List Char) :=
  let run := s.takeWhile (isDigit rule.base)
  let value := numeral rule.base run
  if run.isEmpty
      || (rule.digits.any (· < run.length))
      || (!rule.leadingZero && run.head? == some '0' && run.length > 1)
      || value ≥ rule.below then none
  else some (value, s.dropWhile (isDigit rule.base))

/-- A number on its own: decimal digits after at most one plus sign. -/
def number? (below : Nat) (s : List Char) : Option Nat :=
  let unsigned := match s with
    | '+' :: rest => rest
    | s => s
  match { below : NumberRule }.read unsigned with
  | some (n, []) => some n
  | _ => none

/-- The decimal digits of a number. -/
def decimal (n : Nat) : List Char := Nat.toDigits 10 n

/-- The lower-case hexadecimal digits of a number. -/
def hex (n : Nat) : List Char := Nat.toDigits 16 n

/-- Hexadecimal digits, with zeros in front up to `width`. -/
def hexPadded (width n : Nat) : List Char :=
  List.replicate (width - (hex n).length) '0' ++ hex n

theorem NumberRule.read_lt {rule : NumberRule} {s rest : List Char} {n : Nat}
    (h : rule.read s = some (n, rest)) : n < rule.below := by
  simp only [NumberRule.read] at h
  split at h
  · cases h
  · rename_i hc
    simp only [Bool.or_eq_true, decide_eq_true_eq, not_or, Nat.not_le] at hc
    cases h
    exact hc.2

end ControlChannel.Text
