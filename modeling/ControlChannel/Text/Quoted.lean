import ControlChannel.Text.Number

/-!
Quoted texts. Between double quotes a backslash introduces an escape, which names a character by a
letter or by a number of hexadecimal digits; between single quotes nothing is escaped, except that
some formats write a single quote twice. Main statement: reading always consumes something
(`length_readEscaped`).
-/

namespace ControlChannel.Text

/-- What may follow a backslash, and what may stand in a quoted text at all. -/
structure EscapeRule where
  /-- The letters that name a character. -/
  letters : List (Char × Char)
  /-- The letters that a number follows, and the count of its digits. -/
  numbers : List (Char × Nat)
  allows : Char → Bool := fun _ => true

/-- The character with a number of exactly `width` digits at the front of a text. -/
def codePoint? (width : Nat) (s : List Char) : Option Char :=
  let digits := s.take width
  let n := numeral 16 digits
  if digits.length = width ∧ digits.all (isDigit 16) ∧ n.isValidChar then some (Char.ofNat n)
  else none

/-- The text up to the closing double quote, and what follows it. -/
def readEscaped (rule : EscapeRule) : List Char → Option (List Char × List Char)
  | [] => none
  | c :: s =>
    if c = '"' then some ([], s)
    else if c = '\\' then
      match s with
      | [] => none
      | e :: s =>
        match rule.letters.lookup e, rule.numbers.lookup e with
        | some d, _ => (readEscaped rule s).map fun (t, rest) => (d :: t, rest)
        | none, some width =>
          match codePoint? width s with
          | some d => (readEscaped rule (s.drop width)).map fun (t, rest) => (d :: t, rest)
          | none => none
        | none, none => none
    else if rule.allows c then (readEscaped rule s).map fun (t, rest) => (c :: t, rest)
    else none
termination_by s => s.length
decreasing_by all_goals simp only [List.length_cons, List.length_drop]; omega

/-- The text up to the closing single quote, and what follows it. A doubled quote stands for one
if `doubles` is set. -/
def readVerbatim (doubles : Bool) (allows : Char → Bool) :
    List Char → Option (List Char × List Char)
  | [] => none
  | '\x27' :: '\x27' :: s =>
    if doubles then (readVerbatim doubles allows s).map fun (t, rest) => ('\x27' :: t, rest)
    else some ([], '\x27' :: s)
  | c :: s =>
    if c = '\x27' then some ([], s)
    else if allows c then (readVerbatim doubles allows s).map fun (t, rest) => (c :: t, rest)
    else none

theorem length_readEscaped {rule : EscapeRule} {s t rest : List Char}
    (h : readEscaped rule s = some (t, rest)) : rest.length < s.length := by
  fun_induction readEscaped rule s generalizing t rest with
  | case1 => cases h
  | case2 => cases h; simp
  | case3 => cases h
  | case4 _ _ _ _ _ ih =>
    obtain ⟨⟨u, r⟩, hu, he⟩ := Option.map_eq_some_iff.1 h
    cases he
    have := ih hu
    simp only [List.length_cons]
    omega
  | case5 _ _ _ _ _ _ _ _ ih =>
    obtain ⟨⟨u, r⟩, hu, he⟩ := Option.map_eq_some_iff.1 h
    cases he
    have := ih hu
    simp only [List.length_cons, List.length_drop] at *
    omega
  | case6 => cases h
  | case7 => cases h
  | case8 _ _ _ _ _ ih =>
    obtain ⟨⟨u, r⟩, hu, he⟩ := Option.map_eq_some_iff.1 h
    cases he
    have := ih hu
    simp only [List.length_cons]
    omega
  | case9 => cases h

end ControlChannel.Text
