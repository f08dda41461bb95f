/-!
String literals of statements: a name between quotation marks, each mark inside written twice.
Reading runs from the opening mark to the first mark that is not doubled. Main statement: reading
a quoted name gives back the name and leaves what follows (`read?_quote`), as long as no further
mark follows.
-/

namespace ControlChannel.Schema.Literal

/-- The mark around a literal. -/
def mark : Char := '\x27'

/-- The name with its marks doubled. -/
def double : List Char → List Char
  | [] => []
  | c :: rest => if c = mark then mark :: mark :: double rest else c :: double rest

def quote (name : List Char) : List Char := mark :: double name ++ [mark]

/-- Reads up to the closing mark. -/
def readBody? : List Char → Option (List Char × List Char)
  | [] => none
  | c :: rest =>
    if c = mark then
      match rest with
      | d :: rest' =>
        if d = mark then (readBody? rest').map fun (name, after) => (mark :: name, after)
        else some ([], d :: rest')
      | [] => some ([], [])
    else (readBody? rest).map fun (name, after) => (c :: name, after)

/-- The literal that a text starts with, and the rest. -/
def read? : List Char → Option (List Char × List Char)
  | [] => none
  | c :: rest => if c = mark then readBody? rest else none

theorem readBody?_double (name rest : List Char) (h : rest.head? ≠ some mark) :
    readBody? (double name ++ mark :: rest) = some (name, rest) := by
  induction name with
  | nil =>
    cases rest with
    | nil => simp [double, readBody?]
    | cons d r => simp_all [double, readBody?]
  | cons c name ih =>
    by_cases hc : c = mark
    · simp [double, hc, readBody?, ih]
    · rw [double, if_neg hc, List.cons_append, readBody?.eq_def]
      simp [hc, ih]

theorem read?_quote (name rest : List Char) (h : rest.head? ≠ some mark) :
    read? (quote name ++ rest) = some (name, rest) := by
  simp only [quote, List.cons_append, List.append_assoc, List.nil_append, read?, if_true]
  exact readBody?_double name rest h

end ControlChannel.Schema.Literal
