/-!
A text cut at a separator. Main statements: a text without the separator is one piece
(`pieces_of_not_mem`), and what stands before a separator is the first piece of all
(`pieces_append`).
-/

namespace ControlChannel.Text

/-- The pieces between the separators, empty ones included. -/
def pieces (separator : Char) : List Char → List (List Char)
  | [] => [[]]
  | c :: s =>
    if c = separator then [] :: pieces separator s
    else match pieces separator s with
      | [] => [[c]]
      | p :: ps => (c :: p) :: ps

theorem pieces_of_not_mem {separator : Char} {s : List Char} (h : separator ∉ s) :
    pieces separator s = [s] := by
  induction s with
  | nil => rfl
  | cons c s ih =>
    have hc : c ≠ separator := fun e => h (by simp [e])
    have hs : separator ∉ s := fun hm => h (by simp [hm])
    simp [pieces, hc, ih hs]

theorem pieces_append {separator : Char} {p : List Char} (h : separator ∉ p) (s : List Char) :
    pieces separator (p ++ separator :: s) = p :: pieces separator s := by
  induction p with
  | nil => simp [pieces]
  | cons c p ih =>
    have hc : c ≠ separator := fun e => h (by simp [e])
    have hp : separator ∉ p := fun hm => h (by simp [hm])
    simp [pieces, hc, ih hp]

end ControlChannel.Text
