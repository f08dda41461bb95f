import ControlChannel.Text.Quoted

/-!
YAML as settings files use it: maps and lists as blocks or in brackets, plain and quoted scalars,
comments, and one document. A document is read line by line: the indentation of a block's lines is
the block's own, and what a key or a dash introduces is indented deeper, except that the dashes of
a list may stand below the key that it belongs to. Keys are scalars. Main content: `Node.parse?`.
-/

namespace ControlChannel.Yaml

inductive Node where
  /-- A scalar, and whether it stood without quotes. -/
  | scalar (text : String) (plain : Bool)
  | list (items : List Node)
  | map (entries : List (String × Node))

/-- What stands where nothing is written. -/
def Node.empty : Node := .scalar "" true

/-! ## Lines -/

/-- A line without its indentation, which consists of spaces. -/
structure Line where
  indent : Nat
  text : List Char

def isBlank (c : Char) : Bool := c == ' ' || c == '\t'

/-- Whether nothing but blanks and a comment is left of a line. -/
def isGap (s : List Char) : Bool :=
  match s.dropWhile isBlank with
  | [] => true
  | c :: _ => c == '#'

namespace Line

def ofChars (s : List Char) : Line := ⟨(s.takeWhile (· == ' ')).length, s.dropWhile (· == ' ')⟩

/-- Whether the line is empty or a comment; a tab does not indent. -/
def isGap (l : Line) : Bool := l.text.head?.all (· == '#')

/-- Whether three times `c` starts the line, which separates documents. -/
def separates (c : Char) (l : Line) : Bool :=
  l.indent == 0 && l.text.take 3 == [c, c, c] && (l.text.drop 3).head?.all isBlank

end Line

def breaks : List Char := ['\n', '\r', '\x85', '\u2028', '\u2029']

/-- The lines of a text. -/
def splitLines : List Char → List (List Char)
  | [] => [[]]
  | '\r' :: '\n' :: s => [] :: splitLines s
  | c :: s =>
    if breaks.contains c then [] :: splitLines s
    else match splitLines s with
      | [] => [[c]]
      | l :: ls => (c :: l) :: ls

def dropGaps (ls : List Line) : List Line := ls.dropWhile Line.isGap

/-- The lines up to the end of the document, if no other document follows. -/
def body? (ls : List Line) : Option (List Line) :=
  let isEnd (l : Line) : Bool := l.separates '-' || l.separates '.'
  let rest := ls.dropWhile fun l => !isEnd l
  if rest.all fun l => l.isGap || (l.separates '.' && isGap (l.text.drop 3)) then
    some (ls.takeWhile fun l => !isEnd l)
  else none

/-- The lines of the only document. -/
def document? (ls : List Line) : Option (List Line) :=
  match dropGaps ls with
  | [] => some []
  | l :: rest =>
    if l.separates '-' then if isGap (l.text.drop 3) then body? rest else none
    else body? (l :: rest)

/-- The characters that a document may hold. -/
def isPrintable (c : Char) : Bool :=
  c == '\t' || c == '\n' || c == '\r' || c == '\x85' || (' ' ≤ c && c ≤ '~')
    || ('\xa0' ≤ c && c ≤ '\ufffd' && c != '\ufeff') || 0x10000 ≤ c.toNat

/-! ## Scalars -/

/-- The characters that delimit what stands in brackets. -/
def brackets : List Char := ",[]\x7b\x7d".toList

/-- The characters that no plain scalar starts with. -/
def indicators : List Char := ",[]\x7b\x7d#&*!|>\x27\"%@`".toList

/-- Whether a plain scalar starts here, inside brackets or not. A dash, a question mark or a colon
starts one only when no blank follows. -/
def startsPlain (bracketed : Bool) : List Char → Bool
  | [] => false
  | c :: s =>
    if c == '-' || (!bracketed && (c == '?' || c == ':')) then s.head?.any (!isBlank ·)
    else !(isBlank c || c == '?' || c == ':' || indicators.contains c)

/-- Whether a colon before this text ends a plain scalar. -/
def followsColon (bracketed : Bool) (s : List Char) : Bool :=
  s.head?.all fun c => isBlank c || (bracketed && (c == '?' || brackets.contains c))

/-- A plain scalar on one line and what follows it. It ends before a colon, before a comment, and
in brackets before a bracket or a comma. -/
def plainRun (bracketed afterBlank : Bool) : List Char → List Char × List Char
  | [] => ([], [])
  | c :: s =>
    if (c == ':' && followsColon bracketed s) || (c == '#' && afterBlank)
        || (bracketed && brackets.contains c) then ([], c :: s)
    else
      let (run, rest) := plainRun bracketed (isBlank c) s
      (c :: run, rest)

/-- The text without the blanks at its ends. -/
def trimmed (s : List Char) : List Char :=
  ((s.dropWhile isBlank).reverse.dropWhile isBlank).reverse

def escapes : Text.EscapeRule where
  letters := [('0', '\x00'), ('a', '\x07'), ('b', '\x08'), ('t', '\t'), ('\t', '\t'), ('n', '\n'),
    ('v', '\x0b'), ('f', '\x0c'), ('r', '\r'), ('e', '\x1b'), (' ', ' '), ('"', '"'), ('/', '/'),
    ('\\', '\\'), ('N', '\x85'), ('_', '\xa0'), ('L', '\u2028'), ('P', '\u2029')]
  numbers := [('x', 2), ('u', 4), ('U', 8)]

/-- A quoted scalar on one line and what follows it. -/
def quoted? : List Char → Option (List Char × List Char)
  | '"' :: s => Text.readEscaped escapes s
  | '\x27' :: s => Text.readVerbatim true (fun _ => true) s
  | _ => none

/-- A scalar on one line inside brackets. -/
def bracketedScalar? (s : List Char) : Option (Node × List Char) :=
  match quoted? s with
  | some (t, rest) => some (.scalar (String.ofList t) false, rest)
  | none =>
    if startsPlain true s then
      let (run, rest) := plainRun true false s
      some (.scalar (String.ofList (trimmed run)) true, rest)
    else none

/-- The key that a line starts with and what follows its colon. -/
def key? (s : List Char) : Option (String × List Char) :=
  let read := match quoted? s with
    | some (t, rest) => some (t, rest.dropWhile isBlank)
    | none =>
      if startsPlain false s then
        let (run, rest) := plainRun false false s
        some (trimmed run, rest)
      else none
  match read with
  | some (t, ':' :: rest) => if followsColon false rest then some (String.ofList t, rest) else none
  | _ => none

/-- Whether a dash introduces an item here. -/
def isItem : List Char → Bool
  | '-' :: s => s.head?.all isBlank
  | _ => false

/-- The further lines of a plain scalar, which are indented by `least` at least. A line break
counts as a space, and each empty line as a break. -/
def plainLines (least empty : Nat) : List Line → Option (List Char × List Line)
  | [] => some ([], [])
  | l :: ls =>
    if l.text.isEmpty then plainLines least (empty + 1) ls
    else if l.indent < least || l.isGap then some ([], l :: ls)
    else
      let glue := if empty = 0 then [' '] else List.replicate empty '\n'
      match plainRun false false l.text with
      | (run, []) =>
        (plainLines least 0 ls).map fun (more, rest) => (glue ++ trimmed run ++ more, rest)
      | (run, c :: _) => if c == ':' then none else some (glue ++ trimmed run, ls)

/-- A plain scalar, which may go on over further lines. -/
def plain? (least : Nat) (s : List Char) (ls : List Line) : Option (Node × List Line) :=
  if !startsPlain false s then none
  else match plainRun false false s with
    | (run, []) =>
      (plainLines least 0 ls).map fun (more, rest) =>
        (.scalar (String.ofList (trimmed run ++ more)) true, rest)
    | (run, c :: _) =>
      if c == ':' then none else some (.scalar (String.ofList (trimmed run)) true, ls)

/-! ## Brackets -/

/-- The next place that is neither blank nor a comment, on this line or on a later one. -/
def skip (here : List Char) : List Line → List Char × List Line
  | [] => (if isGap here then [] else here.dropWhile isBlank, [])
  | l :: ls => if isGap here then skip l.text ls else (here.dropWhile isBlank, l :: ls)

/-- Whether a colon separates a key from its value here; after a plain key a blank must follow. -/
def colon? (key : Node) : List Char → Option (List Char)
  | ':' :: s =>
    match key with
    | .scalar _ true => if s.head?.all isBlank then some s else none
    | _ => some s
  | _ => none

/-- A place within the lines: what is left of one and the lines below. -/
abbrev Place := List Char × List Line

mutual

/-- What stands in brackets, or a scalar between them. -/
def bracketed (fuel : Nat) (here : List Char) (below : List Line) : Option (Node × Place) :=
  match fuel with
  | 0 => none
  | fuel + 1 =>
    match skip here below with
    | ('[' :: here, below) => (items fuel here below).map fun (l, place) => (.list l, place)
    | ('\x7b' :: here, below) => (pairs fuel here below).map fun (l, place) => (.map l, place)
    | (here, below) => (bracketedScalar? here).map fun (node, here) => (node, here, below)

/-- The value after a colon, which may be missing. -/
def valueAfter (fuel : Nat) (here : List Char) (below : List Line) : Option (Node × Place) :=
  match fuel with
  | 0 => none
  | fuel + 1 =>
    match skip here below with
    | (c :: here, below) =>
      if c == ',' || c == ']' || c == '\x7d' then some (.empty, c :: here, below)
      else bracketed fuel (c :: here) below
    | ([], _) => none

/-- The items up to the closing bracket. An item with a colon is a map of one entry. -/
def items (fuel : Nat) (here : List Char) (below : List Line) : Option (List Node × Place) :=
  match fuel with
  | 0 => none
  | fuel + 1 =>
    match skip here below with
    | (']' :: here, below) => some ([], here, below)
    | (here, below) => do
      let (item, here, below) ← bracketed fuel here below
      let (here, below) := skip here below
      let (item, here, below) ← match item, colon? item here with
        | .scalar key _, some here =>
          (valueAfter fuel here below).map fun (v, place) => (.map [(key, v)], place)
        | _, some _ => none
        | _, none => some (item, here, below)
      match skip here below with
      | (',' :: here, below) =>
        (items fuel here below).map fun (rest, place) => (item :: rest, place)
      | (']' :: here, below) => some ([item], here, below)
      | _ => none

/-- The entries up to the closing brace. -/
def pairs (fuel : Nat) (here : List Char) (below : List Line) :
    Option (List (String × Node) × Place) :=
  match fuel with
  | 0 => none
  | fuel + 1 =>
    match skip here below with
    | ('\x7d' :: here, below) => some ([], here, below)
    | (here, below) => do
      let (node, here) ← bracketedScalar? here
      let .scalar key _ := node | none
      let (here, below) := skip here below
      let (value, here, below) ← match colon? node here with
        | some here => valueAfter fuel here below
        | none => some (.empty, here, below)
      match skip here below with
      | (',' :: here, below) =>
        (pairs fuel here below).map fun (rest, place) => ((key, value) :: rest, place)
      | ('\x7d' :: here, below) => some ([(key, value)], here, below)
      | _ => none

end

/-! ## Blocks -/

/-- A value that starts within a line and is no block. -/
def leaf? (fuel least : Nat) (s : List Char) (ls : List Line) : Option (Node × List Line) :=
  match s with
  | [] => none
  | c :: _ =>
    if c == '[' || c == '\x7b' || c == '"' || c == '\x27' then
      match bracketed fuel s ls with
      | some (node, rest, below) => if isGap rest then some (node, below) else none
      | none => none
    else plain? least s ls

mutual

/-- The value whose lines are indented by `least` at least, the empty one if there are none. -/
def block (fuel least : Nat) (ls : List Line) : Option (Node × List Line) :=
  match fuel with
  | 0 => none
  | fuel + 1 =>
    match dropGaps ls with
    | [] => some (.empty, [])
    | l :: ls =>
      if l.indent < least then some (.empty, l :: ls)
      else if isItem l.text then
        (blockItems fuel l.indent (l :: ls)).map fun (items, rest) => (.list items, rest)
      else if (key? l.text).isSome then
        (blockEntries fuel l.indent (l :: ls)).map fun (entries, rest) => (.map entries, rest)
      else leaf? (fuel + 1) least l.text ls

/-- The items of a list whose dashes are indented by `n`. -/
def blockItems (fuel n : Nat) (ls : List Line) : Option (List Node × List Line) :=
  match fuel with
  | 0 => none
  | fuel + 1 =>
    match dropGaps ls with
    | [] => some ([], [])
    | l :: ls =>
      if l.indent < n || (l.indent == n && !isItem l.text) then some ([], l :: ls)
      else if l.indent > n then none
      else do
        let content := Line.ofChars (l.text.drop 1)
        let inner := if content.isGap then ls
          else { content with indent := n + 1 + content.indent } :: ls
        let (item, ls) ← block fuel (n + 1) inner
        let (items, ls) ← blockItems fuel n ls
        return (item :: items, ls)

/-- The entries of a map whose keys are indented by `n`. -/
def blockEntries (fuel n : Nat) (ls : List Line) : Option (List (String × Node) × List Line) :=
  match fuel with
  | 0 => none
  | fuel + 1 =>
    match dropGaps ls with
    | [] => some ([], [])
    | l :: ls =>
      if l.indent < n then some ([], l :: ls)
      else if l.indent > n then none
      else do
        let (key, after) ← key? l.text
        let (value, ls) ←
          if isGap after then
            match dropGaps ls with
            | m :: ms =>
              if m.indent == n && isItem m.text then
                (blockItems fuel n (m :: ms)).map fun (items, rest) => (.list items, rest)
              else block fuel (n + 1) (m :: ms)
            | [] => some (.empty, [])
          else leaf? (fuel + 1) (n + 1) (after.dropWhile isBlank) ls
        let (entries, ls) ← blockEntries fuel n ls
        return ((key, value) :: entries, ls)

end

/-- The value of the document that the text holds. -/
def Node.parse? (text : String) : Option Node :=
  let chars := match text.toList with
    | '\ufeff' :: s => s
    | s => s
  if !chars.all isPrintable then none
  else do
    let ls ← document? ((splitLines chars).map Line.ofChars)
    match ← block (4 * (chars.length + 2)) 0 ls with
    | (node, rest) => if (dropGaps rest).isEmpty then some node else none

end ControlChannel.Yaml
