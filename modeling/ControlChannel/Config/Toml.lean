import ControlChannel.Text.Quoted

/-!
TOML as settings files use it: headed tables, keys with dots, strings on one line, numbers, truth
values, arrays and inline tables. A text is first read into statements, which are then carried out
one after the other on an empty table. A key is given a value once; a table is headed once; an
inline table is closed; a table that keys with dots made is extended by such keys alone. Main
content: `Table.parse?`.
-/

namespace ControlChannel.Toml

/-- How a table came to be. -/
inductive Origin where
  /-- On the way to a headed table. -/
  | implied
  | headed
  /-- By a key with dots. -/
  | dotted
  | inlined
  deriving DecidableEq, Repr

inductive Value where
  | integer (n : Int)
  | float
  | boolean (b : Bool)
  | string (s : String)
  | array (items : List Value)
  | table (origin : Origin) (entries : List (String × Value))
  /-- The tables under one repeated header, the latest first. -/
  | tables (elements : List (List (String × Value)))

abbrev Table := List (String × Value)

namespace Table

/-- The table with another value under a key that it has. -/
def replace (key : String) (v : Value) (t : Table) : Table :=
  t.map fun e => if e.1 == key then (key, v) else e

/-- Gives a value to a key, whose dots may lead through tables of their own. -/
def assign (v : Value) : List String → Table → Option Table
  | [], _ => none
  | [key], t => if (t.lookup key).isSome then none else some (t ++ [(key, v)])
  | key :: path, t =>
    match t.lookup key with
    | none => (assign v path []).map fun sub => t ++ [(key, .table .dotted sub)]
    | some (.table .dotted sub) =>
      (assign v path sub).map fun sub => t.replace key (.table .dotted sub)
    | some _ => none

/-- Changes the table that a header names, making the tables on the way if they are missing. The
latest one stands for tables under a repeated header. -/
def under (change : Table → Option Table) : List String → Table → Option Table
  | [], t => change t
  | key :: path, t =>
    match t.lookup key with
    | none => (under change path []).map fun sub => t ++ [(key, .table .implied sub)]
    | some (.table .inlined _) => none
    | some (.table origin sub) =>
      (under change path sub).map fun sub => t.replace key (.table origin sub)
    | some (.tables (latest :: older)) =>
      (under change path latest).map fun sub => t.replace key (.tables (sub :: older))
    | some _ => none

/-- Heads a table, which must not have been made otherwise before. -/
def head (key : String) (t : Table) : Option Table :=
  match t.lookup key with
  | none => some (t ++ [(key, .table .headed [])])
  | some (.table .implied sub) => some (t.replace key (.table .headed sub))
  | some _ => none

/-- Heads one more of several tables. -/
def headNext (key : String) (t : Table) : Option Table :=
  match t.lookup key with
  | none => some (t ++ [(key, .tables [[]])])
  | some (.tables elements) => some (t.replace key (.tables ([] :: elements)))
  | some _ => none

end Table

inductive Statement where
  | header (path : List String)
  | repeatedHeader (path : List String)
  | assign (path : List String) (value : Value)

/-- Carries out statements, given the path of the current table. -/
def Table.ofStatements (current : List String) (t : Table) : List Statement → Option Table
  | [] => some t
  | .header path :: rest => do
    let t ← t.under (Table.head (← path.getLast?)) path.dropLast
    ofStatements path t rest
  | .repeatedHeader path :: rest => do
    let t ← t.under (Table.headNext (← path.getLast?)) path.dropLast
    ofStatements path t rest
  | .assign path v :: rest => do
    ofStatements current (← t.under (Table.assign v path) current) rest

/-! ## Scalars -/

def isBlank (c : Char) : Bool := c == ' ' || c == '\t'

/-- The characters of comments and strings: all but the control characters, tab apart. -/
def isText (c : Char) : Bool := c == '\t' || (' ' ≤ c && c != '\x7f')

def escapes : Text.EscapeRule where
  letters := [('b', '\x08'), ('t', '\t'), ('n', '\n'), ('f', '\x0c'), ('r', '\r'), ('"', '"'),
    ('\\', '\\')]
  numbers := [('u', 4), ('U', 8)]
  allows := isText

/-- A quoted text and what follows it. -/
def quoted? : List Char → Option (List Char × List Char)
  | '"' :: s => Text.readEscaped escapes s
  | '\x27' :: s => Text.readVerbatim false isText s
  | _ => none

/-- The characters of a key without quotes. -/
def isBare (c : Char) : Bool := c.isAlphanum || c == '_' || c == '-'

/-- One part of a key and what follows it. -/
def part? (s : List Char) : Option (String × List Char) :=
  match quoted? s with
  | some (t, rest) => some (String.ofList t, rest)
  | none =>
    let run := s.takeWhile isBare
    if run.isEmpty then none else some (String.ofList run, s.dropWhile isBare)

/-- The parts of a key, at most `fuel` of them, and what follows the key and its blanks. -/
def key? (fuel : Nat) (s : List Char) : Option (List String × List Char) :=
  match fuel with
  | 0 => none
  | fuel + 1 => do
    let (part, rest) ← part? (s.dropWhile isBlank)
    match rest.dropWhile isBlank with
    | '.' :: rest =>
      let (parts, rest) ← key? fuel rest
      return (part :: parts, rest)
    | rest => return ([part], rest)

/-- Digits without the underscores, each of which must stand between two of them. -/
def digits? (base : Nat) : List Char → Option (List Char)
  | [] => none
  | c :: s =>
    if !Text.isDigit base c then none
    else match s with
      | [] => some [c]
      | '_' :: s => (digits? base s).map (c :: ·)
      | s => (digits? base s).map (c :: ·)

/-- Decimal digits without a leading zero. -/
def decimal? (s : List Char) : Option Nat := do
  let digits ← digits? 10 s
  if digits.head? = some '0' ∧ digits.length > 1 then none
  else some (Text.numeral 10 digits)

/-- The number after a sign. -/
def signed? (s : List Char) : Option Int :=
  match s with
  | '+' :: s => (decimal? s).map Int.ofNat
  | '-' :: s => (decimal? s).map fun n => - Int.ofNat n
  | s => (decimal? s).map Int.ofNat

/-- A whole number, in sixty-four bits with a sign. -/
def integer? (s : List Char) : Option Int := do
  let n ← match s with
    | '0' :: 'x' :: s => (digits? 16 s).map fun d => Int.ofNat (Text.numeral 16 d)
    | '0' :: 'o' :: s => (digits? 8 s).map fun d => Int.ofNat (Text.numeral 8 d)
    | '0' :: 'b' :: s => (digits? 2 s).map fun d => Int.ofNat (Text.numeral 2 d)
    | s => signed? s
  if -0x8000000000000000 ≤ n ∧ n < 0x8000000000000000 then some n else none

/-- Whether the text is a number with a fraction or an exponent, or one of the special ones. -/
def isFloat (s : List Char) : Bool :=
  let unsigned := match s with
    | c :: rest => if c == '+' || c == '-' then rest else s
    | [] => s
  if unsigned == "inf".toList || unsigned == "nan".toList then true
  else
    let isMark (c : Char) : Bool := c == 'e' || c == 'E'
    let mantissa := unsigned.takeWhile (!isMark ·)
    let exponent := unsigned.dropWhile (!isMark ·)
    let whole := mantissa.takeWhile (· != '.')
    let fraction := mantissa.dropWhile (· != '.')
    let exponentFits := match exponent with
      | [] => fraction != []
      | _ :: c :: rest =>
        (digits? 10 (if c == '+' || c == '-' then rest else c :: rest)).isSome
      | _ => false
    (decimal? whole).isSome && exponentFits
      && (fraction.isEmpty || (digits? 10 (fraction.drop 1)).isSome)

/-- The value of a word without quotes. -/
def word? (s : List Char) : Option Value :=
  if s == "true".toList then some (.boolean true)
  else if s == "false".toList then some (.boolean false)
  else match integer? s with
    | some n => some (.integer n)
    | none => if isFloat s then some .float else none

/-- The characters of numbers and truth values. -/
def isWord (c : Char) : Bool := isBare c || c == '+' || c == '.'

/-! ## Values -/

/-- What follows a comment, if there is one. -/
def afterComment : List Char → List Char
  | '#' :: s => s.dropWhile isText
  | s => s

/-- What follows a line break. -/
def afterBreak? : List Char → Option (List Char)
  | '\n' :: s => some s
  | '\r' :: '\n' :: s => some s
  | _ => none

/-- What follows blanks, comments and line breaks, at most `fuel` lines of them. -/
def skipLines (fuel : Nat) (s : List Char) : List Char :=
  match fuel with
  | 0 => s
  | fuel + 1 =>
    let rest := afterComment (s.dropWhile isBlank)
    match afterBreak? rest with
    | some rest => skipLines fuel rest
    | none => rest

mutual

def value? (fuel : Nat) (s : List Char) : Option (Value × List Char) :=
  match fuel with
  | 0 => none
  | fuel + 1 =>
    match quoted? s, s with
    | some (t, rest), _ => some (.string (String.ofList t), rest)
    | none, '[' :: s => (items? fuel s).map fun (l, rest) => (.array l, rest)
    | none, '\x7b' :: s =>
      match s.dropWhile isBlank with
      | '\x7d' :: rest => some (.table .inlined [], rest)
      | s => (entries? fuel [] s).map fun (t, rest) => (.table .inlined t, rest)
    | none, s => (word? (s.takeWhile isWord)).map fun v => (v, s.dropWhile isWord)

/-- The items up to the closing bracket; a comma may follow the last one. -/
def items? (fuel : Nat) (s : List Char) : Option (List Value × List Char) :=
  match fuel with
  | 0 => none
  | fuel + 1 =>
    match skipLines s.length s with
    | ']' :: rest => some ([], rest)
    | s => do
      let (item, s) ← value? fuel s
      match skipLines s.length s with
      | ',' :: s => (items? fuel s).map fun (l, rest) => (item :: l, rest)
      | ']' :: rest => return ([item], rest)
      | _ => none

/-- The entries up to the closing brace, added to those before. -/
def entries? (fuel : Nat) (t : Table) (s : List Char) : Option (Table × List Char) :=
  match fuel with
  | 0 => none
  | fuel + 1 => do
    let (path, s) ← key? s.length s
    let '=' :: s := s | none
    let (v, s) ← value? fuel (s.dropWhile isBlank)
    let t ← t.assign v path
    match s.dropWhile isBlank with
    | ',' :: s => entries? fuel t s
    | '\x7d' :: rest => return (t, rest)
    | _ => none

end

/-! ## Statements -/

/-- A statement, and what follows it on its line. -/
def statement? (s : List Char) : Option (Statement × List Char) :=
  match s with
  | '[' :: '[' :: s => do
    let (path, s) ← key? s.length s
    let ']' :: ']' :: rest := s | none
    return (.repeatedHeader path, rest)
  | '[' :: s => do
    let (path, s) ← key? s.length s
    let ']' :: rest := s | none
    return (.header path, rest)
  | s => do
    let (path, rest) ← key? s.length s
    let '=' :: rest := rest | none
    let (v, rest) ← value? s.length (rest.dropWhile isBlank)
    return (.assign path v, rest)

/-- The statements of a text, one on a line. -/
def statements? (fuel : Nat) (s : List Char) : Option (List Statement) :=
  match fuel with
  | 0 => none
  | fuel + 1 =>
    match skipLines s.length s with
    | [] => some []
    | s => do
      let (statement, s) ← statement? s
      match afterComment (s.dropWhile isBlank) with
      | [] => return [statement]
      | s =>
        let s ← afterBreak? s
        return statement :: (← statements? fuel s)

/-- The table that a text describes. -/
def Table.parse? (text : String) : Option Table :=
  let chars := match text.toList with
    | '\ufeff' :: s => s
    | s => s
  (statements? (chars.length + 1) chars).bind (Table.ofStatements [] [])

end ControlChannel.Toml
