import ControlChannel.Cell
import ControlChannel.Error

/-!
Result sets: named columns and rows of cells, every row as long as the list of names. A cell is
found by the first column of a name. Main statements: `Row.isNull_iff` says which cells count as
null, and a row of a result set has the set's columns.
-/

namespace ControlChannel

/-- Why a cell cannot be read. -/
inductive RowFault where
  | noColumn (column : String)
  | null (column : String)
  | cell (fault : CellFault)
  deriving DecidableEq, Repr

def RowFault.message : RowFault → String
  | .noColumn column => s!"no column named '{column}'"
  | .null column => s!"column '{column}' must not be null"
  | .cell fault => fault.message

def RowFault.error (fault : RowFault) : Error := .protocol fault.message

/-- One row with the names of its columns. -/
structure Row where
  columns : List String
  cells : List (Option Bytes)
  deriving DecidableEq, Repr

namespace Row

/-- The cell under a column's name. -/
def cell (row : Row) (column : String) : Except RowFault (Option Bytes) :=
  match (row.columns.zip row.cells).lookup column with
  | some cell => .ok cell
  | none => .error (.noColumn column)

/-- Whether the cell is null or its column absent. -/
def isNull (row : Row) (column : String) : Bool :=
  match row.cell column with
  | .ok (some _) => false
  | _ => true

/-- The decoded value of a cell, `none` for a null. -/
def read {α : Type} (decode : Bytes → Except CellFault α) (row : Row) (column : String) :
    Except RowFault (Option α) := do
  match ← row.cell column with
  | none => return none
  | some raw => return some (← (decode raw).mapError .cell)

def text (row : Row) (column : String) : Except RowFault (Option String) :=
  row.read Cell.decodeText column

def bool (row : Row) (column : String) : Except RowFault (Option Bool) :=
  row.read Cell.decodeBool column

def int (row : Row) (column : String) : Except RowFault (Option Int32) :=
  row.read Cell.decodeInt column

def inet (row : Row) (column : String) : Except RowFault (Option Ip) :=
  row.read Cell.decodeInet column

/-- A text that must be there. -/
def required (row : Row) (column : String) : Except RowFault String := do
  match ← row.text column with
  | some s => return s
  | none => throw (.null column)

/-- The decoded value of a cell that may be null or whose column may be missing. -/
def optional {α : Type} (decode : Bytes → Except CellFault α) (row : Row) (column : String) :
    Except RowFault (Option α) :=
  if row.isNull column then .ok none else row.read decode column

theorem isNull_iff (row : Row) (column : String) :
    row.isNull column = true ↔ ∀ raw, row.cell column ≠ .ok (some raw) := by
  unfold isNull
  split <;> simp_all

end Row

/-- Named columns and rows of that width. -/
structure ResultSet where
  columns : List String
  cells : List (List (Option Bytes))
  width : ∀ row ∈ cells, row.length = columns.length
  deriving DecidableEq

namespace ResultSet

/-- A row cut or filled up with nulls to `n` cells. -/
def fit (n : Nat) (row : List (Option Bytes)) : List (Option Bytes) :=
  row.take n ++ List.replicate (n - row.length) none

theorem length_fit (n : Nat) (row : List (Option Bytes)) : (fit n row).length = n := by
  simp only [fit, List.length_append, List.length_take, List.length_replicate]
  omega

/-- The result set of rows of any length. -/
def ofRagged (columns : List String) (rows : List (List (Option Bytes))) : ResultSet where
  columns := columns
  cells := rows.map (fit columns.length)
  width := by
    intro row h
    obtain ⟨raw, _, rfl⟩ := List.mem_map.1 h
    exact length_fit _ _

def empty : ResultSet := ofRagged [] []

instance : Inhabited ResultSet := ⟨empty⟩

def rows (set : ResultSet) : List Row := set.cells.map fun cells => ⟨set.columns, cells⟩

/-- For each row, which of its named cells are null. -/
def nulls (set : ResultSet) : List (List Bool) :=
  set.rows.map fun row => set.columns.map row.isNull

theorem columns_of_mem_rows {set : ResultSet} {row : Row} (h : row ∈ set.rows) :
    row.columns = set.columns := by
  obtain ⟨cells, _, rfl⟩ := List.mem_map.1 h
  rfl

end ResultSet

end ControlChannel
