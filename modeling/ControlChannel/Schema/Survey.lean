import ControlChannel.ResultSet
import ControlChannel.Schema.Keyspace

/-!
From the rows of the three schema tables to keyspaces. Rows are decoded first, all of them, and
then put together: a table takes the columns that name it, a keyspace the tables that name it.
Main content: the decoded rows, `assembleTables` and `assembleKeyspaces`. Columns and tables go to
the first row of a name; where rows repeat a name, the last row is kept.
-/

namespace ControlChannel.Schema

structure ColumnRow where
  keyspace : String
  table : String
  column : Column
  deriving DecidableEq, Repr

structure TableRow where
  keyspace : String
  name : String
  comment : Option String
  deriving DecidableEq, Repr

structure KeyspaceRow where
  name : String
  durableWrites : Bool
  strategyClass : Option String
  strategyOptions : Option String
  deriving DecidableEq, Repr

def ColumnRow.ofRow (row : Row) : Except RowFault ColumnRow := do
  let keyspace ← row.required "keyspace_name"
  let table ← row.required "columnfamily_name"
  let name ← row.required "column_name"
  let validator ← row.required "validator"
  let index ← row.optional Cell.decodeInt "component_index"
  return ⟨keyspace, table, ⟨name, validator, index⟩⟩

def TableRow.ofRow (row : Row) : Except RowFault TableRow := do
  let keyspace ← row.required "keyspace_name"
  let name ← row.required "columnfamily_name"
  let comment ← row.optional Cell.decodeText "comment"
  return ⟨keyspace, name, comment⟩

/-- Writes are durable unless the row says otherwise. -/
def KeyspaceRow.ofRow (row : Row) : Except RowFault KeyspaceRow := do
  let name ← row.required "keyspace_name"
  let durableWrites ← row.optional Cell.decodeBool "durable_writes"
  let strategyClass ← row.optional Cell.decodeText "strategy_class"
  let strategyOptions ← row.optional Cell.decodeText "strategy_options"
  return ⟨name, durableWrites.getD true, strategyClass, strategyOptions⟩

def ColumnRow.isOf (c : ColumnRow) (t : TableRow) : Bool :=
  c.keyspace == t.keyspace && c.table == t.name

/-- The table of a row with the columns that name it, in their order. -/
def TableRow.table (t : TableRow) (columns : List ColumnRow) : Table where
  keyspace := t.keyspace
  name := t.name
  comment := t.comment
  columns := ((columns.filter (·.isOf t)).map (·.column)).mergeSort Column.precedes

/-- A table for every row. A row takes its columns away from the rows after it. -/
def assembleTables : List TableRow → List ColumnRow → List Table
  | [], _ => []
  | t :: rest, columns =>
    t.table columns :: assembleTables rest (columns.filter fun c => !c.isOf t)

/-- The tables of a keyspace by name; of two with one name the later counts. -/
def tablesOf (keyspace : String) (tables : List Table) : Tables :=
  (tables.filter (·.keyspace == keyspace)).foldl (fun m t => m.insert t.name t) ∅

def KeyspaceRow.keyspace (k : KeyspaceRow) (tables : List Table) : Keyspace where
  name := k.name
  durableWrites := k.durableWrites
  strategyClass := k.strategyClass
  strategyOptions := k.strategyOptions
  tables := tablesOf k.name tables

/-- A keyspace for every row. A row takes its tables away from the rows after it. -/
def assembleKeyspaces : List KeyspaceRow → List Table → List Keyspace
  | [], _ => []
  | k :: rest, tables =>
    k.keyspace tables :: assembleKeyspaces rest (tables.filter fun t => !(t.keyspace == k.name))

/-- Keyspaces by name; of two with one name the later counts. -/
def viewOf (keyspaces : List Keyspace) : SchemaView :=
  keyspaces.foldl (fun m k => m.insert k.name k) ∅

end ControlChannel.Schema
