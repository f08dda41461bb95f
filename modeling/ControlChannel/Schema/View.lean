import ControlChannel.Schema.Survey

/-!
Rebuilding the schema view from surveys, as a whole or within a keyspace or a table. Nothing
changes unless every row decodes. Main statements: a rebuild within a keyspace leaves every other
keyspace as it was (`applySurvey_other`), and one within a table of an unknown keyspace changes
nothing (`applySurvey_unknown`).
-/

namespace ControlChannel.Schema

/-- What the surveys said: keyspace rows only when keyspaces were asked for. -/
structure Survey where
  keyspaces : Option (List KeyspaceRow)
  tables : List TableRow
  columns : List ColumnRow

/-- Decodes the columns first, then the tables, then the keyspaces. -/
def Survey.ofResults (keyspaces : Option ResultSet) (tables columns : ResultSet) :
    Except RowFault Survey := do
  let columns ← columns.rows.mapM ColumnRow.ofRow
  let tables ← tables.rows.mapM TableRow.ofRow
  let keyspaces ← match keyspaces with
    | none => pure none
    | some set => some <$> set.rows.mapM KeyspaceRow.ofRow
  return ⟨keyspaces, tables, columns⟩

/-- The view that the surveys describe on their own. -/
def Survey.view (s : Survey) : SchemaView :=
  viewOf (assembleKeyspaces (s.keyspaces.getD []) (assembleTables s.tables s.columns))

/-- The tables that the surveys describe for one keyspace. -/
def Survey.tablesOf (s : Survey) (keyspace : String) : Tables :=
  Schema.tablesOf keyspace (assembleTables s.tables s.columns)

/-- The keyspace with one table replaced, or taken out. -/
def withTable (k : Keyspace) (name : String) (table : Option Table) : Keyspace :=
  { k with tables := match table with
      | some t => k.tables.insert t.name t
      | none => k.tables.erase name }

/-- The view after the surveys of a scope are in: the whole view, one keyspace of it or one table
of a known keyspace is replaced by what the surveys describe. Tables that a keyspace survey has
claimed are not looked up a second time. -/
def applySurvey (view : SchemaView) (keyspace table : Option String) (s : Survey) : SchemaView :=
  match keyspace, table with
  | none, _ => s.view
  | some name, none =>
    match s.view[name]? with
    | some k => (view.erase name).insert name k
    | none => view.erase name
  | some name, some tableName =>
    match view[name]? with
    | none => view
    | some k =>
      let found := if s.keyspaces.isSome then none else (s.tablesOf name)[tableName]?
      view.insert name (withTable k tableName found)

/-- The view rebuilt from survey results within a scope. -/
def rebuild (view : SchemaView) (keyspace table : Option String)
    (keyspaces : Option ResultSet) (tables columns : ResultSet) : Except RowFault SchemaView :=
  (Survey.ofResults keyspaces tables columns).map (applySurvey view keyspace table)

theorem applySurvey_other {view : SchemaView} {name other : String} {table : Option String}
    {s : Survey} (h : name ≠ other) :
    (applySurvey view (some name) table s)[other]? = view[other]? := by
  have hc : ¬ name = other := h
  cases table with
  | none =>
    cases hk : s.view[name]? with
    | none => simp [applySurvey, hk, Std.ExtTreeMap.getElem?_erase, hc]
    | some k =>
      simp [applySurvey, hk, Std.ExtTreeMap.getElem?_insert, Std.ExtTreeMap.getElem?_erase, hc]
  | some t =>
    cases hk : view[name]? with
    | none => simp [applySurvey, hk]
    | some k => simp [applySurvey, hk, Std.ExtTreeMap.getElem?_insert, hc]

theorem applySurvey_unknown {view : SchemaView} {name table : String} {s : Survey}
    (h : view[name]? = none) : applySurvey view (some name) (some table) s = view := by
  simp [applySurvey, h]

end ControlChannel.Schema
