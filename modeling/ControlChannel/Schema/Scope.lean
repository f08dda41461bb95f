import ControlChannel.Error
import ControlChannel.Schema.Literal

/-!
The part of the schema that a refresh covers, and the statements that survey it. A scope is the
whole schema, one keyspace or one table of a keyspace. Main content: the clause that restricts the
surveys (`Scope.clause`), a reader of such clauses beside it, and the three survey statements.
-/

namespace ControlChannel.Schema

inductive Scope where
  | all
  | keyspace (keyspace : String)
  | table (keyspace table : String)
  deriving DecidableEq, Repr

namespace Scope

/-- The scope of optional names; a table needs its keyspace. -/
def ofNames (keyspace table : Option String) : Except Error Scope :=
  match keyspace, table with
  | none, none => .ok .all
  | some k, none => .ok (.keyspace k)
  | some k, some t => .ok (.table k t)
  | none, some t => .error (.invalidArgument s!"table '{t}' given without a keyspace")

def keyspace? : Scope → Option String
  | .all => none
  | .keyspace k | .table k _ => some k

def table? : Scope → Option String
  | .table _ t => some t
  | _ => none

def keyspaceLead : List Char := " WHERE keyspace_name = ".toList

def tableLead : List Char := " AND columnfamily_name = ".toList

def clauseChars : Scope → List Char
  | .all => []
  | .keyspace k => keyspaceLead ++ Literal.quote k.toList
  | .table k t => keyspaceLead ++ Literal.quote k.toList ++ (tableLead ++ Literal.quote t.toList)

/-- The clause that restricts a survey to the scope. -/
def clause (scope : Scope) : String := String.ofList scope.clauseChars

/-- What follows `lead` in a text that starts with it. -/
def after? (lead s : List Char) : Option (List Char) :=
  if lead.isPrefixOf s then some (s.drop lead.length) else none

/-- The scope that a clause restricts to. -/
def ofClause? (s : List Char) : Option Scope :=
  if s = [] then some .all
  else do
    let (k, rest) ← Literal.read? (← after? keyspaceLead s)
    if rest = [] then return .keyspace (String.ofList k)
    let (t, rest) ← Literal.read? (← after? tableLead rest)
    if rest = [] then return .table (String.ofList k) (String.ofList t)
    none

def selectKeyspaces : String := "SELECT * FROM system.schema_keyspaces"
def selectColumnFamilies : String := "SELECT * FROM system.schema_columnfamilies"
def selectColumns : String := "SELECT * FROM system.schema_columns"

/-- The survey of keyspaces, which a single table does not need. -/
def keyspacesSurvey (scope : Scope) : Option String :=
  match scope with
  | .table .. => none
  | _ => some (selectKeyspaces ++ scope.clause)

def columnFamiliesSurvey (scope : Scope) : String := selectColumnFamilies ++ scope.clause

def columnsSurvey (scope : Scope) : String := selectColumns ++ scope.clause

end Scope

end ControlChannel.Schema
