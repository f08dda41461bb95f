import Std.Data.ExtTreeMap

/-!
The schema of a cluster as a client keeps it: keyspaces by name, their tables by name, and the
columns of a table in order. Main content: the order of columns, by component index and then by
name, where a column without an index counts as having the largest one.
-/

namespace ControlChannel

structure Column where
  name : String
  /-- The class that names the column's type. -/
  validator : String
  /-- The place within a composite key. -/
  index : Option Int32
  deriving DecidableEq, Repr

structure Table where
  keyspace : String
  name : String
  comment : Option String
  columns : List Column
  deriving DecidableEq, Repr

abbrev Tables := Std.ExtTreeMap String Table

structure Keyspace where
  name : String
  /-- Whether writes pass through the commit log. -/
  durableWrites : Bool
  strategyClass : Option String
  strategyOptions : Option String
  tables : Tables

/-- All keyspaces by name. -/
abbrev SchemaView := Std.ExtTreeMap String Keyspace

namespace Column

/-- The index that orders the column; a missing one counts as the largest. -/
def rank (c : Column) : Int := (c.index.getD Int32.maxValue).toInt

/-- Whether `a` may stand before `b`. -/
def precedes (a b : Column) : Bool :=
  a.rank < b.rank || (a.rank == b.rank && decide (a.name ≤ b.name))

theorem precedes_total (a b : Column) : (a.precedes b || b.precedes a) = true := by
  simp only [precedes, Bool.or_eq_true, Bool.and_eq_true, decide_eq_true_eq, beq_iff_eq]
  rcases Int.lt_trichotomy a.rank b.rank with h | h | h
  · exact .inl (.inl h)
  · exact (String.le_total a.name b.name).imp (fun hn => .inr ⟨h, hn⟩) fun hn => .inr ⟨h.symm, hn⟩
  · exact .inr (.inl h)

theorem precedes_trans (a b c : Column) (hab : a.precedes b = true) (hbc : b.precedes c = true) :
    a.precedes c = true := by
  simp only [precedes, Bool.or_eq_true, Bool.and_eq_true, decide_eq_true_eq, beq_iff_eq] at *
  rcases hab with h | ⟨h, hn⟩ <;> rcases hbc with h' | ⟨h', hn'⟩
  · left; omega
  · left; omega
  · left; omega
  · exact .inr ⟨by omega, String.le_trans hn hn'⟩

end Column

/-- The column of that name. -/
def Table.column? (t : Table) (name : String) : Option Column :=
  t.columns.find? (·.name == name)

end ControlChannel
