import ControlChannel.Proofs.Schema.Assembly
import ControlChannel.Proofs.Schema.Conversation

/-! # What a node answers to surveys

A node holds the three schema tables (`Catalogue`) and answers a survey with the rows that its
clause selects (`Catalogue.select?`). Main statements: the clause of a scope reads back as the
scope, whatever the names (`Scope.ofClause?_clauseChars`); and the answers to the surveys of a scope
say what the whole schema says within that scope (`Catalogue.survey_selected`). -/

namespace ControlChannel

namespace Row

/-- Whether the text of the column is `name`. -/
def names (row : Row) (column name : String) : Bool :=
  match row.text column with
  | .ok (some s) => s == name
  | _ => false

theorem names_eq {row : Row} {column s : String} (h : row.text column = .ok (some s))
    (name : String) : row.names column name = (s == name) := by
  rw [names, h]

end Row

section
variable {ε α β : Type} {f : α → Except ε β}

theorem decoded_filter {p : α → Bool} {q : β → Bool}
    (h : ∀ a b, f a = .ok b → p a = q b) (l : List α) :
    decoded f (l.filter p) = (decoded f l).filter q := by
  induction l with
  | nil => rfl
  | cons a l ih =>
    cases hf : f a with
    | error e => cases hp : p a <;> simp_all [decoded, Except.toOption]
    | ok b => cases hp : p a <;> simp_all [decoded, Except.toOption]

theorem decoded_perm {l l' : List α} (h : l.Perm l') : (decoded f l).Perm (decoded f l') :=
  h.filterMap _

/-- Keys do not repeat among what is decoded if they do not among the rows. -/
theorem nodup_decoded {κ κ' : Type} {rowKey : α → κ} {key : β → κ'} {l : List α}
    (h : (l.map rowKey).Nodup)
    (hkey : ∀ {a a' b b'}, f a = .ok b → f a' = .ok b' → key b = key b' → rowKey a = rowKey a') :
    ((decoded f l).map key).Nodup :=
  List.pairwise_map.mpr (List.pairwise_filterMap.mpr
    ((List.pairwise_map.mp h).imp fun hne _ hb _ hb' e =>
      hne (hkey (toOption_eq_some.mp hb) (toOption_eq_some.mp hb') e)))

end

namespace ResultSet

/-- The rows that satisfy `p`. -/
def pick (set : ResultSet) (p : Row → Bool) : ResultSet where
  columns := set.columns
  cells := set.cells.filter fun cells => p ⟨set.columns, cells⟩
  width row h := set.width row (List.mem_filter.mp h).1

theorem rows_pick (set : ResultSet) (p : Row → Bool) : (set.pick p).rows = set.rows.filter p := by
  rw [rows, rows, List.filter_map]
  rfl

end ResultSet

namespace SurveyRows

/-- The same rows in another order. -/
structure Reorders (r r' : SurveyRows) : Prop where
  given : r.keyspaces.isSome = r'.keyspaces.isSome
  keyspaces : ∀ set set', r.keyspaces = some set → r'.keyspaces = some set' →
    set.rows.Perm set'.rows
  columnFamilies : r.columnFamilies.rows.Perm r'.columnFamilies.rows
  columns : r.columns.rows.Perm r'.columns.rows

theorem Reorders.readable {r r' : SurveyRows} (hr : r.Reorders r') (h : r.Readable) :
    r'.Readable where
  keyspaces set' hset' row hrow := by
    obtain ⟨set, hset⟩ := Option.isSome_iff_exists.mp (hr.given.trans (by rw [hset']; rfl))
    exact h.keyspaces set hset row ((hr.keyspaces set set' hset hset').mem_iff.mpr hrow)
  columnFamilies row hrow := h.columnFamilies row (hr.columnFamilies.mem_iff.mpr hrow)
  columns row hrow := h.columns row (hr.columns.mem_iff.mpr hrow)

theorem Reorders.survey {r r' : SurveyRows} (hr : r.Reorders r') :
    r.survey.Reorders r'.survey where
  given := by simpa [SurveyRows.survey] using hr.given
  keyspaces := by
    have hgiven := hr.given
    cases hk : r.keyspaces with
    | none => cases hk' : r'.keyspaces <;> simp_all [SurveyRows.survey]
    | some set =>
      cases hk' : r'.keyspaces with
      | none => simp_all
      | some set' =>
        simpa [SurveyRows.survey, hk, hk'] using decoded_perm (hr.keyspaces set set' hk hk')
  tables := decoded_perm hr.columnFamilies
  columns := decoded_perm hr.columns

end SurveyRows

/-- Rows that are picked by what they decode to. -/
theorem decoded_pick {β : Type} {f : Row → Except RowFault β} {p : Row → Bool} {q : β → Bool}
    (h : ∀ row b, f row = .ok b → p row = q b) (set : ResultSet) :
    decoded f (set.pick p).rows = (decoded f set.rows).filter q := by
  rw [ResultSet.rows_pick, decoded_filter h]

namespace Schema

/-! ## Names in rows -/

theorem KeyspaceRow.text_of_ofRow {row : Row} {k : KeyspaceRow}
    (h : KeyspaceRow.ofRow row = .ok k) : row.text "keyspace_name" = .ok (some k.name) := by
  obtain ⟨name, hname, h⟩ := bind_eq_ok.mp h
  obtain ⟨_, _, h⟩ := bind_eq_ok.mp h
  obtain ⟨_, _, h⟩ := bind_eq_ok.mp h
  obtain ⟨_, _, h⟩ := bind_eq_ok.mp h
  cases h
  exact Row.required_eq_ok.mp hname

theorem TableRow.texts_of_ofRow {row : Row} {t : TableRow} (h : TableRow.ofRow row = .ok t) :
    row.text "keyspace_name" = .ok (some t.keyspace) ∧
      row.text "columnfamily_name" = .ok (some t.name) := by
  obtain ⟨keyspace, hkeyspace, h⟩ := bind_eq_ok.mp h
  obtain ⟨name, hname, h⟩ := bind_eq_ok.mp h
  obtain ⟨_, _, h⟩ := bind_eq_ok.mp h
  cases h
  exact ⟨Row.required_eq_ok.mp hkeyspace, Row.required_eq_ok.mp hname⟩

theorem ColumnRow.texts_of_ofRow {row : Row} {c : ColumnRow} (h : ColumnRow.ofRow row = .ok c) :
    row.text "keyspace_name" = .ok (some c.keyspace) ∧
      row.text "columnfamily_name" = .ok (some c.table) ∧
      row.text "column_name" = .ok (some c.column.name) := by
  obtain ⟨keyspace, hkeyspace, h⟩ := bind_eq_ok.mp h
  obtain ⟨table, htable, h⟩ := bind_eq_ok.mp h
  obtain ⟨name, hname, h⟩ := bind_eq_ok.mp h
  obtain ⟨_, _, h⟩ := bind_eq_ok.mp h
  obtain ⟨_, _, h⟩ := bind_eq_ok.mp h
  cases h
  exact ⟨Row.required_eq_ok.mp hkeyspace, Row.required_eq_ok.mp htable,
    Row.required_eq_ok.mp hname⟩

/-! ## Clauses -/

namespace Scope

theorem after?_append (lead s : List Char) : after? lead (lead ++ s) = some s := by
  rw [after?, if_pos (by simp), List.drop_left]

/-- The statements that surveys start with. -/
def selects : List String := [selectKeyspaces, selectColumnFamilies, selectColumns]

/-- No survey statement starts another. -/
theorem selects_apart : ∀ a ∈ selects, ∀ b ∈ selects, a.toList <+: b.toList → a = b := by
  decide +kernel

theorem after?_select {a b : String} (ha : a ∈ selects) (hb : b ∈ selects) (hne : a ≠ b)
    (s : List Char) : after? a.toList (b.toList ++ s) = none := by
  refine if_neg fun hp => ?_
  rcases List.prefix_or_prefix_of_prefix (List.isPrefixOf_iff_prefix.mp hp)
    (List.prefix_append b.toList s) with h | h
  · exact hne (selects_apart a ha b hb h)
  · exact hne (selects_apart b hb a ha h).symm

theorem keyspaceLead_append_ne_nil (s : List Char) : keyspaceLead ++ s ≠ [] :=
  List.append_ne_nil_of_left_ne_nil (by decide +kernel) s

theorem tableLead_append_ne_nil (s : List Char) : tableLead ++ s ≠ [] :=
  List.append_ne_nil_of_left_ne_nil (by decide +kernel) s

theorem head?_tableLead_append (s : List Char) : (tableLead ++ s).head? ≠ some Literal.mark := by
  have h : tableLead.head? = some ' ' := by decide +kernel
  rw [List.head?_append, h, Option.some_or]
  decide

theorem read?_quote_end (name : List Char) :
    Literal.read? (Literal.quote name) = some (name, []) := by
  simpa using Literal.read?_quote name [] (by simp)

/-- The clause of a scope reads back as the scope, whatever the names. -/
theorem ofClause?_clauseChars (scope : Scope) : ofClause? scope.clauseChars = some scope := by
  cases scope with
  | all => rfl
  | keyspace k =>
    rw [ofClause?, clauseChars, if_neg (keyspaceLead_append_ne_nil _), after?_append]
    simp only [Option.bind_eq_bind, Option.bind_some, read?_quote_end, if_true,
      String.ofList_toList]
    rfl
  | table k t =>
    rw [ofClause?, clauseChars, List.append_assoc, if_neg (keyspaceLead_append_ne_nil _),
      after?_append]
    have hread := Literal.read?_quote k.toList (tableLead ++ Literal.quote t.toList)
      (head?_tableLead_append _)
    simp only [Option.bind_eq_bind, Option.bind_some, hread, if_neg (tableLead_append_ne_nil _),
      after?_append, read?_quote_end, if_true, String.ofList_toList]
    rfl

/-- Whether a row of a schema table belongs to the scope. -/
def covers (scope : Scope) (row : Row) : Bool :=
  match scope with
  | .all => true
  | .keyspace k => row.names "keyspace_name" k
  | .table k t => row.names "keyspace_name" k && row.names "columnfamily_name" t

end Scope

/-! ## Tables -/

end Schema

/-- The three schema tables of a node. -/
structure Catalogue where
  keyspaces : ResultSet
  columnFamilies : ResultSet
  columns : ResultSet

namespace Catalogue

open Schema (Scope KeyspaceRow TableRow ColumnRow)

/-- The tables with the statements that read them. -/
def statements (d : Catalogue) : List (String × ResultSet) :=
  [(Scope.selectKeyspaces, d.keyspaces), (Scope.selectColumnFamilies, d.columnFamilies),
    (Scope.selectColumns, d.columns)]

/-- The rows that a statement selects. -/
def select? (d : Catalogue) (cql : String) : Option ResultSet :=
  d.statements.findSome? fun (statement, set) => do
    let scope ← Scope.ofClause? (← Scope.after? statement.toList cql.toList)
    return set.pick scope.covers

/-- What the node answers to a request for rows. -/
def answer? (d : Catalogue) : Request → Option ResultSet
  | .query cql => d.select? cql
  | .register _ => none

theorem select?_keyspaces (d : Catalogue) (scope : Scope) :
    d.select? (Scope.selectKeyspaces ++ scope.clause) = some (d.keyspaces.pick scope.covers) := by
  simp only [select?, statements, List.findSome?_cons, String.toList_append, Scope.after?_append,
    Scope.clause, String.toList_ofList, Option.bind_eq_bind, Option.bind_some,
    Scope.ofClause?_clauseChars]
  rfl

theorem select?_columnFamilies (d : Catalogue) (scope : Scope) :
    d.select? (Scope.selectColumnFamilies ++ scope.clause) =
      some (d.columnFamilies.pick scope.covers) := by
  have hk : Scope.after? Scope.selectKeyspaces.toList
      (Scope.selectColumnFamilies.toList ++ scope.clauseChars) = none :=
    Scope.after?_select (by simp [Scope.selects]) (by simp [Scope.selects]) (by decide) _
  simp only [select?, statements, List.findSome?_cons, String.toList_append, hk,
    Scope.after?_append, Scope.clause, String.toList_ofList, Option.bind_eq_bind,
    Option.bind_some, Option.bind_none, Scope.ofClause?_clauseChars]
  rfl

theorem select?_columns (d : Catalogue) (scope : Scope) :
    d.select? (Scope.selectColumns ++ scope.clause) = some (d.columns.pick scope.covers) := by
  have hk : Scope.after? Scope.selectKeyspaces.toList
      (Scope.selectColumns.toList ++ scope.clauseChars) = none :=
    Scope.after?_select (by simp [Scope.selects]) (by simp [Scope.selects]) (by decide) _
  have hf : Scope.after? Scope.selectColumnFamilies.toList
      (Scope.selectColumns.toList ++ scope.clauseChars) = none :=
    Scope.after?_select (by simp [Scope.selects]) (by simp [Scope.selects]) (by decide) _
  simp only [select?, statements, List.findSome?_cons, String.toList_append, hk, hf,
    Scope.after?_append, Scope.clause, String.toList_ofList, Option.bind_eq_bind,
    Option.bind_some, Option.bind_none, Scope.ofClause?_clauseChars]
  rfl

/-- The table that a survey reads. -/
def table (d : Catalogue) : SurveyKind → ResultSet
  | .keyspaces => d.keyspaces
  | .columnFamilies => d.columnFamilies
  | .columns => d.columns

/-- A survey that the scope needs is answered with the rows of the scope. -/
theorem answer?_request (d : Catalogue) {scope : Scope} {kind : SurveyKind}
    (h : kind = .keyspaces → scope.keyspacesSurvey.isSome) :
    d.answer? (SchemaRefresh.request scope kind) = some ((d.table kind).pick scope.covers) := by
  cases kind with
  | keyspaces =>
    cases scope with
    | all => exact d.select?_keyspaces .all
    | keyspace k => exact d.select?_keyspaces (.keyspace k)
    | table k t => cases h rfl
  | columnFamilies => exact d.select?_columnFamilies scope
  | columns => exact d.select?_columns scope

/-- All rows of the tables. -/
def rows (d : Catalogue) : SurveyRows := ⟨some d.keyspaces, d.columnFamilies, d.columns⟩

/-- The rows that the surveys of a scope select. -/
def selected (d : Catalogue) (scope : Scope) : SurveyRows where
  keyspaces := scope.keyspacesSurvey.map fun _ => d.keyspaces.pick scope.covers
  columnFamilies := d.columnFamilies.pick scope.covers
  columns := d.columns.pick scope.covers

/-- Every row can be read, no table has a key twice and every column family's keyspace is
listed. -/
structure Consistent (d : Catalogue) : Prop where
  readable : d.rows.Readable
  keyspaces : (d.keyspaces.rows.map (·.text "keyspace_name")).Nodup
  columnFamilies : (d.columnFamilies.rows.map fun row =>
    (row.text "keyspace_name", row.text "columnfamily_name")).Nodup
  columns : (d.columns.rows.map fun row => (row.text "keyspace_name",
    row.text "columnfamily_name", row.text "column_name")).Nodup
  listed : ∀ row ∈ d.columnFamilies.rows, ∃ k ∈ d.keyspaces.rows,
    k.text "keyspace_name" = row.text "keyspace_name"

theorem readable_selected {d : Catalogue} (h : d.rows.Readable) (scope : Scope) :
    (d.selected scope).Readable := by
  have hmem : ∀ {set : ResultSet} {row : Row}, row ∈ (set.pick scope.covers).rows →
      row ∈ set.rows := fun hrow => by
    rw [ResultSet.rows_pick] at hrow
    exact (List.mem_filter.mp hrow).1
  refine ⟨fun set hset row hrow => ?_, fun row hrow => h.columnFamilies row (hmem hrow),
    fun row hrow => h.columns row (hmem hrow)⟩
  obtain ⟨_, _, rfl⟩ := Option.map_eq_some_iff.mp hset
  exact h.keyspaces _ rfl row (hmem hrow)

/-- What the surveys of a scope say is what all rows say within the scope. -/
theorem survey_selected (d : Catalogue) (scope : Scope) :
    (d.selected scope).survey = d.rows.survey.within scope := by
  cases scope with
  | all =>
    have hall : ∀ set : ResultSet, (set.pick (Scope.covers .all)).rows = set.rows := fun set => by
      rw [ResultSet.rows_pick]
      exact List.filter_eq_self.mpr fun _ _ => rfl
    simp [selected, SurveyRows.survey, Schema.Survey.within, rows, hall, Scope.keyspacesSurvey]
  | keyspace k =>
    refine (Schema.Survey.mk.injEq ..).mpr ⟨congrArg some ?_, ?_, ?_⟩
    · exact decoded_pick (fun _ _ h => Row.names_eq (KeyspaceRow.text_of_ofRow h) k) _
    · exact decoded_pick (fun _ _ h => Row.names_eq (TableRow.texts_of_ofRow h).1 k) _
    · exact decoded_pick (fun _ _ h => Row.names_eq (ColumnRow.texts_of_ofRow h).1 k) _
  | table k t =>
    refine (Schema.Survey.mk.injEq ..).mpr ⟨rfl, ?_, ?_⟩
    · refine decoded_pick (fun _ _ h => ?_) _
      obtain ⟨hk, ht⟩ := TableRow.texts_of_ofRow h
      rw [Scope.covers, Row.names_eq hk, Row.names_eq ht]
    · refine decoded_pick (fun _ _ h => ?_) _
      obtain ⟨hk, ht, _⟩ := ColumnRow.texts_of_ofRow h
      rw [Scope.covers, Row.names_eq hk, Row.names_eq ht]

/-- No table has a key twice. -/
structure Distinct (d : Catalogue) : Prop where
  keyspaces : (d.keyspaces.rows.map (·.text "keyspace_name")).Nodup
  columnFamilies : (d.columnFamilies.rows.map fun row =>
    (row.text "keyspace_name", row.text "columnfamily_name")).Nodup
  columns : (d.columns.rows.map fun row => (row.text "keyspace_name",
    row.text "columnfamily_name", row.text "column_name")).Nodup

theorem Distinct.unique {d : Catalogue} (h : d.Distinct) : d.rows.survey.Unique := by
  refine ⟨nodup_decoded h.keyspaces fun hr hr' e => ?_,
    nodup_decoded h.columnFamilies fun hr hr' e => ?_, nodup_decoded h.columns fun hr hr' e => ?_⟩
  · rw [KeyspaceRow.text_of_ofRow hr, KeyspaceRow.text_of_ofRow hr', e]
  · obtain ⟨hk, ht⟩ := TableRow.texts_of_ofRow hr
    obtain ⟨hk', ht'⟩ := TableRow.texts_of_ofRow hr'
    simp_all [TableRow.key]
  · obtain ⟨hk, ht, hc⟩ := ColumnRow.texts_of_ofRow hr
    obtain ⟨hk', ht', hc'⟩ := ColumnRow.texts_of_ofRow hr'
    simp_all [ColumnRow.key]

theorem whole {d : Catalogue} (h : d.Consistent) :
    d.rows.survey.Whole (decoded KeyspaceRow.ofRow d.keyspaces.rows) where
  given := rfl
  unique := Distinct.unique ⟨h.keyspaces, h.columnFamilies, h.columns⟩
  listed t ht := by
    obtain ⟨row, hrow, hr⟩ := mem_decoded.mp ht
    obtain ⟨krow, hkrow, hname⟩ := h.listed row hrow
    obtain ⟨k, hk⟩ := (KeyspaceRow.readable_iff krow).mpr (h.readable.keyspaces _ rfl krow hkrow)
    rw [KeyspaceRow.text_of_ofRow hk, (TableRow.texts_of_ofRow hr).1] at hname
    exact ⟨k, mem_decoded.mpr ⟨krow, hkrow, hk⟩, Option.some.inj (Except.ok.inj hname)⟩

end Catalogue

end ControlChannel
