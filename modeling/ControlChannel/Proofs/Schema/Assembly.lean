import ControlChannel.Schema.Scope
import ControlChannel.Schema.View
import Mathlib.Data.List.Nodup

/-! # Keyspaces from rows without repeated keys

Rows that have one key are assembled by the first of them, so that the order of rows and the rows
of other tables matter. Without repeated keys (`Survey.Unique`) neither does: rows assemble one by
one (`assembleTables_eq`, `assembleKeyspaces_eq`), in any order (`applySurvey_congr`). Main
statements: the part of the view that a scope replaces is the same whether the rows of the scope
(`Survey.within`) or all rows are assembled (`applySurvey_keyspace`, `applySurvey_table`). -/

namespace ControlChannel

theorem Column.name_eq_of_precedes {a b : Column} (h : a.precedes b = true)
    (h' : b.precedes a = true) : a.name = b.name := by
  simp only [precedes, Bool.or_eq_true, Bool.and_eq_true, decide_eq_true_eq, beq_iff_eq] at h h'
  rcases h with h | ⟨_, h⟩
  · omega
  · rcases h' with h' | ⟨_, h'⟩
    · omega
    · exact String.le_antisymm h h'

namespace Schema

/-! ## Look-ups -/

/-- Elements that are inserted one after the other: the last one of a name is found. -/
theorem getElem?_foldl_insert {α : Type} (key : α → String) (l : List α)
    (m : Std.ExtTreeMap String α) (name : String) :
    (l.foldl (fun m a => m.insert (key a) a) m)[name]? =
      (l.filter (key · == name)).getLast?.or m[name]? := by
  induction l generalizing m with
  | nil => rfl
  | cons a l ih =>
    rw [List.foldl_cons, ih, Std.ExtTreeMap.getElem?_insert]
    by_cases h : key a = name
    · rw [List.filter_cons_of_pos (by simpa using h), List.getLast?_cons]
      cases (l.filter (key · == name)).getLast? <;> simp [h]
    · rw [List.filter_cons_of_neg (by simpa using h)]
      simp [h]

theorem getElem?_tablesOf (keyspace name : String) (tables : List Table) :
    (tablesOf keyspace tables)[name]? =
      (tables.filter fun t => t.keyspace == keyspace && t.name == name).getLast? := by
  rw [tablesOf, getElem?_foldl_insert, List.filter_filter]
  simp [Bool.and_comm]

theorem getElem?_viewOf (keyspaces : List Keyspace) (name : String) :
    (viewOf keyspaces)[name]? = (keyspaces.filter (·.name == name)).getLast? := by
  rw [viewOf, getElem?_foldl_insert]
  simp

/-! ## Rows one by one -/

/-- What names a table among all tables. -/
def TableRow.key (t : TableRow) : String × String := (t.keyspace, t.name)

/-- What names a column among all columns. -/
def ColumnRow.key (c : ColumnRow) : String × String × String :=
  (c.keyspace, c.table, c.column.name)

theorem ColumnRow.isOf_iff {c : ColumnRow} {t : TableRow} :
    c.isOf t = true ↔ (c.keyspace, c.table) = t.key := by
  simp [isOf, TableRow.key]

theorem filter_filter_of_imp {α : Type} {p q : α → Bool} (h : ∀ a, q a = true → p a = true)
    (l : List α) : (l.filter p).filter q = l.filter q := by
  rw [List.filter_filter]
  refine List.filter_congr fun a _ => ?_
  cases hq : q a with
  | false => rfl
  | true => rw [h a hq]; rfl

/-- A table needs no other columns than its own. -/
theorem TableRow.table_filter {t : TableRow} {p : ColumnRow → Bool}
    (h : ∀ c, c.isOf t = true → p c = true) (columns : List ColumnRow) :
    t.table (columns.filter p) = t.table columns := by
  rw [table, table, filter_filter_of_imp h]

/-- A keyspace needs no other tables than its own. -/
theorem tablesOf_filter {keyspace : String} {p : Table → Bool}
    (h : ∀ t, t.keyspace = keyspace → p t = true) (tables : List Table) :
    tablesOf keyspace (tables.filter p) = tablesOf keyspace tables := by
  rw [tablesOf, tablesOf, filter_filter_of_imp fun t ht => h t (by simpa using ht)]

/-- With one row to a table none takes columns from another. -/
theorem assembleTables_eq {tables : List TableRow} (h : (tables.map TableRow.key).Nodup)
    (columns : List ColumnRow) :
    assembleTables tables columns = tables.map (·.table columns) := by
  induction tables generalizing columns with
  | nil => rfl
  | cons t rest ih =>
    obtain ⟨ht, hrest⟩ := List.nodup_cons.mp h
    rw [assembleTables, ih hrest, List.map_cons]
    congr 1
    refine List.map_congr_left fun t' ht' => TableRow.table_filter (fun c hc => ?_) columns
    have hne : ¬ c.isOf t = true := fun hct =>
      ht (List.mem_map.mpr ⟨t', ht', (ColumnRow.isOf_iff.mp hc).symm.trans
        (ColumnRow.isOf_iff.mp hct)⟩)
    simpa using hne

/-- With one row to a keyspace none takes tables from another. -/
theorem assembleKeyspaces_eq {keyspaces : List KeyspaceRow}
    (h : (keyspaces.map (·.name)).Nodup) (tables : List Table) :
    assembleKeyspaces keyspaces tables = keyspaces.map (·.keyspace tables) := by
  induction keyspaces generalizing tables with
  | nil => rfl
  | cons k rest ih =>
    obtain ⟨hk, hrest⟩ := List.nodup_cons.mp h
    rw [assembleKeyspaces, ih hrest, List.map_cons]
    congr 1
    refine List.map_congr_left fun k' hk' => ?_
    have hne : k'.name ≠ k.name := fun e => hk (List.mem_map.mpr ⟨k', hk', e⟩)
    rw [KeyspaceRow.keyspace, KeyspaceRow.keyspace, tablesOf_filter]
    intro t ht
    simpa [ht] using hne

/-- No two rows have one key. -/
structure Survey.Unique (s : Survey) : Prop where
  keyspaces : ((s.keyspaces.getD []).map (·.name)).Nodup
  tables : (s.tables.map TableRow.key).Nodup
  columns : (s.columns.map ColumnRow.key).Nodup

/-- A keyspace of the view comes from the row of its name. -/
theorem Survey.Unique.getElem?_view {s : Survey} (h : s.Unique) (name : String) :
    s.view[name]? = ((s.keyspaces.getD []).filter (·.name == name)).getLast?.map
      (·.keyspace (assembleTables s.tables s.columns)) := by
  rw [Survey.view, assembleKeyspaces_eq h.keyspaces, getElem?_viewOf, List.filter_map,
    List.getLast?_map]
  rfl

/-! ## Rows in another order -/

/-- Where keys do not repeat, at most one element has a key, and order does not matter. -/
theorem filter_eq_of_perm {α κ : Type} {key : α → κ} {l l' : List α} (hp : l.Perm l')
    (hu : (l.map key).Nodup) {p : α → Bool} (h : ∀ a b, p a = true → p b = true → key a = key b) :
    l.filter p = l'.filter p := by
  have hperm := hp.filter p
  have hnodup := hu.sublist ((List.filter_sublist (p := p)).map key)
  have hmem : ∀ a ∈ l.filter p, p a = true := fun a ha => (List.mem_filter.mp ha).2
  cases hl : l.filter p with
  | nil => rw [hl] at hperm; exact hperm.symm.eq_nil.symm
  | cons a rest =>
    rw [hl] at hperm hnodup hmem
    cases rest with
    | nil => exact hperm.symm.eq_singleton.symm
    | cons b rest =>
      have hkey := h a b (hmem a List.mem_cons_self)
        (hmem b (List.mem_cons_of_mem a List.mem_cons_self))
      exact absurd (List.mem_map.mpr ⟨b, List.mem_cons_self, hkey.symm⟩)
        (List.nodup_cons.mp hnodup).1

/-- Columns are sorted, and no two of a table have one name. -/
theorem TableRow.table_perm (t : TableRow) {columns columns' : List ColumnRow}
    (hp : columns.Perm columns') (hu : (columns.map ColumnRow.key).Nodup) :
    t.table columns = t.table columns' := by
  have hmem : ∀ {l : List ColumnRow} {a : Column},
      a ∈ ((l.filter (·.isOf t)).map (·.column)).mergeSort Column.precedes →
        ∃ c ∈ l, c.isOf t = true ∧ c.column = a := by
    intro l a ha
    obtain ⟨c, hc, rfl⟩ := List.mem_map.mp ((List.mergeSort_perm _ _).mem_iff.mp ha)
    exact ⟨c, (List.mem_filter.mp hc).1, (List.mem_filter.mp hc).2, rfl⟩
  have hsorted : ∀ l : List Column,
      (l.mergeSort Column.precedes).Pairwise fun a b => a.precedes b = true :=
    List.pairwise_mergeSort Column.precedes_trans Column.precedes_total
  have hcolumns : ((columns.filter (·.isOf t)).map (·.column)).mergeSort Column.precedes =
      ((columns'.filter (·.isOf t)).map (·.column)).mergeSort Column.precedes := by
    refine List.Perm.eq_of_pairwise (fun a b ha hb hab hba => ?_) (hsorted _) (hsorted _)
      ((List.mergeSort_perm _ _).trans (((hp.filter _).map _).trans (List.mergeSort_perm _ _).symm))
    obtain ⟨c, hc, hct, rfl⟩ := hmem ha
    obtain ⟨c', hc', hct', rfl⟩ := hmem hb
    have hkey : c.key = c'.key := by
      have hsame := (ColumnRow.isOf_iff.mp hct).trans (ColumnRow.isOf_iff.mp hct').symm
      have hname := Column.name_eq_of_precedes hab hba
      simp_all [ColumnRow.key]
    rw [List.inj_on_of_nodup_map hu hc (hp.mem_iff.mpr hc') hkey]
  rw [table, table, hcolumns]

/-- Each name has one table, wherever it stands. -/
theorem tablesOf_perm {tables tables' : List Table} (hp : tables.Perm tables')
    (hu : (tables.map fun t => (t.keyspace, t.name)).Nodup) (keyspace : String) :
    tablesOf keyspace tables = tablesOf keyspace tables' := by
  refine Std.ExtTreeMap.ext_getElem? fun name => ?_
  rw [getElem?_tablesOf, getElem?_tablesOf, filter_eq_of_perm hp hu]
  intro a b ha hb
  simp_all

namespace Survey

/-- The same rows in another order. -/
structure Reorders (s s' : Survey) : Prop where
  given : s.keyspaces.isSome = s'.keyspaces.isSome
  keyspaces : (s.keyspaces.getD []).Perm (s'.keyspaces.getD [])
  tables : s.tables.Perm s'.tables
  columns : s.columns.Perm s'.columns

variable {s s' : Survey}

theorem Reorders.unique (hr : s.Reorders s') (h : s.Unique) : s'.Unique where
  keyspaces := (hr.keyspaces.map _).nodup_iff.mp h.keyspaces
  tables := (hr.tables.map _).nodup_iff.mp h.tables
  columns := (hr.columns.map _).nodup_iff.mp h.columns

theorem Reorders.tablesOf_eq (hr : s.Reorders s') (h : s.Unique) (keyspace : String) :
    s.tablesOf keyspace = s'.tablesOf keyspace := by
  have htables : (s.tables.map (·.table s.columns)).Perm (s'.tables.map (·.table s'.columns)) := by
    rw [funext fun t : TableRow => t.table_perm hr.columns h.columns]
    exact hr.tables.map _
  rw [Survey.tablesOf, Survey.tablesOf, assembleTables_eq h.tables,
    assembleTables_eq (hr.unique h).tables, tablesOf_perm htables]
  rw [List.map_map]
  exact h.tables

theorem Reorders.view_eq (hr : s.Reorders s') (h : s.Unique) : s.view = s'.view := by
  refine Std.ExtTreeMap.ext_getElem? fun name => ?_
  rw [h.getElem?_view, (hr.unique h).getElem?_view, filter_eq_of_perm hr.keyspaces h.keyspaces
    fun a b ha hb => by simp_all]
  refine congrArg (fun g => Option.map g _) (funext fun k => ?_)
  rw [KeyspaceRow.keyspace, KeyspaceRow.keyspace]
  congr 1
  exact hr.tablesOf_eq h k.name

end Survey

/-- What a survey makes of a view does not depend on the order of its rows. -/
theorem applySurvey_congr {s s' : Survey} (hr : s.Reorders s') (h : s.Unique) (view : SchemaView)
    (keyspace table : Option String) :
    applySurvey view keyspace table s = applySurvey view keyspace table s' := by
  unfold applySurvey
  simp only [hr.view_eq h, hr.tablesOf_eq h, hr.given]

/-! ## The rows of a scope -/

/-- Rows picked by the names of their keyspace and table assemble to the tables picked so. -/
theorem assembleTables_filter {tables : List TableRow} (h : (tables.map TableRow.key).Nodup)
    (p : String → String → Bool) (columns : List ColumnRow) :
    assembleTables (tables.filter fun t => p t.keyspace t.name)
        (columns.filter fun c => p c.keyspace c.table) =
      (assembleTables tables columns).filter fun t => p t.keyspace t.name := by
  have hpicked := h.sublist ((List.filter_sublist (p := fun t => p t.keyspace t.name)).map _)
  rw [assembleTables_eq h, assembleTables_eq hpicked, List.filter_map]
  refine List.map_congr_left fun t ht => TableRow.table_filter (fun c hc => ?_) columns
  have hkey := ColumnRow.isOf_iff.mp hc
  have hp := (List.mem_filter.mp ht).2
  simp_all [TableRow.key]

/-- The rows that the surveys of a scope bring, of the rows of the whole schema. -/
def Survey.within (s : Survey) : Scope → Survey
  | .all => s
  | .keyspace k =>
    ⟨s.keyspaces.map (·.filter (·.name == k)), s.tables.filter (·.keyspace == k),
      s.columns.filter (·.keyspace == k)⟩
  | .table k t =>
    ⟨none, s.tables.filter fun r => r.keyspace == k && r.name == t,
      s.columns.filter fun c => c.keyspace == k && c.table == t⟩

/-- The rows of a whole schema: no key twice, and a keyspace to each table. -/
structure Survey.Whole (s : Survey) (keyspaces : List KeyspaceRow) : Prop where
  given : s.keyspaces = some keyspaces
  unique : s.Unique
  listed : ∀ t ∈ s.tables, ∃ k ∈ keyspaces, k.name = t.keyspace

namespace Survey.Whole

variable {s : Survey} {keyspaces : List KeyspaceRow}

theorem unique_within (h : s.Whole keyspaces) (scope : Scope) : (s.within scope).Unique := by
  have hkeyspaces := h.unique.keyspaces
  rw [h.given, Option.getD_some] at hkeyspaces
  cases scope with
  | all => exact h.unique
  | keyspace k =>
    refine ⟨?_, h.unique.tables.sublist (List.filter_sublist.map _),
      h.unique.columns.sublist (List.filter_sublist.map _)⟩
    rw [within, h.given]
    exact hkeyspaces.sublist (List.filter_sublist.map _)
  | table k t =>
    exact ⟨List.nodup_nil, h.unique.tables.sublist (List.filter_sublist.map _),
      h.unique.columns.sublist (List.filter_sublist.map _)⟩

/-- The rows of one keyspace describe it as all rows do. -/
theorem view_within (h : s.Whole keyspaces) (name : String) :
    (s.within (.keyspace name)).view[name]? = s.view[name]? := by
  rw [(h.unique_within _).getElem?_view, h.unique.getElem?_view, within, h.given, Option.map_some,
    Option.getD_some, Option.getD_some, List.filter_filter,
    assembleTables_filter h.unique.tables fun keyspace _ => keyspace == name]
  simp only [Bool.and_self]
  refine Option.map_congr fun k hk => ?_
  obtain ⟨_, hname⟩ := List.mem_filter.mp (List.mem_of_getLast? hk)
  rw [KeyspaceRow.keyspace, KeyspaceRow.keyspace, tablesOf_filter]
  intro t ht
  rw [ht]
  exact hname

/-- The rows of one table describe it as all rows do. -/
theorem tablesOf_within (h : s.Whole keyspaces) (name table : String) :
    ((s.within (.table name table)).tablesOf name)[table]? =
      s.view[name]?.bind (·.tables[table]?) := by
  rw [Survey.tablesOf, within, getElem?_tablesOf, h.unique.getElem?_view, h.given,
    Option.getD_some]
  cases hk : (keyspaces.filter (·.name == name)).getLast? with
  | none =>
    -- No keyspace is listed, so no table is.
    have hnone : s.tables.filter (fun r => r.keyspace == name && r.name == table) = [] := by
      refine List.filter_eq_nil_iff.mpr fun r hr hnames => ?_
      obtain ⟨k, hmem, hkr⟩ := h.listed r hr
      rw [List.getLast?_eq_none_iff, List.filter_eq_nil_iff] at hk
      exact hk k hmem (by rw [hkr]; exact (Bool.and_eq_true_iff.mp hnames).1)
    rw [hnone]
    rfl
  | some k =>
    obtain ⟨_, hname⟩ := List.mem_filter.mp (List.mem_of_getLast? hk)
    obtain rfl : k.name = name := by simpa using hname
    rw [assembleTables_filter h.unique.tables fun keyspace t => keyspace == k.name && t == table,
      List.filter_filter]
    simp only [Bool.and_self]
    exact (getElem?_tablesOf _ _ _).symm

end Survey.Whole

/-! ## The part of the view that a scope replaces -/

section
variable {s : Survey} {keyspaces : List KeyspaceRow}

theorem applySurvey_keyspace (h : s.Whole keyspaces) (view : SchemaView) (name : String) :
    applySurvey view (some name) none (s.within (.keyspace name)) =
      view.alter name fun _ => s.view[name]? := by
  refine Std.ExtTreeMap.ext_getElem? fun other => ?_
  simp only [applySurvey, h.view_within]
  cases s.view[name]? <;> by_cases hn : name = other <;>
    simp [Std.ExtTreeMap.getElem?_alter, Std.ExtTreeMap.getElem?_insert,
      Std.ExtTreeMap.getElem?_erase, hn]

theorem withTable_eq {k : Keyspace} {name : String} {table : Option Table}
    (h : ∀ t, table = some t → t.name = name) :
    withTable k name table = { k with tables := k.tables.alter name fun _ => table } := by
  have htables : (withTable k name table).tables = k.tables.alter name fun _ => table := by
    refine Std.ExtTreeMap.ext_getElem? fun other => ?_
    cases table with
    | none => simp [withTable, Std.ExtTreeMap.getElem?_alter, Std.ExtTreeMap.getElem?_erase]
    | some t =>
      simp [withTable, h t rfl, Std.ExtTreeMap.getElem?_alter, Std.ExtTreeMap.getElem?_insert]
  rw [← htables]
  rfl

theorem applySurvey_table (h : s.Whole keyspaces) (view : SchemaView) (name table : String) :
    applySurvey view (some name) (some table) (s.within (.table name table)) =
      view.modify name fun k =>
        { k with tables := k.tables.alter table fun _ =>
            s.view[name]?.bind (·.tables[table]?) } := by
  have hnames : ∀ t, ((s.within (.table name table)).tablesOf name)[table]? = some t →
      t.name = table := by
    intro t ht
    rw [Survey.tablesOf, getElem?_tablesOf] at ht
    have hmem := (List.mem_filter.mp (List.mem_of_getLast? ht)).2
    simpa using (Bool.and_eq_true_iff.mp hmem).2
  refine Std.ExtTreeMap.ext_getElem? fun other => ?_
  rw [Std.ExtTreeMap.getElem?_modify, ← h.tablesOf_within]
  cases hk : view[name]? with
  | none =>
    rw [applySurvey_unknown hk]
    by_cases hn : name = other
    · subst hn
      simp [hk]
    · simp [hn]
  | some k =>
    have hrebuilt : applySurvey view (some name) (some table) (s.within (.table name table)) =
        view.insert name (withTable k table
          ((s.within (.table name table)).tablesOf name)[table]?) := by
      simp [applySurvey, hk, Survey.within]
    rw [hrebuilt, withTable_eq hnames, Std.ExtTreeMap.getElem?_insert]
    simp

end

end Schema

end ControlChannel
