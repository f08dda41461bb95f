import ControlChannel.Proofs.Schema.Agreement
import ControlChannel.Proofs.Schema.Stored
import Mathlib.Data.List.Forall2

/-! # What a full rebuild stores

A keyspace, a table or a column shows what its row says (`Shows`), and the contents of a view are
those of three tables if its keyspaces, their tables and the columns of these pair off with the rows
(`Catalogue.Contents`). Main statement: a full rebuild from tables without repeated keys succeeds
exactly if all rows can be read, and then stores the contents of the tables, whatever the order of
the rows (`Catalogue.rebuild_contents`). -/

namespace ControlChannel

/-! ## Values and their rows -/

namespace Row

/-- What a column says in a row: nothing where its cell is null or the column is missing. -/
def Says {α : Type} (row : Row) (column : String) (decode : Bytes → Except CellFault α) :
    Option α → Prop
  | some a => ∃ raw, row.cell column = .ok (some raw) ∧ decode raw = .ok a
  | none => ∀ raw, row.cell column ≠ .ok (some raw)

theorem says_of_required {row : Row} {column s : String} (h : row.required column = .ok s) :
    row.Says column Cell.decodeText (some s) :=
  text_eq_some.mp (required_eq_ok.mp h)

theorem says_of_optional {α : Type} {decode : Bytes → Except CellFault α} {row : Row}
    {column : String} {v : Option α} (h : row.optional decode column = .ok v) :
    row.Says column decode v := by
  unfold optional at h
  split at h
  · rename_i hnull
    cases h
    exact (row.isNull_iff column).mp hnull
  · cases v with
    | some a => exact read_eq_some.mp h
    | none =>
      obtain ⟨cell, hcell, h⟩ := bind_eq_ok.mp h
      cases cell with
      | none => simp [Says, hcell]
      | some raw =>
        obtain ⟨_, _, h⟩ := bind_eq_ok.mp h
        cases h

end Row

namespace Schema

/-- The keyspace has the attributes that the row gives it. -/
structure KeyspaceRow.Shows (row : Row) (k : Keyspace) : Prop where
  name : row.Says "keyspace_name" Cell.decodeText (some k.name)
  durableWrites : ∃ v, row.Says "durable_writes" Cell.decodeBool v ∧ k.durableWrites = v.getD true
  strategyClass : row.Says "strategy_class" Cell.decodeText k.strategyClass
  strategyOptions : row.Says "strategy_options" Cell.decodeText k.strategyOptions

/-- The table has the attributes that the row gives it. -/
structure TableRow.Shows (row : Row) (t : Table) : Prop where
  keyspace : row.Says "keyspace_name" Cell.decodeText (some t.keyspace)
  name : row.Says "columnfamily_name" Cell.decodeText (some t.name)
  comment : row.Says "comment" Cell.decodeText t.comment

/-- The column has the attributes that the row gives it. -/
structure ColumnRow.Shows (row : Row) (c : Column) : Prop where
  name : row.Says "column_name" Cell.decodeText (some c.name)
  validator : row.Says "validator" Cell.decodeText (some c.validator)
  index : row.Says "component_index" Cell.decodeInt c.index

theorem KeyspaceRow.shows_of_ofRow {row : Row} {k : KeyspaceRow}
    (h : KeyspaceRow.ofRow row = .ok k) (tables : List Table) :
    KeyspaceRow.Shows row (k.keyspace tables) := by
  obtain ⟨name, hname, h⟩ := bind_eq_ok.mp h
  obtain ⟨durable, hdurable, h⟩ := bind_eq_ok.mp h
  obtain ⟨cls, hcls, h⟩ := bind_eq_ok.mp h
  obtain ⟨options, hoptions, h⟩ := bind_eq_ok.mp h
  cases h
  exact ⟨Row.says_of_required hname, ⟨durable, Row.says_of_optional hdurable, rfl⟩,
    Row.says_of_optional hcls, Row.says_of_optional hoptions⟩

theorem TableRow.shows_of_ofRow {row : Row} {t : TableRow} (h : TableRow.ofRow row = .ok t)
    (columns : List ColumnRow) : TableRow.Shows row (t.table columns) := by
  obtain ⟨keyspace, hkeyspace, h⟩ := bind_eq_ok.mp h
  obtain ⟨name, hname, h⟩ := bind_eq_ok.mp h
  obtain ⟨comment, hcomment, h⟩ := bind_eq_ok.mp h
  cases h
  exact ⟨Row.says_of_required hkeyspace, Row.says_of_required hname,
    Row.says_of_optional hcomment⟩

theorem ColumnRow.shows_of_ofRow {row : Row} {c : ColumnRow} (h : ColumnRow.ofRow row = .ok c) :
    ColumnRow.Shows row c.column := by
  obtain ⟨_, _, h⟩ := bind_eq_ok.mp h
  obtain ⟨_, _, h⟩ := bind_eq_ok.mp h
  obtain ⟨name, hname, h⟩ := bind_eq_ok.mp h
  obtain ⟨validator, hvalidator, h⟩ := bind_eq_ok.mp h
  obtain ⟨index, hindex, h⟩ := bind_eq_ok.mp h
  cases h
  exact ⟨Row.says_of_required hname, Row.says_of_required hvalidator,
    Row.says_of_optional hindex⟩

end Schema

/-! ## Pairs -/

section
variable {ε α β γ : Type}

/-- Each row shows one of the values, and each of the values is shown once. -/
def PairsOff (Shows : Row → β → Prop) (rows : List Row) (values : List β) : Prop :=
  ∃ order, values.Perm order ∧ List.Forall₂ Shows rows order

theorem forall₂_decoded {f : α → Except ε β} {l : List α} (h : ∀ a ∈ l, ∃ b, f a = .ok b) :
    List.Forall₂ (fun a b => f a = .ok b) l (decoded f l) := by
  induction l with
  | nil => exact .nil
  | cons a l ih =>
    obtain ⟨b, hb⟩ := h a List.mem_cons_self
    have hrest := ih fun x hx => h x (List.mem_cons_of_mem a hx)
    simpa [decoded, hb, Except.toOption] using hrest

theorem pairsOff_decoded {f : Row → Except ε β} {g : β → γ} {Shows : Row → γ → Prop}
    {rows : List Row} {values : List γ} (hrows : ∀ row ∈ rows, ∃ b, f row = .ok b)
    (hshows : ∀ row b, f row = .ok b → Shows row (g b))
    (hvalues : values.Perm ((decoded f rows).map g)) : PairsOff Shows rows values :=
  ⟨_, hvalues, List.forall₂_map_right_iff.mpr ((forall₂_decoded hrows).imp hshows)⟩

/-- What is told of a value by its row is told of some value exactly if it is of some row. -/
theorem PairsOff.exists_iff {Shows : Row → β → Prop} {rows : List Row} {values : List β}
    (h : PairsOff Shows rows values) {p : Row → Prop} {q : β → Prop}
    (hpq : ∀ row v, Shows row v → (p row ↔ q v)) :
    (∃ v ∈ values, q v) ↔ ∃ row ∈ rows, p row := by
  obtain ⟨order, hperm, hpairs⟩ := h
  simp only [hperm.mem_iff]
  clear hperm
  induction hpairs with
  | nil => simp
  | cons hshows _ ih => simp [hpq _ _ hshows, ih]

end

namespace Schema

/-! ## Rows that name different things -/

section
variable {α : Type} {key : α → String} {l : List α}

/-- What is found among elements that are inserted under different names. -/
theorem getElem?_foldl_insert_eq_some (h : (l.map key).Nodup) {name : String} {a : α} :
    (l.foldl (fun m a => m.insert (key a) a) (∅ : Std.ExtTreeMap String α))[name]? = some a ↔
      a ∈ l ∧ key a = name := by
  rw [getElem?_foldl_insert]
  simp only [Std.ExtTreeMap.getElem?_empty, Option.or_none]
  constructor
  · intro hlast
    simpa using List.mem_of_getLast? hlast
  · rintro ⟨ha, rfl⟩
    have hmem : a ∈ l.filter (key · == key a) := by simpa using ha
    obtain ⟨b, hb⟩ := Option.isSome_iff_exists.mp
      (List.getLast?_isSome.mpr (List.ne_nil_of_mem hmem))
    obtain ⟨hbl, hbkey⟩ := List.mem_filter.mp (List.mem_of_getLast? hb)
    rw [hb, List.inj_on_of_nodup_map h hbl ha (by simpa using hbkey)]

/-- Elements that are inserted under different names are all kept. -/
theorem toList_foldl_insert_perm (h : (l.map key).Nodup) :
    ((l.foldl (fun m a => m.insert (key a) a) (∅ : Std.ExtTreeMap String α)).toList.map
      (·.2)).Perm l := by
  have hfound : ∀ {name a}, (name, a) ∈ (l.foldl (fun m a => m.insert (key a) a)
      (∅ : Std.ExtTreeMap String α)).toList ↔ a ∈ l ∧ key a = name :=
    Std.ExtTreeMap.mem_toList_iff_getElem?_eq_some.trans (getElem?_foldl_insert_eq_some h)
  refine (List.perm_ext_iff_of_nodup ?_ h.of_map).mpr fun a => ?_
  · -- One element under two names would have both of them as its key.
    refine List.pairwise_map.mpr (Std.ExtTreeMap.distinct_keys_toList.imp_of_mem
      fun {x y} hx hy hne e => hne ?_)
    rw [← (hfound.mp hx).2, ← (hfound.mp hy).2, e]
    exact Std.ReflCmp.compare_self
  · simp [hfound]

end

/-- The names of a map whose elements stand under their own names. -/
theorem mem_iff_exists_value {α : Type} {m : Std.ExtTreeMap String α} {key : α → String}
    (h : ∀ name a, m[name]? = some a → key a = name) {name : String} :
    name ∈ m ↔ ∃ a ∈ m.toList.map (·.2), key a = name := by
  simp only [List.mem_map, Prod.exists, Std.ExtTreeMap.mem_toList_iff_getElem?_eq_some,
    Std.ExtTreeMap.mem_iff_isSome_getElem?, Option.isSome_iff_exists]
  constructor
  · intro ⟨a, ha⟩
    exact ⟨a, ⟨name, a, ha, rfl⟩, h name a ha⟩
  · rintro ⟨_, ⟨name', a, ha, rfl⟩, rfl⟩
    exact ⟨a, h name' a ha ▸ ha⟩

namespace Survey.Unique

variable {s : Survey}

theorem toList_view_perm (h : s.Unique) : (s.view.toList.map (·.2)).Perm
    ((s.keyspaces.getD []).map (·.keyspace (assembleTables s.tables s.columns))) := by
  rw [Survey.view, assembleKeyspaces_eq h.keyspaces]
  refine toList_foldl_insert_perm ?_
  rw [List.map_map]
  exact h.keyspaces

theorem tables_of_view (h : s.Unique) {name : String} {k : Keyspace}
    (hk : s.view[name]? = some k) : k.tables = s.tablesOf name := by
  obtain ⟨hmem, rfl⟩ := mem_of_getElem?_viewOf hk
  rw [assembleKeyspaces_eq h.keyspaces] at hmem
  obtain ⟨row, _, rfl⟩ := List.mem_map.mp hmem
  rfl

theorem toList_tablesOf_perm (h : s.Unique) (name : String) :
    ((s.tablesOf name).toList.map (·.2)).Perm
      ((s.tables.filter (·.keyspace == name)).map (·.table s.columns)) := by
  have htables : (assembleTables s.tables s.columns).filter (·.keyspace == name) =
      (s.tables.filter (·.keyspace == name)).map (·.table s.columns) := by
    rw [assembleTables_eq h.tables, List.filter_map]
    rfl
  rw [Survey.tablesOf, Schema.tablesOf, htables]
  refine toList_foldl_insert_perm ?_
  rw [List.map_map]
  refine List.pairwise_map.mpr ((List.pairwise_map.mp (h.tables.sublist
    (List.filter_sublist.map _))).imp_of_mem fun {t t'} ht ht' hne e => hne ?_)
  have hk : t.keyspace = name ∧ t'.keyspace = name := by simp_all
  exact Prod.ext (hk.1.trans hk.2.symm) e

theorem columns_of_tablesOf (h : s.Unique) {name tableName : String} {t : Table}
    (ht : (s.tablesOf name)[tableName]? = some t) : t.columns.Perm
      ((s.columns.filter fun c => c.keyspace == name && c.table == tableName).map (·.column)) := by
  obtain ⟨hmem, rfl, rfl⟩ := mem_of_getElem?_tablesOf ht
  rw [assembleTables_eq h.tables] at hmem
  obtain ⟨row, _, rfl⟩ := List.mem_map.mp hmem
  exact List.mergeSort_perm _ _

end Survey.Unique

end Schema

/-! ## Contents -/

namespace Catalogue

open Schema (Scope KeyspaceRow TableRow ColumnRow)

/-- The view has the keyspaces of the tables, each with the tables that name it, and these with the
columns that name them. -/
structure Contents (d : Catalogue) (view : SchemaView) : Prop where
  named : Schema.WellFormed view
  keyspaces : PairsOff KeyspaceRow.Shows d.keyspaces.rows (view.toList.map (·.2))
  tables : ∀ name k, view[name]? = some k → PairsOff TableRow.Shows
    (d.columnFamilies.pick (Scope.keyspace name).covers).rows (k.tables.toList.map (·.2))
  columns : ∀ name tableName k t, view[name]? = some k → k.tables[tableName]? = some t →
    PairsOff ColumnRow.Shows (d.columns.pick (Scope.table name tableName).covers).rows t.columns

theorem contents_view {d : Catalogue} (hd : d.Distinct) (hr : d.rows.Readable) :
    d.Contents d.view where
  named := ⟨Schema.named_view _, Schema.stores_view (fun _ _ => ⟨rfl, rfl⟩) _⟩
  keyspaces := by
    refine pairsOff_decoded (fun row hrow => (KeyspaceRow.readable_iff row).mpr
      (hr.keyspaces _ rfl row hrow)) (fun row k hk => KeyspaceRow.shows_of_ofRow hk _)
      hd.unique.toList_view_perm
  tables name k hk := by
    have hpicked : decoded TableRow.ofRow
          (d.columnFamilies.pick (Scope.keyspace name).covers).rows =
        d.rows.survey.tables.filter (·.keyspace == name) :=
      congrArg Schema.Survey.tables (d.survey_selected (.keyspace name))
    have hreadable := (readable_selected hr (.keyspace name)).columnFamilies
    refine pairsOff_decoded (fun row hrow => (TableRow.readable_iff row).mpr (hreadable row hrow))
      (fun row t ht => TableRow.shows_of_ofRow ht d.rows.survey.columns) ?_
    rw [hpicked, hd.unique.tables_of_view hk]
    exact hd.unique.toList_tablesOf_perm name
  columns name tableName k t hk ht := by
    have hpicked : decoded ColumnRow.ofRow
          (d.columns.pick (Scope.table name tableName).covers).rows =
        d.rows.survey.columns.filter fun c => c.keyspace == name && c.table == tableName :=
      congrArg Schema.Survey.columns (d.survey_selected (.table name tableName))
    have hreadable := (readable_selected hr (.table name tableName)).columns
    refine pairsOff_decoded (fun row hrow => (ColumnRow.readable_iff row).mpr (hreadable row hrow))
      (fun row c hc => ColumnRow.shows_of_ofRow hc) ?_
    rw [hd.unique.tables_of_view hk] at ht
    rw [hpicked]
    exact hd.unique.columns_of_tablesOf ht

namespace Contents

variable {d : Catalogue} {view : SchemaView}

theorem mem_iff (h : d.Contents view) (name : String) : name ∈ view ↔ d.Lists name := by
  rw [Schema.mem_iff_exists_value h.named.keyspaces]
  refine h.keyspaces.exists_iff fun row k hshows => ?_
  rw [Row.text_eq_some.mpr hshows.name]
  simp

theorem mem_tables_iff (h : d.Contents view) {name : String} {k : Keyspace}
    (hk : view[name]? = some k) (tableName : String) : tableName ∈ k.tables ↔
      ∃ row ∈ d.columnFamilies.rows, (Scope.table name tableName).covers row = true := by
  rw [Schema.mem_iff_exists_value fun tableName t ht => (h.named.tables name tableName k t hk ht).2]
  refine ((h.tables name k hk).exists_iff (p := fun row => row.names "columnfamily_name" tableName)
    fun row t hshows => ?_).trans ?_
  · rw [Row.names_eq (Row.text_eq_some.mpr hshows.name)]
    simp
  · simp [ResultSet.rows_pick, Scope.covers, and_assoc]

end Contents

/-- A full rebuild of the store from the rows of the tables. -/
def rebuild (d : Catalogue) (s : Store) : Except RowFault Store :=
  s.rebuildSchema none none (some d.keyspaces) d.columnFamilies d.columns

theorem rebuild_eq_ok {d : Catalogue} {s s' : Store} :
    d.rebuild s = .ok s' ↔ d.rows.Readable ∧ s' = { s with schema := d.view } := by
  have hrebuild : d.rebuild s = s.rebuildSchema none none d.rows.keyspaces d.rows.columnFamilies
      d.rows.columns := rfl
  rw [hrebuild, Store.rebuildSchema_eq_ok]
  constructor
  · intro ⟨survey, hsurvey, hs'⟩
    have hr := d.rows.survey?_iff.mp ⟨survey, hsurvey⟩
    rw [SurveyRows.survey?_eq hr] at hsurvey
    cases hsurvey
    exact ⟨hr, hs'.symm⟩
  · intro ⟨hr, hs'⟩
    exact ⟨_, SurveyRows.survey?_eq hr, hs'.symm⟩

/-- A full rebuild succeeds exactly if every row can be read. If no key is there twice, the view
then has the contents of the tables and the rest of the store is as it was. It lists the keyspaces
with a row, and each of them the tables whose rows name it: tables of no keyspace are dropped, and
columns of no table. The same rows in any other order make the same store. -/
theorem rebuild_contents (s : Store) (d : Catalogue) :
    ((∃ s', d.rebuild s = .ok s') ↔ d.rows.Readable) ∧
    (d.Distinct → ∀ s', d.rebuild s = .ok s' →
      s' = { s with schema := s'.schema } ∧ d.Contents s'.schema ∧
      (∀ name, name ∈ s'.schema ↔ d.Lists name) ∧
      (∀ name k, s'.schema[name]? = some k → ∀ tableName, tableName ∈ k.tables ↔
        ∃ row ∈ d.columnFamilies.rows, (Scope.table name tableName).covers row = true) ∧
      ∀ d' : Catalogue, d.rows.Reorders d'.rows → d'.rebuild s = .ok s') := by
  refine ⟨⟨?_, fun hr => ⟨_, rebuild_eq_ok.mpr ⟨hr, rfl⟩⟩⟩, fun hd s' hs' => ?_⟩
  · intro ⟨s', hs'⟩
    exact (rebuild_eq_ok.mp hs').1
  · obtain ⟨hr, rfl⟩ := rebuild_eq_ok.mp hs'
    have hcontents := contents_view hd hr
    refine ⟨rfl, hcontents, hcontents.mem_iff, fun name k hk => hcontents.mem_tables_iff hk,
      fun d' hreorders => ?_⟩
    have hview : d.view = d'.view := hreorders.survey.view_eq hd.unique
    exact rebuild_eq_ok.mpr ⟨hreorders.readable hr, by rw [hview]⟩

/-- Two keyspaces with a table each, a table of no keyspace and a column of no table, in some order
of rows. -/
def scattered (order : List (List String) → List (List String)) : Catalogue where
  keyspaces := .ofTexts ["keyspace_name"] (order [["a"], ["b"]])
  columnFamilies := .ofTexts ["keyspace_name", "columnfamily_name"]
    (order [["c", "t"], ["a", "t"], ["b", "t"]])
  columns := .ofTexts ["keyspace_name", "columnfamily_name", "column_name", "validator"]
    (order [["a", "t", "x", "v"], ["b", "u", "x", "v"], ["b", "t", "x", "v"], ["a", "t", "w", "v"]])

theorem scattered_reverse : (scattered id).rows.Reorders (scattered List.reverse).rows where
  given := rfl
  keyspaces set set' h h' := by
    cases h
    cases h'
    decide +kernel
  columnFamilies := by decide +kernel
  columns := by decide +kernel

theorem rebuild_contents_scattered : ∃ s', (scattered id).rebuild {} = .ok s' ∧
    (scattered id).Contents s'.schema ∧ "c" ∉ s'.schema ∧
    (scattered List.reverse).rebuild {} = .ok s' := by
  have hreadable : (scattered id).rows.Readable :=
    SurveyRows.readable_of_isSome (by decide +kernel)
  have hdistinct : (scattered id).Distinct :=
    ⟨by decide +kernel, by decide +kernel, by decide +kernel⟩
  obtain ⟨hsucceeds, hcontents⟩ := rebuild_contents {} (scattered id)
  obtain ⟨s', hs'⟩ := hsucceeds.mpr hreadable
  obtain ⟨_, hc, hnames, _, hreorders⟩ := hcontents hdistinct s' hs'
  refine ⟨s', hs', hc, fun hmem => ?_, hreorders _ scattered_reverse⟩
  have hunlisted : ∀ row ∈ (scattered id).keyspaces.rows,
      row.text "keyspace_name" ≠ .ok (some "c") := by decide +kernel
  obtain ⟨row, hrow, hname⟩ := (hnames "c").mp hmem
  exact hunlisted row hrow hname

end Catalogue

end ControlChannel
