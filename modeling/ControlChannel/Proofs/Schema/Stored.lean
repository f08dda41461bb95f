import ControlChannel.Proofs.Schema.Assembly
import ControlChannel.Proofs.Schema.Conversation
import ControlChannel.Rehearsal.StoreStep

/-! # What rebuilds store

A rebuild may be called with any names and bring any rows: rows twice, rows of other keyspaces or
tables, rows that belong to nothing. What it can leave under a name is said once
(`applySurvey_cases`). Main statement: whatever was called, keyspaces and tables stand under their
own names, and a rebuild changes nothing outside its scope (`rebuilds_confined`). -/

namespace ControlChannel

namespace Schema

/-! ## Names -/

/-- Every keyspace stands under its own name. -/
def Named (view : SchemaView) : Prop :=
  ∀ (name : String) (k : Keyspace), view[name]? = some k → k.name = name

/-- `P` holds of every table with the names of the keyspace and of the table that it stands
under. -/
def Stores (P : String → String → Table → Prop) (view : SchemaView) : Prop :=
  ∀ (name tableName : String) (k : Keyspace) (t : Table),
    view[name]? = some k → k.tables[tableName]? = some t → P name tableName t

/-- Keyspaces stand under their own names, and so do tables, each in its own keyspace. -/
structure WellFormed (view : SchemaView) : Prop where
  keyspaces : Named view
  tables : Stores (fun name tableName t => t.keyspace = name ∧ t.name = tableName) view

theorem named_empty : Named ∅ := fun name k h => by simp at h

theorem stores_empty (P : String → String → Table → Prop) : Stores P ∅ :=
  fun name tableName k t h => by simp at h

/-! ## Where tables and keyspaces come from -/

theorem mem_assembleTables {rows : List TableRow} {columns : List ColumnRow} {t : Table}
    (h : t ∈ assembleTables rows columns) : ∃ (row : TableRow) (cs : List ColumnRow),
      t = row.table cs := by
  induction rows generalizing columns with
  | nil => cases h
  | cons row rest ih =>
    rcases List.mem_cons.mp h with rfl | h
    · exact ⟨row, columns, rfl⟩
    · exact ih h

theorem mem_assembleKeyspaces {rows : List KeyspaceRow} {tables : List Table} {k : Keyspace}
    (h : k ∈ assembleKeyspaces rows tables) : ∃ (row : KeyspaceRow) (ts : List Table),
      ts ⊆ tables ∧ k = row.keyspace ts := by
  induction rows generalizing tables with
  | nil => cases h
  | cons row rest ih =>
    rcases List.mem_cons.mp h with rfl | h
    · exact ⟨row, tables, fun _ ht => ht, rfl⟩
    · obtain ⟨r, ts, hts, rfl⟩ := ih h
      exact ⟨r, ts, fun t ht => (List.mem_filter.mp (hts ht)).1, rfl⟩

theorem mem_of_getElem?_tablesOf {keyspace name : String} {tables : List Table} {t : Table}
    (h : (tablesOf keyspace tables)[name]? = some t) :
    t ∈ tables ∧ t.keyspace = keyspace ∧ t.name = name := by
  rw [getElem?_tablesOf] at h
  simpa using List.mem_of_getLast? h

theorem mem_of_getElem?_viewOf {keyspaces : List Keyspace} {name : String} {k : Keyspace}
    (h : (viewOf keyspaces)[name]? = some k) : k ∈ keyspaces ∧ k.name = name := by
  rw [getElem?_viewOf] at h
  simpa using List.mem_of_getLast? h

/-- A table that is found under some names comes from a row of these names. -/
theorem exists_row_of_tablesOf {s : Survey} {keyspace name : String} {t : Table}
    (h : (s.tablesOf keyspace)[name]? = some t) : ∃ (row : TableRow) (cs : List ColumnRow),
      t = row.table cs ∧ row.keyspace = keyspace ∧ row.name = name := by
  obtain ⟨hmem, hkeyspace, hname⟩ := mem_of_getElem?_tablesOf h
  obtain ⟨row, cs, rfl⟩ := mem_assembleTables hmem
  exact ⟨row, cs, rfl, hkeyspace, hname⟩

theorem named_view (s : Survey) : Named s.view := fun _ _ h => (mem_of_getElem?_viewOf h).2

theorem stores_view {P : String → String → Table → Prop}
    (hP : ∀ (row : TableRow) cs, P row.keyspace row.name (row.table cs)) (s : Survey) :
    Stores P s.view := by
  intro name tableName k t hk ht
  obtain ⟨hmem, hname⟩ := mem_of_getElem?_viewOf hk
  obtain ⟨row, ts, hts, rfl⟩ := mem_assembleKeyspaces hmem
  obtain ⟨htable, hkeyspace, rfl⟩ := mem_of_getElem?_tablesOf ht
  obtain ⟨tableRow, cs, rfl⟩ := mem_assembleTables (hts htable)
  obtain rfl : tableRow.keyspace = name := hkeyspace.trans hname
  exact hP tableRow cs

/-! ## One rebuild -/

/-- A keyspace after a rebuild is one of before, one that the rows describe, or one of before with
a table of the rows put in or a table taken out. -/
theorem applySurvey_cases {view : SchemaView} {keyspace table : Option String} {s : Survey}
    {name : String} {k : Keyspace} (h : (applySurvey view keyspace table s)[name]? = some k) :
    view[name]? = some k ∨ s.view[name]? = some k ∨
      ∃ (old : Keyspace) (tableName : String) (found : Option Table),
        view[name]? = some old ∧ k = withTable old tableName found ∧
          ∀ t, found = some t → (s.tablesOf name)[tableName]? = some t := by
  cases keyspace with
  | none => exact .inr (.inl h)
  | some scope =>
    by_cases hne : scope = name
    · subst hne
      cases table with
      | none =>
        cases hk : s.view[scope]? with
        | none => simp [applySurvey, hk] at h
        | some k' => simp_all [applySurvey]
      | some tableName =>
        cases hold : view[scope]? with
        | none => rw [applySurvey_unknown hold, hold] at h; cases h
        | some old =>
          simp only [applySurvey, hold, Std.ExtTreeMap.getElem?_insert_self,
            Option.some.injEq] at h
          refine .inr (.inr ⟨old, tableName, _, rfl, h.symm, fun t ht => ?_⟩)
          split at ht
          · cases ht
          · exact ht
    · rw [applySurvey_other hne] at h
      exact .inl h

theorem withTable_cases {k : Keyspace} {tableName name : String} {found : Option Table} {t : Table}
    (h : (withTable k tableName found).tables[name]? = some t) :
    k.tables[name]? = some t ∨ (found = some t ∧ t.name = name) := by
  cases found with
  | none =>
    simp only [withTable, Std.ExtTreeMap.getElem?_erase] at h
    split at h
    · cases h
    · exact .inl h
  | some new =>
    simp only [withTable, Std.ExtTreeMap.getElem?_insert] at h
    split at h
    · rename_i hname
      cases h
      exact .inr ⟨rfl, by simpa using hname⟩
    · exact .inl h

theorem named_applySurvey {view : SchemaView} (h : Named view) (keyspace table : Option String)
    (s : Survey) : Named (applySurvey view keyspace table s) := by
  intro name k hk
  rcases applySurvey_cases hk with hk | hk | ⟨old, tableName, found, hold, rfl, _⟩
  · exact h name k hk
  · exact named_view s name k hk
  · exact h name old hold

/-- What holds of every table that rows can describe holds of every table of the view. -/
theorem stores_applySurvey {P : String → String → Table → Prop}
    (hP : ∀ (row : TableRow) cs, P row.keyspace row.name (row.table cs)) {view : SchemaView}
    (h : Stores P view) (keyspace table : Option String) (s : Survey) :
    Stores P (applySurvey view keyspace table s) := by
  intro name tableName k t hk ht
  rcases applySurvey_cases hk with hk | hk | ⟨old, scope, found, hold, rfl, hfound⟩
  · exact h name tableName k t hk ht
  · exact stores_view hP s name tableName k t hk ht
  · rcases withTable_cases ht with ht | ⟨rfl, hname⟩
    · exact h name tableName old t hold ht
    · obtain ⟨row, cs, rfl, rfl, rfl⟩ := exists_row_of_tablesOf (hfound t rfl)
      exact hname ▸ hP row cs

/-! ## What a rebuild leaves alone -/

/-- Nothing has changed outside the scope of the names. -/
structure Confined (keyspace table : Option String) (before after : SchemaView) : Prop where
  others : ∀ name, keyspace = some name → ∀ other, other ≠ name → after[other]? = before[other]?
  /-- A keyspace is not made for one of its tables. -/
  absent : ∀ name tableName, keyspace = some name → table = some tableName →
    before[name]? = none → after[name]? = none
  /-- Around a table its keyspace stays, with all but its tables, and so do the other tables. -/
  around : ∀ name tableName k, keyspace = some name → table = some tableName →
    before[name]? = some k → ∃ k', after[name]? = some k' ∧ k' = { k with tables := k'.tables } ∧
      ∀ other, other ≠ tableName → k'.tables[other]? = k.tables[other]?

theorem Confined.refl (keyspace table : Option String) (view : SchemaView) :
    Confined keyspace table view view where
  others _ _ _ _ := rfl
  absent _ _ _ _ h := h
  around _ _ k _ _ h := ⟨k, h, rfl, fun _ _ => rfl⟩

theorem getElem?_withTable_of_ne {k : Keyspace} {tableName other : String} {found : Option Table}
    (hfound : ∀ t, found = some t → t.name = tableName) (h : other ≠ tableName) :
    (withTable k tableName found).tables[other]? = k.tables[other]? := by
  rw [withTable_eq hfound]
  simp [Std.ExtTreeMap.getElem?_alter, Ne.symm h]

theorem confined_applySurvey (view : SchemaView) (keyspace table : Option String) (s : Survey) :
    Confined keyspace table view (applySurvey view keyspace table s) where
  others name hk other hne := hk ▸ applySurvey_other (Ne.symm hne)
  absent name tableName hk ht hnone := by
    rw [hk, ht, applySurvey_unknown hnone]
    exact hnone
  around name tableName k hk ht hsome := by
    subst hk ht
    have hrebuilt : applySurvey view (some name) (some tableName) s = view.insert name
        (withTable k tableName
          (if s.keyspaces.isSome then none else (s.tablesOf name)[tableName]?)) := by
      simp [applySurvey, hsome]
    refine ⟨_, by rw [hrebuilt, Std.ExtTreeMap.getElem?_insert_self], rfl, fun other hne =>
      getElem?_withTable_of_ne (fun t hfound => ?_) hne⟩
    split at hfound
    · cases hfound
    · exact (mem_of_getElem?_tablesOf hfound).2.2

end Schema

/-! ## Any number of rebuilds -/

theorem Store.schema_addHost (s : Store) (a : Address) :
    (s.addHost a).store.schema = s.schema := by
  unfold addHost
  split <;> rfl

theorem Store.schema_removeHost (s : Store) (a : Address) :
    (s.removeHost a).store.schema = s.schema := by
  unfold removeHost
  split <;> rfl

namespace Rehearsal.StoreStep

open Schema (Confined WellFormed)

/-- The fabric after steps on its store. -/
def run (f : Fabric) : List StoreStep → Fabric
  | [] => f
  | step :: rest => run (step.perform f).1 rest

/-- The rebuild that brings these rows. -/
def rebuildWith (keyspace table : Option String) (rows : SurveyRows) : StoreStep :=
  .rebuild keyspace table rows.keyspaces rows.columnFamilies rows.columns

theorem perform_readable (f : Fabric) (keyspace table : Option String) {rows : SurveyRows}
    {s : Schema.Survey} (h : rows.survey? = .ok s) :
    (rebuildWith keyspace table rows).perform f =
      ({ f with store := { f.store with
          schema := Schema.applySurvey f.store.schema keyspace table s } }, .rebuilt (.ok ())) := by
  have hstore : f.store.rebuildSchema keyspace table rows.keyspaces rows.columnFamilies
      rows.columns = .ok _ := Store.rebuildSchema_eq_ok.mpr ⟨s, h, rfl⟩
  simp only [rebuildWith, perform, hstore]

theorem perform_unreadable (f : Fabric) (keyspace table : Option String) {rows : SurveyRows}
    {fault : RowFault} (h : rows.survey? = .error fault) :
    (rebuildWith keyspace table rows).perform f = (f, .rebuilt (.error fault.error)) := by
  have hstore : f.store.rebuildSchema keyspace table rows.keyspaces rows.columnFamilies
      rows.columns = .error fault := Store.rebuildSchema_eq_error.mpr h
  simp only [rebuildWith, perform, hstore]

/-- A step leaves the view alone, or it applies a survey. -/
theorem schema_perform (f : Fabric) (step : StoreStep) :
    (step.perform f).1.store.schema = f.store.schema ∨ ∃ keyspace table s,
      (step.perform f).1.store.schema =
        Schema.applySurvey f.store.schema keyspace table s := by
  cases step with
  | addHost a =>
    refine .inl ?_
    simp only [perform, Fabric.store_addHost, Store.schema_addHost]
  | removeHost a =>
    refine .inl ?_
    simp only [perform, Fabric.store_removeHost, Store.schema_removeHost]
  | rebuild keyspace table keyspaces columnFamilies columns =>
    cases hs : SurveyRows.survey? ⟨keyspaces, columnFamilies, columns⟩ with
    | error fault =>
      exact .inl (congrArg (·.1.store.schema) (perform_unreadable f keyspace table hs))
    | ok s =>
      exact .inr ⟨keyspace, table, s,
        congrArg (·.1.store.schema) (perform_readable f keyspace table hs)⟩
  | hosts | host _ | mark _ _ | keyspaces | keyspace _ | column _ _ _ | listen _ _ | unlisten _ =>
    exact .inl rfl

/-- What surveys keep holds after any steps. -/
theorem schema_run {Q : SchemaView → Prop}
    (hQ : ∀ view keyspace table s, Q view → Q (Schema.applySurvey view keyspace table s))
    {f : Fabric} (h : Q f.store.schema) (steps : List StoreStep) :
    Q (run f steps).store.schema := by
  induction steps generalizing f with
  | nil => exact h
  | cons step rest ih =>
    refine ih ?_
    rcases schema_perform f step with hsame | ⟨keyspace, table, s, happlied⟩
    · exact hsame ▸ h
    · exact happlied ▸ hQ _ keyspace table s h

theorem named_run {f : Fabric} (h : f.store.schema = ∅) (steps : List StoreStep) :
    Schema.Named (run f steps).store.schema :=
  schema_run (Q := Schema.Named) (fun _ keyspace table s hv =>
    Schema.named_applySurvey hv keyspace table s) (by rw [h]; exact Schema.named_empty) steps

/-- What holds of every table that rows can describe holds of every table after any steps. -/
theorem stores_run {P : String → String → Table → Prop}
    (hP : ∀ (row : Schema.TableRow) cs, P row.keyspace row.name (row.table cs)) {f : Fabric}
    (h : f.store.schema = ∅) (steps : List StoreStep) :
    Schema.Stores P (run f steps).store.schema :=
  schema_run (Q := Schema.Stores P)
    (fun _ keyspace table s hv => Schema.stores_applySurvey hP hv keyspace table s)
    (by rw [h]; exact Schema.stores_empty P) steps

theorem wellFormed_run {f : Fabric} (h : f.store.schema = ∅) (steps : List StoreStep) :
    WellFormed (run f steps).store.schema :=
  ⟨named_run h steps, stores_run (fun _ _ => ⟨rfl, rfl⟩) h steps⟩

/-- Rebuilds keep to their scope, whatever rows they bring. After any steps from an empty view,
each keyspace stands under its own name and each table under its own name in its keyspace. A
further rebuild changes nothing outside its scope. It succeeds if all its rows can be read; else it
fails and nothing at all has changed. -/
theorem rebuilds_confined {f : Fabric} (h : f.store.schema = ∅) (steps : List StoreStep) :
    WellFormed (run f steps).store.schema ∧
    ∀ (keyspace table : Option String) (rows : SurveyRows) (g : Fabric) (result : StoreResult),
      (rebuildWith keyspace table rows).perform (run f steps) = (g, result) →
        Confined keyspace table (run f steps).store.schema g.store.schema ∧
        ((rows.Readable ∧ result = .rebuilt (.ok ())) ∨
          (¬ rows.Readable ∧ (∃ e, result = .rebuilt (.error e)) ∧ g = run f steps)) := by
  refine ⟨wellFormed_run h steps, fun keyspace table rows g result hstep => ?_⟩
  cases hs : rows.survey? with
  | ok s =>
    rw [perform_readable _ keyspace table hs] at hstep
    cases hstep
    exact ⟨Schema.confined_applySurvey _ keyspace table s,
      .inl ⟨rows.survey?_iff.mp ⟨s, hs⟩, rfl⟩⟩
  | error fault =>
    rw [perform_unreadable _ keyspace table hs] at hstep
    cases hstep
    refine ⟨Confined.refl keyspace table _, .inr ⟨fun hr => ?_, ⟨_, rfl⟩, rfl⟩⟩
    rw [SurveyRows.survey?_eq hr] at hs
    cases hs

/-- Two keyspaces with one table each. -/
def listed : SurveyRows where
  keyspaces := some (.ofTexts ["keyspace_name"] [["a"], ["b"]])
  columnFamilies := .ofTexts ["keyspace_name", "columnfamily_name"] [["a", "t"], ["b", "u"]]
  columns := .ofTexts [] []

/-- Rows of other keyspaces and of other tables, one row twice, and a column of no table. -/
def foreign : SurveyRows where
  keyspaces := none
  columnFamilies := .ofTexts ["keyspace_name", "columnfamily_name"]
    [["b", "u"], ["b", "v"], ["a", "t"], ["a", "t"], ["c", "t"]]
  columns := .ofTexts ["keyspace_name", "columnfamily_name", "column_name", "validator"]
    [["b", "w", "x", "y"]]

theorem rebuilds_confined_foreign : ∃ f g : Fabric,
    f.store.schema["b"]?.isSome = true ∧
    (rebuildWith (some "a") (some "t") foreign).perform f = (g, .rebuilt (.ok ())) ∧
    g.store.schema["b"]? = f.store.schema["b"]? ∧ g.store.schema["c"]? = f.store.schema["c"]? := by
  have hreadable : foreign.Readable := SurveyRows.readable_of_isSome (by decide +kernel)
  let steps := [rebuildWith none none listed]
  obtain ⟨_, hconfined⟩ := rebuilds_confined (f := { balancing := .roundRobin {} }) rfl steps
  obtain ⟨hc, ⟨_, hok⟩ | ⟨hunreadable, _⟩⟩ := hconfined (some "a") (some "t") foreign _ _ rfl
  · refine ⟨_, _, ?_, Prod.ext rfl hok, hc.others "a" rfl "b" (by decide),
      hc.others "a" rfl "c" (by decide)⟩
    decide +kernel
  · exact absurd hreadable hunreadable

end Rehearsal.StoreStep

end ControlChannel
