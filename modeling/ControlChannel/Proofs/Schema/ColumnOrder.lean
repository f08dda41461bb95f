import ControlChannel.Proofs.Schema.Stored
import Mathlib.Data.List.Pairwise

/-! # The order of columns

Columns should go by index and then by name, those without an index last (`Column.Before`). A
missing index counts as the largest one, so that a column with the largest index is not kept ahead
of columns without one. Main statement: this is the only way in which the columns of a table can
leave the order (`columns_ordered`). -/

namespace ControlChannel

namespace Column

/-- `a` stands before `b` by index and then by name, and columns without an index stand last. -/
def Before (a b : Column) : Prop :=
  match a.index, b.index with
  | some i, some j => i < j ∨ (i = j ∧ a.name ≤ b.name)
  | some _, none => True
  | none, some _ => False
  | none, none => a.name ≤ b.name

/-- `a` has no index, and `b` has the largest one and a name that is no smaller. -/
structure Ties (a b : Column) : Prop where
  missing : a.index = none
  largest : b.index = some Int32.maxValue
  names : a.name ≤ b.name

theorem precedes_iff {a b : Column} :
    a.precedes b = true ↔ a.rank < b.rank ∨ (a.rank = b.rank ∧ a.name ≤ b.name) := by
  simp [precedes]

theorem toInt_le_maxValue (i : Int32) : i.toInt ≤ Int32.maxValue.toInt := by
  have h := i.toInt_lt
  have hmax : Int32.maxValue.toInt = 2 ^ 31 - 1 := by decide
  omega

/-- Sorted columns are in order, or they tie. -/
theorem before_or_ties {a b : Column} (h : a.precedes b = true) : a.Before b ∨ a.Ties b := by
  rw [precedes_iff] at h
  unfold Before
  cases ha : a.index with
  | some i =>
    cases hb : b.index with
    | some j =>
      have hrank : a.rank = i.toInt ∧ b.rank = j.toInt := by simp [rank, ha, hb]
      rw [hrank.1, hrank.2, ← Int32.lt_iff_toInt_lt, Int32.toInt_inj] at h
      exact .inl h
    | none => exact .inl trivial
  | none =>
    cases hb : b.index with
    | some j =>
      have hrank : a.rank = Int32.maxValue.toInt ∧ b.rank = j.toInt := by simp [rank, ha, hb]
      rw [hrank.1, hrank.2] at h
      have hj := toInt_le_maxValue j
      obtain ⟨heq, hname⟩ := h.resolve_left (by omega)
      exact .inr ⟨ha, by rw [hb, Int32.toInt_inj.mp heq], hname⟩
    | none =>
      have hrank : a.rank = b.rank := by simp [rank, ha, hb]
      exact .inl (h.resolve_left (by omega)).2

theorem Ties.precedes {a b : Column} (h : a.Ties b) : a.precedes b = true :=
  precedes_iff.mpr (.inr ⟨by simp [rank, h.missing, h.largest], h.names⟩)

theorem Ties.not_before {a b : Column} (h : a.Ties b) : ¬ a.Before b := by
  simp [Before, h.missing, h.largest]

/-- Sorted columns are not in order if two of different names tie. -/
theorem not_pairwise_before {l : List Column} (h : l.Pairwise fun a b => a.precedes b = true)
    {a b : Column} (ha : a ∈ l) (hb : b ∈ l) (htie : a.Ties b) (hne : a.name ≠ b.name) :
    ¬ l.Pairwise Before := by
  intro hbefore
  let Either (a b : Column) : Prop :=
    (a.precedes b = true ∧ a.Before b) ∨ (b.precedes a = true ∧ b.Before a)
  have hsymm : Std.Symm Either := ⟨fun _ _ => Or.symm⟩
  have heither : l.Pairwise Either := (h.and hbefore).imp .inl
  rcases heither.forall ha hb (fun e => hne (congrArg name e)) with ⟨_, hab⟩ | ⟨hba, _⟩
  · exact htie.not_before hab
  · exact hne (name_eq_of_precedes htie.precedes hba)

end Column

namespace Schema

theorem TableRow.sorted_columns (t : TableRow) (columns : List ColumnRow) :
    (t.table columns).columns.Pairwise fun a b => a.precedes b = true :=
  List.pairwise_mergeSort Column.precedes_trans Column.precedes_total _

end Schema

namespace Rehearsal.StoreStep

/-- The columns of every table, after any steps from an empty view: the one of two that stands
first goes before the other by index and then by name, columns without an index last, unless they
tie: it has no index, and the other has the largest one and a name that is no smaller. The columns
are in this order exactly if none ties with a later one, and those with two names that tie always
stand so. -/
theorem columns_ordered {f : Fabric} (h : f.store.schema = ∅) (steps : List StoreStep)
    {name tableName : String} {k : Keyspace} {t : Table}
    (hk : (run f steps).store.schema[name]? = some k) (ht : k.tables[tableName]? = some t) :
    (t.columns.Pairwise fun a b => a.Before b ∨ a.Ties b) ∧
    (t.columns.Pairwise Column.Before ↔ t.columns.Pairwise fun a b => ¬ a.Ties b) ∧
    ∀ a ∈ t.columns, ∀ b ∈ t.columns, a.Ties b → a.name ≠ b.name →
      ¬ t.columns.Pairwise Column.Before := by
  have hsorted := stores_run (P := fun _ _ t => t.columns.Pairwise fun a b => a.precedes b = true)
    (fun row cs => row.sorted_columns cs) h steps name tableName k t hk ht
  have hties := hsorted.imp Column.before_or_ties
  refine ⟨hties, ⟨fun hbefore => ?_, fun hnone => ?_⟩, fun a ha b hb htie hne =>
    Column.not_pairwise_before hsorted ha hb htie hne⟩
  · exact hbefore.imp fun hlaw htie => htie.not_before hlaw
  · exact (hties.and hnone).imp fun hpair => hpair.1.resolve_right hpair.2

/-- Rows of a table with two columns, of which one has the largest index and the other has none. -/
def largest : SurveyRows where
  keyspaces := some (.ofTexts ["keyspace_name"] [["ks"]])
  columnFamilies := .ofTexts ["keyspace_name", "columnfamily_name"] [["ks", "t"]]
  columns := .ofRagged
    ["keyspace_name", "columnfamily_name", "column_name", "validator", "component_index"]
    [[some (Cell.encodeText "ks"), some (Cell.encodeText "t"), some (Cell.encodeText "b"),
        some (Cell.encodeText "v"), some (Cell.encodeInt Int32.maxValue)],
      [some (Cell.encodeText "ks"), some (Cell.encodeText "t"), some (Cell.encodeText "a"),
        some (Cell.encodeText "v"), none]]

theorem largest_survey : ∃ s, largest.survey? = .ok s ∧
    s.keyspaces = some [⟨"ks", true, none, none⟩] ∧ s.tables = [⟨"ks", "t", none⟩] ∧
    s.columns = [⟨"ks", "t", ⟨"b", "v", some Int32.maxValue⟩⟩, ⟨"ks", "t", ⟨"a", "v", none⟩⟩] := by
  have h : largest.survey?.toOption.map (fun s => (s.keyspaces, s.tables, s.columns)) =
      some (some [⟨"ks", true, none, none⟩], [⟨"ks", "t", none⟩],
        [⟨"ks", "t", ⟨"b", "v", some Int32.maxValue⟩⟩, ⟨"ks", "t", ⟨"a", "v", none⟩⟩]) := by
    decide +kernel
  obtain ⟨s, hs, heq⟩ := Option.map_eq_some_iff.mp h
  obtain ⟨hk, ht, hc⟩ : s.keyspaces = _ ∧ s.tables = _ ∧ s.columns = _ := by simpa using heq
  exact ⟨s, toOption_eq_some.mp hs, hk, ht, hc⟩

theorem largest_stored : ∃ k t,
    (run { balancing := .roundRobin {} } [rebuildWith none none largest]).store.schema["ks"]? =
      some k ∧ k.tables["t"]? = some t ∧ t.columns = List.mergeSort
        [⟨"b", "v", some Int32.maxValue⟩, ⟨"a", "v", none⟩] Column.precedes := by
  obtain ⟨s, hs, hk, ht, hc⟩ := largest_survey
  have hview : (run { balancing := .roundRobin {} } [rebuildWith none none largest]).store.schema =
      s.view := by
    rw [run, perform_readable _ none none hs]
    rfl
  rw [hview, Schema.Survey.view, hk, ht]
  refine ⟨(Schema.KeyspaceRow.mk "ks" true none none).keyspace
      (Schema.assembleTables [⟨"ks", "t", none⟩] s.columns),
    (Schema.TableRow.mk "ks" "t" none).table s.columns, ?_, ?_, ?_⟩
  · simp [Schema.viewOf, Schema.assembleKeyspaces, Schema.KeyspaceRow.keyspace]
  · simp [Schema.KeyspaceRow.keyspace, Schema.tablesOf, Schema.assembleTables,
      Schema.TableRow.table]
  · simp [hc, Schema.TableRow.table, Schema.ColumnRow.isOf]

theorem columns_ordered_largest : ∃ t : Table, t.name = "t" ∧ t.columns.length = 2 ∧
    (t.columns.Pairwise fun a b => a.Before b ∨ a.Ties b) := by
  obtain ⟨k, t, hk, ht, hcolumns⟩ := largest_stored
  have hname := (wellFormed_run rfl [rebuildWith none none largest]).tables "ks" "t" k t hk ht
  exact ⟨t, hname.2, by simp [hcolumns], (columns_ordered rfl _ hk ht).1⟩

theorem columns_not_ordered : ∃ (f : Fabric) (steps : List StoreStep) (k : Keyspace) (t : Table),
    f.store.schema = ∅ ∧ (run f steps).store.schema["ks"]? = some k ∧ k.tables["t"]? = some t ∧
      ¬ t.columns.Pairwise Column.Before := by
  obtain ⟨k, t, hk, ht, hcolumns⟩ := largest_stored
  refine ⟨_, _, k, t, rfl, hk, ht, ?_⟩
  rw [hcolumns]
  refine Column.not_pairwise_before
    (List.pairwise_mergeSort Column.precedes_trans Column.precedes_total _)
    (a := ⟨"a", "v", none⟩) (b := ⟨"b", "v", some Int32.maxValue⟩) (by simp) (by simp)
    ⟨rfl, rfl, by decide⟩ (by decide)

end Rehearsal.StoreStep

end ControlChannel
