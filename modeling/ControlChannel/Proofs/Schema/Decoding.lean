import ControlChannel.Refresh.Schema

/-! # Rows that can be read

Which rows of the schema tables decode: a required text is there, is not null and is UTF-8; a text
that may be missing is UTF-8 where it is given, and a truth value or a number then has its size.
Main statements: surveys decode exactly when each of their rows is readable
(`SurveyRows.survey?_iff`), and then row by row (`SurveyRows.survey?_eq`). -/

namespace ControlChannel

/-! ## Computations that may fail -/

section
variable {ε α β : Type}

theorem bind_eq_ok {x : Except ε α} {f : α → Except ε β} {b : β} :
    x >>= f = .ok b ↔ ∃ a, x = .ok a ∧ f a = .ok b := by
  cases x with
  | error e => exact ⟨fun h => (by cases h), fun ⟨_, h, _⟩ => by cases h⟩
  | ok a => exact ⟨fun h => ⟨a, rfl, h⟩, fun ⟨_, h, hf⟩ => by cases h; exact hf⟩

theorem bind_eq_error {x : Except ε α} {f : α → Except ε β} {e : ε} :
    x >>= f = .error e ↔ x = .error e ∨ ∃ a, x = .ok a ∧ f a = .error e := by
  cases x with
  | error e' =>
    refine ⟨fun h => .inl ?_, ?_⟩
    · cases h
      rfl
    · rintro (h | ⟨_, h, _⟩)
      · cases h
        rfl
      · cases h
  | ok a =>
    refine ⟨fun h => .inr ⟨a, rfl, h⟩, ?_⟩
    rintro (h | ⟨_, h, hf⟩)
    · cases h
    · cases h
      exact hf

theorem mapError_eq_ok {ε' : Type} {f : ε → ε'} {x : Except ε α} {a : α} :
    x.mapError f = .ok a ↔ x = .ok a := by
  cases x with
  | error e => exact ⟨fun h => (by cases h), fun h => by cases h⟩
  | ok b => exact ⟨fun h => (by cases h; rfl), fun h => by cases h; rfl⟩

theorem mapError_eq_error {ε' : Type} {f : ε → ε'} {x : Except ε α} {e' : ε'} :
    x.mapError f = .error e' ↔ ∃ e, x = .error e ∧ e' = f e := by
  cases x with
  | error e =>
    refine ⟨fun h => ⟨e, rfl, ?_⟩, ?_⟩
    · cases h
      rfl
    · rintro ⟨_, h, rfl⟩
      cases h
      rfl
  | ok a =>
    refine ⟨fun h => (by cases h), ?_⟩
    rintro ⟨_, h, _⟩
    cases h

/-- A computation succeeds if its first part does and the rest does, whatever it goes on with. -/
theorem succeeds_bind {x : Except ε α} {f : α → Except ε β} {p q : Prop}
    (hx : (∃ a, x = .ok a) ↔ p) (hf : ∀ a, (∃ b, f a = .ok b) ↔ q) :
    (∃ b, x >>= f = .ok b) ↔ p ∧ q := by
  rw [← hx]
  constructor
  · rintro ⟨b, hb⟩
    obtain ⟨a, ha, hb⟩ := bind_eq_ok.mp hb
    exact ⟨⟨a, ha⟩, (hf a).mp ⟨b, hb⟩⟩
  · rintro ⟨⟨a, ha⟩, hq⟩
    obtain ⟨b, hb⟩ := (hf a).mpr hq
    exact ⟨b, bind_eq_ok.mpr ⟨a, ha, hb⟩⟩

theorem succeeds_pure (b : β) : (∃ b', (pure b : Except ε β) = .ok b') ↔ True :=
  ⟨fun _ => trivial, fun _ => ⟨b, rfl⟩⟩

theorem succeeds_map {x : Except ε α} {p : Prop} (f : α → β) (hx : (∃ a, x = .ok a) ↔ p) :
    (∃ b, f <$> x = .ok b) ↔ p := by
  rw [← hx]
  cases x <;> simp [Functor.map, Except.map]

/-- What the elements that decode come to. -/
def decoded (f : α → Except ε β) (l : List α) : List β := l.filterMap fun a => (f a).toOption

theorem toOption_eq_some {x : Except ε α} {a : α} : x.toOption = some a ↔ x = .ok a := by
  cases x <;> simp [Except.toOption]

theorem mem_decoded {f : α → Except ε β} {l : List α} {b : β} :
    b ∈ decoded f l ↔ ∃ a ∈ l, f a = .ok b :=
  List.mem_filterMap.trans (exists_congr fun _ => and_congr_right fun _ => toOption_eq_some)

/-- Elements that all decode are decoded in their order. -/
theorem mapM_eq_decoded {f : α → Except ε β} {l : List α} (h : ∀ a ∈ l, ∃ b, f a = .ok b) :
    l.mapM f = .ok (decoded f l) := by
  induction l with
  | nil => rfl
  | cons a l ih =>
    obtain ⟨b, hb⟩ := h a List.mem_cons_self
    rw [List.mapM_cons, hb, ih fun x hx => h x (List.mem_cons_of_mem a hx)]
    simp [decoded, hb, Except.toOption, bind, Except.bind, pure, Except.pure]

/-- The first element that does not decode decides the error. -/
theorem mapM_eq_error {f : α → Except ε β} {before after : List α} {a : α} {e : ε}
    (h : ∀ x ∈ before, ∃ b, f x = .ok b) (ha : f a = .error e) :
    (before ++ a :: after).mapM f = .error e := by
  induction before with
  | nil =>
    rw [List.nil_append, List.mapM_cons, ha]
    rfl
  | cons x before ih =>
    obtain ⟨b, hb⟩ := h x List.mem_cons_self
    rw [List.cons_append, List.mapM_cons, hb, ih fun y hy => h y (List.mem_cons_of_mem x hy)]
    rfl

theorem succeeds_mapM {f : α → Except ε β} {p : α → Prop}
    (hf : ∀ a, (∃ b, f a = .ok b) ↔ p a) {l : List α} :
    (∃ out, l.mapM f = .ok out) ↔ ∀ a ∈ l, p a := by
  refine ⟨?_, fun h => ⟨_, mapM_eq_decoded fun a ha => (hf a).mpr (h a ha)⟩⟩
  rintro ⟨out, h⟩
  induction l generalizing out with
  | nil => exact fun a ha => by cases ha
  | cons a l ih =>
    rw [List.mapM_cons] at h
    obtain ⟨b, hb, h⟩ := bind_eq_ok.mp h
    obtain ⟨rest, hrest, _⟩ := bind_eq_ok.mp h
    exact List.forall_mem_cons.mpr ⟨(hf a).mp ⟨b, hb⟩, ih rest hrest⟩

end

/-! ## Cells -/

theorem Cell.decodeBool_iff (raw : Bytes) : (∃ b, decodeBool raw = .ok b) ↔ raw.length = 1 := by
  match raw with
  | [] | _ :: _ :: _ => simp [decodeBool]
  | [_] => simp [decodeBool]

theorem Cell.decodeInt_iff (raw : Bytes) : (∃ n, decodeInt raw = .ok n) ↔ raw.length = 4 := by
  match raw with
  | [] | [_] | [_, _] | [_, _, _] | _ :: _ :: _ :: _ :: _ :: _ => simp [decodeInt]
  | [_, _, _, _] => simp [decodeInt]

/-- Bytes in UTF-8. -/
def Cell.IsText (raw : Bytes) : Prop := ∃ s, decodeText raw = .ok s

namespace Row

/-- A text that is there: neither missing nor null, and in UTF-8. -/
def HasText (row : Row) (column : String) : Prop :=
  ∃ raw, row.cell column = .ok (some raw) ∧ Cell.IsText raw

/-- The value of the column has the form, if there is one. -/
def Admits (row : Row) (column : String) (form : Bytes → Prop) : Prop :=
  ∀ raw, row.cell column = .ok (some raw) → form raw

theorem read_eq_some {α : Type} {decode : Bytes → Except CellFault α} {row : Row}
    {column : String} {a : α} : row.read decode column = .ok (some a) ↔
      ∃ raw, row.cell column = .ok (some raw) ∧ decode raw = .ok a := by
  refine bind_eq_ok.trans ⟨?_, ?_⟩
  · rintro ⟨cell, hcell, h⟩
    cases cell with
    | none => cases h
    | some raw =>
      obtain ⟨a', ha, h⟩ := bind_eq_ok.mp h
      cases h
      exact ⟨raw, hcell, mapError_eq_ok.mp ha⟩
  · rintro ⟨raw, hcell, hraw⟩
    exact ⟨some raw, hcell, bind_eq_ok.mpr ⟨a, mapError_eq_ok.mpr hraw, rfl⟩⟩

theorem text_eq_some {row : Row} {column s : String} : row.text column = .ok (some s) ↔
    ∃ raw, row.cell column = .ok (some raw) ∧ Cell.decodeText raw = .ok s :=
  read_eq_some

theorem required_eq_ok {row : Row} {column s : String} :
    row.required column = .ok s ↔ row.text column = .ok (some s) := by
  unfold required
  cases row.text column with
  | error fault => simp [bind, Except.bind]
  | ok v =>
    cases v <;>
      simp [bind, Except.bind, pure, Except.pure, throw, throwThe, MonadExceptOf.throw]

theorem required_iff {row : Row} {column : String} :
    (∃ s, row.required column = .ok s) ↔ row.HasText column := by
  simp only [required_eq_ok, text_eq_some, HasText, Cell.IsText, ← exists_and_left]
  exact exists_comm

theorem optional_iff {α : Type} {decode : Bytes → Except CellFault α} {form : Bytes → Prop}
    (h : ∀ raw, (∃ a, decode raw = .ok a) ↔ form raw) {row : Row} {column : String} :
    (∃ v, row.optional decode column = .ok v) ↔ row.Admits column form := by
  unfold optional Admits
  split
  · rename_i hnull
    exact ⟨fun _ raw hraw => absurd hraw ((row.isNull_iff column).mp hnull raw), fun _ => ⟨_, rfl⟩⟩
  · rename_i hnull
    obtain ⟨raw, hraw⟩ : ∃ raw, row.cell column = .ok (some raw) := by
      simpa [row.isNull_iff] using hnull
    have hread : row.read decode column = some <$> (decode raw).mapError .cell := by
      rw [read, hraw]
      rfl
    rw [hread, succeeds_map some (exists_congr fun _ => mapError_eq_ok), h raw]
    refine ⟨fun hform raw' hraw' => ?_, fun hform => hform raw hraw⟩
    rw [hraw] at hraw'
    cases hraw'
    exact hform

theorem optional_text_iff {row : Row} {column : String} :
    (∃ v, row.optional Cell.decodeText column = .ok v) ↔ row.Admits column Cell.IsText :=
  optional_iff fun _ => .rfl

end Row

/-! ## Rows of the schema tables -/

namespace Schema

/-- A row of the keyspace table that decodes. -/
structure KeyspaceRow.Readable (row : Row) : Prop where
  name : row.HasText "keyspace_name"
  durableWrites : row.Admits "durable_writes" (·.length = 1)
  strategyClass : row.Admits "strategy_class" Cell.IsText
  strategyOptions : row.Admits "strategy_options" Cell.IsText

/-- A row of the column-family table that decodes. -/
structure TableRow.Readable (row : Row) : Prop where
  keyspace : row.HasText "keyspace_name"
  name : row.HasText "columnfamily_name"
  comment : row.Admits "comment" Cell.IsText

/-- A row of the column table that decodes. -/
structure ColumnRow.Readable (row : Row) : Prop where
  keyspace : row.HasText "keyspace_name"
  table : row.HasText "columnfamily_name"
  name : row.HasText "column_name"
  validator : row.HasText "validator"
  index : row.Admits "component_index" (·.length = 4)

theorem KeyspaceRow.readable_iff (row : Row) :
    (∃ k, KeyspaceRow.ofRow row = .ok k) ↔ KeyspaceRow.Readable row :=
  (succeeds_bind Row.required_iff fun _ => succeeds_bind (Row.optional_iff Cell.decodeBool_iff)
    fun _ => succeeds_bind Row.optional_text_iff fun _ => succeeds_bind Row.optional_text_iff
    fun _ => succeeds_pure _).trans
  ⟨fun ⟨name, durable, cls, options, _⟩ => ⟨name, durable, cls, options⟩,
    fun ⟨name, durable, cls, options⟩ => ⟨name, durable, cls, options, trivial⟩⟩

theorem TableRow.readable_iff (row : Row) :
    (∃ t, TableRow.ofRow row = .ok t) ↔ TableRow.Readable row :=
  (succeeds_bind Row.required_iff fun _ => succeeds_bind Row.required_iff
    fun _ => succeeds_bind Row.optional_text_iff fun _ => succeeds_pure _).trans
  ⟨fun ⟨keyspace, name, comment, _⟩ => ⟨keyspace, name, comment⟩,
    fun ⟨keyspace, name, comment⟩ => ⟨keyspace, name, comment, trivial⟩⟩

theorem ColumnRow.readable_iff (row : Row) :
    (∃ c, ColumnRow.ofRow row = .ok c) ↔ ColumnRow.Readable row :=
  (succeeds_bind Row.required_iff fun _ => succeeds_bind Row.required_iff
    fun _ => succeeds_bind Row.required_iff fun _ => succeeds_bind Row.required_iff
    fun _ => succeeds_bind (Row.optional_iff Cell.decodeInt_iff) fun _ => succeeds_pure _).trans
  ⟨fun ⟨keyspace, table, name, validator, index, _⟩ => ⟨keyspace, table, name, validator, index⟩,
    fun ⟨keyspace, table, name, validator, index⟩ =>
      ⟨keyspace, table, name, validator, index, trivial⟩⟩

end Schema

/-! ## Surveys -/

namespace SurveyRows

/-- Rows that all decode. -/
structure Readable (r : SurveyRows) : Prop where
  keyspaces : ∀ set, r.keyspaces = some set → ∀ row ∈ set.rows, Schema.KeyspaceRow.Readable row
  columnFamilies : ∀ row ∈ r.columnFamilies.rows, Schema.TableRow.Readable row
  columns : ∀ row ∈ r.columns.rows, Schema.ColumnRow.Readable row

/-- What the rows say, if they can be read. -/
def survey? (r : SurveyRows) : Except RowFault Schema.Survey :=
  Schema.Survey.ofResults r.keyspaces r.columnFamilies r.columns

/-- What the readable rows say. -/
def survey (r : SurveyRows) : Schema.Survey where
  keyspaces := r.keyspaces.map fun set => decoded Schema.KeyspaceRow.ofRow set.rows
  tables := decoded Schema.TableRow.ofRow r.columnFamilies.rows
  columns := decoded Schema.ColumnRow.ofRow r.columns.rows

theorem survey?_eq {r : SurveyRows} (h : r.Readable) : r.survey? = .ok r.survey := by
  obtain ⟨keyspaces, tables, columns⟩ := r
  have hc := mapM_eq_decoded fun row hrow =>
    (Schema.ColumnRow.readable_iff row).mpr (h.columns row hrow)
  have ht := mapM_eq_decoded fun row hrow =>
    (Schema.TableRow.readable_iff row).mpr (h.columnFamilies row hrow)
  cases keyspaces with
  | none => exact bind_eq_ok.mpr ⟨_, hc, bind_eq_ok.mpr ⟨_, ht, rfl⟩⟩
  | some set =>
    have hk := mapM_eq_decoded fun row hrow =>
      (Schema.KeyspaceRow.readable_iff row).mpr (h.keyspaces set rfl row hrow)
    refine bind_eq_ok.mpr ⟨_, hc, bind_eq_ok.mpr ⟨_, ht, ?_⟩⟩
    simp [hk, survey, Functor.map, Except.map, bind, Except.bind, pure, Except.pure]

/-- Surveys decode exactly when each of their rows does. -/
theorem survey?_iff (r : SurveyRows) : (∃ s, r.survey? = .ok s) ↔ r.Readable := by
  obtain ⟨keyspaces, tables, columns⟩ := r
  cases keyspaces with
  | none =>
    exact (succeeds_bind (succeeds_mapM Schema.ColumnRow.readable_iff) fun _ =>
      succeeds_bind (succeeds_mapM Schema.TableRow.readable_iff) fun _ => succeeds_pure _).trans
      ⟨fun ⟨hc, ht, _⟩ => ⟨fun _ h => (by cases h), ht, hc⟩, fun ⟨_, ht, hc⟩ => ⟨hc, ht, trivial⟩⟩
  | some set =>
    exact (succeeds_bind (succeeds_mapM Schema.ColumnRow.readable_iff) fun _ =>
      succeeds_bind (succeeds_mapM Schema.TableRow.readable_iff) fun _ =>
      succeeds_bind (succeeds_map some (succeeds_mapM Schema.KeyspaceRow.readable_iff)) fun _ =>
      succeeds_pure _).trans
      ⟨fun ⟨hc, ht, hk, _⟩ => ⟨fun _ h => (by cases h; exact hk), ht, hc⟩,
        fun ⟨hk, ht, hc⟩ => ⟨hc, ht, hk set rfl, trivial⟩⟩

theorem readable_of_isSome {r : SurveyRows} (h : r.survey?.toOption.isSome = true) :
    r.Readable := by
  obtain ⟨s, hs⟩ := Option.isSome_iff_exists.mp h
  exact r.survey?_iff.mp ⟨s, toOption_eq_some.mp hs⟩

end SurveyRows

/-- A result set of texts. -/
def ResultSet.ofTexts (columns : List String) (rows : List (List String)) : ResultSet :=
  .ofRagged columns (rows.map fun row => row.map fun text => some (Cell.encodeText text))

end ControlChannel
