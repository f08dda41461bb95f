import ControlChannel.Proofs.Schema.Atomic
import ControlChannel.Proofs.Schema.Catalogue

/-! # Refreshes of a part agree with full refreshes

A refresh hears from a node what its tables hold (`Catalogue.Refreshes`). Main statement: a refresh
of a keyspace or a table replaces that part of the view by what a full refresh has there and leaves
the rest alone, so that refreshing every keyspace one by one comes to a full refresh
(`Catalogue.refreshes_agree`). -/

namespace ControlChannel

namespace Catalogue

open Schema (Scope)

/-- The signal brings nothing, or the answer to a survey of the scope: the rows that the survey
selects, in some order. -/
def Sends (d : Catalogue) (scope : Scope) (signal : Signal) : Prop :=
  signal = .go ∨ ∃ kind set selected, signal = .answered (.survey kind) (.ok (.rows set)) ∧
    d.answer? (SchemaRefresh.request scope kind) = some selected ∧ selected.rows.Perm set.rows

/-- Every survey of the refresh was answered from the tables, and it was not cancelled. -/
def Serves (d : Catalogue) (u : Underway) : Prop := ∀ signal ∈ u.heard, d.Sends u.scope signal

/-- A refresh of the scope that the node serves leads from `f` to its end at `g`. -/
def Refreshes (d : Catalogue) (scope : Scope) (f : Fabric) (result : SchemaRefresh.Result)
    (g : Fabric) : Prop :=
  ∃ (actions : List Refreshing.Action) (s : Refreshing) (u : Underway),
    Refreshing.run ⟨f, [], []⟩ actions = some s ∧ s.refreshes = [u] ∧ u.scope = scope ∧
      d.Serves u ∧ u.progress = .done result ∧ s.fabric = g

/-- The refresh can run to its end from the view `v`, and wherever it ends it has ended well with
the view `w`. -/
def Leads (d : Catalogue) (scope : Scope) (v w : SchemaView) : Prop :=
  ∀ f : Fabric, f.store.schema = v →
    (∃ result g, d.Refreshes scope f result g) ∧
    ∀ result g, d.Refreshes scope f result g → result = .ok (.ready ()) ∧ g.store.schema = w

/-- Refreshes of the keyspaces, one after the other. -/
def LeadsEach (d : Catalogue) : List String → SchemaView → SchemaView → Prop
  | [], v, w => v = w
  | name :: rest, v, w => ∃ u, d.Leads (.keyspace name) v u ∧ d.LeadsEach rest u w

/-! ## The end of a refresh -/

section
variable {d : Catalogue} {u : Underway}

/-- A survey is answered with the rows that it selects. -/
theorem Serves.answer (h : d.Serves u) {kind : SurveyKind} {result : Except Error Reply}
    (hr : answerTo? u.heard kind = some result) :
    ∃ set selected, result = .ok (.rows set) ∧
      d.answer? (SchemaRefresh.request u.scope kind) = some selected ∧
      selected.rows.Perm set.rows := by
  obtain ⟨signal, hmem, hsignal⟩ := List.exists_of_findSome?_eq_some hr
  rcases h signal hmem with rfl | ⟨other, set, selected, rfl, hselected, hperm⟩
  · cases hsignal
  · simp only [Signal.answer?] at hsignal
    split at hsignal
    · rename_i heq
      subst heq
      cases hsignal
      exact ⟨set, selected, rfl, hselected, hperm⟩
    · cases hsignal

/-- The replies of a refresh that has heard all are the rows that its surveys select. -/
theorem Serves.complete (h : d.Serves u) {r : Replies} (hr : r.Complete u.scope u.heard) :
    ∃ rows : SurveyRows, r = rows.replies ∧ (d.selected u.scope).Reorders rows := by
  have hreply : ∀ {kind reply}, answerTo? u.heard kind = some (.ok reply) →
      (kind = .keyspaces → u.scope.keyspacesSurvey.isSome) → ∃ set, reply = .rows set ∧
        ((d.table kind).pick u.scope.covers).rows.Perm set.rows := by
    intro kind reply hk hissued
    obtain ⟨set, selected, hreply, hselected, hperm⟩ := h.answer hk
    obtain rfl := Option.some.inj (hselected.symm.trans (d.answer?_request hissued))
    exact ⟨set, Except.ok.inj hreply, hperm⟩
  obtain ⟨keyspaces, columnFamilies, columns⟩ := r
  obtain ⟨f, rfl, hf⟩ := hreply hr.columnFamilies fun e => by cases e
  obtain ⟨c, rfl, hc⟩ := hreply hr.columns fun e => by cases e
  have hissued := hr.issued
  cases keyspaces with
  | none =>
    have hnone : u.scope.keyspacesSurvey = none := by simpa using hissued.symm
    exact ⟨⟨none, f, c⟩, rfl, by simp [selected, hnone],
      fun _ _ _ e => (by cases e), hf, hc⟩
  | some k =>
    obtain ⟨set, rfl, hset⟩ := hreply hr.keyspaces fun _ => hissued.symm
    obtain ⟨cql, hcql⟩ := Option.isSome_iff_exists.mp hissued.symm
    refine ⟨⟨some set, f, c⟩, rfl, by simp [selected, hcql], fun s s' hs hs' => ?_, hf, hc⟩
    simp only [selected, hcql, Option.map_some, Option.some.injEq] at hs hs'
    exact hs ▸ hs' ▸ hset

/-- A refresh that the node serves ends well. -/
theorem Serves.ready (hd : d.Consistent) (h : d.Serves u) {result : SchemaRefresh.Result}
    (ho : SchemaRefresh.Outcome u.scope u.heard result) : result = .ok (.ready ()) := by
  cases ho with
  | cancelled told _ => rcases h _ told with e | ⟨_, _, _, e, _⟩ <;> cases e
  | fault told =>
    obtain ⟨_, _, e, _⟩ := h.answer told
    cases e
  | unusable complete unusable =>
    obtain ⟨rows, rfl, _⟩ := h.complete complete
    rw [SurveyRows.rows_replies] at unusable
    cases unusable
  | malformed answered malformed =>
    obtain ⟨rows, hrows, hreorders⟩ := h.complete answered
    rw [SurveyRows.replies_inj hrows,
      SurveyRows.survey?_eq (hreorders.readable (readable_selected hd.readable _))] at malformed
    cases malformed
  | rebuilt _ => rfl

/-- What it learns is what the tables say within its scope. -/
theorem Serves.learnt (hd : d.Consistent) (h : d.Serves u) {survey : Schema.Survey}
    (hl : SchemaRefresh.Learnt u.scope u.heard survey) :
    (d.rows.survey.within u.scope).Reorders survey := by
  obtain ⟨rows, hanswered, hsurvey⟩ := hl
  obtain ⟨rows', hrows, hreorders⟩ := h.complete hanswered
  rw [SurveyRows.replies_inj hrows,
    SurveyRows.survey?_eq (hreorders.readable (readable_selected hd.readable _))] at hsurvey
  cases hsurvey
  exact survey_selected d u.scope ▸ hreorders.survey

/-- A refresh that the node serves applies what the tables say within its scope, and nothing
else. -/
theorem Refreshes.ends (hd : d.Consistent) {scope : Scope} {f g : Fabric}
    {result : SchemaRefresh.Result} (h : d.Refreshes scope f result g) :
    result = .ok (.ready ()) ∧ g.store.schema =
      Schema.applySurvey f.store.schema scope.keyspace? scope.table?
        (d.rows.survey.within scope) := by
  obtain ⟨actions, s, u, hrun, hrefreshes, rfl, hserves, hdone, rfl⟩ := h
  have hs := (Refreshing.Sound.initial f).run hrun
  have htracked := hs.tracked 0 u (by rw [hrefreshes]; rfl)
  rw [hdone] at htracked
  obtain rfl := hserves.ready hd htracked
  obtain ⟨b, hrebuilds, hscope, hlearnt⟩ := hs.sole hrefreshes hdone
  rw [hs.view, hrebuilds, List.foldl_cons, List.foldl_nil, Rebuild.apply, hscope]
  exact ⟨rfl, (Schema.applySurvey_congr (hserves.learnt hd hlearnt)
    ((whole hd).unique_within _) _ _ _).symm⟩

end

/-! ## Some end -/

/-- The answer to a survey. -/
def answered (d : Catalogue) (scope : Scope) (kind : SurveyKind) : Signal :=
  .answered (.survey kind) (.ok (.rows ((d.table kind).pick scope.covers)))

/-- All surveys are sent, then all are answered. -/
def signals (d : Catalogue) (scope : Scope) : List Signal :=
  match scope with
  | .table .. => [.go, d.answered scope .columnFamilies, d.answered scope .columns]
  | _ => [.go, .go, d.answered scope .keyspaces, d.answered scope .columnFamilies,
      d.answered scope .columns]

theorem sends_signals (d : Catalogue) (scope : Scope) :
    ∀ signal ∈ d.signals scope, d.Sends scope signal := by
  have hgo : d.Sends scope .go := .inl rfl
  have hanswered : ∀ {kind : SurveyKind}, (kind = .keyspaces → scope.keyspacesSurvey.isSome) →
      d.Sends scope (d.answered scope kind) := fun h =>
    .inr ⟨_, _, _, rfl, d.answer?_request h, .refl _⟩
  cases scope with
  | table k t => simp [signals, hgo, hanswered]
  | all | keyspace _ => simp [signals, hgo, hanswered fun _ => rfl]

/-- After the signals a refresh is about to apply the rows. -/
theorem run_signals (d : Catalogue) (scope : Scope) (f : Fabric) : ∃ g,
    Refreshing.run ⟨f, [], []⟩ (.start false 0 scope :: (d.signals scope).map (.signal 0)) =
      some ⟨g, [⟨scope, d.signals scope, .running ⟨0, scope, .applying (d.selected scope)⟩⟩],
        []⟩ := by
  cases scope <;> exact ⟨_, rfl⟩

/-- Every refresh can be served to its end. -/
theorem exists_refreshes {d : Catalogue} (hd : d.Consistent) (scope : Scope) (f : Fabric) :
    ∃ result g, d.Refreshes scope f result g := by
  obtain ⟨g, hg⟩ := d.run_signals scope f
  obtain ⟨store, b, hstep⟩ :=
    Refreshing.step_applying g scope (readable_selected hd.readable scope) (d.signals scope)
  have hrun := Refreshing.run_append ⟨f, [], []⟩
    (.start false 0 scope :: (d.signals scope).map (.signal 0)) [.signal 0 .go]
  rw [hg, Option.bind_some, Refreshing.run, hstep, Option.bind_some, Refreshing.run] at hrun
  refine ⟨_, _, _, _, _, hrun, rfl, rfl, ?_, rfl, rfl⟩
  exact List.forall_mem_append.mpr ⟨d.sends_signals scope, List.forall_mem_singleton.mpr (.inl rfl)⟩

/-! ## What refreshes agree on -/

theorem leads {d : Catalogue} (hd : d.Consistent) (scope : Scope) (v : SchemaView) :
    d.Leads scope v (Schema.applySurvey v scope.keyspace? scope.table?
      (d.rows.survey.within scope)) := by
  rintro f rfl
  exact ⟨exists_refreshes hd scope f, fun _ _ h => h.ends hd⟩

/-- The full view. -/
def view (d : Catalogue) : SchemaView := d.rows.survey.view

theorem leads_keyspace {d : Catalogue} (hd : d.Consistent) (v : SchemaView) (name : String) :
    d.Leads (.keyspace name) v (v.alter name fun _ => d.view[name]?) :=
  Schema.applySurvey_keyspace (whole hd) v name ▸ leads hd (.keyspace name) v

theorem leadsEach_alter {d : Catalogue} (hd : d.Consistent) (names : List String)
    (v : SchemaView) :
    d.LeadsEach names v (names.foldl (fun v name => v.alter name fun _ => d.view[name]?) v) := by
  induction names generalizing v with
  | nil => rfl
  | cons name rest ih => exact ⟨_, leads_keyspace hd v name, ih _⟩

theorem getElem?_foldl_alter (full : SchemaView) (names : List String) (v : SchemaView)
    (name : String) :
    (names.foldl (fun v name => v.alter name fun _ => full[name]?) v)[name]? =
      if name ∈ names then full[name]? else v[name]? := by
  induction names generalizing v with
  | nil => rfl
  | cons first rest ih =>
    rw [List.foldl_cons, ih, Std.ExtTreeMap.getElem?_alter]
    by_cases hrest : name ∈ rest
    · simp [hrest]
    · by_cases hfirst : first = name
      · simp [hfirst]
      · simp [hrest, hfirst, Ne.symm hfirst]

/-- A keyspace that the tables list. -/
def Lists (d : Catalogue) (name : String) : Prop :=
  ∃ row ∈ d.keyspaces.rows, row.text "keyspace_name" = .ok (some name)

theorem lists_of_view {d : Catalogue} (hd : d.Consistent) {name : String} {k : Keyspace}
    (h : d.view[name]? = some k) : d.Lists name := by
  rw [view, (whole hd).unique.getElem?_view] at h
  obtain ⟨r, hr, _⟩ := Option.map_eq_some_iff.mp h
  obtain ⟨hmem, hname⟩ := List.mem_filter.mp (List.mem_of_getLast? hr)
  obtain ⟨row, hrow, hof⟩ := mem_decoded.mp hmem
  obtain rfl : r.name = name := by simpa using hname
  exact ⟨row, hrow, Schema.KeyspaceRow.text_of_ofRow hof⟩

/-- Refreshes of a part agree with full refreshes, when the node's tables are consistent and it
answers each survey with the rows that its clause selects. From every earlier view `v`, a full
refresh leads to one view `full`; a refresh of a keyspace to `v` with that keyspace as it is in
`full`, or gone if it is not there; a refresh of a table to `v` with that table of that keyspace as
it is in `full`, or gone, and to `v` itself if `v` does not have the keyspace. Refreshing every
keyspace of the view and of the tables one by one leads to `full`. -/
theorem refreshes_agree {d : Catalogue} (hd : d.Consistent) : ∃ full : SchemaView,
    (∀ v, d.Leads .all v full) ∧
    (∀ v name, d.Leads (.keyspace name) v (v.alter name fun _ => full[name]?)) ∧
    (∀ v name table, d.Leads (.table name table) v (v.modify name fun k =>
      { k with tables := k.tables.alter table fun _ =>
          full[name]?.bind (·.tables[table]?) })) ∧
    ∀ v names, (∀ name, name ∈ v ∨ d.Lists name → name ∈ names) → d.LeadsEach names v full := by
  refine ⟨d.view, fun v => leads hd .all v, leads_keyspace hd, fun v name table => ?_,
    fun v names hnames => ?_⟩
  · exact Schema.applySurvey_table (whole hd) v name table ▸ leads hd (.table name table) v
  · have hfold : names.foldl (fun v name => v.alter name fun _ => d.view[name]?) v = d.view := by
      refine Std.ExtTreeMap.ext_getElem? fun name => ?_
      rw [getElem?_foldl_alter]
      split
      · rfl
      · rename_i hmissing
        have hv : v[name]? = none :=
          Std.ExtTreeMap.getElem?_eq_none fun h => hmissing (hnames name (.inl h))
        have hfull : d.view[name]? = none := Option.eq_none_iff_forall_ne_some.mpr fun k hk =>
          hmissing (hnames name (.inr (lists_of_view hd hk)))
        rw [hv, hfull]
    exact hfold ▸ leadsEach_alter hd names v

/-- Tables with two keyspaces; one has two tables, the other has one of the same name. -/
def sample : Catalogue where
  keyspaces := .ofTexts ["keyspace_name"] [["ks"], ["other"]]
  columnFamilies := .ofTexts ["keyspace_name", "columnfamily_name"]
    [["ks", "t"], ["other", "t"], ["ks", "u"]]
  columns := .ofTexts ["keyspace_name", "columnfamily_name", "column_name", "validator"]
    [["ks", "t", "c", "v"], ["other", "t", "c", "v"], ["ks", "t", "b", "v"]]

theorem consistent_sample : sample.Consistent where
  readable := SurveyRows.readable_of_isSome (by decide +kernel)
  keyspaces := by decide +kernel
  columnFamilies := by decide +kernel
  columns := by decide +kernel
  listed := by decide +kernel

/-- An earlier view: one keyspace of the sample without its tables, and one that is gone. -/
def outdated : SchemaView :=
  Schema.viewOf [⟨"ks", false, none, none, ∅⟩, ⟨"gone", true, none, none, ∅⟩]

theorem mem_of_listed (name : String) (h : name ∈ outdated ∨ sample.Lists name) :
    name ∈ ["gone", "other", "ks"] := by
  rcases h with h | ⟨row, hrow, hname⟩
  · have hnames : "gone" = name ∨ "ks" = name := by simpa [outdated, Schema.viewOf] using h
    rcases hnames with rfl | rfl <;> simp
  · have hnames : ∀ row ∈ sample.keyspaces.rows,
        row.text "keyspace_name" = .ok (some "ks") ∨
          row.text "keyspace_name" = .ok (some "other") := by decide +kernel
    rcases hnames row hrow with h | h <;> cases h.symm.trans hname <;> simp

theorem refreshes_agree_sample : ∃ full,
    sample.Leads .all outdated full ∧
    sample.Leads (.keyspace "gone") outdated (outdated.alter "gone" fun _ => full["gone"]?) ∧
    sample.Leads (.table "ks" "t") outdated (outdated.modify "ks" fun k =>
      { k with tables := k.tables.alter "t" fun _ => full["ks"]?.bind (·.tables["t"]?) }) ∧
    sample.LeadsEach ["gone", "other", "ks"] outdated full := by
  obtain ⟨full, hall, hkeyspace, htable, heach⟩ := refreshes_agree consistent_sample
  exact ⟨full, hall _, hkeyspace _ _, htable _ _ _, heach _ _ mem_of_listed⟩

end Catalogue

end ControlChannel
