import ControlChannel.Proofs.Refreshes
import ControlChannel.Proofs.Schema.Decoding

/-! # What a schema refresh has heard

How far a schema refresh is follows from the signals it has taken (`SchemaRefresh.Tracked`), and so
does its end (`SchemaRefresh.Outcome`). Main statement: a refresh that is over succeeded exactly
when every survey of its scope was answered with rows and all of these rows can be read
(`Outcome.ready_iff`). -/

namespace ControlChannel

/-- The answer to a survey that a signal brings. -/
def Signal.answer? (kind : SurveyKind) : Signal → Option (Except Error Reply)
  | .answered (.survey other) result => if other = kind then some result else none
  | _ => none

/-- The answer to a survey among the signals. -/
def answerTo? (heard : List Signal) (kind : SurveyKind) : Option (Except Error Reply) :=
  heard.findSome? (Signal.answer? kind)

theorem answerTo?_append (heard : List Signal) (signal : Signal) (kind : SurveyKind) :
    answerTo? (heard ++ [signal]) kind = (answerTo? heard kind).or (signal.answer? kind) := by
  rw [answerTo?, List.findSome?_append]
  cases h : signal.answer? kind <;> simp [answerTo?, h]

/-- The replies to every survey of the scope. -/
structure Replies.Complete (r : Replies) (scope : Schema.Scope) (heard : List Signal) : Prop where
  issued : r.keyspaces.isSome = scope.keyspacesSurvey.isSome
  keyspaces : answerTo? heard .keyspaces = r.keyspaces.map .ok
  columnFamilies : answerTo? heard .columnFamilies = some (.ok r.columnFamilies)
  columns : answerTo? heard .columns = some (.ok r.columns)

/-- Every survey of the scope was answered with rows, and these are the rows. -/
def SurveyRows.Answered (r : SurveyRows) (scope : Schema.Scope) (heard : List Signal) : Prop :=
  r.replies.Complete scope heard

theorem Replies.Complete.unique {scope : Schema.Scope} {heard : List Signal} {r r' : Replies}
    (h : r.Complete scope heard) (h' : r'.Complete scope heard) : r = r' := by
  obtain ⟨keyspaces, columnFamilies, columns⟩ := r
  obtain ⟨keyspaces', columnFamilies', columns'⟩ := r'
  have hk := h.keyspaces.symm.trans h'.keyspaces
  have hf := h.columnFamilies.symm.trans h'.columnFamilies
  have hc := h.columns.symm.trans h'.columns
  cases keyspaces <;> cases keyspaces' <;> simp_all

theorem Replies.Complete.hear {scope : Schema.Scope} {heard : List Signal} {r : Replies}
    {signal : Signal} (h : r.Complete scope heard) (hs : ∀ kind, signal.answer? kind = none) :
    r.Complete scope (heard ++ [signal]) := by
  have hsame : ∀ kind, answerTo? (heard ++ [signal]) kind = answerTo? heard kind := fun kind => by
    rw [answerTo?_append, hs, Option.or_none]
  exact ⟨h.issued, (hsame _).trans h.keyspaces, (hsame _).trans h.columnFamilies,
    (hsame _).trans h.columns⟩

namespace Store

variable {s : Store} {keyspace table : Option String} {rows : SurveyRows}

theorem rebuildSchema_eq_ok {store : Store} :
    s.rebuildSchema keyspace table rows.keyspaces rows.columnFamilies rows.columns = .ok store ↔
      ∃ survey, rows.survey? = .ok survey ∧
        { s with schema := Schema.applySurvey s.schema keyspace table survey } = store := by
  unfold rebuildSchema Schema.rebuild SurveyRows.survey?
  cases Schema.Survey.ofResults rows.keyspaces rows.columnFamilies rows.columns <;>
    simp [Except.map]

theorem rebuildSchema_eq_error {fault : RowFault} :
    s.rebuildSchema keyspace table rows.keyspaces rows.columnFamilies rows.columns
      = .error fault ↔ rows.survey? = .error fault := by
  unfold rebuildSchema Schema.rebuild SurveyRows.survey?
  cases Schema.Survey.ofResults rows.keyspaces rows.columnFamilies rows.columns <;>
    simp [Except.map]

end Store

namespace SchemaRefresh

/-- Every survey of the scope was answered with rows, which say `survey`. -/
def Learnt (scope : Schema.Scope) (heard : List Signal) (survey : Schema.Survey) : Prop :=
  ∃ rows : SurveyRows, rows.Answered scope heard ∧ rows.survey? = .ok survey

/-- How a refresh of the scope ends after the signals it has taken. -/
inductive Outcome (scope : Schema.Scope) (heard : List Signal) : Result → Prop where
  /-- It was cancelled while answers were missing. -/
  | cancelled (told : .cancelled ∈ heard) (missing : ∀ r : Replies, ¬ r.Complete scope heard) :
      Outcome scope heard (.ok .cancelled)
  /-- A survey could not be answered. -/
  | fault {kind : SurveyKind} {e : Error} (told : answerTo? heard kind = some (.error e)) :
      Outcome scope heard (.error e)
  /-- A reply has no rows. -/
  | unusable {r : Replies} {e : Error} (complete : r.Complete scope heard)
      (unusable : r.rows = .error e) : Outcome scope heard (.error e)
  /-- A row cannot be read. -/
  | malformed {rows : SurveyRows} {fault : RowFault} (answered : rows.Answered scope heard)
      (malformed : rows.survey? = .error fault) : Outcome scope heard (.error fault.error)
  | rebuilt {survey : Schema.Survey} (learnt : Learnt scope heard survey) :
      Outcome scope heard (.ok (.ready ()))

variable {scope : Schema.Scope} {heard : List Signal}

/-- A refresh that is over succeeded exactly when every survey of its scope was answered with rows
and all of them can be read. -/
theorem Outcome.ready_iff {result : Result} (h : Outcome scope heard result) :
    result = .ok (.ready ()) ↔ ∃ rows : SurveyRows, rows.Answered scope heard ∧ rows.Readable := by
  constructor
  · rintro rfl
    cases h with
    | rebuilt learnt =>
      obtain ⟨rows, hrows, hsurvey⟩ := learnt
      exact ⟨rows, hrows, rows.survey?_iff.mp ⟨_, hsurvey⟩⟩
  · rintro ⟨rows, hrows, hreadable⟩
    cases h with
    | cancelled _ missing => exact absurd hrows (missing _)
    | @fault kind e told =>
      cases kind with
      | keyspaces =>
        rw [hrows.keyspaces] at told
        cases hk : rows.replies.keyspaces <;> simp [hk] at told
      | columnFamilies => rw [hrows.columnFamilies] at told; cases told
      | columns => rw [hrows.columns] at told; cases told
    | unusable complete unusable =>
      rw [complete.unique hrows, rows.rows_replies] at unusable
      cases unusable
    | malformed answered malformed =>
      rw [SurveyRows.replies_inj (answered.unique hrows), SurveyRows.survey?_eq hreadable]
        at malformed
      cases malformed
    | rebuilt _ => rfl

/-! ## How far a refresh is -/

/-- The surveys as they stand after the signals: they hold what was answered so far. -/
structure Holds (s : Surveys) (scope : Schema.Scope) (heard : List Signal) : Prop where
  kept : ∀ kind, answerTo? heard kind = match s.get kind with
    | .answered reply => some (.ok reply)
    | _ => none
  skipped : ∀ kind, s.get kind = .skipped ↔ kind = .keyspaces ∧ scope.keyspacesSurvey = none

namespace Holds

variable {s : Surveys}

theorem ofScope (scope : Schema.Scope) : Holds (.ofScope scope) scope [] := by
  cases scope <;> exact ⟨fun kind => by cases kind <;> rfl, fun kind => by
    cases kind <;> simp [Surveys.ofScope, Surveys.get, Schema.Scope.keyspacesSurvey]⟩

theorem hear (h : Holds s scope heard) {signal : Signal}
    (hs : ∀ kind, signal.answer? kind = none) : Holds s scope (heard ++ [signal]) :=
  ⟨fun kind => by rw [answerTo?_append, hs, Option.or_none, h.kept], h.skipped⟩

theorem send (h : Holds s scope heard) {kind : SurveyKind} (hk : s.get kind = .unsent) :
    Holds (s.set kind .waiting) scope heard := by
  refine ⟨fun other => ?_, fun other => ?_⟩
  all_goals
    by_cases ho : kind = other
    · subst ho
      have hkept := h.kept kind
      have hskipped := h.skipped kind
      simp_all
    · rw [Surveys.get_set_ne ho]
      first | exact h.kept other | exact h.skipped other

theorem answer (h : Holds s scope heard) {kind : SurveyKind} (hk : s.get kind = .waiting)
    (reply : Reply) : Holds (s.set kind (.answered reply)) scope
      (heard ++ [.answered (.survey kind) (.ok reply)]) := by
  refine ⟨fun other => ?_, fun other => ?_⟩
  · rw [answerTo?_append, h.kept]
    by_cases ho : kind = other
    · subst ho
      simp [hk, Signal.answer?]
    · simp [Surveys.get_set_ne ho, Signal.answer?, ho]
  · by_cases ho : kind = other
    · subst ho
      have hskipped := h.skipped kind
      simp_all
    · rw [Surveys.get_set_ne ho, h.skipped]

theorem answerTo?_iff (h : Holds s scope heard) {kind : SurveyKind} {reply : Reply} :
    answerTo? heard kind = some (.ok reply) ↔ s.get kind = .answered reply := by
  rw [h.kept]
  cases s.get kind <;> simp

/-- The surveys hold all replies once these are complete. -/
theorem replies_iff (h : Holds s scope heard) {r : Replies} :
    s.replies? = some r ↔ r.Complete scope heard := by
  rw [Surveys.replies?_eq_some]
  constructor
  · rintro rfl
    obtain ⟨keyspaces, columnFamilies, columns⟩ := r
    have hskipped := h.skipped .keyspaces
    cases keyspaces with
    | none =>
      have hnone := (hskipped.mp rfl).2
      exact ⟨by rw [hnone]; rfl, h.kept .keyspaces, h.kept .columnFamilies, h.kept .columns⟩
    | some k =>
      refine ⟨?_, h.kept .keyspaces, h.kept .columnFamilies, h.kept .columns⟩
      cases hs : scope.keyspacesSurvey with
      | none => cases hskipped.mpr ⟨rfl, hs⟩
      | some cql => rfl
  · intro hr
    have hf : s.columnFamilies = _ := h.answerTo?_iff.mp hr.columnFamilies
    have hc : s.columns = _ := h.answerTo?_iff.mp hr.columns
    obtain ⟨keyspaces, columnFamilies, columns⟩ := r
    refine (Surveys.mk.injEq ..).mpr ⟨?_, hf, hc⟩
    cases keyspaces with
    | some k => exact h.answerTo?_iff.mp hr.keyspaces
    | none => exact (h.skipped .keyspaces).mpr ⟨rfl, by simpa using hr.issued⟩

theorem replies_congr {s' : Surveys} (h : Holds s scope heard) (h' : Holds s' scope heard) :
    s.replies? = s'.replies? :=
  Option.ext fun _ => h.replies_iff.trans h'.replies_iff.symm

end Holds

/-- A refresh of the scope that has taken the signals stands here. -/
def Tracked (scope : Schema.Scope) (heard : List Signal) : Progress SchemaRefresh Result → Prop
  | .running r => r.scope = scope ∧ match r.stage with
    | .asking s => Holds s scope heard ∧ s.replies? = none
    | .applying rows => rows.Answered scope heard
  | .done result => Outcome scope heard result

/-- A further survey is sent. -/
theorem Holds.issue {s : Surveys} (h : Holds s scope heard) (f : Fabric) (c : ConnectionId) :
    Holds (issue f c scope s).2 scope heard := by
  unfold SchemaRefresh.issue
  split
  · rename_i kind hk
    exact h.send (by simpa using List.find?_some hk)
  · exact h

theorem tracked_start (f : Fabric) (cancelled : Bool) (c : ConnectionId) (scope : Schema.Scope) :
    Tracked scope (if cancelled then [.cancelled] else []) (start f cancelled c scope).2 := by
  cases cancelled with
  | true => exact .cancelled List.mem_cons_self fun r h => by cases h.columns
  | false =>
    have h := (Holds.ofScope scope).issue f c
    refine ⟨rfl, h, Option.eq_none_iff_forall_ne_some.mpr fun r hr => ?_⟩
    cases (h.replies_iff.mp hr).columns

theorem tracked_settle {s : Surveys} (h : Holds s scope heard) (c : ConnectionId) :
    Tracked scope heard (settle c scope s) := by
  unfold settle
  split
  · rename_i hnone
    exact ⟨rfl, h, hnone⟩
  · rename_i replies hreplies
    have hcomplete := h.replies_iff.mp hreplies
    split
    · rename_i e he
      exact .unusable hcomplete he
    · rename_i rows hrows
      obtain rfl := Replies.eq_of_rows hrows
      exact ⟨rfl, hcomplete⟩

theorem tracked_resume {f : Fabric} {r : SchemaRefresh} {signal : Signal}
    {o : Fabric × Progress SchemaRefresh Result} (hr : r.resume f signal = some o)
    (t : Tracked scope heard (.running r)) : Tracked scope (heard ++ [signal]) o.2 := by
  cases moves_of_resume hr with
  | @sends c _ s kind hk =>
    obtain ⟨rfl, h, hnone⟩ := t
    have hheard : Holds s _ (heard ++ [.go]) := h.hear fun _ => rfl
    have hsent := hheard.send (by simpa using List.find?_some hk)
    exact ⟨rfl, hsent, (hsent.replies_congr hheard).trans hnone⟩
  | @fails c _ s kind e waiting =>
    obtain ⟨rfl, h, hnone⟩ := t
    have htold : answerTo? (heard ++ [.answered (.survey kind) (.error e)]) kind =
        some (.error e) := by
      rw [answerTo?_append, h.kept, waiting]
      simp [Signal.answer?]
    exact .fault htold
  | @hears c _ s kind reply waiting =>
    obtain ⟨rfl, h, hnone⟩ := t
    exact tracked_settle (h.answer waiting reply) c
  | @stops c _ s =>
    obtain ⟨rfl, h, hnone⟩ := t
    have hstill : Holds s _ (heard ++ [.cancelled]) := h.hear fun _ => rfl
    refine .cancelled (by simp) fun r hcomplete => ?_
    rw [hstill.replies_iff.mpr hcomplete] at hnone
    cases hnone
  | applies rebuilt =>
    obtain ⟨rfl, h⟩ := t
    obtain ⟨survey, hsurvey, _⟩ := Store.rebuildSchema_eq_ok.mp rebuilt
    exact .rebuilt ⟨_, h.hear fun _ => rfl, hsurvey⟩
  | refuses refused =>
    obtain ⟨rfl, h⟩ := t
    exact .malformed (h.hear fun _ => rfl) (Store.rebuildSchema_eq_error.mp refused)

end SchemaRefresh

end ControlChannel
