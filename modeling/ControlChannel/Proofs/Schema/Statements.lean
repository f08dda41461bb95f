import ControlChannel.Proofs.Schema.Catalogue

/-! # Names in survey statements

A statement is read by the rule for string literals alone: text and literals in turn
(`Literal.spans?`). Main statements: a literal is read exactly if it is the quoted name
(`Literal.read?_eq_some`), and reading leaves nothing out (`Literal.eq_written`); the surveys of a
scope read as their fixed text with the names of the scope and nothing else, no two scopes share a
survey, and a refresh sends the surveys of its scope (`Scope.surveys_faithful`). -/

namespace ControlChannel

namespace Schema

/-! ## Literals -/

namespace Literal

theorem readBody?_sound {s name rest : List Char} (h : readBody? s = some (name, rest)) :
    s = double name ++ mark :: rest ∧ rest.head? ≠ some mark := by
  fun_induction readBody? s generalizing name rest with
  | case1 => cases h
  | case2 rest' ih =>
    obtain ⟨⟨name', rest''⟩, hread, heq⟩ := Option.map_eq_some_iff.mp h
    cases heq
    obtain ⟨rfl, hrest⟩ := ih hread
    exact ⟨by simp [double], hrest⟩
  | case3 d rest' hd =>
    cases h
    exact ⟨rfl, by simpa using hd⟩
  | case4 =>
    cases h
    exact ⟨rfl, by simp⟩
  | case5 c rest' hc ih =>
    obtain ⟨⟨name', rest''⟩, hread, heq⟩ := Option.map_eq_some_iff.mp h
    cases heq
    obtain ⟨rfl, hrest⟩ := ih hread
    exact ⟨by simp [double, hc], hrest⟩

/-- A literal is read exactly if it is the quoted name and no further mark follows. -/
theorem read?_eq_some {s name rest : List Char} :
    read? s = some (name, rest) ↔ s = quote name ++ rest ∧ rest.head? ≠ some mark := by
  constructor
  · intro h
    cases s with
    | nil => cases h
    | cons c s =>
      by_cases hc : c = mark
      · rw [read?, if_pos hc] at h
        obtain ⟨rfl, hrest⟩ := readBody?_sound h
        exact ⟨by simp [quote, hc], hrest⟩
      · rw [read?, if_neg hc] at h
        cases h
  · rintro ⟨rfl, hrest⟩
    exact read?_quote name rest hrest

theorem length_of_readBody? {s name rest : List Char} (h : readBody? s = some (name, rest)) :
    rest.length < s.length := by
  obtain ⟨rfl, _⟩ := readBody?_sound h
  simp only [List.length_append, List.length_cons]
  omega

/-- The text before the first literal, and each literal's name with the text after it; none if a
literal is not closed. -/
def spans? : List Char → Option (List Char × List (List Char × List Char))
  | [] => some ([], [])
  | c :: s =>
    if c = mark then
      match _h : readBody? s with
      | some (name, rest) => (spans? rest).map fun (text, names) => ([], (name, text) :: names)
      | none => none
    else (spans? s).map fun (text, names) => (c :: text, names)
termination_by s => s.length
decreasing_by
  · have := length_of_readBody? _h
    simp only [List.length_cons]
    omega
  · simp

@[simp] theorem spans?_nil : spans? [] = some ([], []) := by rw [spans?]

theorem spans?_append {text : List Char} (h : mark ∉ text) (s : List Char) :
    spans? (text ++ s) = (spans? s).map fun (lead, names) => (text ++ lead, names) := by
  induction text with
  | nil => simp
  | cons c text ih =>
    obtain ⟨hc, htext⟩ : mark ≠ c ∧ mark ∉ text := by simpa using h
    rw [List.cons_append, spans?, if_neg (Ne.symm hc), ih htext, Option.map_map]
    rfl

theorem spans?_quote (name : List Char) {rest : List Char} (h : rest.head? ≠ some mark) :
    spans? (quote name ++ rest) =
      (spans? rest).map fun (text, names) => ([], (name, text) :: names) := by
  have hread : readBody? (double name ++ mark :: rest) = some (name, rest) :=
    readBody?_double name rest h
  simp only [quote, List.cons_append, List.append_assoc, List.nil_append]
  rw [spans?, if_pos rfl]
  split
  · rename_i hsome
    cases hread.symm.trans hsome
    rfl
  · rename_i hnone
    cases hread.symm.trans hnone

theorem spans?_quote_end (name : List Char) : spans? (quote name) = some ([], [(name, [])]) := by
  simpa using spans?_quote name (by simp : [].head? ≠ some mark)

/-- The text with these spans. -/
def written (spans : List Char × List (List Char × List Char)) : List Char :=
  spans.1 ++ spans.2.flatMap fun (name, text) => quote name ++ text

/-- Reading leaves nothing out. -/
theorem eq_written {s : List Char} {spans : List Char × List (List Char × List Char)}
    (h : spans? s = some spans) : s = written spans := by
  fun_induction spans? s generalizing spans with
  | case1 =>
    cases h
    rfl
  | case2 s name rest hread ih =>
    obtain ⟨inner, hinner, rfl⟩ := Option.map_eq_some_iff.mp h
    rw [(readBody?_sound hread).1, ih hinner]
    simp [written, quote]
  | case3 => cases h
  | case4 c s hc ih =>
    obtain ⟨inner, hinner, rfl⟩ := Option.map_eq_some_iff.mp h
    rw [ih hinner]
    rfl

end Literal

/-! ## Clauses and surveys -/

namespace Scope

/-- The clause as it reads: its text with the names of the scope in between. -/
def spans : Scope → List Char × List (List Char × List Char)
  | .all => ([], [])
  | .keyspace k => (keyspaceLead, [(k.toList, [])])
  | .table k t => (keyspaceLead, [(k.toList, tableLead), (t.toList, [])])

theorem spans?_clauseChars (scope : Scope) :
    Literal.spans? scope.clauseChars = some scope.spans := by
  have hkeyspace : Literal.mark ∉ keyspaceLead := by decide +kernel
  have htable : Literal.mark ∉ tableLead := by decide +kernel
  cases scope with
  | all => exact Literal.spans?_nil
  | keyspace k =>
    rw [clauseChars, Literal.spans?_append hkeyspace, Literal.spans?_quote_end]
    simp [spans]
  | table k t =>
    rw [clauseChars, List.append_assoc, Literal.spans?_append hkeyspace,
      Literal.spans?_quote _ (head?_tableLead_append _), Literal.spans?_append htable,
      Literal.spans?_quote_end]
    simp [spans]

/-- The surveys of the scope, in the order in which they are sent. -/
def surveys (scope : Scope) : List String :=
  scope.keyspacesSurvey.toList ++ [scope.columnFamiliesSurvey, scope.columnsSurvey]

/-- Each survey is a fixed statement with the clause, and that of the keyspaces is there if no table
is given. -/
theorem surveys_eq (scope : Scope) : scope.surveys =
    ((if scope.table? = none then [selectKeyspaces] else []) ++
      [selectColumnFamilies, selectColumns]).map (· ++ scope.clause) := by
  cases scope <;> rfl

theorem exists_select {scope : Scope} {cql : String} (h : cql ∈ scope.surveys) :
    ∃ select ∈ selects, cql = select ++ scope.clause := by
  rw [surveys_eq] at h
  obtain ⟨select, hselect, rfl⟩ := List.mem_map.mp h
  refine ⟨select, ?_, rfl⟩
  split at hselect <;> simp_all [selects]

theorem clause_injective {a b : Scope} (h : a.clause = b.clause) : a = b := by
  have hchars : a.clauseChars = b.clauseChars := String.ofList_injective h
  have hread := ofClause?_clauseChars a
  rw [hchars, ofClause?_clauseChars b] at hread
  exact (Option.some.inj hread).symm

/-- No two scopes have a survey in common. -/
theorem eq_of_mem_surveys {a b : Scope} {cql : String} (ha : cql ∈ a.surveys)
    (hb : cql ∈ b.surveys) : a = b := by
  obtain ⟨select, hselect, rfl⟩ := exists_select ha
  obtain ⟨select', hselect', heq⟩ := exists_select hb
  have hchars := congrArg String.toList heq
  simp only [String.toList_append] at hchars
  by_cases hsame : select' = select
  · subst hsame
    exact clause_injective (String.toList_inj.mp (List.append_cancel_left hchars))
  · have hnone := after?_select hselect' hselect hsame a.clause.toList
    rw [hchars, after?_append] at hnone
    cases hnone

/-- A survey reads as its fixed statement and then as the clause does. -/
theorem spans?_survey {scope : Scope} {cql : String} (h : cql ∈ scope.surveys) :
    ∃ select ∈ selects, cql = select ++ scope.clause ∧
      Literal.spans? cql.toList = some (select.toList ++ scope.spans.1, scope.spans.2) := by
  obtain ⟨select, hselect, rfl⟩ := exists_select h
  have hmark : ∀ select ∈ selects, Literal.mark ∉ select.toList := by decide +kernel
  refine ⟨select, hselect, rfl, ?_⟩
  rw [String.toList_append, Literal.spans?_append (hmark select hselect), clause,
    String.toList_ofList, spans?_clauseChars]
  rfl

end Scope

end Schema

/-! ## What a refresh sends -/

namespace Surveys

/-- The surveys that are still to be sent, in order. -/
def unsent (s : Surveys) : List SurveyKind :=
  order.filter fun kind => decide (s.get kind = .unsent)

theorem unsent?_eq_head? (s : Surveys) : s.unsent? = s.unsent.head? := by
  rw [unsent?, unsent, List.head?_filter]

theorem unsent_set {s : Surveys} {kind : SurveyKind} {state : SurveyState} (h : state ≠ .unsent) :
    (s.set kind state).unsent = s.unsent.filter (· ≠ kind) := by
  rw [unsent, unsent, List.filter_filter]
  refine List.filter_congr fun other _ => ?_
  by_cases hother : kind = other
  · subst hother
    simp [h]
  · simp [get_set_ne hother, Ne.symm hother]

theorem unsent_eq_cons {s : Surveys} {kind : SurveyKind} (h : s.unsent? = some kind) :
    s.unsent = kind :: (s.set kind .waiting).unsent := by
  have hnodup : s.unsent.Nodup := List.Nodup.filter _ (by decide)
  rw [unsent?_eq_head?] at h
  rw [unsent_set (by simp)]
  cases hs : s.unsent with
  | nil => simp [hs] at h
  | cons first rest =>
    rw [hs] at h hnodup
    cases h
    have hrest : rest.filter (· ≠ kind) = rest := List.filter_eq_self.mpr fun other hother =>
      decide_eq_true fun e => (List.nodup_cons.mp hnodup).1 (e ▸ hother)
    simpa using hrest.symm

theorem unsent_answered {s : Surveys} {kind : SurveyKind} (h : s.get kind = .waiting)
    (reply : Reply) : (s.set kind (.answered reply)).unsent = s.unsent := by
  rw [unsent_set (by simp)]
  refine List.filter_eq_self.mpr fun other hother => decide_eq_true fun e => ?_
  have hunsent : s.get other = .unsent := by simpa [unsent] using (List.mem_filter.mp hother).2
  rw [e, h] at hunsent
  cases hunsent

theorem unsent_of_replies? {s : Surveys} {r : Replies} (h : s.replies? = some r) :
    s.unsent = [] := by
  rw [replies?_eq_some] at h
  subst h
  obtain ⟨keyspaces, columnFamilies, columns⟩ := r
  cases keyspaces <;> rfl

end Surveys

namespace SchemaRefresh

/-- A refresh of the scope on the connection has sent these requests and come to this point. Between
its steps anything else may happen. -/
inductive Sends (c : ConnectionId) (scope : Schema.Scope) :
    List Request → Progress SchemaRefresh Result → Prop where
  | start {f : Fabric} {cancelled : Bool} {sent : List Request}
      (issued : (start f cancelled c scope).1.requests c = f.requests c ++ sent) :
      Sends c scope sent (start f cancelled c scope).2
  | resume {f : Fabric} {r : SchemaRefresh} {signal : Signal}
      {o : Fabric × Progress SchemaRefresh Result} {before sent : List Request}
      (earlier : Sends c scope before (.running r)) (step : r.resume f signal = some o)
      (issued : o.1.requests c = f.requests c ++ sent) : Sends c scope (before ++ sent) o.2

/-- What a refresh has sent and has still to send are the surveys of its scope. -/
def Accounts (c : ConnectionId) (scope : Schema.Scope) (sent : List Request) :
    Progress SchemaRefresh Result → Prop
  | .running r => r.connection = c ∧ r.scope = scope ∧ match r.stage with
    | .asking s => sent ++ s.unsent.map (request scope) = scope.surveys.map .query
    | .applying _ => sent = scope.surveys.map .query
  | .done result => sent <+: scope.surveys.map .query ∧
      (result = .ok (.ready ()) → sent = scope.surveys.map .query)

variable {c : ConnectionId} {scope : Schema.Scope} {s : Surveys} {before sent : List Request}

theorem accounts_send {kind : SurveyKind} (hkind : s.unsent? = some kind)
    (h : before ++ s.unsent.map (request scope) = scope.surveys.map .query) :
    Accounts c scope (before ++ [request scope kind])
      (.running ⟨c, scope, .asking (s.set kind .waiting)⟩) := by
  rw [Surveys.unsent_eq_cons hkind] at h
  exact ⟨rfl, rfl, by simpa using h⟩

theorem accounts_issue (h : before ++ s.unsent.map (request scope) = scope.surveys.map .query)
    (f : Fabric) : ∃ sent, (issue f c scope s).1.requests c = f.requests c ++ sent ∧
      Accounts c scope (before ++ sent) (.running ⟨c, scope, .asking (issue f c scope s).2⟩) := by
  unfold issue
  split
  · rename_i kind hkind
    exact ⟨[request scope kind], by simp [Fabric.requests_send], accounts_send hkind h⟩
  · exact ⟨[], by simp, rfl, rfl, by simpa using h⟩

theorem accounts_start {f : Fabric} {cancelled : Bool}
    (h : (start f cancelled c scope).1.requests c = f.requests c ++ sent) :
    Accounts c scope sent (start f cancelled c scope).2 := by
  cases cancelled with
  | true =>
    obtain rfl : sent = [] := by simpa [start] using h
    exact ⟨List.nil_prefix, fun e => by cases e⟩
  | false =>
    have hall : [] ++ (Surveys.ofScope scope).unsent.map (request scope) =
        scope.surveys.map .query := by
      cases scope <;> rfl
    obtain ⟨sent', hsent', haccounts⟩ := accounts_issue (c := c) hall f
    obtain rfl : sent = sent' := List.append_cancel_left (h.symm.trans hsent')
    exact haccounts

theorem accounts_settle (h : sent ++ s.unsent.map (request scope) = scope.surveys.map .query) :
    Accounts c scope sent (settle c scope s) := by
  unfold settle
  split
  · exact ⟨rfl, rfl, h⟩
  · rename_i replies hreplies
    rw [Surveys.unsent_of_replies? hreplies, List.map_nil, List.append_nil] at h
    split
    · exact ⟨h ▸ List.prefix_rfl, fun e => by cases e⟩
    · exact ⟨rfl, rfl, h⟩

theorem accounts_resume {f : Fabric} {r : SchemaRefresh} {signal : Signal}
    {o : Fabric × Progress SchemaRefresh Result} (hbefore : Accounts c scope before (.running r))
    (hstep : r.resume f signal = some o) (h : o.1.requests c = f.requests c ++ sent) :
    Accounts c scope (before ++ sent) o.2 := by
  -- Only a step that sends adds to the requests.
  have hquiet : o.1.requests c = f.requests c → before ++ sent = before := by
    intro hsame
    simpa [hsame] using h
  cases moves_of_resume hstep with
  | @sends _ _ s kind unsent =>
    obtain ⟨rfl, rfl, hall⟩ := hbefore
    obtain rfl : sent = [request _ kind] := by
      simpa [Fabric.requests_send] using h.symm
    exact accounts_send unsent hall
  | fails _ | stops =>
    obtain ⟨rfl, rfl, hall⟩ := hbefore
    rw [hquiet rfl]
    exact ⟨⟨_, hall⟩, fun e => by cases e⟩
  | @hears _ _ s kind reply waiting =>
    obtain ⟨rfl, rfl, hall⟩ := hbefore
    rw [hquiet rfl]
    exact accounts_settle (by rwa [Surveys.unsent_answered waiting])
  | applies _ =>
    obtain ⟨rfl, rfl, hall⟩ := hbefore
    rw [hquiet rfl]
    exact ⟨hall ▸ List.prefix_rfl, fun _ => hall⟩
  | refuses _ =>
    obtain ⟨rfl, rfl, hall⟩ := hbefore
    rw [hquiet rfl]
    exact ⟨hall ▸ List.prefix_rfl, fun e => by cases e⟩

/-- Steps that go on send the surveys of the scope one after the other, all of them before the view
is rebuilt. -/
theorem Sends.accounts {progress : Progress SchemaRefresh Result}
    (h : Sends c scope sent progress) : Accounts c scope sent progress := by
  induction h with
  | start issued => exact accounts_start issued
  | resume _ step issued ih => exact accounts_resume ih step issued

theorem Accounts.isPrefix {progress : Progress SchemaRefresh Result}
    (h : Accounts c scope sent progress) : sent <+: scope.surveys.map .query := by
  cases progress with
  | running r =>
    obtain ⟨c', scope', stage⟩ := r
    obtain ⟨_, rfl, hall⟩ := h
    cases stage with
    | asking s => exact ⟨_, hall⟩
    | applying rows => exact hall ▸ List.prefix_rfl
  | done result => exact h.1

end SchemaRefresh

namespace Schema.Scope

theorem ofNames_eq_ok {keyspace table : Option String} {scope : Scope} :
    ofNames keyspace table = .ok scope ↔ keyspace = scope.keyspace? ∧ table = scope.table? := by
  cases keyspace <;> cases table <;> cases scope <;> simp [ofNames, keyspace?, table?]

/-- Names cannot alter the surveys of a scope. A scope is what its names make, and its clause reads,
by the rule for literals alone, as fixed text with exactly these names in between. Each survey is a
fixed statement and the clause, and reads so; that of the keyspaces is there if no table is given.
Scopes that have a survey in common are equal. A refresh of the scope sends these surveys in order,
and has sent all of them when it ends well. -/
theorem surveys_faithful (scope : Scope) :
    (∀ keyspace table, ofNames keyspace table = .ok scope ↔
      keyspace = scope.keyspace? ∧ table = scope.table?) ∧
    (Literal.spans? scope.clause.toList = some scope.spans ∧
      scope.spans.2.map (·.1) =
        (scope.keyspace?.toList ++ scope.table?.toList).map String.toList) ∧
    scope.surveys = ((if scope.table? = none then [selectKeyspaces] else []) ++
      [selectColumnFamilies, selectColumns]).map (· ++ scope.clause) ∧
    (∀ cql ∈ scope.surveys, ∃ select ∈ selects, cql = select ++ scope.clause ∧
      Literal.spans? cql.toList = some (select.toList ++ scope.spans.1, scope.spans.2)) ∧
    (∀ other cql, cql ∈ scope.surveys → cql ∈ other.surveys → scope = other) ∧
    ∀ c sent progress, SchemaRefresh.Sends c scope sent progress →
      sent <+: scope.surveys.map .query ∧
      (progress = .done (.ok (.ready ())) → sent = scope.surveys.map .query) := by
  refine ⟨fun _ _ => ofNames_eq_ok, ⟨?_, ?_⟩, scope.surveys_eq, fun cql hcql => spans?_survey hcql,
    fun other cql ha hb => eq_of_mem_surveys ha hb, fun c sent progress hsends => ?_⟩
  · rw [clause, String.toList_ofList, spans?_clauseChars]
  · cases scope <;> rfl
  · have haccounts := hsends.accounts
    refine ⟨haccounts.isPrefix, fun hready => ?_⟩
    subst hready
    exact haccounts.2 rfl

/-- The name of the table is a mark, and that of the keyspace looks like a clause. -/
theorem surveys_faithful_quotes :
    let scope : Scope := .table "' AND columnfamily_name = '" "'"
    ofNames (some "' AND columnfamily_name = '") (some "'") = .ok scope ∧
    Literal.spans? scope.clause.toList = some scope.spans ∧
    scope.spans.2.map (·.1) = ["' AND columnfamily_name = '".toList, "'".toList] ∧
    ∃ sent progress, SchemaRefresh.Sends 0 scope sent progress ∧ sent ≠ [] ∧
      sent <+: [.query scope.columnFamiliesSurvey, .query scope.columnsSurvey] := by
  intro scope
  obtain ⟨hnames, ⟨hspans, hread⟩, _, _, _, hsends⟩ := surveys_faithful scope
  have hstart : SchemaRefresh.Sends 0 scope [SchemaRefresh.request scope .columnFamilies] _ :=
    @SchemaRefresh.Sends.start 0 scope { balancing := .roundRobin {} } false _ rfl
  exact ⟨(hnames _ _).mpr ⟨rfl, rfl⟩, hspans, hread, _, _, hstart, by simp, (hsends _ _ _ hstart).1⟩

end Schema.Scope

end ControlChannel
