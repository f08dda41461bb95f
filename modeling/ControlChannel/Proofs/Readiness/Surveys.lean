import ControlChannel.Proofs.Readiness.History

/-! # The trail of a schema refresh

While a bring-up refreshes the schema, the requests sent on its connection and the milestones
passed follow from the stage of the refresh (`SchemaRefresh.Trail`): surveys are sent in their
order, and each answer was given on that connection. -/

namespace ControlChannel

namespace Surveys

/-- The surveys are sent in their order. -/
def InTurn (s : Surveys) : Prop :=
  (s.keyspaces = .unsent → s.columnFamilies = .unsent) ∧
    (s.columnFamilies = .unsent → s.columns = .unsent)

/-- The surveys that have been sent. -/
def sent (s : Surveys) : List SurveyKind := order.filter fun kind => decide (s.get kind ≠ .unsent)

theorem prefix_sent {s : Surveys} (h : s.InTurn) : s.sent <+: order := by
  obtain ⟨a, b, c⟩ := s
  obtain ⟨hab, hbc⟩ := h
  simp only at hab hbc
  by_cases ha : a = .unsent
  · have hb := hab ha
    simp [sent, order, get, ha, hb, hbc hb]
  · by_cases hb : b = .unsent
    · simp [sent, order, get, ha, hb, hbc hb]
    · by_cases hc : c = .unsent <;> simp [sent, order, get, ha, hb, hc]

theorem sent_issue {s : Surveys} {kind : SurveyKind} (h : s.InTurn)
    (hk : s.unsent? = some kind) :
    (s.set kind .waiting).InTurn ∧ (s.set kind .waiting).sent = s.sent ++ [kind] := by
  obtain ⟨a, b, c⟩ := s
  obtain ⟨hab, hbc⟩ := h
  simp only at hab hbc
  by_cases ha : a = .unsent
  · have hb := hab ha
    have hkind : kind = .keyspaces := by simpa [unsent?, order, get, ha, eq_comm] using hk
    subst hkind
    simp [InTurn, sent, order, get, set, ha, hb, hbc hb]
  · by_cases hb : b = .unsent
    · have hkind : kind = .columnFamilies := by
        simpa [unsent?, order, get, ha, hb, eq_comm] using hk
      subst hkind
      simp [InTurn, sent, order, get, set, ha, hb, hbc hb]
    · by_cases hc : c = .unsent
      · have hkind : kind = .columns := by
          simpa [unsent?, order, get, ha, hb, hc, eq_comm] using hk
        subst hkind
        simp [InTurn, sent, order, get, set, ha, hb, hc]
      · simp [unsent?, order, get, ha, hb, hc] at hk

theorem sent_answer {s : Surveys} {kind : SurveyKind} (h : s.InTurn)
    (hk : s.get kind = .waiting) (reply : Reply) :
    (s.set kind (.answered reply)).InTurn ∧ (s.set kind (.answered reply)).sent = s.sent := by
  refine ⟨?_, List.filter_congr fun other _ => ?_⟩
  · obtain ⟨a, b, c⟩ := s
    cases kind <;> simp only [get] at hk <;> subst hk <;> simp_all [InTurn, set]
  · by_cases ho : kind = other
    · subst ho
      rw [get_set, hk]
      rfl
    · rw [get_set_ne ho]

end Surveys

/-- The requests that ask some questions about everything. -/
def Question.requests (questions : List Question) : List Request :=
  questions.map (Question.request .all)

theorem Question.prefix_registration : requests [.registration] <+: Request.bringUp :=
  ⟨requests (bringUp.drop 1), rfl⟩

/-- What has happened while a whole schema is surveyed on the connection behind `link`. -/
structure Surveys.Asking (link : Link) (port : UInt16) (h : List Transition) (f : Fabric)
    (s : Surveys) : Prop where
  needed : s.keyspaces ≠ .skipped
  inTurn : s.InTurn
  requests : f.requests link.id = Question.requests (.registration :: s.sent.map .survey)
  told : ∃ ack answers, (ack = .ready ∨ ack = .void) ∧ answers.Nodup ∧
    (∀ kind reply, (kind, reply) ∈ answers ↔ s.get kind = .answered reply) ∧
    Passed link port h (Milestone.answered ack answers)

namespace Surveys.Asking

variable {link : Link} {port : UInt16} {h : List Transition} {f : Fabric} {s : Surveys}

theorem begun (a : Asking link port h f s) : f.requests link.id <+: Request.bringUp := by
  rw [a.requests]
  have hp : (s.sent.map Question.survey) <+: (order.map Question.survey) :=
    (prefix_sent a.inTurn).map _
  have hall : (Question.registration :: order.map Question.survey) <+: Question.bringUp :=
    ⟨[.peers], rfl⟩
  exact (((List.prefix_cons_inj _).mpr hp).trans hall).map _

/-- Something else is done. -/
theorem skip (a : Asking link port h f s) (x : Transition) {g : Fabric}
    (same : g.requests link.id = f.requests link.id) : Asking link port (h ++ [x]) g s := by
  obtain ⟨ack, answers, hack, hnodup, hans, hpassed⟩ := a.told
  exact ⟨a.needed, a.inTurn, same.trans a.requests, ack, answers, hack, hnodup, hans,
    hpassed.skip x⟩

/-- A further survey is sent. -/
theorem issue (a : Asking link port h f s) {kind : SurveyKind} (hk : s.unsent? = some kind)
    (x : Transition) :
    Asking link port (h ++ [x]) (f.send link.id (SchemaRefresh.request .all kind))
      (s.set kind .waiting) := by
  obtain ⟨hturn, hsent⟩ := sent_issue a.inTurn hk
  obtain ⟨ack, answers, hack, hnodup, hans, hpassed⟩ := a.told
  have hunsent : s.get kind = .unsent := by simpa using List.find?_some hk
  refine ⟨?_, hturn, ?_, ack, answers, hack, hnodup, fun other reply => ?_, hpassed.skip x⟩
  · cases kind
    · exact fun e => by cases e
    · exact a.needed
    · exact a.needed
  · rw [Fabric.requests_send, if_pos rfl, a.requests, hsent, List.map_append, Question.requests,
      Question.requests, ← List.cons_append, List.map_append]
    rfl
  · rw [hans]
    by_cases ho : kind = other
    · subst ho
      rw [get_set, hunsent]
      exact ⟨fun e => (by cases e), fun e => by cases e⟩
    · rw [get_set_ne ho]

/-- A survey is answered. -/
theorem answer (a : Asking link port h f s) {kind : SurveyKind} {reply : Reply}
    (hk : s.get kind = .waiting) {x : Transition} (hx : x.Answers link (.survey kind) reply) :
    Asking link port (h ++ [x]) f (s.set kind (.answered reply)) := by
  obtain ⟨hturn, hsent⟩ := sent_answer a.inTurn hk reply
  obtain ⟨ack, answers, hack, hnodup, hans, hpassed⟩ := a.told
  have hnew : ∀ r, (kind, r) ∉ answers := fun r hm => by
    have := (hans kind r).mp hm
    rw [hk] at this; cases this
  refine ⟨?_, hturn, by rw [hsent]; exact a.requests, ack, answers ++ [(kind, reply)], hack, ?_,
    fun other r => ?_, ?_⟩
  · cases kind
    · exact fun e => by cases e
    · exact a.needed
    · exact a.needed
  · refine List.nodup_append.mpr ⟨hnodup, by simp, fun i hi j hj e => ?_⟩
    rw [List.mem_singleton.mp hj] at e
    exact hnew reply (e ▸ hi)
  · rw [List.mem_append, hans, List.mem_singleton, Prod.mk.injEq]
    by_cases ho : kind = other
    · subst ho
      rw [get_set, hk, SurveyState.answered.injEq]
      exact ⟨fun e => e.elim (fun e => by cases e) fun e => e.2.symm, fun e => .inr ⟨rfl, e.symm⟩⟩
    · rw [get_set_ne ho]
      exact ⟨fun e => e.elim id fun e => absurd e.1.symm ho, .inl⟩
  · have hshown : (Milestone.surveyed kind reply).Shows link port x := hx
    have hp := hpassed.shown hshown
    rw [Milestone.answered, List.cons_append] at hp
    rw [Milestone.answered, List.map_append]
    exact hp

/-- All surveys are answered, with rows. -/
theorem complete (a : Asking link port h f s) {replies : Replies} {rows : SurveyRows}
    (hr : s.replies? = some replies) (hrows : replies.rows = .ok rows) :
    f.requests link.id =
        Question.requests (.registration :: order.map .survey) ∧
      ∃ ack answers, (ack = .ready ∨ ack = .void) ∧ Surveyed answers rows ∧
        Passed link port h (Milestone.answered ack answers) := by
  obtain ⟨ack, answers, hack, hnodup, hans, hpassed⟩ := a.told
  have hreq := a.requests
  obtain rfl := replies?_eq_some.mp hr
  obtain rfl := Replies.eq_of_rows hrows
  obtain ⟨_ | keyspaces, columnFamilies, columns⟩ := rows
  · exact absurd rfl a.needed
  refine ⟨by rw [hreq]; rfl, ack, answers, hack, ⟨keyspaces, rfl, ?_⟩, hpassed⟩
  refine (List.perm_ext_iff_of_nodup hnodup (by simp)).mpr fun ⟨kind, r⟩ => ?_
  rw [hans]
  cases kind <;> simp [get, Replies.surveys, SurveyRows.replies, eq_comm]

end Surveys.Asking

namespace SchemaRefresh

/-- The requests up to the last survey. -/
def requests : List Request := Question.requests (.registration :: Surveys.order.map .survey)

theorem prefix_requests : requests <+: Request.bringUp := ⟨[Question.request .all .peers], rfl⟩

/-- What has happened while a bring-up refreshes the schema on the connection behind `link`. -/
def Trail (link : Link) (port : UInt16) (h : List Transition) (f : Fabric) :
    Progress SchemaRefresh Result → Prop
  | .running r => r.connection = link.id ∧ r.scope = .all ∧ match r.stage with
      | .asking s => s.Asking link port h f
      | .applying rows => f.requests link.id = requests ∧
          ∃ ack answers, (ack = .ready ∨ ack = .void) ∧ Surveyed answers rows ∧
            Passed link port h (Milestone.answered ack answers)
  | .done (.ok (.ready _)) => f.requests link.id = requests ∧
      ∃ schema, SchemaLearnt schema ∧ Passed link port h schema
  | .done _ => f.requests link.id <+: Request.bringUp

variable {link : Link} {port : UInt16} {h : List Transition} {f : Fabric}

theorem Trail.begun {p : Progress SchemaRefresh Result} (t : Trail link port h f p) :
    f.requests link.id <+: Request.bringUp := by
  cases p with
  | running r =>
    obtain ⟨c, scope, stage⟩ := r
    cases stage with
    | asking s => exact t.2.2.begun
    | applying rows => exact t.2.2.1 ▸ prefix_requests
  | done result =>
    rcases result with e | (u | _)
    · exact t
    · exact t.1 ▸ prefix_requests
    · exact t

theorem Trail.skip {r : SchemaRefresh} (t : Trail link port h f (.running r)) (x : Transition)
    {g : Fabric} (same : g.requests link.id = f.requests link.id) :
    Trail link port (h ++ [x]) g (.running r) := by
  obtain ⟨c, scope, stage⟩ := r
  obtain ⟨hc, hscope, hstage⟩ := t
  cases stage with
  | asking s =>
    have a : s.Asking link port h f := hstage
    exact ⟨hc, hscope, a.skip x same⟩
  | applying rows =>
    obtain ⟨hreq, ack, answers, hack, hsurveyed, hpassed⟩ := hstage
    exact ⟨hc, hscope, same.trans hreq, ack, answers, hack, hsurveyed, hpassed.skip x⟩

/-- A refresh begins once the registration is acknowledged. -/
theorem trail_start (cancelled : Bool)
    (hreq : f.requests link.id = Question.requests [.registration]) {ack : Reply}
    (hack : ack = .ready ∨ ack = .void) (hp : Passed link port h [.registered ack]) :
    Trail link port h (start f cancelled link.id .all).1 (start f cancelled link.id .all).2 := by
  cases cancelled with
  | true =>
    show f.requests link.id <+: _
    exact hreq ▸ Question.prefix_registration
  | false =>
    refine ⟨rfl, rfl, ⟨fun e => (by cases e), ⟨fun e => (by cases e), fun _ => rfl⟩, ?_, ack, [],
      hack, List.nodup_nil, fun kind reply => ⟨fun e => (by cases e), fun e => ?_⟩, hp⟩⟩
    · exact (Fabric.requests_send _ _ _ _).trans (by rw [if_pos rfl, hreq]; rfl)
    · cases kind <;> cases e

/-- All surveys are answered, or some are still waited for. -/
theorem trail_settle {s : Surveys} (a : s.Asking link port h f) :
    Trail link port h f (settle link.id .all s) := by
  unfold settle
  split
  · exact ⟨rfl, rfl, a⟩
  · rename_i replies hr
    split
    · exact a.begun
    · rename_i rows hrows
      exact ⟨rfl, rfl, a.complete hr hrows⟩

theorem trail_resume {r : SchemaRefresh} {signal : Signal}
    {o : Fabric × Progress SchemaRefresh Result} {x : Transition}
    (hr : r.resume f signal = some o) (t : Trail link port h f (.running r))
    (d : x.Drives (some link) r.need signal f o.1) : Trail link port (h ++ [x]) o.1 o.2 := by
  have hbegun := t.begun
  have hx := d.serves link rfl
  obtain ⟨hc, hscope, hstage⟩ := t
  cases moves_of_resume hr with
  | @sends c scope s kind hk =>
    obtain rfl : c = link.id := hc
    obtain rfl : scope = .all := hscope
    have a : s.Asking link port h f := hstage
    exact ⟨rfl, rfl, a.issue hk x⟩
  | fails _ | stops | refuses _ => exact hbegun
  | @hears c scope s kind reply hwaiting =>
    obtain rfl : c = link.id := hc
    obtain rfl : scope = .all := hscope
    have a : s.Asking link port h f := hstage
    have hmem : Question.survey kind ∈ s.waiting.map Question.survey :=
      List.mem_map_of_mem (List.mem_filter.mpr
        ⟨by cases kind <;> simp [Surveys.order], decide_eq_true hwaiting⟩)
    have hans : x.Answers link (.survey kind) reply := ⟨_, _, hmem, hx⟩
    exact trail_settle (a.answer hwaiting hans)
  | @applies c scope rows store hrebuilt =>
    obtain rfl : scope = .all := hscope
    obtain ⟨hreq, ack, answers, hack, hsurveyed, hpassed⟩ := hstage
    have hshown : (Milestone.rebuilt rows).Shows link port x := by
      unfold Milestone.Shows
      rw [d.before, d.after]
      exact ⟨hx, hrebuilt, Store.learns_of_rebuildSchema hrebuilt⟩
    exact ⟨hreq, _, .intro hack hsurveyed, hpassed.shown hshown⟩

end SchemaRefresh

end ControlChannel
