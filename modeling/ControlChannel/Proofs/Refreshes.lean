import ControlChannel.Proofs.Acts
import ControlChannel.Refresh.Schema
import ControlChannel.Refresh.Topology

/-! # What refreshes do and leave alone

What one step of a refresh can be is said once (`SchemaRefresh.Moves`, `TopologyRefresh.Moves`).
A refresh asks on its own connection and changes the store; it neither opens nor closes a
connection (`Quiet`, `Fabric.StaysOn`), and it comes back cancelled only when it was told so. The
rows a schema refresh has decoded fix the replies it was given (`Replies.eq_of_rows`). -/

namespace ControlChannel

/-- Work that neither opens nor closes a connection. -/
structure Quiet (f g : Fabric) : Prop where
  connections : g.connections = f.connections
  openings : g.openings = f.openings
  closings : g.closings = f.closings

namespace Quiet

theorem refl (f : Fabric) : Quiet f f := ⟨rfl, rfl, rfl⟩

theorem of_acts {f g : Fabric} (hc : g.connections = f.connections) (ha : g.acts = f.acts) :
    Quiet f g := ⟨hc, Fabric.openings_congr ha, Fabric.closings_congr ha⟩

theorem send (f : Fabric) (c : ConnectionId) (r : Request) : Quiet f (f.send c r) :=
  ⟨rfl, Fabric.openings_send f c r, Fabric.closings_send f c r⟩

end Quiet

/-- Quiet work that sends on the connection `c` only, and stays on it while it goes on. -/
structure Fabric.StaysOn {σ ρ : Type} (f : Fabric) (of : σ → ConnectionId) (c : ConnectionId)
    (o : Fabric × Progress σ ρ) : Prop where
  quiet : Quiet f o.1
  elsewhere : ∀ d ≠ c, o.1.requests d = f.requests d
  same : ∀ s, o.2 = .running s → of s = c

theorem Fabric.requests_send_of_ne {f : Fabric} {c d : ConnectionId} (h : d ≠ c) (r : Request) :
    (f.send c r).requests d = f.requests d := by
  rw [requests_send, if_neg h.symm, List.append_nil]

/-! ## Replies to surveys -/

/-- The replies that these rows came in. -/
def SurveyRows.replies (r : SurveyRows) : Replies where
  keyspaces := r.keyspaces.map .rows
  columnFamilies := .rows r.columnFamilies
  columns := .rows r.columns

theorem SurveyRows.rows_replies (r : SurveyRows) : r.replies.rows = .ok r := by
  obtain ⟨keyspaces, columnFamilies, columns⟩ := r
  cases keyspaces <;> rfl

/-- Replies that are all rows. -/
theorem Replies.eq_of_rows {r : Replies} {rows : SurveyRows} (h : r.rows = .ok rows) :
    r = rows.replies := by
  obtain ⟨keyspaces, columnFamilies, columns⟩ := r
  cases columnFamilies with
  | ready | void | rejected _ _ => rcases keyspaces with _ | (_ | _ | _ | _) <;> cases h
  | rows f =>
    cases columns with
    | ready | void | rejected _ _ => rcases keyspaces with _ | (_ | _ | _ | _) <;> cases h
    | rows c =>
      rcases keyspaces with _ | (_ | _ | set | _) <;> cases h
      · rfl
      · rfl

theorem SurveyRows.replies_inj {r r' : SurveyRows} (h : r.replies = r'.replies) : r = r' :=
  Except.ok.inj (r.rows_replies.symm.trans (h ▸ r'.rows_replies))

/-- The surveys when these are all the replies. -/
def Replies.surveys (r : Replies) : Surveys where
  keyspaces := match r.keyspaces with
    | some k => .answered k
    | none => .skipped
  columnFamilies := .answered r.columnFamilies
  columns := .answered r.columns

theorem Surveys.replies?_eq_some {s : Surveys} {r : Replies} :
    s.replies? = some r ↔ s = r.surveys := by
  constructor
  · obtain ⟨k, f, c⟩ := s
    intro h
    unfold replies? at h
    split at h
    · rename_i hk hf hc
      cases h
      exact (Surveys.mk.injEq ..).mpr ⟨hk, hf, hc⟩
    · rename_i hk hf hc
      cases h
      exact (Surveys.mk.injEq ..).mpr ⟨hk, hf, hc⟩
    · cases h
  · rintro rfl
    obtain ⟨keyspaces, columnFamilies, columns⟩ := r
    cases keyspaces <;> rfl

/-! ## Schema refreshes -/

namespace SchemaRefresh

/-- What one step of a schema refresh can be. -/
inductive Moves (f : Fabric) :
    SchemaRefresh → Signal → Fabric × Progress SchemaRefresh Result → Prop where
  | sends {c : ConnectionId} {scope : Schema.Scope} {s : Surveys} {kind : SurveyKind}
      (unsent : s.unsent? = some kind) :
      Moves f ⟨c, scope, .asking s⟩ .go
        (f.send c (request scope kind), .running ⟨c, scope, .asking (s.set kind .waiting)⟩)
  | fails {c : ConnectionId} {scope : Schema.Scope} {s : Surveys} {kind : SurveyKind} {e : Error}
      (waiting : s.get kind = .waiting) :
      Moves f ⟨c, scope, .asking s⟩ (.answered (.survey kind) (.error e)) (f, .done (.error e))
  | hears {c : ConnectionId} {scope : Schema.Scope} {s : Surveys} {kind : SurveyKind}
      {reply : Reply} (waiting : s.get kind = .waiting) :
      Moves f ⟨c, scope, .asking s⟩ (.answered (.survey kind) (.ok reply))
        (f, settle c scope (s.set kind (.answered reply)))
  | stops {c : ConnectionId} {scope : Schema.Scope} {s : Surveys} :
      Moves f ⟨c, scope, .asking s⟩ .cancelled (f, .done (.ok .cancelled))
  | applies {c : ConnectionId} {scope : Schema.Scope} {rows : SurveyRows} {store : Store}
      (rebuilt : f.store.rebuildSchema scope.keyspace? scope.table? rows.keyspaces
        rows.columnFamilies rows.columns = .ok store) :
      Moves f ⟨c, scope, .applying rows⟩ .go ({ f with store := store }, .done (.ok (.ready ())))
  | refuses {c : ConnectionId} {scope : Schema.Scope} {rows : SurveyRows} {fault : RowFault}
      (refused : f.store.rebuildSchema scope.keyspace? scope.table? rows.keyspaces
        rows.columnFamilies rows.columns = .error fault) :
      Moves f ⟨c, scope, .applying rows⟩ .go (f, .done (.error fault.error))

theorem moves_of_resume {f : Fabric} {r : SchemaRefresh} {signal : Signal}
    {o : Fabric × Progress SchemaRefresh Result} (h : r.resume f signal = some o) :
    Moves f r signal o := by
  obtain ⟨c, scope, stage⟩ := r
  cases stage with
  | asking s =>
    cases signal with
    | go =>
      simp only [resume] at h
      split at h
      · rename_i hsome
        cases h
        obtain ⟨kind, hk⟩ := Option.isSome_iff_exists.mp hsome
        rw [issue, hk]
        exact .sends hk
      · cases h
    | answered question result =>
      cases question with
      | survey kind =>
        simp only [resume] at h
        split at h
        · rename_i hwaiting
          cases result with
          | error e => cases h; exact .fails hwaiting
          | ok reply => cases h; exact .hears hwaiting
        · cases h
      | _ => cases h
    | cancelled => cases h; exact .stops
    | _ => cases h
  | applying rows =>
    cases signal with
    | go =>
      simp only [resume, apply] at h
      split at h
      · rename_i hrebuilt
        cases h; exact .applies hrebuilt
      · rename_i hrefused
        cases h; exact .refuses hrefused
    | _ => cases h

/-- What the surveys lead to is further work on the same connection, or an error. -/
theorem settle_cases (c : ConnectionId) (scope : Schema.Scope) (s : Surveys) :
    (∃ stage, settle c scope s = .running ⟨c, scope, stage⟩) ∨
      ∃ e, settle c scope s = .done (.error e) := by
  unfold settle
  split
  · exact .inl ⟨_, rfl⟩
  · split
    · exact .inr ⟨_, rfl⟩
    · exact .inl ⟨_, rfl⟩

theorem staysOn_start (f : Fabric) (cancelled : Bool) (c : ConnectionId) (scope : Schema.Scope) :
    f.StaysOn connection c (start f cancelled c scope) := by
  cases cancelled with
  | true => exact ⟨.refl f, fun _ _ => rfl, fun s h => by cases h⟩
  | false =>
    refine ⟨?_, ?_, fun s h => by cases h; rfl⟩
    · show Quiet f (issue f c scope _).1
      unfold issue
      split
      · exact .send f c _
      · exact .refl f
    · intro d hd
      show (issue f c scope _).1.requests d = f.requests d
      unfold issue
      split
      · exact Fabric.requests_send_of_ne hd _
      · rfl

theorem cancelled_of_start {f : Fabric} {cancelled : Bool} {c : ConnectionId}
    {scope : Schema.Scope} (h : (start f cancelled c scope).2 = .done (.ok .cancelled)) :
    cancelled = true := by
  cases cancelled with
  | true => rfl
  | false => cases h

theorem staysOn_resume {f : Fabric} {r : SchemaRefresh} {signal : Signal}
    {o : Fabric × Progress SchemaRefresh Result} (h : r.resume f signal = some o) :
    f.StaysOn connection r.connection o := by
  cases moves_of_resume h with
  | sends _ =>
    exact ⟨.send f _ _, fun d hd => Fabric.requests_send_of_ne hd _, fun s h => by cases h; rfl⟩
  | fails _ | stops | refuses _ => exact ⟨.refl f, fun _ _ => rfl, fun s h => by cases h⟩
  | @hears c scope s kind reply _ =>
    refine ⟨.refl f, fun _ _ => rfl, fun r' h => ?_⟩
    rcases settle_cases c scope (s.set kind (.answered reply)) with ⟨stage, e⟩ | ⟨fault, e⟩
    · rw [e] at h
      cases h; rfl
    · rw [e] at h
      cases h
  | applies _ => exact ⟨.of_acts rfl rfl, fun _ _ => rfl, fun s h => by cases h⟩

theorem cancelled_of_resume {f : Fabric} {r : SchemaRefresh} {signal : Signal}
    {o : Fabric × Progress SchemaRefresh Result} (h : r.resume f signal = some o)
    (ho : o.2 = .done (.ok .cancelled)) : signal = .cancelled := by
  cases moves_of_resume h with
  | stops => rfl
  | sends _ | fails _ | applies _ | refuses _ => cases ho
  | @hears c scope s kind reply _ =>
    rcases settle_cases c scope (s.set kind (.answered reply)) with ⟨stage, e⟩ | ⟨fault, e⟩
    · rw [e] at ho
      cases ho
    · rw [e] at ho
      cases ho

end SchemaRefresh

/-! ## Topology refreshes -/

namespace TopologyRefresh

/-- What one step of a topology refresh can be. -/
inductive Moves (f : Fabric) (connected : Address) (port : UInt16) :
    TopologyStage → Signal → Fabric × Progress TopologyStage Result → Prop where
  | fails {e : Error} :
      Moves f connected port .asking (.answered .peers (.error e)) (f, .done (.error e))
  | hears {reply : Reply} :
      Moves f connected port .asking (.answered .peers (.ok reply)) (f, heard connected port reply)
  | stops : Moves f connected port .asking .cancelled (f, .done (.ok .cancelled))
  | compares {found : Topology.Addresses} {diff : Topology.Diff}
      (compared : diff = .ofSets found (Std.ExtTreeSet.ofList f.store.addresses)) :
      Moves f connected port (.listing found) .go (f, nextAddition diff diff.toAdd.toList)
  | adds {diff : Topology.Diff} {a : Address} {rest : List Address} :
      Moves f connected port (.adding diff a rest) .go (f.addHost a, nextAddition diff rest)
  | finds {diff : Topology.Diff} {a : Address} {rest : List Address} {host : Host}
      (known : f.store.host? a = some host) :
      Moves f connected port (.finding diff a rest) .go (f, .running (.removing diff host rest))
  | misses {diff : Topology.Diff} {a : Address} {rest : List Address}
      (unknown : f.store.host? a = none) :
      Moves f connected port (.finding diff a rest) .go (f, nextRemoval diff rest)
  | removes {diff : Topology.Diff} {host : Host} {rest : List Address} :
      Moves f connected port (.removing diff host rest) .go
        (f.removeHost host.address, nextRemoval diff rest)

variable {f : Fabric} {connected : Address} {port : UInt16} {stage : TopologyStage}
variable {signal : Signal}

theorem moves_of_advance {o : Fabric × Progress TopologyStage Result}
    (h : advance f connected port stage signal = some o) :
    Moves f connected port stage signal o := by
  unfold advance at h
  split at h
  · cases h; exact .fails
  · cases h; exact .hears
  · cases h; exact .stops
  · cases h; exact .compares rfl
  · cases h; exact .adds
  · split at h
    · rename_i hknown
      cases h; exact .finds hknown
    · rename_i hunknown
      cases h; exact .misses hunknown
  · cases h; exact .removes
  · cases h

theorem nextRemoval_ne_cancelled (diff : Topology.Diff) (rest : List Address) :
    nextRemoval diff rest ≠ .done (.ok .cancelled) := by
  cases rest <;> exact fun h => by cases h

theorem nextAddition_ne_cancelled (diff : Topology.Diff) (rest : List Address) :
    nextAddition diff rest ≠ .done (.ok .cancelled) := by
  cases rest with
  | nil => exact nextRemoval_ne_cancelled diff _
  | cons a rest => exact fun h => by cases h

theorem heard_ne_cancelled (connected : Address) (port : UInt16) (reply : Reply) :
    heard connected port reply ≠ .done (.ok .cancelled) := by
  unfold heard
  split <;> exact fun h => by cases h

theorem acts_of_advance {o : Fabric × Progress TopologyStage Result}
    (h : advance f connected port stage signal = some o) :
    o.1.acts = f.acts ∧ o.1.connections = f.connections := by
  cases moves_of_advance h with
  | fails | hears | stops | compares _ | finds _ | misses _ => exact ⟨rfl, rfl⟩
  | adds => exact ⟨f.acts_addHost _, f.connections_addHost _⟩
  | removes => exact ⟨f.acts_removeHost _, f.connections_removeHost _⟩

theorem cancelled_of_advance {o : Fabric × Progress TopologyStage Result}
    (h : advance f connected port stage signal = some o) (ho : o.2 = .done (.ok .cancelled)) :
    signal = .cancelled := by
  cases moves_of_advance h with
  | stops => rfl
  | fails | finds _ => cases ho
  | hears => exact absurd ho (heard_ne_cancelled _ _ _)
  | compares _ | adds => exact absurd ho (nextAddition_ne_cancelled _ _)
  | misses _ | removes => exact absurd ho (nextRemoval_ne_cancelled _ _)

theorem staysOn_start (f : Fabric) (cancelled : Bool) (link : Link) (port : UInt16) :
    f.StaysOn (fun r => r.link.id) link.id (start f cancelled link port) := by
  cases cancelled with
  | true => exact ⟨.refl f, fun _ _ => rfl, fun s h => by cases h⟩
  | false =>
    exact ⟨.send f _ _, fun d hd => Fabric.requests_send_of_ne hd _, fun s h => by cases h; rfl⟩

theorem cancelled_of_start {f : Fabric} {cancelled : Bool} {link : Link} {port : UInt16}
    (h : (start f cancelled link port).2 = .done (.ok .cancelled)) : cancelled = true := by
  cases cancelled with
  | true => rfl
  | false => cases h

theorem staysOn_resume {r : TopologyRefresh} {o : Fabric × Progress TopologyRefresh Result}
    (h : r.resume f signal = some o) : f.StaysOn (fun r => r.link.id) r.link.id o := by
  obtain ⟨⟨g, p⟩, hadv, rfl⟩ := Option.map_eq_some_iff.mp h
  obtain ⟨hacts, hconnections⟩ := acts_of_advance hadv
  refine ⟨.of_acts hconnections hacts, fun d _ => Fabric.requests_congr hacts d, fun s hs => ?_⟩
  cases p with
  | running stage => cases hs; rfl
  | done result => cases hs

theorem cancelled_of_resume {r : TopologyRefresh} {o : Fabric × Progress TopologyRefresh Result}
    (h : r.resume f signal = some o) (ho : o.2 = .done (.ok .cancelled)) :
    signal = .cancelled := by
  obtain ⟨⟨g, p⟩, hs, rfl⟩ := Option.map_eq_some_iff.mp h
  refine cancelled_of_advance hs ?_
  cases p with
  | running stage => cases ho
  | done result => exact congrArg _ (Progress.done.inj ho)

end TopologyRefresh

end ControlChannel
