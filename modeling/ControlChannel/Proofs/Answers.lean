import ControlChannel.Proofs.Refreshes

/-! # Connection faults among the errors of a refresh

A refresh fails because its request could not be answered, because the answer cannot be used or
because the node rejected the request. Only the first of these can be a connection fault: what is
computed from an answer never fails with one (`Mild`). Main statements: a refresh that ends with a
connection fault was answered with it (`SchemaRefresh.answered_of_fault`,
`TopologyRefresh.answered_of_fault`). -/

namespace ControlChannel

/-! ## Answers that cannot be used -/

/-- A computation on answers that does not fail with a connection fault. -/
def Mild {α : Type} (x : Except Error α) : Prop :=
  ∀ e, x = .error e → e.isConnectionFault = false

namespace Mild

variable {α β : Type}

theorem ok (a : α) : Mild (.ok a : Except Error α) := fun _ h => by cases h

theorem bind {x : Except Error α} {f : α → Except Error β} (h : Mild x) (hf : ∀ a, Mild (f a)) :
    Mild (x >>= f) := by
  cases x with
  | error e => exact fun e' h' => h e' (by cases h'; rfl)
  | ok a => exact hf a

theorem map {x : Except Error α} (f : α → β) (h : Mild x) : Mild (f <$> x) := by
  cases x with
  | error e => exact fun e' h' => h e' (by cases h'; rfl)
  | ok a => exact ok (f a)

theorem ofRows (x : Except RowFault α) : Mild (x.mapError RowFault.error) := by
  cases x with
  | error fault => exact fun e h => by cases h; rfl
  | ok a => exact ok a

end Mild

theorem Reply.mild_resultSet (reply : Reply) : Mild reply.resultSet := by
  cases reply with
  | rows set => exact .ok set
  | ready | void | rejected code message => exact fun e h => by cases h; rfl

theorem Replies.mild_rows (r : Replies) : Mild r.rows := by
  obtain ⟨keyspaces, columnFamilies, columns⟩ := r
  have hrest : ∀ k : Option ResultSet, Mild (do
      let columnFamilies ← columnFamilies.resultSet
      let columns ← columns.resultSet
      return (⟨k, columnFamilies, columns⟩ : SurveyRows)) := fun k =>
    columnFamilies.mild_resultSet.bind fun _ => columns.mild_resultSet.bind fun _ => .ok _
  cases keyspaces with
  | none => exact hrest none
  | some reply => exact (reply.mild_resultSet.map some).bind hrest

/-! ## Refreshes that end with a connection fault -/

namespace SchemaRefresh

theorem settle_mild {c : ConnectionId} {scope : Schema.Scope} {s : Surveys} {e : Error}
    (h : settle c scope s = .done (.error e)) : e.isConnectionFault = false := by
  unfold settle at h
  split at h
  · cases h
  · rename_i replies _
    split at h
    · rename_i hrows
      cases h
      exact replies.mild_rows e hrows
    · cases h

/-- A schema refresh fails with a connection fault only if a survey is answered with it. -/
theorem answered_of_fault {f : Fabric} {r : SchemaRefresh} {signal : Signal} {e : Error}
    {o : Fabric × Progress SchemaRefresh Result} (h : r.resume f signal = some o)
    (ho : o.2 = .done (.error e)) (he : e.isConnectionFault = true) :
    ∃ question, signal = .answered question (.error e) := by
  cases moves_of_resume h with
  | sends _ | stops | applies _ => cases ho
  | fails _ => cases ho; exact ⟨_, rfl⟩
  | hears _ => rw [settle_mild ho] at he; cases he
  | refuses _ => cases ho; cases he

theorem resume_answered {f : Fabric} {r : SchemaRefresh} {question : Question} {e : Error}
    {o : Fabric × Progress SchemaRefresh Result}
    (h : r.resume f (.answered question (.error e)) = some o) : o = (f, .done (.error e)) := by
  cases moves_of_resume h with
  | fails _ => rfl

end SchemaRefresh

namespace TopologyRefresh

theorem mild_found (connected : Address) (port : UInt16) (reply : Reply) :
    Mild (found connected port reply) :=
  reply.mild_resultSet.bind fun _ => .ofRows _

theorem heard_mild {connected : Address} {port : UInt16} {reply : Reply} {e : Error}
    (h : heard connected port reply = .done (.error e)) : e.isConnectionFault = false := by
  unfold heard at h
  split at h
  · rename_i hfound
    cases h
    exact mild_found connected port reply e hfound
  · cases h

theorem nextRemoval_ne_error (diff : Topology.Diff) (rest : List Address) (e : Error) :
    nextRemoval diff rest ≠ .done (.error e) := by
  cases rest <;> exact fun h => by cases h

theorem nextAddition_ne_error (diff : Topology.Diff) (rest : List Address) (e : Error) :
    nextAddition diff rest ≠ .done (.error e) := by
  cases rest with
  | nil => exact nextRemoval_ne_error diff _ e
  | cons a rest => exact fun h => by cases h

theorem answered_of_advance {f : Fabric} {connected : Address} {port : UInt16}
    {stage : TopologyStage} {signal : Signal} {e : Error}
    {o : Fabric × Progress TopologyStage Result}
    (h : advance f connected port stage signal = some o) (ho : o.2 = .done (.error e))
    (he : e.isConnectionFault = true) : ∃ question, signal = .answered question (.error e) := by
  cases moves_of_advance h with
  | fails => cases ho; exact ⟨_, rfl⟩
  | hears => rw [heard_mild ho] at he; cases he
  | stops | finds _ => cases ho
  | compares _ | adds => exact absurd ho (nextAddition_ne_error _ _ e)
  | misses _ | removes => exact absurd ho (nextRemoval_ne_error _ _ e)

/-- A topology refresh fails with a connection fault only if its question is answered with it. -/
theorem answered_of_fault {f : Fabric} {r : TopologyRefresh} {signal : Signal} {e : Error}
    {o : Fabric × Progress TopologyRefresh Result} (h : r.resume f signal = some o)
    (ho : o.2 = .done (.error e)) (he : e.isConnectionFault = true) :
    ∃ question, signal = .answered question (.error e) := by
  obtain ⟨⟨g, p⟩, hs, rfl⟩ := Option.map_eq_some_iff.mp h
  refine answered_of_advance hs ?_ he
  cases p with
  | running stage => cases ho
  | done result => exact congrArg _ (Progress.done.inj ho)

theorem resume_answered {f : Fabric} {r : TopologyRefresh} {question : Question} {e : Error}
    {o : Fabric × Progress TopologyRefresh Result}
    (h : r.resume f (.answered question (.error e)) = some o) : o = (f, .done (.error e)) := by
  obtain ⟨link, port, stage⟩ := r
  obtain ⟨x, hs, rfl⟩ := Option.map_eq_some_iff.mp h
  cases moves_of_advance hs with
  | fails => rfl

end TopologyRefresh

end ControlChannel
