import ControlChannel.Proofs.Control.Turns

/-! # The turns of calls and refreshes

A call and a refresh hold nothing; whatever they come to, nobody takes or leaves anything
(`Turn.sound_idle`), unless a trigger starts a session or a shutdown takes the connection out of
the slot. Main statement: the first step of every call is sound (`Turn.sound_begin`). -/

namespace ControlChannel

/-- A task that holds nothing and owns no handle. -/
structure Task.Bare (task : Task) : Prop where
  held : task.held? = none
  uses : task.uses? = none
  handle : task.handle? = none
  seeking : task.isSeeking = false
  ending : task.isShutdown = false
  calm : ¬ task.GivenUp

theorem Task.bare_of_isIdle {task : Task} (h : task.isIdle = true) : task.Bare := by
  unfold isIdle at h
  split at h
  · exact ⟨rfl, rfl, rfl, rfl, rfl, fun ⟨_, ha, _⟩ => by cases ha⟩
  · exact ⟨rfl, rfl, rfl, rfl, rfl, fun ⟨_, ha, _⟩ => by cases ha⟩
  · exact ⟨rfl, rfl, rfl, rfl, rfl, fun ⟨_, ha, _⟩ => by cases ha⟩
  · exact ⟨rfl, rfl, rfl, rfl, rfl, fun ⟨_, ha, hg⟩ => by cases ha; exact hg⟩
  · cases h

namespace Turn

/-- What tasks hold that hold nothing. -/
theorem lists_of_bare {ts : List Task} (h : ∀ t ∈ ts, t.Bare) :
    Task.held ts = [] ∧ Task.used ts = [] ∧ Task.handles ts = [] := by
  refine ⟨List.flatMap_eq_nil_iff.mpr ?_, List.flatMap_eq_nil_iff.mpr ?_,
    List.filterMap_eq_nil_iff.mpr ?_⟩
  · intro t ht
    rw [(h t ht).held]; rfl
  · intro t ht
    rw [(h t ht).uses]; rfl
  · intro t ht
    exact (h t ht).handle

/-- A turn in which nobody takes or leaves anything. -/
theorem sound_idle {k : Control} {task : Task} {turn : Turn} (before : task.isIdle = true)
    (after : ∀ t ∈ turn.tasks, t.isIdle = true) (keeps : k.Keeps turn.control)
    (quiet : Quiet k.fabric turn.control.fabric)
    (told : ∃ es, turn.control.events = es ++ k.events ∧ Tells k es)
    (finished : turn.result.isSome = true → turn.task = none) : Sound k task turn := by
  have hbare := Task.bare_of_isIdle before
  have hbares : ∀ t ∈ turn.tasks, t.Bare := fun t ht => Task.bare_of_isIdle (after t ht)
  obtain ⟨hhelds, huseds, hhandles⟩ := lists_of_bare hbares
  have g : Goes k task turn := by
    refine ⟨told, keeps.isShutDown, ?_, hbare.ending, fun t ht => (hbares t ht).ending⟩
    rw [keeps.phase]
  exact
    { settings := keeps.settings
      slot := .kept keeps.slot (by rw [hhandles, hbare.handle]; rfl)
      custody := by
        rw [hhelds, hbare.held, keeps.active]
        exact Passes.of_connections quiet.connections _
      openings := fun _ => quiet.openings
      closings := fun c hc => .inl (quiet.closings ▸ hc)
      asked := fun c hc => quiet.closings ▸ hc
      discards := by
        rw [hhelds]
        exact List.forall_mem_nil _
      uses := by
        rw [huseds]
        exact List.forall_mem_nil _
      actives := fun c hc => .inl (List.mem_append_left _ (keeps.active ▸ hc))
      filled := fun h => .inl (keeps.active ▸ h)
      stays := fun _ => keeps.active
      emptied := fun h => .inl (g.live ▸ h)
      events := g.events
      endings := g.endings
      closed := g.closed
      seeking := fun _ _ h => .inl ⟨keeps.phase ▸ h, hbare.seeking⟩
      calm := fun t ht hg => absurd hg (hbares t ht).calm
      finished := finished }

/-! ## Triggers -/

/-- A trigger that found the slot free. -/
structure Triggers (k l : Control) (handle : Handle) : Prop where
  settings : l.settings = k.settings
  fabric : l.fabric = k.fabric
  active : l.active = k.active
  events : l.events = k.events
  phase : l.phase = k.phase.shift .reconnecting
  slot : k.slot.tryOccupy = some (handle, l.slot)

theorem triggers_of_trigger {k l : Control} {task : Task} (h : k.trigger = some (l, task)) :
    ∃ handle, Triggers k l handle ∧ task = .background handle .fresh := by
  obtain ⟨⟨handle, slot⟩, ho, e⟩ := Option.map_eq_some_iff.mp h
  cases e
  refine ⟨handle, ⟨Attempt.settings_shift _ _, ?_, ?_, ?_, ?_, ?_⟩, rfl⟩
  · exact Control.fabric_shift _ _
  · exact Control.active_shift _ _
  · exact Control.events_shift _ _
  · exact Control.phase_shift _ _
  · rw [Control.slot_shift]; exact ho

theorem Triggers.live {k l : Control} {handle : Handle} (t : Triggers k l handle) :
    k.isShutDown = false ∧ l.isShutDown = false := by
  obtain ⟨_, hr, _, hs⟩ := Slot.tryOccupy_eq t.slot
  exact ⟨hr, by rw [Control.isShutDown, hs]; exact hr⟩

/-- A turn that ends with a trigger. -/
theorem sound_trigger {k l : Control} {task : Task} {f : Fabric} {handle : Handle} {turn : Turn}
    (before : task.isIdle = true) (q : Quiet k.fabric f)
    (t : Triggers { k with fabric := f } l handle) (hc : turn.control = l) (ht : turn.task = none)
    (hs : turn.spawned = some (.background handle .fresh)) : Sound k task turn := by
  have hbare := Task.bare_of_isIdle before
  obtain ⟨hlive, hlive'⟩ : k.isShutDown = false ∧ l.isShutDown = false := t.live
  have htasks : turn.tasks = [.background handle .fresh] := by rw [tasks, ht, hs]; rfl
  have hphase : l.phase = k.phase.shift .reconnecting := t.phase
  have g : Goes k task turn := by
    refine ⟨⟨[], by rw [hc, t.events]; rfl, List.forall_mem_nil _⟩, ?_, ?_, hbare.ending, ?_⟩
    · rw [hc, hlive, hlive']
    · rw [hc, hphase]
      exact Phase.shift_eq_closed Phase.noConfusion
    · rw [htasks]
      intro x hx
      rw [List.mem_singleton.mp hx]
      rfl
  exact
    { settings := hc ▸ t.settings
      slot := .taken handle hbare.handle (hc ▸ t.slot) (by rw [htasks]; rfl)
      custody := by
        rw [hc, htasks, hbare.held, t.active, t.fabric]
        exact Passes.of_connections q.connections _
      openings := by
        intro h
        rw [hlive] at h; cases h
      closings := by
        rw [hc, t.fabric]
        exact fun c h => .inl (q.closings ▸ h)
      asked := by
        rw [hc, t.fabric]
        exact fun c h => q.closings.symm ▸ h
      discards := by
        rw [htasks]
        exact List.forall_mem_nil _
      uses := by
        rw [htasks]
        exact List.forall_mem_nil _
      actives := by
        rw [hc, t.active]
        exact fun c h => .inl (List.mem_append_left _ h)
      filled := by
        rw [hc, t.active]
        exact .inl
      stays := fun _ => by rw [hc, t.active]
      emptied := by
        intro h
        rw [hc, hlive'] at h; cases h
      events := g.events
      endings := g.endings
      closed := g.closed
      seeking := fun _ _ _ => .inr ⟨_, htasks ▸ List.mem_singleton.mpr rfl, rfl⟩
      calm := by
        rw [htasks]
        intro x hx hg
        rw [List.mem_singleton.mp hx] at hg
        obtain ⟨a, ha, hg⟩ := hg
        cases ha
        exact hg.elim
      finished := fun _ => ht }

/-! ## Refreshes -/

variable {k : Control} {task : Task}

/-- The call is over and nothing else has happened. -/
theorem sound_answer (before : task.isIdle = true) (result : CallResult) :
    Sound k task (answer k result) :=
  sound_idle before (List.forall_mem_nil _) (.refl k) (.refl _) ⟨[], rfl, List.forall_mem_nil _⟩
    fun _ => rfl

theorem sound_ofRefresh {α : Type} {f : Fabric} (before : task.isIdle = true)
    (q : Quiet k.fabric f) (result : Except Error (Awaited α)) :
    Sound k task (ofRefresh { k with fabric := f } result) := by
  have hidle : ∀ r, Sound k task (answer { k with fabric := f } r) := fun r =>
    sound_idle before (List.forall_mem_nil _) (.fabric k f) q ⟨[], rfl, List.forall_mem_nil _⟩
      fun _ => rfl
  unfold ofRefresh
  split
  · exact hidle _
  · exact hidle _
  · rename_i e
    split
    · split
      · exact hidle _
      · rename_i ht
        obtain ⟨handle, t, rfl⟩ := triggers_of_trigger ht
        exact sound_trigger before q t rfl rfl rfl
    · refine sound_idle before (List.forall_mem_nil _) ⟨rfl, rfl, rfl, rfl⟩ q
        ⟨[.unexpectedError e.message], rfl, fun x hx => .inl ?_⟩ fun _ => rfl
      rw [List.mem_singleton.mp hx]
      rfl

/-- A task that goes on and still holds nothing. -/
theorem sound_stay {f : Fabric} {task' : Task} (before : task.isIdle = true)
    (after : task'.isIdle = true) (q : Quiet k.fabric f) :
    Sound k task (stay { k with fabric := f } task') := by
  refine sound_idle before (fun t ht => ?_) (.fabric k f) q ⟨[], rfl, List.forall_mem_nil _⟩
    fun h => by cases h
  rw [List.mem_singleton.mp ht]
  exact after

theorem sound_ofSchema {o : Fabric × Progress SchemaRefresh SchemaRefresh.Result}
    (before : task.isIdle = true) (q : Quiet k.fabric o.1) : Sound k task (ofSchema k o) := by
  unfold ofSchema
  split
  · exact sound_stay before rfl q
  · exact sound_ofRefresh before q _

theorem sound_ofNodes {o : Fabric × Progress TopologyRefresh TopologyRefresh.Result}
    (before : task.isIdle = true) (q : Quiet k.fabric o.1) : Sound k task (ofNodes k o) := by
  unfold ofNodes
  split
  · exact sound_stay before rfl q
  · exact sound_ofRefresh before q _

/-! ## Shutdowns -/

/-- What the last part of a shutdown does. -/
structure Ends (k l : Control) : Prop where
  settings : l.settings = k.settings
  fabric : l.fabric = k.fabric
  slot : l.slot = k.slot
  active : l.active = k.active
  events : l.events = .closed :: k.events
  phase : l.phase = .closed

theorem ends_finishShutdown (k : Control) : Ends k (finishShutdown k).control := by
  refine ⟨Attempt.settings_shift _ _, Control.fabric_shift _ _, Control.slot_shift _ _,
    Control.active_shift _ _, congrArg _ (Control.events_shift _ _), ?_⟩
  refine (Control.phase_shift _ _).trans ?_
  unfold Phase.shift
  split
  · assumption
  · rfl

/-- The connection that a shutdown took out of the slot is closed, and the end is published. -/
theorem sound_finishShutdown (closing : Link) :
    Sound k (.shutdown closing)
      (finishShutdown { k with fabric := k.fabric.lose closing.id }) := by
  have e := ends_finishShutdown { k with fabric := k.fabric.lose closing.id }
  have hlive : (finishShutdown { k with fabric := k.fabric.lose closing.id }).control.isShutDown =
      k.isShutDown := congrArg Slot.revoked e.slot
  exact
    { settings := e.settings
      slot := .kept e.slot rfl
      custody := by
        rw [e.fabric, e.active]
        exact ((Passes.lose k.fabric closing.id).frame (Link.ids k.active)).perm
          List.perm_append_comm List.perm_append_comm
      openings := by
        rw [e.fabric]
        exact fun _ => rfl
      closings := by
        rw [e.fabric]
        exact fun c hc => .inl hc
      asked := by
        rw [e.fabric]
        exact fun c hc => hc
      discards := List.forall_mem_nil _
      uses := List.forall_mem_nil _
      actives := by
        rw [e.active]
        exact fun c hc => .inl (List.mem_append_left _ hc)
      filled := by
        rw [e.active]
        exact .inl
      stays := fun _ => e.active
      emptied := by
        rw [hlive]
        exact .inl
      events := ⟨[.closed], e.events, fun a ha => by cases List.mem_singleton.mp ha⟩
      endings := by
        rw [Control.endings, e.events, hlive, List.count_cons_self]
        rfl
      closed := by
        rw [e.phase, e.events]
        exact fun _ => ⟨fun _ => List.mem_cons_self, fun _ => rfl⟩
      seeking := by
        rw [e.phase]
        exact fun _ _ h => by cases h
      calm := List.forall_mem_nil _
      finished := fun _ => rfl }

/-- The call of a shutdown that nobody has called before. -/
theorem sound_beginShutdown (h : k.isShutDown = false) :
    Sound k (.called .shutdown) (beginShutdown k) := by
  have hcancel : k.slot.revoke.cancel.revoked = true := Slot.revoked_cancel _
  have hn : ¬ k.isShutDown = true := by rw [h]; exact Bool.false_ne_true
  have hk : ∀ {p : Prop}, k.isShutDown = true → p := fun hs => absurd hs hn
  simp only [beginShutdown, if_neg hn]
  split
  · rename_i hnone
    have e := ends_finishShutdown { k with slot := k.slot.revoke.cancel }
    have hlive : (finishShutdown { k with slot := k.slot.revoke.cancel }).control.isShutDown =
        true := by rw [Control.isShutDown, e.slot]; exact hcancel
    exact
      { settings := e.settings
        slot := .revoked rfl h e.slot rfl
        custody := by
          rw [e.active, e.fabric]
          exact Passes.of_connections rfl _
        openings := hk
        closings := by
          rw [e.fabric]
          exact fun c hc => .inl hc
        asked := by
          rw [e.fabric]
          exact fun c hc => hc
        discards := List.forall_mem_nil _
        uses := List.forall_mem_nil _
        actives := by
          rw [e.active]
          exact fun c hc => .inl (List.mem_append_left _ hc)
        filled := fun _ => .inr hlive
        stays := hk
        emptied := fun _ => .inr (e.active.trans hnone)
        events := ⟨[.closed], e.events, fun a ha => by cases List.mem_singleton.mp ha⟩
        endings := by
          rw [Control.endings, e.events, hlive, h, List.count_cons_self]
          rfl
        closed := by
          rw [e.phase, e.events]
          exact fun _ => ⟨fun _ => List.mem_cons_self, fun _ => rfl⟩
        seeking := by
          rw [e.phase]
          exact fun _ _ h => by cases h
        calm := List.forall_mem_nil _
        finished := fun _ => rfl }
  · rename_i link hlink
    have hclosings : (k.fabric.close link.id).closings = link.id :: k.fabric.closings :=
      Fabric.closings_close _ _
    have hlive : (stay { k with
        slot := k.slot.revoke.cancel, active := none, fabric := k.fabric.close link.id }
        (.shutdown link)).control.isShutDown = true := hcancel
    exact
      { settings := rfl
        slot := .revoked rfl h rfl rfl
        custody := by
          rw [hlink]
          exact Passes.of_connections (by rfl) _
        openings := hk
        closings := by
          intro c hc
          rcases List.mem_cons.mp (hclosings ▸ hc) with rfl | hc
          · exact .inr ⟨List.mem_singleton.mpr rfl, List.not_mem_nil⟩
          · exact .inl hc
        asked := fun c hc => hclosings ▸ List.mem_cons_of_mem _ hc
        discards := fun c hc => .inr (hclosings ▸ List.mem_singleton.mp hc ▸ List.mem_cons_self)
        uses := List.forall_mem_nil _
        actives := List.forall_mem_nil _
        filled := fun _ => .inr hlive
        stays := hk
        emptied := fun _ => .inr rfl
        events := ⟨[], rfl, fun a ha => by cases ha⟩
        endings := by
          rw [hlive, h]
          rfl
        closed := id
        seeking := fun _ _ hp => .inl ⟨hp, rfl⟩
        calm := by
          intro t ht hg
          rw [List.mem_singleton.mp ht] at hg
          obtain ⟨a, ha, _⟩ := hg
          cases ha
        finished := fun h => by cases h }

/-! ## Every turn -/

theorem sound_begin (call : Call) : Sound k (.called call) (begin k call) := by
  cases call with
  | connect =>
    simp only [begin]
    split
    · exact sound_answer rfl _
    · split
      · exact sound_answer rfl _
      · exact sound_stay rfl rfl (.refl k.fabric)
  | refreshSchema keyspace table =>
    simp only [begin, beginSchema]
    split
    · exact sound_answer rfl _
    · exact sound_answer rfl _
    · exact sound_ofSchema rfl (SchemaRefresh.staysOn_start _ _ _ _).quiet
  | refreshNodes =>
    simp only [begin, beginNodes]
    split
    · exact sound_answer rfl _
    · exact sound_ofNodes rfl (TopologyRefresh.staysOn_start _ _ _ _).quiet
  | shutdown =>
    cases h : k.isShutDown with
    | false => exact sound_beginShutdown h
    | true =>
      simp only [begin, beginShutdown, if_pos h]
      exact sound_answer rfl _

end Turn

end ControlChannel
