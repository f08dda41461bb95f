import ControlChannel.Proofs.Control.Origins
import ControlChannel.Proofs.Control.Seeking

/-! # What is published after the end

Once the end is published, a step may publish one event more: the failure of a candidate whose
bring-up was still under way, or the unexpected error of a refresh that was (`Task.Reports`).
Everybody else looks for a shutdown before publishing. The end is the last event exactly if no such
error is met after it. Main statement: `closed_last`. -/

namespace ControlChannel

/-! ## Errors that are published in any case -/

/-- A task meets an error that it publishes, shut down or not. -/
inductive Task.Reports (k : Control) (signal : Signal) : Task → Event → Prop where
  | candidate {task : Task} {r : Round} {l : Control} {e : Error}
      (attempt : task.attempt? = some (.round r))
      (failed : r.bringUp.resume k r.target signal = some (l, .done (.error e)))
      (fault : e.isConnectionFault = true) :
      Reports k signal task (.connectionFailed r.target e.reason)
  | schema {r : SchemaRefresh} {f : Fabric} {e : Error}
      (failed : r.resume k.fabric signal = some (f, .done (.error e)))
      (unexpected : e.isConnectionFault = false) :
      Reports k signal (.refreshSchema r) (.unexpectedError e.message)
  | nodes {r : TopologyRefresh} {f : Fabric} {e : Error}
      (failed : r.resume k.fabric signal = some (f, .done (.error e)))
      (unexpected : e.isConnectionFault = false) :
      Reports k signal (.refreshNodes r) (.unexpectedError e.message)

theorem Task.Reports.isFailure {k : Control} {signal : Signal} {task : Task} {e : Event}
    (h : task.Reports k signal e) : e.isFailure = true := by
  cases h <;> rfl

/-- One more event is published if one is due, and it is that one. -/
def Control.Tells (k l : Control) (due : Event → Prop) : Prop :=
  (l.events = k.events ∧ ∀ e, ¬ due e) ∨ ∃ e, due e ∧ l.events = e :: k.events

namespace Control.Tells

variable {k l : Control} {due due' : Event → Prop}

theorem congr {m : Control} (h : Tells k l due) (he : m.events = l.events) : Tells k m due := by
  rw [Tells, he]
  exact h

theorem iff (h : Tells k l due) (hd : ∀ e, due' e ↔ due e) : Tells k l due' := by
  simpa only [Tells, hd] using h

theorem silent (h : l.events = k.events) (none : ∀ e, ¬ due e) : Tells k l due := .inl ⟨h, none⟩

theorem loud {e : Event} (h : l.events = e :: k.events) (he : due e) : Tells k l due :=
  .inr ⟨e, he, h⟩

end Control.Tells

theorem Task.not_reports {k : Control} {signal : Signal} {task : Task} {a : Attempt}
    (ha : task.attempt? = some a) (hn : ∀ r, a ≠ .round r) (e : Event) :
    ¬ task.Reports k signal e := by
  intro hreport
  cases hreport with
  | candidate attempt _ _ => exact hn _ (Option.some.inj (ha.symm.trans attempt))
  | schema _ _ | nodes _ _ => cases ha

/-! ## Attempts -/

namespace BringUp

variable {k : Control} {link : Link}

theorem events_register (k : Control) (link : Link) : (register k link).1.events = k.events := by
  unfold register
  split <;> rfl

theorem events_afterTopology (k : Control) (link : Link)
    (o : Fabric × Progress TopologyRefresh TopologyRefresh.Result) :
    (afterTopology k link o).1.events = k.events := by
  unfold afterTopology
  split <;> rfl

theorem events_afterSchema (k : Control) (link : Link)
    (o : Fabric × Progress SchemaRefresh SchemaRefresh.Result) :
    (afterSchema k link o).1.events = k.events := by
  unfold afterSchema
  split
  · rfl
  · exact events_afterTopology k link _
  · rfl
  · rfl

theorem events_registered (k : Control) (link : Link) (reply : Reply) :
    (registered k link reply).1.events = k.events := by
  unfold registered
  split
  · rfl
  · exact events_afterSchema k link _

/-- A bring-up publishes nothing of its own. -/
theorem events_resume {target : Address} {b : BringUp} {signal : Signal}
    {o : Control × Progress BringUp Result} (h : b.resume k target signal = some o) :
    o.1.events = k.events := by
  unfold resume at h
  split at h
  · cases h; exact events_register _ _
  · cases h; rfl
  · cases h; rfl
  · cases h; rfl
  · cases h; exact events_registered k _ _
  · cases h; rfl
  · cases h; rfl
  · obtain ⟨x, _, rfl⟩ := Option.map_eq_some_iff.mp h
    exact events_afterSchema k _ x
  · obtain ⟨x, _, rfl⟩ := Option.map_eq_some_iff.mp h
    exact events_afterTopology k _ x
  · cases h; rfl
  · cases h; rfl
  · cases h

end BringUp

namespace Round

theorem events_next (k : Control) (failures : Failures) (rest : List Address) :
    (next k failures rest).1.events = k.events := by
  rcases next_cases k failures rest with ⟨r, hn, _⟩ | ⟨_, target, rest', hn⟩
  · rw [hn]
  · rw [hn]
    rfl

/-- A round publishes the failure of a candidate, and nothing else. -/
theorem tells_resume {k : Control} {r : Round} {signal : Signal}
    {o : Control × Progress Round Result}
    (h : r.resume k signal = some o) {task : Task} (ha : task.attempt? = some (.round r)) :
    k.Tells o.1 (task.Reports k signal) := by
  obtain ⟨⟨l, p⟩, hx, rfl⟩ := Option.map_eq_some_iff.mp h
  have hevents : l.events = k.events := BringUp.events_resume hx
  have hmild : (∀ e, p = .done (.error e) → ¬ e.isConnectionFault = true) →
      ∀ event, ¬ task.Reports k signal event := by
    intro mild event hreport
    cases hreport with
    | candidate attempt failed fault =>
      cases ha.symm.trans attempt
      cases hx.symm.trans failed
      exact mild _ rfl fault
    | schema _ _ | nodes _ _ => cases ha
  cases p with
  | running b => exact .silent hevents (hmild fun _ h => by cases h)
  | done result =>
    cases result with
    | ok outcome => exact .silent hevents (hmild fun _ h => by cases h)
    | error e =>
      unfold afterBringUp
      dsimp only
      split
      · rename_i fault
        refine .loud ?_ (.candidate ha hx fault)
        rw [events_next]
        exact congrArg _ hevents
      · rename_i mild
        refine .silent hevents (hmild fun e' h => ?_)
        cases h
        exact mild

end Round

namespace Attempt

variable {k : Control}

/-- After a shutdown nothing is installed, and nothing published of it. -/
theorem events_afterRound {x : Control × Progress Round Round.Result}
    (shut : x.1.isShutDown = true) : (afterRound x).1.events = x.1.events := by
  obtain ⟨l, p⟩ := x
  cases p with
  | running r => rfl
  | done result =>
    rcases result with e | (link | _)
    · rfl
    · show (afterInstall (Install.start l link)).1.events = _
      rw [control_afterInstall, Install.start, if_pos shut]
      rfl
    · rfl

theorem events_fresh {signal : Signal} {o : Control × Progress Attempt Result}
    (h : Attempt.fresh.resume k signal = some o) (shut : k.isShutDown = true) :
    o.1.events = k.events := by
  cases signal with
  | go =>
    cases h
    rw [events_afterRound]
    · exact Round.events_next _ _ _
    · exact (Round.advances_start k).keeps.isShutDown.trans shut
  | _ => cases h

/-- After a shutdown an attempt publishes what its round does. -/
theorem tells_resume {a : Attempt} {signal : Signal} {o : Control × Progress Attempt Result}
    (h : a.resume k signal = some o) (shut : k.isShutDown = true) {task : Task}
    (ha : task.attempt? = some a) : k.Tells o.1 (task.Reports k signal) := by
  cases a with
  | fresh => exact .silent (events_fresh h shut) (Task.not_reports ha fun _ h => by cases h)
  | round r =>
    obtain ⟨x, hx, rfl⟩ := Option.map_eq_some_iff.mp h
    have adv := Round.advances_resume hx (fun _ => shut) fun _ => shut
    have hevents := events_afterRound (adv.keeps.isShutDown.trans shut)
    exact (Round.tells_resume hx ha).congr hevents
  | installing i =>
    obtain ⟨x, hx, rfl⟩ := Option.map_eq_some_iff.mp h
    refine .silent ?_ (Task.not_reports ha fun _ h => by cases h)
    cases signal with
    | closed => cases hx; rfl
    | _ => cases hx

theorem shut_resume {a : Attempt} {signal : Signal} {o : Control × Progress Attempt Result}
    (h : a.resume k signal = some o) (shut : k.isShutDown = true) : o.1.isShutDown = true := by
  rw [Control.isShutDown, (advances_resume h (fun _ => shut) fun _ => shut).slot]
  exact shut

end Attempt

/-! ## Turns after a shutdown -/

namespace Turn

variable {k : Control}

theorem events_ofConnect (o : Control × Progress Attempt Attempt.Result) :
    (ofConnect o).control.events = o.1.events := by
  unfold ofConnect
  split
  · rfl
  · rfl
  · rfl
  · exact Control.events_shift _ _

theorem isCancelled_of_shut (shut : k.isShutDown = true) (handle : Handle) :
    k.slot.isCancelled handle = true := by
  rw [Slot.isCancelled, show k.slot.revoked = true from shut]
  rfl

theorem events_ofBackground {o : Control × Progress Attempt Attempt.Result}
    (shut : o.1.isShutDown = true) (handle : Handle) :
    (ofBackground handle o).control.events = o.1.events := by
  obtain ⟨l, p⟩ := o
  rcases p with a | (e | outcome)
  · rfl
  · rw [ofBackground, if_pos (isCancelled_of_shut shut handle)]
    rfl
  · rfl

theorem events_ofSession (k : Control) (handle : Handle)
    (p : Progress (Session Round Install) SessionOutcome) :
    (ofSession k handle p).control.events = k.events := by
  cases p <;> rfl

theorem events_ofSessionAttempt {o : Control × Progress Attempt Attempt.Result}
    (shut : o.1.isShutDown = true) (handle : Handle) (schedule : Schedule) :
    (ofSessionAttempt handle schedule o).control.events = o.1.events := by
  obtain ⟨l, p⟩ := o
  rcases p with a | (e | outcome)
  · rfl
  · rw [ofSessionAttempt, isCancelled_of_shut shut handle]
    rfl
  · rfl

theorem trigger_of_shut (shut : k.isShutDown = true) : k.trigger = none := by
  rw [Control.trigger, Slot.tryOccupy, show k.slot.revoked = true from shut, Bool.or_true]
  rfl

/-- The event of an unexpected error. -/
def Unexpected {α : Type} (p : Except Error (Awaited α)) (event : Event) : Prop :=
  ∃ e, p = .error e ∧ e.isConnectionFault = false ∧ event = .unexpectedError e.message

/-- After a shutdown a refresh publishes the unexpected error that ends it. -/
theorem tells_ofRefresh {α : Type} {f : Fabric} (shut : k.isShutDown = true)
    (result : Except Error (Awaited α)) :
    k.Tells (ofRefresh { k with fabric := f } result).control (Unexpected result) := by
  rcases result with e | (value | _)
  · cases fault : e.isConnectionFault with
    | true =>
      have hnone : ({ k with fabric := f } : Control).trigger = none := trigger_of_shut shut
      rw [ofRefresh_fault α _ fault, ofFault, hnone]
      refine .silent rfl ?_
      rintro event ⟨_, he, mild, _⟩
      cases he
      rw [fault] at mild
      cases mild
    | false =>
      rw [ofRefresh, fault]
      exact .loud rfl ⟨e, rfl, fault, rfl⟩
  · refine .silent rfl ?_
    rintro event ⟨_, he, _⟩
    cases he
  · refine .silent rfl ?_
    rintro event ⟨_, he, _⟩
    cases he

theorem events_begin (shut : k.isShutDown = true) (call : Call) :
    (begin k call).control.events = k.events := by
  cases call with
  | connect => rw [begin, if_pos shut]; rfl
  | refreshSchema keyspace table =>
    simp only [begin, beginSchema, shut]
    split <;> rfl
  | refreshNodes =>
    simp only [begin, beginNodes, shut]
    split <;> rfl
  | shutdown => rw [begin, beginShutdown, if_pos shut]; rfl

end Turn

namespace Task

variable {k : Control} {task : Task} {signal : Signal} {turn : Turn}

theorem tells_resumeSession {handle : Handle} {s : Session Round Install}
    (h : resumeSession k handle s signal = some turn) (shut : k.isShutDown = true) :
    k.Tells turn.control ((Task.session handle s).Reports k signal) := by
  obtain ⟨schedule, stage⟩ := s
  have hsilent : (∀ r, stage.attempt ≠ .round r) → ∀ e,
      ¬ (Task.session handle ⟨schedule, stage⟩).Reports k signal e := not_reports rfl
  have hgoes : ∀ a o, a.resume k signal = some o → stage.attempt = a →
      k.Tells (Turn.ofSessionAttempt handle schedule o).control
        ((Task.session handle ⟨schedule, stage⟩).Reports k signal) := by
    intro a o ho ha
    have hattempt : (Task.session handle ⟨schedule, stage⟩).attempt? = some a := congrArg some ha
    exact (Attempt.tells_resume ho shut hattempt).congr
      (Turn.events_ofSessionAttempt (Attempt.shut_resume ho shut) handle schedule)
  cases stage with
  | fresh =>
    cases signal with
    | go => cases h; exact .silent (Turn.events_ofSession _ _ _) (hsilent fun _ h => by cases h)
    | _ => cases h
  | sleeping delay since =>
    cases signal with
    | cancelled => cases h; exact .silent rfl (hsilent fun _ h => by cases h)
    | woken =>
      simp only [resumeSession] at h
      split at h
      · obtain ⟨o, ho, rfl⟩ := Option.map_eq_some_iff.mp h
        refine .silent ?_ (hsilent fun _ h => by cases h)
        exact (Turn.events_ofSessionAttempt (Attempt.shut_resume ho shut) handle schedule).trans
          (Attempt.events_fresh ho shut)
      · cases h
    | _ => cases h
  | attempting r | settling i =>
    obtain ⟨o, ho, rfl⟩ := Option.map_eq_some_iff.mp h
    exact hgoes _ o ho rfl

theorem reports_schema {r : SchemaRefresh} {f : Fabric}
    {p : Progress SchemaRefresh SchemaRefresh.Result} {event : Event}
    (ho : r.resume k.fabric signal = some (f, p)) :
    (Task.refreshSchema r).Reports k signal event ↔
      ∃ result, p = .done result ∧ Turn.Unexpected result event := by
  constructor
  · intro hreport
    cases hreport with
    | candidate attempt _ _ => cases attempt
    | schema failed unexpected =>
      cases ho.symm.trans failed
      exact ⟨_, rfl, _, rfl, unexpected, rfl⟩
  · rintro ⟨_, rfl, e, rfl, unexpected, rfl⟩
    exact .schema ho unexpected

theorem reports_nodes {r : TopologyRefresh} {f : Fabric}
    {p : Progress TopologyRefresh TopologyRefresh.Result} {event : Event}
    (ho : r.resume k.fabric signal = some (f, p)) :
    (Task.refreshNodes r).Reports k signal event ↔
      ∃ result, p = .done result ∧ Turn.Unexpected result event := by
  constructor
  · intro hreport
    cases hreport with
    | candidate attempt _ _ => cases attempt
    | nodes failed unexpected =>
      cases ho.symm.trans failed
      exact ⟨_, rfl, _, rfl, unexpected, rfl⟩
  · rintro ⟨_, rfl, e, rfl, unexpected, rfl⟩
    exact .nodes ho unexpected

/-- **What a task publishes after the end** is the error that it reports in any case. -/
theorem tells_resume (h : task.resume k signal = some turn) (shut : k.isShutDown = true)
    (hs : task.isShutdown = false) : k.Tells turn.control (task.Reports k signal) := by
  cases task with
  | called call =>
    cases signal with
    | go =>
      cases h
      refine .silent (Turn.events_begin shut call) fun e hreport => ?_
      cases hreport with
      | candidate attempt _ _ => cases attempt
    | _ => cases h
  | connect a =>
    cases a with
    | fresh =>
      obtain ⟨o, ho, rfl⟩ := Option.map_eq_some_iff.mp h
      have hlive : k.connecting.isShutDown = true :=
        (isShutDown_readied k (.connect .fresh)).trans shut
      refine .silent ?_ (not_reports rfl fun _ h => by cases h)
      rw [Turn.events_ofConnect, Attempt.events_fresh ho hlive]
      exact Control.events_shift _ _
    | round r | installing i =>
      obtain ⟨o, ho, rfl⟩ := Option.map_eq_some_iff.mp h
      exact (Attempt.tells_resume ho shut rfl).congr (Turn.events_ofConnect o)
  | background handle a =>
    obtain ⟨o, ho, rfl⟩ := Option.map_eq_some_iff.mp h
    exact (Attempt.tells_resume ho shut rfl).congr
      (Turn.events_ofBackground (Attempt.shut_resume ho shut) handle)
  | session handle s => exact tells_resumeSession h shut
  | shutdown closing => cases hs
  | refreshSchema r =>
    obtain ⟨⟨f, p⟩, ho, rfl⟩ := Option.map_eq_some_iff.mp h
    refine Control.Tells.iff ?_ fun _ => reports_schema ho
    cases p with
    | running r' => exact .silent rfl fun _ ⟨_, hp, _⟩ => by cases hp
    | done result => exact (Turn.tells_ofRefresh shut result).iff fun _ => by simp
  | refreshNodes r =>
    obtain ⟨⟨f, p⟩, ho, rfl⟩ := Option.map_eq_some_iff.mp h
    refine Control.Tells.iff ?_ fun _ => reports_nodes ho
    cases p with
    | running r' => exact .silent rfl fun _ ⟨_, hp, _⟩ => by cases hp
    | done result => exact (Turn.tells_ofRefresh shut result).iff fun _ => by simp

/-- What a turn publishes of the end comes last. -/
theorem head?_of_closed (h : task.resume k signal = some turn) (s : Turn.Sound k task turn)
    (hn : .closed ∉ k.events) (hc : .closed ∈ turn.control.events) :
    turn.control.events.head? = some .closed := by
  have hfinish : ∀ l : Control, (Turn.finishShutdown l).control.events.head? = some .closed :=
    fun l => by rw [(Turn.ends_finishShutdown l).events]; rfl
  by_cases hcall : task = .called .shutdown
  · subst hcall
    cases signal with
    | go =>
      cases h
      change Event.closed ∈ (Turn.beginShutdown k).control.events at hc
      show (Turn.beginShutdown k).control.events.head? = _
      unfold Turn.beginShutdown at hc ⊢
      split
      · rename_i hs
        rw [if_pos hs] at hc
        exact absurd hc hn
      · rename_i hs
        rw [if_neg hs] at hc
        cases hactive : k.active with
        | none => exact hfinish _
        | some link =>
          rw [hactive] at hc
          exact absurd hc hn
    | _ => cases h
  · cases ht : task.isShutdown with
    | true =>
      cases task with
      | shutdown closing =>
        cases signal with
        | closed => cases h; exact hfinish _
        | _ => cases h
      | _ => cases ht
    | false =>
      -- the end is not due before or after the turn
      exfalso
      have hlive : turn.control.isShutDown = k.isShutDown := by
        unfold Control.isShutDown
        cases s.slot with
        | kept hs _ => rw [hs]
        | released handle _ hs _ => rw [hs, Slot.revoked_release]
        | taken handle _ hs _ =>
          obtain ⟨_, hr, _, e⟩ := Slot.tryOccupy_eq hs
          rw [e]
        | revoked hcall' _ _ _ => exact absurd hcall' hcall
      have hsum := s.endings
      have hzero : k.events.count .closed = 0 := List.count_eq_zero.mpr hn
      have hpos : 0 < turn.control.events.count .closed := List.count_pos_iff.mpr hc
      have htask : [task].countP Task.isShutdown = 0 := by simp [ht]
      rw [hlive, Control.endings, Control.endings, hzero, htask] at hsum
      omega

end Task

/-! ## Runs -/

/-- A step is the turn of a task that reports an error. -/
def Transition.Reports (x : Transition) (e : Event) : Prop :=
  ∃ job signal turn, x.Turns job signal turn ∧ job.task.Reports x.before.control signal e

namespace System

variable {settings : Settings} {store : Store} {balancing : Balancing}
variable {s t u : System} {a : Action} {h : List Transition} {x : Transition}

/-- Once the end is published nobody is about to publish it. -/
theorem ended {k : Control} {ts : List Task} (e : Ending k ts) (hc : .closed ∈ k.events) :
    k.isShutDown = true ∧ ∀ t ∈ ts, t.isShutdown = false := by
  have hpos : 0 < k.events.count .closed := List.count_pos_iff.mpr hc
  have hsum := e.endings
  rw [Control.endings] at hsum
  cases hs : k.isShutDown with
  | false =>
    rw [hs, Bool.toNat_false] at hsum
    omega
  | true =>
    rw [hs, Bool.toNat_true] at hsum
    have hzero : ts.countP Task.isShutdown = 0 := by omega
    exact ⟨rfl, fun t ht => Bool.eq_false_iff.mpr (List.countP_eq_zero.mp hzero t ht)⟩

/-- What was published stays published. -/
theorem events_moves (hs : s.Proper) (m : Moves s a u) :
    s.control.events <:+ u.control.events := by
  cases m with
  | outside _ _ | called _ | polled _ _ => exact List.suffix_refl _
  | started _ htrigger =>
    obtain ⟨_, t, _⟩ := Turn.triggers_of_trigger htrigger
    exact (show _ = _ from t.events) ▸ List.suffix_refl _
  | turn hj hr hh _ =>
    obtain ⟨es, he, _⟩ := (hs.sound hj hr hh).events
    rw [control_apply, he]
    exact List.suffix_append _ _

theorem events_reaches (hs : s.Proper) (r : Reaches s u) :
    s.control.events <:+ u.control.events := by
  induction r with
  | refl => exact List.suffix_refl _
  | step a r e ih => exact ih.trans (events_moves (hs.reaches r) (moves_of_step e))

/-- Any other step than a turn publishes nothing. -/
theorem events_of_moves (m : Moves s a u)
    (hn : ∀ job signal turn, ¬ Transition.Turns ⟨s, a, u⟩ job signal turn) :
    u.control.events = s.control.events := by
  cases m with
  | outside _ _ | called _ | polled _ _ => rfl
  | started _ htrigger =>
    obtain ⟨_, t, _⟩ := Turn.triggers_of_trigger htrigger
    exact t.events
  | @turn _ job signal turn hj hr hh ha => exact absurd ⟨hj, hr, hh, ha, rfl⟩ (hn job signal turn)

/-- What a step publishes after the end. -/
theorem tells_moves (hs : s.Proper) (e : Ending s.control s.tasks) (m : Moves s a u)
    (hc : .closed ∈ s.control.events) :
    s.control.Tells u.control (Transition.Reports ⟨s, a, u⟩) := by
  obtain ⟨shut, hnone⟩ := ended e hc
  by_cases hturns : ∃ job signal turn, Transition.Turns ⟨s, a, u⟩ job signal turn
  · obtain ⟨job, signal, turn, hturn⟩ := hturns
    have htells := Task.tells_resume hturn.resume shut (hnone _ (List.mem_map_of_mem hturn.mem))
    have hafter : u.control = turn.control := by
      rw [show u = _ from hturn.after, control_apply]
    rw [hafter]
    refine htells.iff fun event => ⟨fun ⟨job', signal', turn', hturn', hreport⟩ => ?_, fun h => ?_⟩
    · obtain ⟨rfl, rfl, _⟩ := hturn.unique hs hturn'
      exact hreport
    · exact ⟨job, signal, turn, hturn, h⟩
  · refine .silent (events_of_moves m fun job signal turn h => hturns ⟨_, _, _, h⟩) ?_
    rintro event ⟨job, signal, turn, h, _⟩
    exact hturns ⟨job, signal, turn, h⟩

/-- The end comes last in the step that publishes it. -/
theorem head?_of_moves (hs : s.Proper) (m : Moves s a u) (hn : .closed ∉ s.control.events)
    (hc : .closed ∈ u.control.events) : u.control.events.head? = some .closed := by
  cases m with
  | outside _ _ | called _ | polled _ _ => exact absurd hc hn
  | started _ htrigger =>
    obtain ⟨_, t, _⟩ := Turn.triggers_of_trigger htrigger
    exact absurd ((show _ = _ from t.events) ▸ hc) hn
  | turn hj hr hh _ =>
    rw [control_apply] at hc ⊢
    exact Task.head?_of_closed hr (hs.sound hj hr hh) hn hc

theorem reports_ne_closed {e : Event} (hx : x.Reports e) : e ≠ .closed := by
  obtain ⟨_, _, _, _, hreport⟩ := hx
  rintro rfl
  cases hreport.isFailure

theorem tells_of_run (run : Run (initial settings store balancing) h t) (hx : x ∈ h)
    (hc : .closed ∈ x.before.control.events) :
    x.before.control.Tells x.after.control x.Reports := by
  have hbefore := run.reaches_before hx
  exact tells_moves ((proper_initial settings store balancing).reaches hbefore)
    (ending_of_reaches hbefore) (moves_of_step (run.step_of_mem hx)) hc

theorem closed_of_mem (run : Run (initial settings store balancing) h t) (hx : x ∈ h)
    (hc : .closed ∈ x.before.control.events) : .closed ∈ t.control.events := by
  have hthere := (Reaches.refl x.before).step _ (run.step_of_mem hx)
  have hs := (proper_initial settings store balancing).reaches (run.reaches_before hx)
  exact (events_reaches hs (hthere.trans (run.reaches_of_mem hx))).subset hc

/-- **The end is the last event exactly if no error is met after it that is published in any
case.** After the end a step publishes the failure of a candidate whose bring-up was still under
way, or the unexpected error that ends a refresh; it publishes nothing else. -/
theorem closed_last (settings : Settings) (store : Store) (balancing : Balancing)
    (run : Run (initial settings store balancing) h t) :
    (∀ x ∈ h, .closed ∈ x.before.control.events →
      x.before.control.Tells x.after.control x.Reports) ∧
    (.closed ∈ t.control.events → (t.control.events.head? = some .closed ↔
      ∀ x ∈ h, .closed ∈ x.before.control.events → ∀ e, ¬ x.Reports e)) := by
  refine ⟨fun x hx => tells_of_run run hx, fun hclosed => ?_⟩
  induction run with
  | nil => cases hclosed
  | @snoc h t u action run step ih =>
    have hs := (proper_initial settings store balancing).reaches run.reaches
    rw [List.forall_mem_append, List.forall_mem_singleton]
    by_cases hc : .closed ∈ t.control.events
    · rcases tells_moves hs (ending_of_reaches run.reaches) (moves_of_step step) hc with
        ⟨hsame, hnone⟩ | ⟨e, hreport, hmore⟩
      · rw [hsame, ih hc]
        exact ⟨fun hall => ⟨hall, fun _ => hnone⟩, fun hall => hall.1⟩
      · refine iff_of_false ?_ fun hall => hall.2 hc e hreport
        rw [hmore]
        exact fun he => reports_ne_closed hreport (Option.some.inj he)
    · refine iff_of_true (head?_of_moves hs (moves_of_step step) hc hclosed) ⟨?_, ?_⟩
      · exact fun x hx hc' => absurd (closed_of_mem run hx hc') hc
      · exact fun hc' => absurd hc' hc

/-- A shutdown while a refresh waits for its answer, which arrives after the end. -/
theorem closed_last_answered : ∃ h t, Run lone h t ∧ .closed ∈ t.control.events ∧
    ∀ x ∈ h, .closed ∈ x.before.control.events → ∀ e, ¬ x.Reports e := by
  have hrun : ((lone.run (refreshing ++ [.call .shutdown, .signal 2 .go, .signal 2 .closed,
      .signal 1 (.answered .peers (.ok (.rows .empty))), .signal 1 .go])).any fun t =>
      .closed ∈ t.control.events ∧ t.control.events.head? = some .closed) = true := by
    decide +kernel
  obtain ⟨t, r, hc, hlast⟩ := exists_reaches hrun
  obtain ⟨h, run⟩ := Run.of_reaches r
  exact ⟨h, t, run, hc, ((closed_last _ _ _ run).2 hc).mp hlast⟩

/-- A shutdown while a candidate is being opened, which fails after the end. -/
theorem closed_not_last : ∃ t, Reaches lone t ∧ ∃ a message,
    t.control.events = [.connectionFailed a message, .closed] := by
  have hrun : ((lone.run [.trigger, .signal 0 .go, .call .shutdown, .signal 1 .go,
      .signal 0 (.opened (.error (.connection (.v4 .loopback 9042) "refused")))]).any fun t =>
      t.control.events = [.connectionFailed (.v4 .loopback 9042) "refused", .closed]) = true := by
    decide +kernel
  obtain ⟨t, r, he⟩ := exists_reaches hrun
  exact ⟨t, r, _, _, he⟩

end System

end ControlChannel
