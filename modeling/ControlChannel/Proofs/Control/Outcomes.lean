import ControlChannel.Proofs.Answers
import ControlChannel.Proofs.Control.Shutdown
import ControlChannel.Proofs.Readiness.Sending

/-! # What a refresh reports

A refresh is over when its answers are applied, when it is cancelled, or with an error. It reports
that a reconnection is under way exactly when its request was answered with a connection fault
(`Action.Breaks`); what it does then depends on the slot alone (`Turn.ofFault`), so that the report
is true unless a shutdown came first. Main statement: `refresh_reports`. -/

namespace ControlChannel

/-! ## What a refresh does at its end -/

/-- What a refresh has reported, if it did. -/
def CallResult.outcome? : CallResult → Option RefreshOutcome
  | .refreshed (.ok outcome) => some outcome
  | _ => none

/-- The question of a refresh is answered with a connection fault. -/
def Task.Breaks (task : Task) (signal : Signal) : Prop :=
  task.asks ≠ [] ∧
    ∃ question e, signal = .answered question (.error e) ∧ e.isConnectionFault = true

namespace Turn

/-- What a call reports of its refresh. -/
def outcome? (turn : Turn) : Option RefreshOutcome := turn.result.bind CallResult.outcome?

/-- What a refresh does about a connection fault: it asks for a session, and reports a reconnection
in any case. -/
def ofFault (k : Control) : Turn :=
  match k.trigger with
  | none => answer k (.refreshed (.ok .reconnecting))
  | some (k, task) => { answer k (.refreshed (.ok .reconnecting)) with spawned := some task }

theorem outcome?_ofFault (k : Control) : (ofFault k).outcome? = some .reconnecting := by
  unfold ofFault
  split <;> rfl

theorem ofRefresh_fault (α : Type) (k : Control) {e : Error} (he : e.isConnectionFault = true) :
    ofRefresh k (.error e : Except Error (Awaited α)) = ofFault k := if_pos he

/-- A turn that leaves the slot, the active connection and the phase alone. It reports no
reconnection, nor without a reason that a refresh was cancelled. -/
structure Spares (k : Control) (reason : Prop) (turn : Turn) : Prop where
  slot : turn.control.slot = k.slot
  active : turn.control.active = k.active
  phase : turn.control.phase = k.phase
  handles : ∀ t ∈ turn.tasks, t.handle? = none
  report : ∀ outcome, turn.outcome? = some outcome →
    outcome = .refreshed ∨ (outcome = .cancelled ∧ reason)

variable {k : Control} {reason : Prop} {f : Fabric}

theorem spares_stay {task : Task} (h : task.handle? = none) :
    Spares k reason (stay { k with fabric := f } task) := by
  refine ⟨rfl, rfl, rfl, fun t ht => ?_, fun _ h => by cases h⟩
  rw [List.mem_singleton.mp ht]
  exact h

theorem spares_answer {result : CallResult} (h : result.outcome? = none) :
    Spares k reason (answer k result) := by
  refine ⟨rfl, rfl, rfl, List.forall_mem_nil _, fun outcome ho => ?_⟩
  cases h.symm.trans ho

theorem spares_ofRefresh {α : Type} {result : Except Error (Awaited α)} (mild : Mild result)
    (hr : result = .ok .cancelled → reason) :
    Spares k reason (ofRefresh { k with fabric := f } result) := by
  unfold ofRefresh
  split
  · exact ⟨rfl, rfl, rfl, List.forall_mem_nil _, fun _ h => .inl (Option.some.inj h).symm⟩
  · exact ⟨rfl, rfl, rfl, List.forall_mem_nil _,
      fun _ h => .inr ⟨(Option.some.inj h).symm, hr rfl⟩⟩
  · rename_i e
    rw [mild e rfl]
    exact ⟨rfl, rfl, rfl, List.forall_mem_nil _, fun _ h => by cases h⟩

theorem spares_ofSchema {o : Fabric × Progress SchemaRefresh SchemaRefresh.Result}
    (mild : ∀ e, o.2 = .done (.error e) → e.isConnectionFault = false)
    (hr : o.2 = .done (.ok .cancelled) → reason) : Spares k reason (ofSchema k o) := by
  obtain ⟨f, p⟩ := o
  cases p with
  | running r => exact spares_stay rfl
  | done result =>
    exact spares_ofRefresh (fun e h => mild e (congrArg _ h)) fun h => hr (congrArg _ h)

theorem spares_ofNodes {o : Fabric × Progress TopologyRefresh TopologyRefresh.Result}
    (mild : ∀ e, o.2 = .done (.error e) → e.isConnectionFault = false)
    (hr : o.2 = .done (.ok .cancelled) → reason) : Spares k reason (ofNodes k o) := by
  obtain ⟨f, p⟩ := o
  cases p with
  | running r => exact spares_stay rfl
  | done result =>
    exact spares_ofRefresh (fun e h => mild e (congrArg _ h)) fun h => hr (congrArg _ h)

end Turn

namespace Task

variable {k : Control} {task : Task} {signal : Signal} {turn : Turn}

/-- A task without a handle is cancelled with the whole control connection. -/
theorem shutDown_of_hears (ht : task.handle? = none) (hears : task.Hears k signal)
    (hs : signal = .cancelled) : k.isShutDown = true := by
  have hc := hears hs
  unfold Control.cancels at hc
  rw [ht] at hc
  split at hc
  · rename_i hh
    cases hh
  · exact hc

/-- A connection fault is all that a refresh looks at when it meets one. -/
theorem resume_of_breaks (hb : task.Breaks signal) (h : task.resume k signal = some turn) :
    turn = .ofFault k := by
  obtain ⟨ht, question, e, rfl, he⟩ := hb
  cases task with
  | refreshSchema r =>
    obtain ⟨o, ho, rfl⟩ := Option.map_eq_some_iff.mp h
    rw [SchemaRefresh.resume_answered ho]
    exact Turn.ofRefresh_fault Unit k he
  | refreshNodes r =>
    obtain ⟨o, ho, rfl⟩ := Option.map_eq_some_iff.mp h
    rw [TopologyRefresh.resume_answered ho]
    exact Turn.ofRefresh_fault Topology.Diff k he
  | called _ | connect _ | shutdown _ | background _ _ | session _ _ => exact absurd rfl ht

theorem spares_resume (ht : task.asks ≠ []) (h : task.resume k signal = some turn)
    (hears : task.Hears k signal) (hn : ¬ task.Breaks signal) :
    turn.Spares k (k.isShutDown = true) := by
  have mild (e : Error) (answered : e.isConnectionFault = true →
      ∃ question, signal = .answered question (.error e)) : e.isConnectionFault = false :=
    Bool.eq_false_iff.mpr fun he => hn ⟨ht, (answered he).imp fun _ hs => ⟨e, hs, he⟩⟩
  cases task with
  | refreshSchema r =>
    obtain ⟨o, ho, rfl⟩ := Option.map_eq_some_iff.mp h
    refine Turn.spares_ofSchema (fun e he => mild e (SchemaRefresh.answered_of_fault ho he)) ?_
    exact fun hc => shutDown_of_hears rfl hears (SchemaRefresh.cancelled_of_resume ho hc)
  | refreshNodes r =>
    obtain ⟨o, ho, rfl⟩ := Option.map_eq_some_iff.mp h
    refine Turn.spares_ofNodes (fun e he => mild e (TopologyRefresh.answered_of_fault ho he)) ?_
    exact fun hc => shutDown_of_hears rfl hears (TopologyRefresh.cancelled_of_resume ho hc)
  | called _ | connect _ | shutdown _ | background _ _ | session _ _ => exact absurd rfl ht

/-- A refresh in progress acts on a connection fault, or has none. -/
theorem refresh_cases (ht : task.asks ≠ []) (h : task.resume k signal = some turn)
    (hears : task.Hears k signal) :
    (task.Breaks signal ∧ turn = .ofFault k) ∨
      (¬ task.Breaks signal ∧ turn.Spares k (k.isShutDown = true)) := by
  by_cases hb : task.Breaks signal
  · exact .inl ⟨hb, resume_of_breaks hb h⟩
  · exact .inr ⟨hb, spares_resume ht h hears hb⟩

end Task

/-! ## Calls that begin and attempts -/

namespace Turn

variable {k : Control}

/-- A call that begins leaves all alone, unless it is a shutdown. -/
theorem spares_begin {call : Call} (h : call ≠ .shutdown) :
    Spares k (k.isShutDown = true) (begin k call) := by
  cases call with
  | connect =>
    simp only [begin]
    split
    · exact spares_answer rfl
    · split
      · exact spares_answer rfl
      · exact spares_stay rfl
  | refreshSchema keyspace table =>
    simp only [begin, beginSchema]
    split
    · exact spares_answer rfl
    · exact spares_answer rfl
    · refine spares_ofSchema (fun e he => ?_) SchemaRefresh.cancelled_of_start
      cases hs : k.isShutDown <;> rw [hs] at he <;> cases he
  | refreshNodes =>
    simp only [begin, beginNodes]
    split
    · exact spares_answer rfl
    · refine spares_ofNodes (fun e he => ?_) TopologyRefresh.cancelled_of_start
      cases hs : k.isShutDown <;> rw [hs] at he <;> cases he
  | shutdown => exact absurd rfl h

theorem outcome?_beginShutdown (k : Control) : (beginShutdown k).outcome? = none := by
  unfold beginShutdown
  split
  · rfl
  · dsimp only
    split <;> rfl

theorem outcome?_ofConnect (o : Control × Progress Attempt Attempt.Result) :
    (ofConnect o).outcome? = none := by
  unfold ofConnect
  split <;> rfl

theorem outcome?_ofBackground (handle : Handle) (o : Control × Progress Attempt Attempt.Result) :
    (ofBackground handle o).outcome? = none := by
  unfold ofBackground
  split
  · rfl
  · rfl
  · split <;> rfl

theorem outcome?_ofSession (k : Control) (handle : Handle)
    (p : Progress (Session Round Install) SessionOutcome) :
    (ofSession k handle p).outcome? = none := by
  cases p <;> rfl

theorem outcome?_ofSessionAttempt (handle : Handle) (schedule : Schedule)
    (o : Control × Progress Attempt Attempt.Result) :
    (ofSessionAttempt handle schedule o).outcome? = none := by
  unfold ofSessionAttempt
  split
  · exact outcome?_ofSession _ _ _
  · exact outcome?_ofSession _ _ _
  · dsimp only
    split <;> exact outcome?_ofSession _ _ _

end Turn

namespace Task

variable {k : Control} {task : Task} {signal : Signal} {turn : Turn}

theorem outcome?_resumeSession {handle : Handle} {s : Session Round Install}
    (h : resumeSession k handle s signal = some turn) : turn.outcome? = none := by
  unfold resumeSession at h
  split at h
  · cases h; exact Turn.outcome?_ofSession _ _ _
  · cases h
  · cases h; rfl
  · split at h
    · obtain ⟨o, _, rfl⟩ := Option.map_eq_some_iff.mp h
      exact Turn.outcome?_ofSessionAttempt _ _ o
    · cases h
  · cases h
  · obtain ⟨o, _, rfl⟩ := Option.map_eq_some_iff.mp h
    exact Turn.outcome?_ofSessionAttempt _ _ o

/-- What a call reports of its refresh, and why. -/
theorem report_cases (h : task.resume k signal = some turn) (hears : task.Hears k signal)
    {outcome : RefreshOutcome} (ho : turn.outcome? = some outcome) :
    (outcome = .reconnecting ∧ task.Breaks signal) ∨ outcome = .refreshed ∨
      (outcome = .cancelled ∧ k.isShutDown = true) := by
  have hnone : turn.outcome? ≠ none := by rw [ho]; exact fun e => by cases e
  cases task with
  | called call =>
    cases signal with
    | go =>
      cases h
      by_cases hcall : call = .shutdown
      · rw [hcall] at hnone
        exact absurd (Turn.outcome?_beginShutdown k) hnone
      · exact .inr ((Turn.spares_begin hcall).report outcome ho)
    | _ => cases h
  | connect a =>
    refine absurd ?_ hnone
    cases a with
    | fresh | round r | installing i =>
      obtain ⟨o, _, rfl⟩ := Option.map_eq_some_iff.mp h
      exact Turn.outcome?_ofConnect o
  | background handle a =>
    obtain ⟨o, _, rfl⟩ := Option.map_eq_some_iff.mp h
    exact absurd (Turn.outcome?_ofBackground handle o) hnone
  | session handle s => exact absurd (outcome?_resumeSession h) hnone
  | shutdown closing =>
    cases signal with
    | closed => cases h; cases ho
    | _ => cases h
  | refreshSchema r | refreshNodes r =>
    rcases refresh_cases (fun hn => by cases hn) h hears with ⟨hb, rfl⟩ | ⟨_, hs⟩
    · rw [Turn.outcome?_ofFault] at ho
      exact .inl ⟨(Option.some.inj ho).symm, hb⟩
    · exact .inr (hs.report outcome ho)

end Task

/-! ## Reports -/

/-- An action brings a refresh the answer to its question, which is a connection fault. -/
def Action.Breaks (a : Action) (job : Job) : Prop :=
  ∃ signal, a = .signal job.id signal ∧ job.task.Breaks signal

namespace System

variable {settings : Settings} {store : Store} {balancing : Balancing}
variable {s t u : System} {a : Action} {job : Job}

/-- What the refresh of a call has reported. -/
def outcome? (s : System) (id : JobId) : Option RefreshOutcome :=
  (s.result? id).bind CallResult.outcome?

theorem result?_of_mem (hs : s.Proper) (hj : job ∈ s.jobs) : s.result? job.id = none := by
  refine Option.eq_none_iff_forall_ne_some.mpr fun result h => ?_
  obtain ⟨r, hr, e⟩ := result?_isSome.mp (Option.isSome_of_eq_some h)
  exact (hs.settled r hr).2 job hj e.symm

theorem result?_apply (hs : s.Proper) (hj : job ∈ s.jobs) (turn : Turn) :
    (s.apply job.id turn).result? job.id = turn.result := by
  have hnone := result?_of_mem hs hj
  unfold result? at hnone ⊢
  rw [returned_apply]
  cases turn.result with
  | none => exact hnone
  | some result => simp

/-- A job that is over had its turn. -/
theorem turn_of_gone (hs : s.Proper) (hj : job ∈ s.jobs) (h : s.step a = some u)
    (gone : ∀ j ∈ u.jobs, j.id ≠ job.id) :
    ∃ signal turn, job.task.resume s.control signal = some turn ∧
      job.task.Hears s.control signal ∧ a.Brings job.id signal ∧ u = s.apply job.id turn := by
  cases moves_of_step h with
  | outside f _ => exact absurd rfl (gone job hj)
  | called call => exact absurd rfl (gone job (List.mem_append_left _ hj))
  | started _ _ => exact absurd rfl (gone job (List.mem_append_left _ hj))
  | polled id b =>
    have hm : job.id ∈ (s.setPolled id b).jobs.map (·.id) :=
      ids_setPolled s id b ▸ List.mem_map_of_mem hj
    obtain ⟨j, hj, e⟩ := List.mem_map.mp hm
    exact absurd e (gone j hj)
  | @turn _ other signal turn ho hr hh ha =>
    by_cases hne : job.id = other.id
    · obtain rfl := hs.order.eq_of_id hj ho hne
      exact ⟨signal, turn, hr, hh, ha, rfl⟩
    · exact absurd rfl (gone job (mem_apply_of_ne hs.order ho turn hj hne))

/-- A call that has returned had its turn just now. -/
theorem turn_of_outcome (hs : s.Proper) (hj : job ∈ s.jobs) (h : s.step a = some u)
    {outcome : RefreshOutcome} (ho : u.outcome? job.id = some outcome) :
    ∃ signal turn, job.task.resume s.control signal = some turn ∧
      job.task.Hears s.control signal ∧ a.Brings job.id signal ∧ u = s.apply job.id turn ∧
        turn.outcome? = some outcome := by
  obtain ⟨result, hr, hout⟩ := Option.bind_eq_some_iff.mp ho
  have hu : u.Proper := hs.moves (moves_of_step h)
  obtain ⟨signal, turn, hres, hh, ha, rfl⟩ := turn_of_gone hs hj h fun j hm e => by
    rw [← e, result?_of_mem hu hm] at hr
    cases hr
  refine ⟨signal, turn, hres, hh, ha, rfl, ?_⟩
  rw [result?_apply hs hj] at hr
  rw [Turn.outcome?, hr]
  exact hout

/-- A signal gives its job a turn. -/
theorem turn_of_signal (hs : s.Proper) (hj : job ∈ s.jobs) {signal : Signal}
    (h : s.step (.signal job.id signal) = some u) : s.admits job signal = true ∧
      ∃ turn, job.task.resume s.control signal = some turn ∧ u = s.apply job.id turn := by
  obtain ⟨other, hother, hd⟩ := Option.bind_eq_some_iff.mp h
  obtain ⟨hm, hid⟩ := mem_of_job? hother
  obtain rfl := hs.order.eq_of_id hm hj hid
  unfold deliver at hd
  split at hd
  · rename_i hadmits
    obtain ⟨turn, hr, rfl⟩ := Option.map_eq_some_iff.mp hd
    exact ⟨hadmits, turn, hr, rfl⟩
  · cases hd

/-- What follows a connection fault of a refresh. -/
theorem fault_of_breaks (hs : s.Proper) (hj : job ∈ s.jobs) (h : s.step a = some u)
    (hb : a.Breaks job) : u = s.apply job.id (.ofFault s.control) ∧ job.polled = true := by
  obtain ⟨signal, rfl, hb⟩ := hb
  obtain ⟨hadmits, turn, hr, rfl⟩ := turn_of_signal hs hj h
  obtain rfl := Task.resume_of_breaks hb hr
  obtain ⟨_, question, e, rfl, _⟩ := hb
  exact ⟨rfl, hadmits⟩

/-- After a connection fault a session occupies the slot, unless it was shut down. -/
theorem ofFault_active {k : Control} {ts : List Task} (o : Occupied k ts) :
    (Turn.ofFault k).control.slot.isActive = true ↔ k.isShutDown = false := by
  unfold Turn.ofFault
  split
  · rename_i ht
    show k.slot.isActive = true ↔ _
    constructor
    · intro hactive
      refine Bool.eq_false_iff.mpr fun hshut => ?_
      rw [Slot.isActive, o.emptied hshut] at hactive
      cases hactive
    · intro live
      rw [Control.trigger, Slot.tryOccupy, show k.slot.revoked = false from live] at ht
      cases hs : k.slot.isActive with
      | true => rfl
      | false => rw [hs] at ht; cases ht
  · rename_i l task ht
    obtain ⟨handle, t, _⟩ := Turn.triggers_of_trigger ht
    obtain ⟨_, _, _, hslot⟩ := Slot.tryOccupy_eq t.slot
    refine ⟨fun _ => t.live.1, fun _ => ?_⟩
    show l.slot.isActive = true
    rw [hslot]
    rfl

/-- **A refresh reports the truth, unless a shutdown came first.** It reports that a reconnection
is under way exactly when its question was answered with a connection fault, and that it was
cancelled only after a shutdown. A session then occupies the slot exactly when there was no
shutdown: one may come while a refresh is being polled, and the fault in the same poll. -/
theorem refresh_reports (settings : Settings) (store : Store) (balancing : Balancing)
    (r : Reaches (initial settings store balancing) t) (hj : job ∈ t.jobs)
    (h : t.step a = some u) :
    (u.outcome? job.id = some .reconnecting ↔ a.Breaks job) ∧
    (u.outcome? job.id = some .cancelled → t.control.isShutDown = true) ∧
    (a.Breaks job → job.polled = true ∧
      (u.control.slot.isActive = true ↔ t.control.isShutDown = false)) := by
  have hp := (proper_initial settings store balancing).reaches r
  refine ⟨⟨fun ho => ?_, fun hb => ?_⟩, fun ho => ?_, fun hb => ?_⟩
  · obtain ⟨signal, turn, hr, hears, ha, _, ho⟩ := turn_of_outcome hp hj h ho
    rcases Task.report_cases hr hears ho with ⟨_, hb⟩ | hc | ⟨hc, _⟩
    · rcases ha with ha | ⟨_, rfl⟩
      · exact ⟨signal, ha, hb⟩
      · obtain ⟨_, _, _, hs, _⟩ := hb
        cases hs
    · cases hc
    · cases hc
  · obtain ⟨rfl, _⟩ := fault_of_breaks hp hj h hb
    rw [outcome?, result?_apply hp hj]
    exact Turn.outcome?_ofFault _
  · obtain ⟨signal, turn, hr, hears, _, _, ho⟩ := turn_of_outcome hp hj h ho
    rcases Task.report_cases hr hears ho with ⟨hc, _⟩ | hc | ⟨_, hshut⟩
    · cases hc
    · cases hc
    · exact hshut
  · obtain ⟨rfl, hpolled⟩ := fault_of_breaks hp hj h hb
    rw [control_apply]
    exact ⟨hpolled, ofFault_active (occupied_of_reaches r)⟩

/-- What a broken channel answers to a question about peers. -/
def broken : Signal := .answered .peers (.error (.connection (.v4 .loopback 9042) "broken"))

/-- A connection is brought up and a refresh asks on it. -/
def refreshing : List Action :=
  .trigger :: bringsUp 0 ++ [.signal 0 .go, .call .refreshNodes, .signal 1 .go]

/-- A job whose channel breaks. -/
theorem exists_broken {p : Job → Prop} [DecidablePred p] {id : JobId} (h : ((s.job? id).any
      fun job => decide (p job) && (s.step (.signal job.id broken)).isSome) = true) :
    ∃ job u, job ∈ s.jobs ∧ p job ∧ s.step (.signal job.id broken) = some u := by
  obtain ⟨job, hj, hjob⟩ := (Option.any_eq_true _ _).mp h
  obtain ⟨hp, hstep⟩ := Bool.and_eq_true_iff.mp hjob
  obtain ⟨u, hu⟩ := Option.isSome_iff_exists.mp hstep
  exact ⟨job, u, (mem_of_job? hj).1, of_decide_eq_true hp, hu⟩

theorem breaks_broken (hasks : job.task.asks ≠ []) : Action.Breaks (.signal job.id broken) job :=
  ⟨_, rfl, hasks, .peers, _, rfl, rfl⟩

theorem refresh_reports_fault : ∃ t job u, Reaches lone t ∧ job ∈ t.jobs ∧
    t.step (.signal job.id broken) = some u ∧ t.control.isShutDown = false ∧
    u.outcome? job.id = some .reconnecting ∧ u.control.slot.isActive = true := by
  have h : ((lone.run refreshing).any fun t => t.control.isShutDown = false ∧
      ((t.job? 1).any fun job =>
        decide (job.task.asks ≠ []) && (t.step (.signal job.id broken)).isSome) = true) = true := by
    decide +kernel
  obtain ⟨t, r, live, hjob⟩ := exists_reaches h
  obtain ⟨job, u, hm, hasks, hu⟩ := exists_broken hjob
  have hb := breaks_broken hasks
  obtain ⟨hreport, _, hactive⟩ := refresh_reports _ _ _ r hm hu
  exact ⟨t, job, u, r, hm, hu, live, hreport.mpr hb, (hactive hb).2.mpr live⟩

/-- A shutdown while a refresh is being polled: the refresh reports a reconnection that is none. -/
theorem reports_after_shutdown : ∃ t job u, Reaches lone t ∧ job ∈ t.jobs ∧
    t.step (.signal job.id broken) = some u ∧ t.control.isShutDown = true ∧
    u.outcome? job.id = some .reconnecting ∧ u.control.slot.isActive = false := by
  have h : ((lone.run (refreshing ++ [.call .shutdown, .signal 2 .go])).any fun t =>
      t.control.isShutDown = true ∧ ((t.job? 1).any fun job =>
        (t.step (.signal job.id broken)).any fun u => u.outcome? job.id = some .reconnecting ∧
          u.control.slot.isActive = false) = true) = true := by
    decide +kernel
  obtain ⟨t, r, shut, hjob⟩ := exists_reaches h
  obtain ⟨job, hj, hjob⟩ := (Option.any_eq_true _ _).mp hjob
  obtain ⟨u, hu, hout⟩ := (Option.any_eq_true _ _).mp hjob
  exact ⟨t, job, u, r, (mem_of_job? hj).1, hu, shut, of_decide_eq_true hout⟩

end System

end ControlChannel
