import ControlChannel.Proofs.Control.Outcomes
import ControlChannel.Proofs.Readiness.History

/-! # Where positions and results come from

A job stands where its own last turn left it, unless it has not had one (`origin_of_moves`), and
what a call has returned was the result of its last turn (`returned_of_run`). Only calls to connect
get to the positions and results of such calls (`Turn.Fits`). -/

namespace ControlChannel

/-! ## Calls to connect and owners of handles -/

/-- A call to connect, begun or not. -/
def Task.isConnecting : Task → Bool
  | .called .connect | .connect _ => true
  | _ => false

namespace Turn

/-- A turn starts no task but one that owns a handle, and is about a call to connect only if it is
such a call's turn. -/
structure Fits (connecting : Bool) (turn : Turn) : Prop where
  started : ∀ t, turn.spawned = some t → t.handle?.isSome = true
  going : ∀ t, turn.task = some t → t.isConnecting = true → connecting = true
  told : ∀ r, turn.result = some (.connected r) → connecting = true

variable {connecting : Bool}

theorem fits_stay (k : Control) {task : Task} (h : task.isConnecting = true → connecting = true) :
    Fits connecting (stay k task) where
  started _ ht := by cases ht
  going t ht := Option.some.inj ht ▸ h
  told _ hr := by cases hr

theorem fits_answer (k : Control) {result : CallResult}
    (h : ∀ r, result = .connected r → connecting = true) : Fits connecting (answer k result) where
  started _ ht := by cases ht
  going _ ht := by cases ht
  told r hr := h r (Option.some.inj hr)

theorem fits_release (k : Control) (handle : Handle) : Fits connecting (release k handle) where
  started _ ht := by cases ht
  going _ ht := by cases ht
  told _ hr := by cases hr

theorem fits_handOver (k : Control) (handle : Handle) : Fits connecting (handOver k handle) where
  started := by
    rintro _ ⟨⟩
    rfl
  going _ ht := by cases ht
  told _ hr := by cases hr

theorem fits_ofConnect (o : Control × Progress Attempt Attempt.Result) :
    Fits true (ofConnect o) := by
  unfold ofConnect
  split
  · exact fits_stay _ fun _ => rfl
  all_goals exact fits_answer _ fun _ _ => rfl

theorem fits_ofBackground (handle : Handle) (o : Control × Progress Attempt Attempt.Result) :
    Fits connecting (ofBackground handle o) := by
  unfold ofBackground
  split
  · exact fits_stay _ fun h => by cases h
  · exact fits_release _ _
  · split
    · exact fits_release _ _
    · exact fits_handOver _ _

theorem fits_ofSession (k : Control) (handle : Handle)
    (p : Progress (Session Round Install) SessionOutcome) :
    Fits connecting (ofSession k handle p) := by
  cases p with
  | running session => exact fits_stay _ fun h => by cases h
  | done outcome => exact fits_release _ _

theorem fits_ofSessionAttempt (handle : Handle) (schedule : Schedule)
    (o : Control × Progress Attempt Attempt.Result) :
    Fits connecting (ofSessionAttempt handle schedule o) := by
  unfold ofSessionAttempt
  split
  · exact fits_ofSession _ _ _
  · exact fits_ofSession _ _ _
  · dsimp only
    split <;> exact fits_ofSession _ _ _

theorem fits_ofFault (k : Control) : Fits connecting (ofFault k) := by
  unfold ofFault
  split
  · exact fits_answer _ fun _ h => by cases h
  · rename_i ht
    obtain ⟨_, _, rfl⟩ := triggers_of_trigger ht
    refine ⟨?_, fun _ h => (by cases h), fun _ h => by cases h⟩
    rintro _ ⟨⟩
    rfl

theorem fits_ofRefresh {α : Type} (k : Control) (result : Except Error (Awaited α)) :
    Fits connecting (ofRefresh k result) := by
  rcases result with e | (_ | _)
  · cases he : e.isConnectionFault with
    | true =>
      rw [ofRefresh_fault α k he]
      exact fits_ofFault k
    | false =>
      rw [ofRefresh, he]
      exact fits_answer _ fun _ h => by cases h
  · exact fits_answer _ fun _ h => by cases h
  · exact fits_answer _ fun _ h => by cases h

theorem fits_ofSchema (k : Control) (o : Fabric × Progress SchemaRefresh SchemaRefresh.Result) :
    Fits connecting (ofSchema k o) := by
  obtain ⟨f, _ | result⟩ := o
  · exact fits_stay _ fun h => by cases h
  · exact fits_ofRefresh _ result

theorem fits_ofNodes (k : Control) (o : Fabric × Progress TopologyRefresh TopologyRefresh.Result) :
    Fits connecting (ofNodes k o) := by
  obtain ⟨f, _ | result⟩ := o
  · exact fits_stay _ fun h => by cases h
  · exact fits_ofRefresh _ result

theorem fits_finishShutdown (k : Control) : Fits connecting (finishShutdown k) :=
  fits_answer _ fun _ h => by cases h

theorem fits_begin (k : Control) (call : Call) :
    Fits (Task.called call).isConnecting (begin k call) := by
  cases call with
  | connect =>
    simp only [begin]
    split
    · exact fits_answer _ fun _ _ => rfl
    · split
      · exact fits_answer _ fun _ _ => rfl
      · exact fits_stay _ fun _ => rfl
  | refreshSchema keyspace table =>
    simp only [begin, beginSchema]
    split
    · exact fits_answer _ fun _ h => by cases h
    · exact fits_answer _ fun _ h => by cases h
    · exact fits_ofSchema _ _
  | refreshNodes =>
    simp only [begin, beginNodes]
    split
    · exact fits_answer _ fun _ h => by cases h
    · exact fits_ofNodes _ _
  | shutdown =>
    simp only [begin, beginShutdown]
    split
    · exact fits_answer _ fun _ h => by cases h
    · split
      · exact fits_finishShutdown _
      · exact fits_stay _ fun h => by cases h

end Turn

namespace Task

variable {k : Control} {task : Task} {signal : Signal} {turn : Turn}

theorem fits_resumeSession {handle : Handle} {s : Session Round Install}
    (h : resumeSession k handle s signal = some turn) : turn.Fits false := by
  unfold resumeSession at h
  split at h
  · cases h; exact Turn.fits_ofSession _ _ _
  · cases h
  · cases h; exact Turn.fits_ofSession _ _ _
  · split at h
    · obtain ⟨o, _, rfl⟩ := Option.map_eq_some_iff.mp h
      exact Turn.fits_ofSessionAttempt _ _ o
    · cases h
  · cases h
  · obtain ⟨o, _, rfl⟩ := Option.map_eq_some_iff.mp h
    exact Turn.fits_ofSessionAttempt _ _ o

/-- **Every turn fits its task.** -/
theorem fits_resume (h : task.resume k signal = some turn) : turn.Fits task.isConnecting := by
  cases task with
  | called call =>
    cases signal with
    | go => cases h; exact Turn.fits_begin k call
    | _ => cases h
  | connect a =>
    cases a with
    | fresh | round r | installing i =>
      obtain ⟨o, _, rfl⟩ := Option.map_eq_some_iff.mp h
      exact Turn.fits_ofConnect o
  | background handle a =>
    obtain ⟨o, _, rfl⟩ := Option.map_eq_some_iff.mp h
    exact Turn.fits_ofBackground handle o
  | session handle s => exact fits_resumeSession h
  | shutdown closing =>
    cases signal with
    | closed => cases h; exact Turn.fits_finishShutdown _
    | _ => cases h
  | refreshSchema r =>
    obtain ⟨o, _, rfl⟩ := Option.map_eq_some_iff.mp h
    exact Turn.fits_ofSchema k o
  | refreshNodes r =>
    obtain ⟨o, _, rfl⟩ := Option.map_eq_some_iff.mp h
    exact Turn.fits_ofNodes k o

end Task

/-! ## Positions and results -/

namespace Transition

/-- A job has a turn in this step. -/
structure Turns (x : Transition) (job : Job) (signal : Signal) (turn : Turn) : Prop where
  mem : job ∈ x.before.jobs
  resume : job.task.resume x.before.control signal = some turn
  hears : job.task.Hears x.before.control signal
  brings : x.action.Brings job.id signal
  after : x.after = x.before.apply job.id turn

/-- A step is the turn of one job. -/
theorem Turns.unique {x : Transition} (hs : x.before.Proper) {job job' : Job}
    {signal signal' : Signal} {turn turn' : Turn} (h : x.Turns job signal turn)
    (h' : x.Turns job' signal' turn') : job' = job ∧ signal' = signal ∧ turn' = turn := by
  obtain ⟨hid, rfl⟩ : job'.id = job.id ∧ signal' = signal := by
    rcases h.brings with ha | ⟨ha, rfl⟩ <;> rcases h'.brings with ha' | ⟨ha', rfl⟩
    · exact Action.signal.inj (ha'.symm.trans ha)
    · cases ha'.symm.trans ha
    · cases ha'.symm.trans ha
    · exact ⟨Action.poll.inj (ha'.symm.trans ha), rfl⟩
  obtain rfl := hs.order.eq_of_id h'.mem h.mem hid
  exact ⟨rfl, rfl, Option.some.inj (h'.resume.symm.trans h.resume)⟩

end Transition

namespace System

variable {s t u : System} {a : Action} {job : Job} {turn : Turn} {h : List Transition}

/-- Where a job after a turn comes from, and its position. -/
theorem mem_jobs_cases (hs : s.InOrder) (hj : job ∈ s.jobs) {j : Job}
    (hm : j ∈ (s.apply job.id turn).jobs) :
    (j ∈ s.jobs ∧ j.id ≠ job.id) ∨ (j.id = job.id ∧ turn.task = some j.task) ∨
      (j.id = s.nextJob ∧ turn.spawned = some j.task) := by
  obtain ⟨l, r, hsplit, hl, hr⟩ := hs.split hj
  rw [jobs_apply hsplit hl hr turn] at hm
  rcases List.mem_append.mp hm with hm | hm
  · rcases List.mem_append.mp hm with hm | hm
    · rcases List.mem_append.mp hm with hm | hm
      · exact .inl ⟨hsplit ▸ List.mem_append_left _ hm, hl j hm⟩
      · obtain ⟨task, ht, rfl⟩ := List.mem_map.mp hm
        exact .inr (.inl ⟨rfl, Option.mem_toList.mp ht⟩)
    · exact .inl ⟨hsplit ▸ List.mem_append_right _ (List.mem_cons_of_mem _ hm), hr j hm⟩
  · obtain ⟨task, ht, rfl⟩ := List.mem_map.mp hm
    exact .inr (.inr ⟨rfl, Option.mem_toList.mp ht⟩)

theorem result?_apply_of_ne {id : JobId} (hne : job.id ≠ id) :
    (s.apply job.id turn).result? id = s.result? id := by
  unfold result?
  rw [returned_apply]
  cases turn.result with
  | none => rfl
  | some result => simp [hne]

/-- A job stood where it stands, has just come there in its turn, or is new and has the next number:
a call that has not begun, or the owner of a handle. -/
theorem origin_of_moves (hs : s.Proper) (m : Moves s a u) {j : Job} (hj : j ∈ u.jobs) :
    (∃ i ∈ s.jobs, i.id = j.id ∧ i.task = j.task) ∨
    (∃ job signal turn, Transition.Turns ⟨s, a, u⟩ job signal turn ∧ job.id = j.id ∧
      turn.task = some j.task) ∨
    (j.id = s.nextJob ∧ ((∃ call, j.task = .called call) ∨ j.task.handle?.isSome = true)) := by
  cases m with
  | outside f _ => exact .inl ⟨j, hj, rfl, rfl⟩
  | called call =>
    rcases List.mem_append.mp hj with hj | hj
    · exact .inl ⟨j, hj, rfl, rfl⟩
    · rw [List.mem_singleton.mp hj]
      exact .inr (.inr ⟨rfl, .inl ⟨call, rfl⟩⟩)
  | started _ ht =>
    rcases List.mem_append.mp hj with hj | hj
    · exact .inl ⟨j, hj, rfl, rfl⟩
    · obtain ⟨_, _, rfl⟩ := Turn.triggers_of_trigger ht
      rw [List.mem_singleton.mp hj]
      exact .inr (.inr ⟨rfl, .inr rfl⟩)
  | polled id b =>
    obtain ⟨i, hi, rfl⟩ := List.mem_map.mp hj
    refine .inl ⟨i, hi, ?_⟩
    split <;> exact ⟨rfl, rfl⟩
  | @turn _ job signal turn hjob hr hh ha =>
    rcases mem_jobs_cases hs.order hjob hj with ⟨hm, _⟩ | ⟨hid, ht⟩ | ⟨hnew, hsp⟩
    · exact .inl ⟨j, hm, rfl, rfl⟩
    · exact .inr (.inl ⟨job, signal, turn, ⟨hjob, hr, hh, ha, rfl⟩, hid.symm, ht⟩)
    · exact .inr (.inr ⟨hnew, .inr ((Task.fits_resume hr).started _ hsp)⟩)

/-- A job stays where it is, or has its turn. -/
theorem stays_of_moves (hs : s.Proper) (m : Moves s a u) (hj : job ∈ s.jobs) :
    (∃ j ∈ u.jobs, j.id = job.id ∧ j.task = job.task) ∨
      ∃ signal turn, Transition.Turns ⟨s, a, u⟩ job signal turn := by
  cases m with
  | outside f _ => exact .inl ⟨job, hj, rfl, rfl⟩
  | called call => exact .inl ⟨job, List.mem_append_left _ hj, rfl, rfl⟩
  | started _ _ => exact .inl ⟨job, List.mem_append_left _ hj, rfl, rfl⟩
  | polled id b =>
    refine .inl ⟨_, List.mem_map_of_mem hj, ?_⟩
    split <;> exact ⟨rfl, rfl⟩
  | @turn _ other signal turn ho hr hh ha =>
    by_cases hid : job.id = other.id
    · obtain rfl := hs.order.eq_of_id hj ho hid
      exact .inr ⟨signal, turn, ho, hr, hh, ha, rfl⟩
    · exact .inl ⟨job, mem_apply_of_ne hs.order ho turn hj hid, rfl, rfl⟩

/-- What a call has returned it has returned for good. -/
theorem result?_moves (hs : s.Proper) (m : Moves s a u) {id : JobId} {result : CallResult}
    (hr : s.result? id = some result) : u.result? id = some result := by
  cases m with
  | outside f _ | called call | started _ _ | polled _ b => exact hr
  | @turn _ job signal turn hjob _ _ _ =>
    have hne : job.id ≠ id := fun hid => by
      rw [← hid, result?_of_mem hs hjob] at hr
      cases hr
    rw [result?_apply_of_ne hne]
    exact hr

/-- What a call has returned it had returned before, or it returns in its turn. -/
theorem returned_of_moves (hs : s.Proper) (m : Moves s a u) {id : JobId} {result : CallResult}
    (hr : u.result? id = some result) : s.result? id = some result ∨
      ∃ job signal turn, Transition.Turns ⟨s, a, u⟩ job signal turn ∧ job.id = id ∧
        turn.result = some result := by
  cases m with
  | outside f _ | called call | started _ _ | polled _ b => exact .inl hr
  | @turn _ job signal turn hjob hres hh ha =>
    by_cases hid : job.id = id
    · subst hid
      rw [result?_apply hs hjob] at hr
      exact .inr ⟨job, signal, turn, ⟨hjob, hres, hh, ha, rfl⟩, rfl, hr⟩
    · exact .inl (result?_apply_of_ne hid ▸ hr)

/-- **What a call has returned is the result of its last turn.** -/
theorem returned_of_run {settings : Settings} {store : Store} {balancing : Balancing}
    (run : Run (initial settings store balancing) h t) {id : JobId} {result : CallResult}
    (hr : t.result? id = some result) :
    ∃ x ∈ h, ∃ job signal turn, x.Turns job signal turn ∧ job.id = id ∧
      turn.result = some result := by
  induction run with
  | nil => cases hr
  | @snoc h t u action run step ih =>
    have hp := (proper_initial settings store balancing).reaches run.reaches
    rcases returned_of_moves hp (moves_of_step step) hr with hold | hnew
    · obtain ⟨x, hx, hlast⟩ := ih hold
      exact ⟨x, List.mem_append_left _ hx, hlast⟩
    · exact ⟨_, List.mem_append_right _ (List.mem_singleton.mpr rfl), hnew⟩

end System

end ControlChannel
