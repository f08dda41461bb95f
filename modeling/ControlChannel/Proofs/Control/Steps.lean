import ControlChannel.Control.System
import ControlChannel.Proofs.Control.Following

/-! # What one step of the system does

A step of the system is a change from outside, a new task, a poll or the turn of one task
(`System.Moves`). The tasks in progress have numbers of their own, so that a turn replaces exactly
one of them (`tasks_apply`). What holds of a control connection and its tasks in whatever order,
and is kept by each of these moves, holds along every run (`Invariant.reaches`). -/

namespace ControlChannel

namespace System

/-- The tasks in progress. -/
def tasks (s : System) : List Task := s.jobs.map (·.task)

/-- The tasks in progress are numbered one after the other. -/
structure InOrder (s : System) : Prop where
  nodup : (s.jobs.map (·.id)).Nodup
  below : ∀ j ∈ s.jobs, j.id < s.nextJob

/-! ## Moves -/

/-- What one step can be. -/
inductive Moves (s : System) : Action → System → Prop where
  | outside {a : Action} (f : Fabric) (h : s.control.fabric.Untouched f) :
      Moves s a (s.withFabric f)
  | called (call : Call) : Moves s (.call call) (s.spawn (.called call))
  | started {a : Action} {f : Fabric} {k : Control} {task : Task}
      (h : s.control.fabric.Untouched f)
      (ht : Control.trigger { s.control with fabric := f } = some (k, task)) :
      Moves s a ((s.withControl k).spawn task)
  | polled {a : Action} (id : JobId) (b : Bool) : Moves s a (s.setPolled id b)
  | turn {a : Action} {job : Job} {signal : Signal} {turn : Turn} (hj : job ∈ s.jobs)
      (hr : job.task.resume s.control signal = some turn) (hh : job.task.Hears s.control signal)
      (ha : a = .signal job.id signal ∨ a = .poll job.id ∧ signal = .cancelled) :
      Moves s a (s.apply job.id turn)

theorem mem_of_job? {s : System} {id : JobId} {job : Job} (h : s.job? id = some job) :
    job ∈ s.jobs ∧ job.id = id :=
  ⟨List.mem_of_find?_eq_some h, by simpa using List.find?_some h⟩

theorem moves_trigger {s : System} {a : Action} {f : Fabric}
    (h : s.control.fabric.Untouched f) : Moves s a (s.withFabric f).trigger.2 := by
  unfold trigger
  split
  · exact .outside f h
  · rename_i ht
    exact .started h ht

theorem moves_hostDown (s : System) (a : Action) (address : Address) :
    Moves s a (s.hostDown address) := by
  have h : s.control.fabric.Untouched
      { s.control.fabric with balancing := s.control.fabric.balancing.leave address } :=
    .of_connections rfl rfl
  simp only [hostDown]
  split
  · exact moves_trigger h
  · exact .outside _ h

theorem moves_poll {s u : System} {job : Job} (hj : job ∈ s.jobs) (h : s.poll job = some u) :
    Moves s (.poll job.id) u := by
  unfold poll at h
  split at h
  · cases h
  · split at h
    · rename_i hc
      obtain ⟨turn, hr, rfl⟩ := Option.map_eq_some_iff.mp h
      exact .turn hj hr (fun _ => hc) (.inr ⟨rfl, rfl⟩)
    · cases h
      exact .polled _ _

theorem moves_park {s u : System} {job : Job} {a : Action} (h : s.park job = some u) :
    Moves s a u := by
  unfold park at h
  split at h
  · cases h
  · split at h
    · cases h
      exact .polled _ _
    · cases h

theorem moves_deliver {s u : System} {job : Job} {signal : Signal} (hj : job ∈ s.jobs)
    (h : s.deliver job signal = some u) : Moves s (.signal job.id signal) u := by
  unfold deliver at h
  split at h
  · rename_i ha
    obtain ⟨turn, hr, rfl⟩ := Option.map_eq_some_iff.mp h
    refine .turn hj hr (fun hc => ?_) (.inl rfl)
    rw [hc] at ha
    cases ha
  · cases h

theorem moves_of_step {s u : System} {a : Action} (h : s.step a = some u) : Moves s a u := by
  cases a with
  | tick ms => cases h; exact .outside _ (.of_connections rfl rfl)
  | call call => cases h; exact .called call
  | trigger => cases h; exact moves_trigger (.of_connections rfl rfl)
  | hostUp a => cases h; exact .outside _ (.of_connections rfl rfl)
  | hostDown a => cases h; exact moves_hostDown s _ a
  | hostAdded a => cases h; exact .outside _ (.of_connections rfl rfl)
  | hostRemoved a => cases h; exact .outside _ (.of_connections rfl rfl)
  | poll id =>
    obtain ⟨job, hj, hp⟩ := Option.bind_eq_some_iff.mp h
    obtain ⟨hm, rfl⟩ := mem_of_job? hj
    exact moves_poll hm hp
  | park id =>
    obtain ⟨job, _, hp⟩ := Option.bind_eq_some_iff.mp h
    exact moves_park hp
  | signal id signal =>
    obtain ⟨job, hj, hd⟩ := Option.bind_eq_some_iff.mp h
    obtain ⟨hm, rfl⟩ := mem_of_job? hj
    exact moves_deliver hm hd
  | lose c => cases h; exact .outside _ (Fabric.untouched_lose _ c)
  | addHost a => cases h; exact .outside _ (Fabric.untouched_addHost _ a)
  | removeHost a => cases h; exact .outside _ (Fabric.untouched_removeHost _ a)

/-! ## Tasks -/

@[simp] theorem control_apply (s : System) (id : JobId) (turn : Turn) :
    (s.apply id turn).control = turn.control := by
  rcases turn with ⟨k, task, spawned, result⟩
  cases task <;> cases spawned <;> cases result <;> rfl

theorem nextJob_apply (s : System) (id : JobId) (turn : Turn) :
    (s.apply id turn).nextJob = s.nextJob + turn.spawned.toList.length := by
  rcases turn with ⟨k, task, spawned, result⟩
  cases task <;> cases spawned <;> cases result <;> rfl

theorem returned_apply (s : System) (id : JobId) (turn : Turn) :
    (s.apply id turn).returned =
      (turn.result.toList.map fun r => ⟨id, turn.control.fabric.clock, r⟩) ++ s.returned := by
  rcases turn with ⟨k, task, spawned, result⟩
  cases task <;> cases spawned <;> cases result <;> rfl

theorem map_of_ne {l : List Job} {id : JobId} (g : Job → Job) (h : ∀ j ∈ l, j.id ≠ id) :
    (l.map fun j => if j.id == id then g j else j) = l := by
  refine (List.map_congr_left fun j hj => ?_).trans (List.map_id l)
  simp [h j hj]

theorem filter_of_ne {l : List Job} {id : JobId} (h : ∀ j ∈ l, j.id ≠ id) :
    l.filter (·.id != id) = l :=
  List.filter_eq_self.mpr fun j hj => by simp [h j hj]

/-- The other tasks beside a given one. -/
theorem InOrder.split {s : System} (h : s.InOrder) {job : Job} (hj : job ∈ s.jobs) :
    ∃ l r, s.jobs = l ++ job :: r ∧ (∀ j ∈ l, j.id ≠ job.id) ∧ ∀ j ∈ r, j.id ≠ job.id := by
  obtain ⟨l, r, hs⟩ := List.append_of_mem hj
  have hn := h.nodup
  rw [hs, List.map_append, List.map_cons] at hn
  obtain ⟨_, hr, hd⟩ := List.nodup_append.mp hn
  refine ⟨l, r, hs, fun j hj => ?_, fun j hj e => ?_⟩
  · exact hd j.id (List.mem_map_of_mem hj) job.id List.mem_cons_self
  · exact (List.nodup_cons.mp hr).1 (e ▸ List.mem_map_of_mem hj)

theorem InOrder.eq_of_id {s : System} (h : s.InOrder) {i j : Job} (hi : i ∈ s.jobs)
    (hj : j ∈ s.jobs) (e : i.id = j.id) : i = j := by
  obtain ⟨l, r, hs, hl, hr⟩ := h.split hj
  rw [hs] at hi
  rcases List.mem_append.mp hi with hi | hi
  · exact absurd e (hl i hi)
  · rcases List.mem_cons.mp hi with rfl | hi
    · rfl
    · exact absurd e (hr i hi)

theorem jobs_setTask {s : System} {job : Job} {l r : List Job} (hs : s.jobs = l ++ job :: r)
    (hl : ∀ j ∈ l, j.id ≠ job.id) (hr : ∀ j ∈ r, j.id ≠ job.id) (task : Task) :
    (s.setTask job.id task).jobs = l ++ ⟨job.id, task, true⟩ :: r := by
  rw [setTask, hs, List.map_append, List.map_cons, map_of_ne _ hl, map_of_ne _ hr]
  simp

theorem jobs_retire {s : System} {job : Job} {l r : List Job} (hs : s.jobs = l ++ job :: r)
    (hl : ∀ j ∈ l, j.id ≠ job.id) (hr : ∀ j ∈ r, j.id ≠ job.id) :
    (s.retire job.id).jobs = l ++ r := by
  rw [retire, hs, List.filter_append, List.filter_cons, filter_of_ne hl, filter_of_ne hr]
  simp

/-- The jobs before those that a turn starts. -/
def stayed (s : System) (id : JobId) (turn : Turn) : List Job :=
  match turn.task with
  | some task => (s.setTask id task).jobs
  | none => (s.retire id).jobs

theorem jobs_apply_eq (s : System) (id : JobId) (turn : Turn) :
    (s.apply id turn).jobs =
      s.stayed id turn ++ turn.spawned.toList.map fun task => ⟨s.nextJob, task, false⟩ := by
  rcases turn with ⟨k, task, spawned, result⟩
  cases task <;> cases spawned <;> cases result <;>
    first | rfl | exact (List.append_nil _).symm

/-- A turn changes one task in its place and may start one more. -/
theorem jobs_apply {s : System} {job : Job} {l r : List Job} (hs : s.jobs = l ++ job :: r)
    (hl : ∀ j ∈ l, j.id ≠ job.id) (hr : ∀ j ∈ r, j.id ≠ job.id) (turn : Turn) :
    (s.apply job.id turn).jobs =
      l ++ (turn.task.toList.map fun task => ⟨job.id, task, true⟩) ++ r ++
        turn.spawned.toList.map fun task => ⟨s.nextJob, task, false⟩ := by
  rw [jobs_apply_eq]
  congr 1
  unfold stayed
  cases turn.task with
  | none =>
    show (s.retire job.id).jobs = _
    rw [jobs_retire hs hl hr]
    simp
  | some task =>
    show (s.setTask job.id task).jobs = _
    rw [jobs_setTask hs hl hr]
    simp

/-- Where a job after a turn comes from. -/
theorem mem_jobs_apply {s : System} (h : s.InOrder) {job : Job} (hj : job ∈ s.jobs) {turn : Turn}
    {j : Job} (hm : j ∈ (s.apply job.id turn).jobs) :
    (j ∈ s.jobs ∧ j.id ≠ job.id) ∨ (j.id = job.id ∧ turn.task.isSome = true) ∨
      j.id = s.nextJob := by
  obtain ⟨l, r, hs, hl, hr⟩ := h.split hj
  rw [jobs_apply hs hl hr turn] at hm
  rcases List.mem_append.mp hm with hm | hm
  · rcases List.mem_append.mp hm with hm | hm
    · rcases List.mem_append.mp hm with hm | hm
      · exact .inl ⟨hs ▸ List.mem_append_left _ hm, hl j hm⟩
      · obtain ⟨task, ht, rfl⟩ := List.mem_map.mp hm
        exact .inr (.inl ⟨rfl, Option.isSome_iff_exists.mpr ⟨task, Option.mem_toList.mp ht⟩⟩)
    · exact .inl ⟨hs ▸ List.mem_append_right _ (List.mem_cons_of_mem _ hm), hr j hm⟩
  · obtain ⟨task, _, rfl⟩ := List.mem_map.mp hm
    exact .inr (.inr rfl)

/-- The other jobs stay as they are. -/
theorem mem_apply_of_ne {s : System} (h : s.InOrder) {job : Job} (hj : job ∈ s.jobs) (turn : Turn)
    {j : Job} (hm : j ∈ s.jobs) (hne : j.id ≠ job.id) : j ∈ (s.apply job.id turn).jobs := by
  obtain ⟨l, r, hs, hl, hr⟩ := h.split hj
  rw [jobs_apply hs hl hr turn]
  rw [hs] at hm
  refine List.mem_append_left _ ?_
  rcases List.mem_append.mp hm with hm | hm
  · exact List.mem_append_left _ (List.mem_append_left _ hm)
  · rcases List.mem_cons.mp hm with rfl | hm
    · exact absurd rfl hne
    · exact List.mem_append_right _ hm

/-- The job that had the turn goes on at its new position. -/
theorem mem_apply_of_task {s : System} (h : s.InOrder) {job : Job} (hj : job ∈ s.jobs) {turn : Turn}
    {task : Task} (ht : turn.task = some task) :
    ⟨job.id, task, true⟩ ∈ (s.apply job.id turn).jobs := by
  obtain ⟨l, r, hs, hl, hr⟩ := h.split hj
  rw [jobs_apply hs hl hr turn, ht]
  refine List.mem_append_left _ (List.mem_append_left _ (List.mem_append_right _ ?_))
  exact List.mem_singleton.mpr rfl

theorem InOrder.of_ids {s u : System} (h : s.InOrder)
    (hj : u.jobs.map (·.id) = s.jobs.map (·.id)) (hn : u.nextJob = s.nextJob) : u.InOrder := by
  refine ⟨hj ▸ h.nodup, fun j hu => ?_⟩
  have hm : j.id ∈ s.jobs.map (·.id) := hj ▸ List.mem_map_of_mem hu
  obtain ⟨i, hi, e⟩ := List.mem_map.mp hm
  rw [← e, hn]
  exact h.below i hi

theorem InOrder.spawn {s : System} (h : s.InOrder) (task : Task) : (s.spawn task).InOrder := by
  have hfresh : ∀ j ∈ s.jobs, j.id ≠ s.nextJob := fun j hj => Nat.ne_of_lt (h.below j hj)
  constructor
  · rw [System.spawn, List.map_append, List.nodup_append]
    refine ⟨h.nodup, by simp, fun i hi j hj e => ?_⟩
    obtain ⟨job, hm, rfl⟩ := List.mem_map.mp hi
    rw [List.map_singleton, List.mem_singleton] at hj
    exact hfresh job hm (e.trans hj)
  · intro j hj
    rcases List.mem_append.mp hj with hj | hj
    · exact Nat.lt_succ_of_lt (h.below j hj)
    · rw [List.mem_singleton.mp hj]
      exact Nat.lt_succ_self _

theorem tasks_spawn (s : System) (task : Task) : (s.spawn task).tasks = s.tasks ++ [task] :=
  List.map_append

theorem ids_setPolled (s : System) (id : JobId) (b : Bool) :
    (s.setPolled id b).jobs.map (·.id) = s.jobs.map (·.id) := by
  simp only [setPolled, List.map_map]
  refine List.map_congr_left fun j _ => ?_
  simp only [Function.comp]
  split <;> rfl

theorem tasks_setPolled (s : System) (id : JobId) (b : Bool) :
    (s.setPolled id b).tasks = s.tasks := by
  simp only [tasks, setPolled, List.map_map]
  refine List.map_congr_left fun j _ => ?_
  simp only [Function.comp]
  split <;> rfl

theorem ids_setTask (s : System) (id : JobId) (task : Task) :
    (s.setTask id task).jobs.map (·.id) = s.jobs.map (·.id) := by
  simp only [setTask, List.map_map]
  refine List.map_congr_left fun j _ => ?_
  simp only [Function.comp]
  split <;> rfl

theorem InOrder.retire {s : System} (h : s.InOrder) (id : JobId) : (s.retire id).InOrder :=
  ⟨h.nodup.sublist (List.Sublist.map _ List.filter_sublist),
    fun j hj => h.below j (List.mem_filter.mp hj).1⟩

theorem InOrder.withControl {s : System} (h : s.InOrder) (k : Control) :
    (s.withControl k).InOrder := ⟨h.nodup, h.below⟩

theorem InOrder.answer {s : System} (h : s.InOrder) (id : JobId) (result : CallResult) :
    (s.answer id result).InOrder := ⟨h.nodup, h.below⟩

theorem InOrder.apply {s : System} (h : s.InOrder) (id : JobId) (turn : Turn) :
    (s.apply id turn).InOrder := by
  have hc := h.withControl turn.control
  have hstay : ∀ task, ((s.withControl turn.control).setTask id task).InOrder := fun task =>
    hc.of_ids (ids_setTask _ id task) rfl
  rcases turn with ⟨k, _ | task, _ | spawned, _ | result⟩
  · exact hc.retire id
  · exact (hc.retire id).answer id result
  · exact (hc.retire id).spawn spawned
  · exact ((hc.retire id).spawn spawned).answer id result
  · exact hstay task
  · exact (hstay task).answer id result
  · exact (hstay task).spawn spawned
  · exact ((hstay task).spawn spawned).answer id result

theorem InOrder.moves {s u : System} {a : Action} (h : s.InOrder) (m : Moves s a u) :
    u.InOrder := by
  cases m with
  | outside f _ => exact h.withControl _
  | called call => exact h.spawn _
  | started _ _ => exact (h.withControl _).spawn _
  | polled id b => exact h.of_ids (ids_setPolled s id b) rfl
  | turn _ _ _ _ => exact h.apply _ _

theorem inOrder_initial (settings : Settings) (store : Store) (balancing : Balancing) :
    (initial settings store balancing).InOrder :=
  ⟨List.nodup_nil, fun j hj => by cases hj⟩

/-- A turn takes one task away and brings those that it leaves behind. -/
theorem tasks_apply {s : System} (h : s.InOrder) {job : Job} (hj : job ∈ s.jobs) :
    ∃ others, s.tasks.Perm (job.task :: others) ∧
      ∀ turn, (s.apply job.id turn).tasks.Perm (turn.tasks ++ others) := by
  obtain ⟨l, r, hs, hl, hr⟩ := h.split hj
  refine ⟨l.map (·.task) ++ r.map (·.task), ?_, fun turn => ?_⟩
  · rw [tasks, hs, List.map_append, List.map_cons]
    exact List.perm_middle
  · rw [tasks, jobs_apply hs hl hr turn]
    simp only [List.map_append, List.map_map, Turn.tasks]
    rw [show (turn.task.toList.map ((·.task) ∘ fun task => (⟨job.id, task, true⟩ : Job))) =
      turn.task.toList from List.map_id _]
    rw [show (turn.spawned.toList.map ((·.task) ∘ fun task => (⟨s.nextJob, task, false⟩ : Job))) =
      turn.spawned.toList from List.map_id _]
    rw [List.append_assoc, List.append_assoc, List.append_assoc]
    refine (List.perm_append_comm_assoc _ _ _).trans (List.Perm.append_left _ ?_)
    rw [← List.append_assoc]
    exact List.perm_append_comm

/-! ## Invariants -/

/-- A system as steps leave it: no task gives its attempt up before a shutdown, and whoever has
returned is over. -/
structure Proper (s : System) : Prop where
  order : s.InOrder
  calm : ∀ t ∈ s.tasks, t.GivenUp → s.control.isShutDown = true
  settled : ∀ r ∈ s.returned, r.job < s.nextJob ∧ ∀ j ∈ s.jobs, j.id ≠ r.job

theorem Proper.sound {s : System} (h : s.Proper) {job : Job} {signal : Signal} {turn : Turn}
    (hj : job ∈ s.jobs) (hr : job.task.resume s.control signal = some turn)
    (hh : job.task.Hears s.control signal) : Turn.Sound s.control job.task turn :=
  Task.sound_resume hr hh (h.calm job.task (List.mem_map_of_mem hj))

/-- A trigger from outside is like the turn of a call that holds nothing. -/
theorem sound_started {k l : Control} {task : Task} (h : k.trigger = some (l, task)) :
    Turn.Sound k (.called .refreshNodes) { control := l, spawned := some task } := by
  obtain ⟨handle, t, rfl⟩ := Turn.triggers_of_trigger h
  exact Turn.sound_trigger rfl (.refl k.fabric) t rfl rfl rfl

theorem Proper.calm_moves {s u : System} {a : Action} (h : s.Proper) (m : Moves s a u) :
    ∀ t ∈ u.tasks, t.GivenUp → u.control.isShutDown = true := by
  cases m with
  | outside f _ => exact h.calm
  | called call =>
    rw [tasks_spawn]
    intro t ht hg
    rcases List.mem_append.mp ht with ht | ht
    · exact h.calm t ht hg
    · rw [List.mem_singleton.mp ht] at hg
      obtain ⟨_, ha, _⟩ := hg
      cases ha
  | started hf ht =>
    have hs := sound_started ht
    rw [tasks_spawn]
    intro t hm hg
    rcases List.mem_append.mp hm with hm | hm
    · exact hs.isShutDown (h.calm t hm hg)
    · exact hs.isShutDown (hs.calm t hm hg)
  | polled id b =>
    rw [tasks_setPolled]
    exact h.calm
  | @turn _ job _ turn hj hr hh _ =>
    have hs := h.sound hj hr hh
    obtain ⟨others, hp, ha⟩ := tasks_apply h.order hj
    rw [control_apply]
    intro t ht hg
    rcases List.mem_append.mp ((ha turn).mem_iff.mp ht) with ht | ht
    · exact hs.isShutDown (hs.calm t ht hg)
    · exact hs.isShutDown (h.calm t (hp.mem_iff.mpr (List.mem_cons_of_mem _ ht)) hg)

theorem Proper.settled_spawn {s : System} (h : s.Proper) (k : Control) (task : Task) :
    ∀ r ∈ ((s.withControl k).spawn task).returned, r.job < ((s.withControl k).spawn task).nextJob ∧
      ∀ j ∈ ((s.withControl k).spawn task).jobs, j.id ≠ r.job := by
  intro r hr
  obtain ⟨hlt, hne⟩ := h.settled r hr
  refine ⟨Nat.lt_succ_of_lt hlt, fun j hj => ?_⟩
  rcases List.mem_append.mp hj with hj | hj
  · exact hne j hj
  · rw [List.mem_singleton.mp hj]
    exact (Nat.ne_of_lt hlt).symm

theorem Proper.settled_moves {s u : System} {a : Action} (h : s.Proper) (m : Moves s a u) :
    ∀ r ∈ u.returned, r.job < u.nextJob ∧ ∀ j ∈ u.jobs, j.id ≠ r.job := by
  cases m with
  | outside f _ => exact h.settled
  | called call => exact h.settled_spawn s.control _
  | @started _ f k task hf ht => exact h.settled_spawn k task
  | polled id b =>
    intro r hr
    refine ⟨(h.settled r hr).1, fun j hj => ?_⟩
    have hm : j.id ∈ s.jobs.map (·.id) := ids_setPolled s id b ▸ List.mem_map_of_mem hj
    obtain ⟨i, hi, e⟩ := List.mem_map.mp hm
    rw [← e]
    exact (h.settled r hr).2 i hi
  | @turn _ job _ turn hj hr hh _ =>
    have hs := h.sound hj hr hh
    have hjob := h.order.below job hj
    intro r hmem
    rw [returned_apply] at hmem
    rw [nextJob_apply]
    rcases List.mem_append.mp hmem with hmem | hmem
    · obtain ⟨result, hresult, rfl⟩ := List.mem_map.mp hmem
      have hover := hs.finished
        (Option.isSome_iff_exists.mpr ⟨result, Option.mem_toList.mp hresult⟩)
      refine ⟨Nat.lt_add_right _ hjob, fun j hm => ?_⟩
      rcases mem_jobs_apply h.order hj hm with ⟨_, hne⟩ | ⟨_, hsome⟩ | hnew
      · exact hne
      · rw [hover] at hsome; cases hsome
      · exact hnew ▸ (Nat.ne_of_lt hjob).symm
    · obtain ⟨hlt, hne⟩ := h.settled r hmem
      refine ⟨Nat.lt_add_right _ hlt, fun j hm => ?_⟩
      rcases mem_jobs_apply h.order hj hm with ⟨hm, _⟩ | ⟨he, _⟩ | hnew
      · exact hne j hm
      · exact he ▸ hne job hj
      · exact hnew ▸ (Nat.ne_of_lt hlt).symm

theorem Proper.moves {s u : System} {a : Action} (h : s.Proper) (m : Moves s a u) : u.Proper :=
  ⟨h.order.moves m, h.calm_moves m, h.settled_moves m⟩

theorem proper_initial (settings : Settings) (store : Store) (balancing : Balancing) :
    (initial settings store balancing).Proper :=
  ⟨inOrder_initial settings store balancing, List.forall_mem_nil _, List.forall_mem_nil _⟩

theorem Proper.reaches {s u : System} (h : s.Proper) (r : Reaches s u) : u.Proper := by
  induction r with
  | refl => exact h
  | step a _ e ih => exact ih.moves (moves_of_step e)

/-- What holds of a control connection and its tasks, in whatever order, and is kept by every
move. -/
structure Invariant (P : Control → List Task → Prop) : Prop where
  perm : ∀ {k ts us}, ts.Perm us → P k ts → P k us
  outside : ∀ {k f ts}, k.fabric.Untouched f → P k ts → P { k with fabric := f } ts
  called : ∀ {k ts} call, P k ts → P k (.called call :: ts)
  turn : ∀ {k task turn ts}, Turn.Sound k task turn → P k (task :: ts) →
    P turn.control (turn.tasks ++ ts)

namespace Invariant

variable {P : Control → List Task → Prop}

theorem spawn (hP : Invariant P) {s : System} {task : Task}
    (h : P s.control (task :: s.tasks)) : P (s.spawn task).control (s.spawn task).tasks := by
  rw [tasks_spawn]
  exact hP.perm (List.perm_append_singleton task s.tasks).symm h

theorem moves (hP : Invariant P) {s u : System} {a : Action} (hs : s.Proper)
    (m : Moves s a u) (h : P s.control s.tasks) : P u.control u.tasks := by
  cases m with
  | outside f hf => exact hP.outside hf h
  | called call => exact hP.spawn (hP.called call h)
  | @started _ f k _ hf ht =>
    have hc := hP.called .refreshNodes (hP.outside hf h)
    exact hP.spawn (s := s.withControl k) (hP.turn (sound_started ht) hc)
  | polled id b =>
    rw [tasks_setPolled]
    exact h
  | @turn _ job _ turn hj hr hh _ =>
    obtain ⟨others, hp, ha⟩ := tasks_apply hs.order hj
    rw [control_apply]
    exact hP.perm (ha turn).symm (hP.turn (hs.sound hj hr hh) (hP.perm hp h))

/-- **An invariant holds along every run.** -/
theorem reaches (hP : Invariant P) {s u : System} (hs : s.Proper) (r : Reaches s u)
    (h : P s.control s.tasks) : P u.control u.tasks := by
  induction r with
  | refl => exact h
  | step a hr e ih => exact hP.moves (hs.reaches hr) (moves_of_step e) ih

end Invariant

/-! ## A control connection of one node -/

theorem exists_reaches {s : System} {actions : List Action} {p : System → Prop}
    [DecidablePred p] (h : ((s.run actions).any fun t => p t) = true) : ∃ t, Reaches s t ∧ p t := by
  cases hr : s.run actions with
  | none => rw [hr] at h; cases h
  | some t =>
    rw [hr, Option.any_some] at h
    exact ⟨t, reaches_run hr, of_decide_eq_true h⟩

/-- A control connection whose policy knows one node. -/
def lone : System :=
  initial ⟨9042, .zero, .constant .zero⟩ {} (.roundRobin { live := [.v4 .loopback 9042] })

/-- A job brings a connection up, up to the last step. -/
def bringsUp (job : JobId) : List Action :=
  [.go, .opened (.ok ()), .answered .registration (.ok .ready), .go, .go,
    .answered (.survey .keyspaces) (.ok (.rows .empty)),
    .answered (.survey .columnFamilies) (.ok (.rows .empty)),
    .answered (.survey .columns) (.ok (.rows .empty)), .go,
    .answered .peers (.ok (.rows .empty)), .go].map (.signal job)

end System

end ControlChannel
