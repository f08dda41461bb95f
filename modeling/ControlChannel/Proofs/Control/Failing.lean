import ControlChannel.Proofs.Control.Connecting
import ControlChannel.Proofs.Control.Rounds

/-! # Calls to connect that fail

What the turns of one call have done is traced through the steps of a run (`Traced`). A call to
connect follows the course of one round until its connection is up (`Task.OnCourse`), so that the
error it fails with is the one its round came to. It starts no session, and once it has failed
nothing happens any more until somebody asks for something (`System.Still`). Main statement:
`candidates_decide`. -/

namespace ControlChannel

open BringUp (Fails Meets)
open Round (Record Course)

/-- The bring-up that ends with the turn of a task, if one does. -/
def Task.ended (k : Control) (task : Task) (signal : Signal) :
    List (Address × BringUp.Result) :=
  match task.attempt? with
  | some (.round r) => r.ended k signal
  | _ => []

/-- What the turns of one job have done in the steps of a run. -/
inductive Traced (id : JobId) : List Transition → Record → Prop where
  | nil : Traced id [] {}
  | skip {h : List Transition} {record : Record} {x : Transition} (traced : Traced id h record)
      (elsewhere : ∀ job signal turn, x.Turns job signal turn → job.id ≠ id) :
      Traced id (h ++ [x]) record
  | turn {h : List Transition} {record : Record} {x : Transition} {job : Job} {signal : Signal}
      {turn : Turn} (traced : Traced id h record) (turns : x.Turns job signal turn)
      (own : job.id = id) :
      Traced id (h ++ [x]) (record.extend x.before.control x.after.control
        (job.task.ended x.before.control signal))

/-- A call to connect has begun its round in one of these steps, with this plan of the policy. -/
def Began (id : JobId) (h : List Transition) (plan : List Address) : Prop :=
  ∃ x ∈ h, ∃ job signal turn, x.Turns job signal turn ∧ job.id = id ∧
    job.task = .connect .fresh ∧ x.before.control.connecting.fabric.takePlan.1 = plan

theorem Began.skip {id : JobId} {h : List Transition} {plan : List Address}
    (b : Began id h plan) (x : Transition) : Began id (h ++ [x]) plan := by
  obtain ⟨y, hy, began⟩ := b
  exact ⟨y, List.mem_append_left _ hy, began⟩

theorem Transition.Turns.began {x : Transition} {job : Job} {signal : Signal} {turn : Turn}
    (turns : x.Turns job signal turn) (ht : job.task = .connect .fresh) (h : List Transition) :
    Began job.id (h ++ [x]) x.before.control.connecting.fabric.takePlan.1 :=
  ⟨x, List.mem_append_right _ (List.mem_singleton.mpr rfl), job, signal, turn, turns, rfl, ht, rfl⟩

/-- A call to connect that has a round in progress has followed its course over one of `plans`. -/
def Task.OnCourse (plans : List Address → Prop) (record : Record) : Task → Prop
  | .called .connect | .connect .fresh => record = {}
  | .connect (.round r) => ∃ plan, plans plan ∧ Course plan record (.running r)
  | _ => True

variable {plans : List Address → Prop}

theorem Task.OnCourse.mono {record : Record} {task : Task} (h : task.OnCourse plans record)
    {more : List Address → Prop} (hm : ∀ plan, plans plan → more plan) :
    task.OnCourse more record := by
  cases task with
  | called call => cases call <;> exact h
  | connect a =>
    cases a with
    | round r =>
      obtain ⟨plan, hplan, course⟩ := h
      exact ⟨plan, hm plan hplan, course⟩
    | fresh | installing i => exact h
  | refreshSchema r | refreshNodes r | shutdown c | background b a | session b s => trivial

theorem Task.onCourse_of_other {record : Record} {task : Task} (h : task.isConnecting = false) :
    task.OnCourse plans record := by
  cases task with
  | called call =>
    cases call with
    | connect => cases h
    | _ => trivial
  | connect a => cases h
  | _ => trivial

namespace Round.Record

variable {record : Record} {k l : Control} {tried : List (Address × BringUp.Result)}

theorem extend_shift (p : Phase) : record.extend k (l.shift p) tried = record.extend k l tried := by
  rw [extend, Control.fabric_shift, Control.events_shift]
  rfl

theorem extend_connecting : record.extend k.connecting l tried = record.extend k l tried := by
  have hopenings : k.connecting.fabric.openings = k.fabric.openings := by
    rw [Control.connecting, Control.fabric_shift]
    rfl
  have hevents : k.connecting.events = k.events := Control.events_shift _ _
  rw [extend, hopenings, hevents]
  rfl

end Round.Record

/-! ## Turns -/

/-- A turn of a call to connect keeps to the course of its round, to its end if it fails. -/
structure Turn.OnCourse (plans : List Address → Prop) (k : Control) (record : Record)
    (tried : List (Address × BringUp.Result)) (turn : Turn) : Prop where
  going : ∀ t, turn.task = some t → t.OnCourse plans (record.extend k turn.control tried)
  failed : ∀ e, turn.result = some (.connected (.error e)) →
    ∃ plan, plans plan ∧ Course plan (record.extend k turn.control tried) (.done (.error e))

variable {k : Control} {record : Record} {signal : Signal} {turn : Turn}

theorem Turn.onCourse_ofConnect {x : Control × Progress Round Round.Result} {plan : List Address}
    {tried : List (Address × BringUp.Result)} (hplan : plans plan)
    (c : Course plan (record.extend k x.1 tried) x.2) :
    OnCourse plans k record tried (ofConnect (Attempt.afterRound x)) := by
  obtain ⟨l, p⟩ := x
  cases p with
  | running r =>
    refine ⟨fun t ht => ?_, fun e h => by cases h⟩
    cases ht
    exact ⟨plan, hplan, c⟩
  | done result =>
    rcases result with e | (link | _)
    · refine ⟨fun t ht => (by cases ht), fun e' h => ?_⟩
      cases h
      exact ⟨plan, hplan, Record.extend_shift (l := l) _ ▸ c⟩
    · obtain ⟨_, ⟨i, _, htask, hresult⟩ | ⟨htask, hresult⟩⟩ :=
        ofConnect_afterInstall (Install.start l link)
      · refine ⟨fun t ht => ?_, fun e h => by cases hresult.symm.trans h⟩
        cases htask.symm.trans ht
        trivial
      · exact ⟨fun t ht => (by cases htask.symm.trans ht), fun e h => by cases hresult.symm.trans h⟩
    · exact ⟨fun t ht => (by cases ht), fun e h => by cases h⟩

theorem Task.onCourse_resume {a : Attempt} (h : (Task.connect a).resume k signal = some turn)
    (hears : (Task.connect a).Hears k signal) (live : k.isShutDown = false)
    (c : (Task.connect a).OnCourse plans record)
    (begins : a = .fresh → plans k.connecting.fabric.takePlan.1) :
    turn.OnCourse plans k record ((Task.connect a).ended k signal) := by
  cases a with
  | fresh =>
    cases signal with
    | go =>
      cases h
      cases c
      have hlive := (isShutDown_readied k (.connect .fresh)).trans live
      have hstart := Course.start (k := k.connecting) hlive rfl
      rw [Record.extend_connecting] at hstart
      exact Turn.onCourse_ofConnect (begins rfl) hstart
    | _ => cases h
  | round r =>
    obtain ⟨o, ho, rfl⟩ := Option.map_eq_some_iff.mp h
    obtain ⟨x, hx, rfl⟩ := Option.map_eq_some_iff.mp ho
    obtain ⟨plan, hplan, hcourse⟩ := c
    have heard : signal ≠ .cancelled := by
      rintro rfl
      rw [isShutDown_of_hears (a := .round r) rfl (fun h => by cases h) hears] at live
      cases live
    exact Turn.onCourse_ofConnect hplan (hcourse.goes live heard hx)
  | installing i =>
    cases signal with
    | closed => cases h; exact ⟨fun t ht => (by cases ht), fun e he => by cases he⟩
    | _ => cases h

theorem Transition.Turns.onCourse {x : Transition} {job : Job} (h : x.Turns job signal turn)
    (live : x.before.control.isShutDown = false) (c : job.task.OnCourse plans record)
    (begins : job.task = .connect .fresh → plans x.before.control.connecting.fabric.takePlan.1)
    {t : Task} (ht : turn.task = some t) :
    t.OnCourse plans (record.extend x.before.control x.after.control
      (job.task.ended x.before.control signal)) := by
  rw [h.after, System.control_apply]
  cases hc : t.isConnecting with
  | false => exact Task.onCourse_of_other hc
  | true =>
    rcases System.turns_connecting h ((Task.fits_resume h.resume).going t ht hc) with
      ⟨hcalled, rfl⟩ | ⟨a, ha⟩
    · rw [hcalled] at c ⊢
      cases c
      have hcontrol : (Turn.begin x.before.control .connect).control = x.before.control := by
        simp only [Turn.begin]
        repeat' split
        all_goals rfl
      simp only [Turn.begin] at ht
      repeat' split at ht
      all_goals cases ht
      rw [hcontrol]
      exact Record.extend_quiet rfl rfl
    · rw [ha] at c ⊢
      exact (Task.onCourse_resume (ha ▸ h.resume) (ha ▸ h.hears) live c
        fun hf => begins (hf ▸ ha)).going t ht

theorem Task.exists_ofConnect {a : Attempt} (h : (Task.connect a).resume k signal = some turn) :
    ∃ o, Turn.ofConnect o = turn := by
  cases a with
  | fresh | round r | installing i =>
    obtain ⟨o, _, ho⟩ := Option.map_eq_some_iff.mp h
    exact ⟨o, ho⟩

/-- Calls to connect start nothing and leave the slot to others. -/
theorem Transition.Turns.bare {x : Transition} {job : Job} (h : x.Turns job signal turn)
    (hp : x.before.Proper) (hc : job.task.isConnecting = true) :
    turn.spawned = none ∧ x.after.control.slot = x.before.control.slot := by
  rw [h.after, System.control_apply]
  rcases System.turns_connecting h hc with ⟨_, rfl⟩ | ⟨a, ha⟩
  · simp only [Turn.begin]
    repeat' split
    all_goals exact ⟨rfl, rfl⟩
  · have hr := h.resume
    have s := (hp.sound h.mem h.resume h.hears).slot
    rw [ha] at hr s
    obtain ⟨o, rfl⟩ := Task.exists_ofConnect hr
    refine ⟨?_, ?_⟩
    · unfold Turn.ofConnect
      split <;> rfl
    · cases s with
      | kept slot _ => exact slot
      | released handle own _ _ => cases own
      | taken handle _ _ handles =>
        rw [Task.handles, List.filterMap_eq_nil_iff.mpr (Turn.handle?_ofConnect o)] at handles
        cases handles
      | revoked call _ _ _ => cases call

namespace System

variable {settings : Settings} {store : Store} {balancing : Balancing}
variable {s t u : System} {a : Action} {job : Job} {h : List Transition} {x : Transition}

/-! ## Courses -/

theorem nextJob_le_moves (m : Moves s a u) : s.nextJob ≤ u.nextJob := by
  cases m with
  | outside f _ | polled _ b => exact Nat.le_refl _
  | called call | started _ _ => exact Nat.le_succ _
  | turn _ _ _ _ =>
    rw [nextJob_apply]
    exact Nat.le_add_right _ _

/-- A job that has just had its turn stands where the turn left it. -/
theorem task_of_turns (hs : x.before.InOrder) (hturn : x.Turns job signal turn) {j : Job}
    (hj : j ∈ x.after.jobs) (hid : j.id = job.id) : turn.task = some j.task := by
  rw [hturn.after] at hj
  rcases mem_jobs_cases hs hturn.mem hj with ⟨_, hne⟩ | ⟨_, ht⟩ | ⟨hnew, _⟩
  · exact absurd hid hne
  · exact ht
  · exact absurd (hs.below job hturn.mem) (Nat.not_lt.mpr (hnew ▸ Nat.le_of_eq hid))

/-- Before a shutdown every job is on its course: one that is new has done nothing, and from there
on its turns keep it on the course. -/
theorem onCourse_of_run (run : Run (initial settings store balancing) h t)
    (live : t.control.isShutDown = false) :
    (∀ id, t.nextJob ≤ id → Traced id h {}) ∧
      ∀ job ∈ t.jobs, ∃ record, Traced job.id h record ∧
        job.task.OnCourse (Began job.id h) record := by
  induction run with
  | nil => exact ⟨fun _ _ => .nil, fun _ hj => by cases hj⟩
  | @snoc h s u a run step ih =>
    have hp := (proper_initial settings store balancing).reaches run.reaches
    have hlive := live_of_reaches hp ((Reaches.refl s).step a step) live
    obtain ⟨hnew, hold⟩ := ih hlive
    have m := moves_of_step step
    have htraced : ∀ id, s.nextJob ≤ id → Traced id (h ++ [⟨s, a, u⟩]) {} := fun id hid =>
      .skip (hnew id hid) fun job _ _ hturn he =>
        absurd (hp.order.below job hturn.mem) (Nat.not_lt.mpr (he ▸ hid))
    refine ⟨fun id hid => htraced id (Nat.le_trans (nextJob_le_moves m) hid), fun j hj => ?_⟩
    by_cases hturn : ∃ job signal turn, Transition.Turns ⟨s, a, u⟩ job signal turn ∧ job.id = j.id
    · obtain ⟨job, signal, turn, hturn, hid⟩ := hturn
      obtain ⟨record, traced, course⟩ := hold job hturn.mem
      refine ⟨_, .turn (hid ▸ traced) hturn hid, hid ▸ ?_⟩
      exact hturn.onCourse hlive (course.mono fun _ b => b.skip _) (fun ht => hturn.began ht h)
        (task_of_turns hp.order hturn hj hid.symm)
    · rcases origin_of_moves hp m hj with ⟨i, hi, hid, htask⟩ | ⟨job, signal, turn, ht, hid, _⟩ |
        ⟨hid, htask⟩
      · obtain ⟨record, traced, course⟩ := hold i hi
        refine ⟨record, .skip (hid ▸ traced) fun job signal turn ht he => ?_, ?_⟩
        · exact hturn ⟨job, signal, turn, ht, he⟩
        · exact htask ▸ hid ▸ course.mono fun _ b => b.skip _
      · exact absurd ⟨job, signal, turn, ht, hid⟩ hturn
      · refine ⟨{}, htraced j.id (Nat.le_of_eq hid.symm), ?_⟩
        rcases htask with ⟨call, hc⟩ | hh
        · rw [hc]
          cases call with
          | connect => rfl
          | _ => trivial
        · refine Task.onCourse_of_other ?_
          cases ht : j.task with
          | called call | connect a => rw [ht] at hh; cases hh
          | _ => rfl

/-- A call to connect that fails does so with the error of its round. -/
theorem course_of_failed (run : Run (initial settings store balancing) h s)
    (live : s.control.isShutDown = false)
    (hturn : Transition.Turns ⟨s, a, u⟩ job signal turn) {attempt : Attempt}
    (ht : job.task = .connect attempt) {e : Error}
    (failed : turn.result = some (.connected (.error e))) :
    ∃ plan record, Began job.id (h ++ [⟨s, a, u⟩]) plan ∧
      Traced job.id (h ++ [⟨s, a, u⟩]) record ∧ Course plan record (.done (.error e)) := by
  obtain ⟨record, traced, course⟩ := (onCourse_of_run run live).2 job hturn.mem
  have hr := hturn.resume
  have hh := hturn.hears
  have hcontrol : u.control = turn.control := by
    rw [show u = s.apply job.id turn from hturn.after, control_apply]
  have htraced := Traced.turn traced hturn rfl
  have hcourse := course.mono fun _ b => b.skip ⟨s, a, u⟩
  rw [ht] at hcourse hr hh htraced
  obtain ⟨plan, began, hend⟩ := (Task.onCourse_resume hr hh live hcourse
    fun hf => hturn.began (hf ▸ ht) h).failed e failed
  exact ⟨plan, _, began, hcontrol ▸ htraced, hend⟩

end System

/-! ## Systems that are left alone -/

/-- Somebody asks for something: makes a call, triggers a reconnection or reports that the
connected host is down. -/
def Transition.Asks (x : Transition) : Prop :=
  (∃ call, x.action = .call call) ∨ x.action = .trigger ∨
    ∃ a, x.action = .hostDown a ∧ x.before.Bereaves a

namespace System

variable {settings : Settings} {store : Store} {balancing : Balancing}
variable {s t u : System} {a : Action} {h : List Transition}

/-- Nothing is going on any more, and nothing has been opened meanwhile. -/
structure Still (s u : System) : Prop where
  jobs : u.jobs = []
  slot : u.control.slot = s.control.slot
  phase : u.control.phase = s.control.phase
  openings : u.control.fabric.openings = s.control.fabric.openings

theorem Still.outside {f : Fabric} (jobs : s.jobs = []) (h : s.control.fabric.Untouched f) :
    Still s (s.withFabric f) := ⟨jobs, rfl, rfl, Fabric.openings_congr h.acts⟩

theorem still_step (e : s.step a = some u) (unasked : ¬ Transition.Asks ⟨s, a, u⟩)
    (jobs : s.jobs = []) : Still s u := by
  have hnone : ∀ id, s.job? id = none := fun id => by rw [job?, jobs]; rfl
  cases a with
  | tick ms | hostUp b | hostAdded b | hostRemoved b =>
    cases e
    exact .outside jobs (.of_connections rfl rfl)
  | call call => exact absurd (.inl ⟨call, rfl⟩) unasked
  | trigger => exact absurd (.inr (.inl rfl)) unasked
  | hostDown b =>
    cases e
    rw [hostDown_not_bereaves fun hb => unasked (.inr (.inr ⟨b, rfl, hb⟩))]
    exact .outside jobs (.of_connections rfl rfl)
  | lose c => cases e; exact .outside jobs (Fabric.untouched_lose _ _)
  | addHost b => cases e; exact .outside jobs (Fabric.untouched_addHost _ _)
  | removeHost b => cases e; exact .outside jobs (Fabric.untouched_removeHost _ _)
  | poll id | park id | signal id signal =>
    simp only [step, hnone] at e
    cases e

theorem still_of_run (run : Run s h t) (unasked : ∀ x ∈ h, ¬ x.Asks) (jobs : s.jobs = []) :
    Still s t := by
  induction run with
  | nil => exact ⟨jobs, rfl, rfl, rfl⟩
  | snoc a _ e ih =>
    have hs := ih fun x hx => unasked x (List.mem_append_left _ hx)
    have hlast := unasked _ (List.mem_append_right _ (List.mem_singleton.mpr rfl))
    have hu := still_step e hlast hs.jobs
    exact ⟨hu.jobs, hu.slot.trans hs.slot, hu.phase.trans hs.phase, hu.openings.trans hs.openings⟩

/-- The phase after a call to connect has failed. -/
theorem phase_of_failed (hp : s.Proper) (e : Ending u.control u.tasks)
    (live : s.control.isShutDown = false) {job : Job}
    (hturn : Transition.Turns ⟨s, a, u⟩ job signal turn) {attempt : Attempt}
    (ht : job.task = .connect attempt) {error : Error}
    (failed : turn.result = some (.connected (.error error))) :
    u.control.phase = .disconnected := by
  have hslot := (hturn.bare hp (by rw [ht]; rfl)).2
  have hopen := (phase_ne_closed e ((congrArg Slot.revoked hslot).trans live)).1
  have hcontrol : u.control = turn.control := by
    rw [show u = s.apply job.id turn from hturn.after, control_apply]
  have hr := hturn.resume
  rw [ht] at hr
  obtain ⟨o, rfl⟩ := Task.exists_ofConnect hr
  rcases Turn.ofConnect_cases o with ⟨_, _, ho⟩ | ⟨_, good⟩
  · have hphase : u.control.phase = o.1.phase.shift .disconnected := by
      rw [hcontrol, ho]
      exact Control.phase_shift _ _
    rw [hphase] at hopen ⊢
    exact Phase.shift_of_ne fun hclosed => hopen (by rw [hclosed]; rfl)
  · exact absurd failed (good error)

/-- **A round is decided by its first candidate that does not fail with a connection fault.** Its
candidates are brought up one at a time, in the order of the plan, and as soon as one has come to
its end the round goes on. Such faults are published and recorded with the messages by which they
are known, and no candidate after the decisive one is tried. A candidate fails with the fault that
it meets while its connection is opened or one of its requests is answered, and with a connection
fault only if it met that one. A call to connect that fails has followed the course of its round
over the plan that the policy made as it began, and reports the error of the round; it leaves the
control connection disconnected, has started no session, and with nothing else going on no
connection is opened any more until somebody asks for something. -/
theorem candidates_decide :
    (∀ plan record p, Course plan record p → ∃ faults : List Round.Fault,
      (∀ f ∈ faults, f.error.isConnectionFault = true) ∧ Round.Verdict plan faults record p) ∧
    (∀ plan record r k signal l result, Course plan record (.running r) → k.isShutDown = false →
      signal ≠ .cancelled → r.bringUp.resume k r.target signal = some (l, .done result) →
      ∃ o, r.resume k signal = some o ∧
        Course plan (record.extend k o.1 [(r.target, result)]) o.2) ∧
    (∀ k target b signal l p, BringUp.resume k target b signal = some (l, p) →
      (∀ e, Fails e (.running b) → p = .done (.error e)) ∧
      (∀ e, Meets target k.settings.connectionTimeout signal e → Fails e p) ∧
      ∀ e message, e.Unreachable message → Fails e p →
        Meets target k.settings.connectionTimeout signal e ∨ Fails e (.running b)) ∧
    ∀ settings store balancing h s action u job signal turn attempt e,
      Run (initial settings store balancing) h s → s.step action = some u →
      Transition.Turns ⟨s, action, u⟩ job signal turn → job.task = .connect attempt →
      turn.result = some (.connected (.error e)) → s.control.isShutDown = false →
      (∃ plan record, Began job.id (h ++ [⟨s, action, u⟩]) plan ∧
        Traced job.id (h ++ [⟨s, action, u⟩]) record ∧ Course plan record (.done (.error e))) ∧
      u.control.phase = .disconnected ∧
      (∀ y ∈ h ++ [⟨s, action, u⟩], ∀ job signal turn, y.Turns job signal turn →
        job.task.isConnecting = true →
        turn.spawned = none ∧ y.after.control.slot = y.before.control.slot) ∧
      (u.jobs = [] → ∀ g t, Run u g t → (∀ y ∈ g, ¬ y.Asks) →
        t.jobs = [] ∧ t.control.slot.isActive = false ∧ t.control.phase = .disconnected ∧
        t.control.fabric.openings = u.control.fabric.openings) := by
  refine ⟨fun plan record p course => ?_, fun _ _ _ _ _ _ _ course live heard done =>
    course.ends live heard done, fun k target b signal l p resumed => ?_, ?_⟩
  · obtain ⟨faults, verdict, _⟩ := Round.verdict_of_course course
    exact ⟨faults, fun f _ => f.unreachable.isConnectionFault, verdict⟩
  · refine ⟨fun e failed => ?_, fun e meets => ?_, fun e message unreachable fails => ?_⟩
    · exact BringUp.eq_done_of_fails failed resumed
    · exact BringUp.fails_of_meets meets resumed
    · exact BringUp.meets_of_fails unreachable.isConnectionFault fails resumed
  · intro settings store balancing h s action u job signal turn attempt e run step hturn ht failed
      live
    have run' := run.snoc action step
    have hproper := proper_initial settings store balancing
    have hphase := phase_of_failed (hproper.reaches run.reaches) (ending_of_reaches run'.reaches)
      live hturn ht failed
    refine ⟨course_of_failed run live hturn ht failed, hphase, fun y hy job' _ _ hturn' hc => ?_,
      fun jobs g t run'' unasked => ?_⟩
    · exact hturn'.bare (hproper.reaches (run'.reaches_before hy)) hc
    · have still := still_of_run run'' unasked jobs
      have hslot := (hturn.bare (hproper.reaches run.reaches) (by rw [ht]; rfl)).2
      have hfree := (occupied_of_reaches run'.reaches).owned
        ((congrArg Slot.revoked hslot).trans live)
      rw [tasks, jobs] at hfree
      refine ⟨still.jobs, ?_, still.phase.trans hphase, still.openings⟩
      rw [still.slot, Slot.isActive, Option.toList_eq_nil_iff.mp hfree.nil_eq.symm]
      rfl

/-- A control connection whose policy knows two nodes. -/
def pair : System :=
  initial ⟨9042, .zero, .constant .zero⟩ {}
    (.roundRobin { live := [.v4 .loopback 9042, .v4 .loopback 9043] })

/-- The node behind a port refuses a connection. -/
def refusal (port : UInt16) : Signal :=
  .opened (.error (.connection (.v4 .loopback port) "connection refused"))

/-- A call to connect has been refused by the first of two nodes. -/
def refused : List Action :=
  [.call .connect, .signal 0 .go, .signal 0 .go, .signal 0 (refusal 9042)]

/-- Whether a call to connect fails in its turn, with what both nodes said and no job left, when
the other node refuses a connection, too. -/
def isRefused (s : System) (job : Job) (turn : Turn) : Bool :=
  match job.task, turn.result with
  | .connect _, some (.connected (.error (.noHost failures))) =>
    (s.admits job (refusal 9043) && (s.apply job.id turn).jobs.isEmpty) &&
      [9042, 9043].all fun port => failures[Address.v4 .loopback port]? == some "connection refused"
  | _, _ => false

theorem candidates_decide_refused : ∃ h s action u record plan faults failures, Run pair h s ∧
    s.step action = some u ∧ Began 0 (h ++ [⟨s, action, u⟩]) plan ∧
    Traced 0 (h ++ [⟨s, action, u⟩]) record ∧
    Round.Verdict plan faults record (.done (.error (.noHost failures))) ∧
    (∀ port ∈ [9042, 9043], failures[Address.v4 .loopback port]? = some "connection refused") ∧
    u.control.phase = .disconnected ∧ ∀ g t, Run u g t → (∀ y ∈ g, ¬ y.Asks) →
      t.control.fabric.openings = u.control.fabric.openings := by
  have hrun : ((pair.run refused).any fun s => s.control.isShutDown = false ∧
      ((s.job? 0).any fun job =>
        (job.task.resume s.control (refusal 9043)).any (s.isRefused job)) = true) = true := by
    decide +kernel
  obtain ⟨s, r, live, hjob⟩ := exists_reaches hrun
  obtain ⟨job, hj, hturn⟩ := (Option.any_eq_true _ _).mp hjob
  obtain ⟨turn, hr, hlast⟩ := (Option.any_eq_true _ _).mp hturn
  obtain ⟨h, run⟩ := Run.of_reaches r
  obtain ⟨hmem, hid⟩ := mem_of_job? hj
  unfold isRefused at hlast
  split at hlast
  · rename_i attempt failures ht failed
    obtain ⟨hlast, hmessages⟩ := Bool.and_eq_true_iff.mp hlast
    obtain ⟨hadmits, hempty⟩ := Bool.and_eq_true_iff.mp hlast
    have hstep : s.step (.signal 0 (refusal 9043)) = some (s.apply job.id turn) := by
      rw [step, hj, Option.bind_some, deliver, if_pos hadmits, resume, hr]
      rfl
    have hturns : Transition.Turns ⟨s, .signal 0 (refusal 9043), s.apply job.id turn⟩ job
        (refusal 9043) turn :=
      ⟨hmem, hr, fun h => (by cases h), .inl (by rw [hid]), rfl⟩
    obtain ⟨hround, _, _, hconnect⟩ := candidates_decide
    obtain ⟨⟨plan, record, began, traced, course⟩, hphase, _, hstill⟩ :=
      hconnect _ _ _ h s _ _ job _ turn attempt _ run hstep hturns ht failed live
    obtain ⟨faults, _, verdict⟩ := hround plan record _ course
    refine ⟨h, s, _, _, record, plan, faults, failures, run, hstep, hid ▸ began, hid ▸ traced,
      verdict, fun port hport => ?_, hphase, fun g t run' unasked => ?_⟩
    · exact beq_iff_eq.mp (List.all_eq_true.mp hmessages port hport)
    · exact (hstill (List.isEmpty_iff.mp hempty) g t run' unasked).2.2.2
  · cases hlast

end System

end ControlChannel
