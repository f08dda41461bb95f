import ControlChannel.Proofs.Control.Seeking

/-! # Whether the phase tells the truth

While a connection is active the phase should be connected or reconnecting, and reconnecting while
a session seeks (`System.Truthful`). Triggers, refreshes and sessions keep it so. A call to connect
looks at the active connection when it is called only; what it says later is untrue if it overlaps
with others (`Transition.Overlaps`). Main statement: `truthful_iff`. -/

namespace ControlChannel

theorem Phase.shift_of_ne {p q : Phase} (h : p ≠ .closed) : p.shift q = q := if_neg h

/-! ## Turns that are not about a call to connect -/

namespace Turn

/-- What a turn may do to the phase, beside those of a call to connect. -/
inductive Shows (k : Control) (task : Task) (turn : Turn) : Prop where
  | keeps (phase : turn.control.phase = k.phase) (active : turn.control.active = k.active)
      (seeking : ∀ t ∈ turn.tasks, t.isSeeking = true → task.isSeeking = true)
  | starts (phase : turn.control.phase = .reconnecting)
  | installs (own : task.handle?.isSome = true) (phase : turn.control.phase = .connected)
      (settled : ∀ t ∈ turn.tasks, t.isSeeking = false)

variable {k : Control} {task : Task} {turn : Turn}

theorem not_seeking_of_handle (h : task.handle? = none) : task.isSeeking = false := by
  simp [Task.isSeeking, h]

theorem Spares.shows {reason : Prop} (s : Spares k reason turn) : Shows k task turn := by
  refine .keeps s.phase s.active fun t ht hs => ?_
  rw [not_seeking_of_handle (s.handles t ht)] at hs
  cases hs

theorem shows_ofFault (hk : k.phase ≠ .closed) : Shows k task (ofFault k) := by
  unfold ofFault
  split
  · exact .keeps rfl rfl (List.forall_mem_nil _)
  · rename_i l spawned ht
    obtain ⟨_, t, _⟩ := triggers_of_trigger ht
    exact .starts (t.phase.trans (Phase.shift_of_ne hk))

theorem isShutDown_beginShutdown (k : Control) : (beginShutdown k).control.isShutDown = true := by
  unfold beginShutdown
  split
  · assumption
  · dsimp only
    split
    · exact (congrArg Slot.revoked (ends_finishShutdown _).slot).trans (Slot.revoked_cancel _)
    · exact Slot.revoked_cancel _

end Turn

namespace Task

variable {k : Control} {task : Task} {signal : Signal} {turn : Turn}

/-- An attempt that waits for a connection to be closed is over then. -/
theorem Attempts.not_searching {a : Attempt} {o : Control × Progress Attempt Attempt.Result}
    (h : Attempts k a signal o) (ha : a.isInstalling = true) : ¬ Attempt.Searching o.2 := by
  cases h with
  | waits | begins => cases ha
  | goes h =>
    cases a with
    | fresh | round r => cases ha
    | installing i =>
      obtain ⟨x, hx, rfl⟩ := Option.map_eq_some_iff.mp h
      unfold Install.resume at hx
      split at hx
      · cases hx
        exact id
      · cases hx

theorem shows_session (hh : task.handle?.isSome = true) (h : task.resume k signal = some turn)
    (hears : task.Hears k signal) (calm : task.GivenUp → k.isShutDown = true)
    (hk : k.phase ≠ .closed) : Turn.Shows k task turn := by
  have ha : ∃ a, task.attempt? = some a ∧ task.readied k = k := by
    cases task with
    | background handle a => exact ⟨a, rfl, rfl⟩
    | session handle s => exact ⟨_, rfl, rfl⟩
    | called _ | connect _ | refreshSchema _ | refreshNodes _ | shutdown _ => cases hh
  obtain ⟨a, ha, hready⟩ := ha
  obtain ⟨o, ho, f⟩ := follows_resume ha h hears
  rw [hready] at ho
  have adv := ho.advances (fun hn hc => isShutDown_of_hears ha hn (hc ▸ hears))
    fun hg => calm ⟨a, ha, hg⟩
  rcases adv.installs with ⟨hactive, hphase, _⟩ | ⟨_, hphase, hup, _⟩
  · refine .keeps ((f.steady hh).trans hphase) (f.active.trans hactive) fun t ht hs => ?_
    cases hi : a.isInstalling with
    | true => exact absurd (f.settled t ht hs) (ho.not_searching hi)
    | false => simp [isSeeking, hh, ha, hi]
  · refine .installs hh ?_ fun t ht => ?_
    · rw [f.steady hh, hphase, Phase.shift_of_ne hk]
    · exact Bool.eq_false_iff.mpr fun hs => hup (f.settled t ht hs)

theorem shows_resume (hc : ∀ a, task ≠ .connect a) (hs : task.isShutdown = false)
    (h : task.resume k signal = some turn) (hears : task.Hears k signal)
    (calm : task.GivenUp → k.isShutDown = true) (hk : k.phase ≠ .closed)
    (live' : turn.control.isShutDown = false) : Turn.Shows k task turn := by
  cases task with
  | called call =>
    cases signal with
    | go =>
      cases h
      refine (Turn.spares_begin fun hcall => ?_).shows
      rw [hcall] at live'
      exact Bool.false_ne_true (live'.symm.trans (Turn.isShutDown_beginShutdown k))
    | _ => cases h
  | connect a => exact absurd rfl (hc a)
  | refreshSchema r | refreshNodes r =>
    rcases refresh_cases (fun hn => by cases hn) h hears with ⟨_, rfl⟩ | ⟨_, spares⟩
    · exact Turn.shows_ofFault hk
    · exact spares.shows
  | shutdown closing => cases hs
  | background handle a | session handle s => exact shows_session rfl h hears calm hk

end Task

/-! ## Turns of a call to connect -/

namespace Attempt

theorem searching_next (k : Control) (failures : Failures) (rest : List Address) :
    Searching (afterRound (Round.next k failures rest)).2 := by
  rcases Round.next_cases k failures rest with ⟨r, hn, hr, _⟩ | ⟨_, target, rest', hn⟩
  · rw [hn]
    rcases r with e | (link | _)
    · trivial
    · cases hr
    · trivial
  · rw [hn]
    trivial

/-- A round does not bring a connection up in its first step. -/
theorem searching_start (k : Control) : Searching (afterRound (Round.start k)).2 :=
  searching_next _ _ _

end Attempt

namespace Turn

/-- What a turn of a call to connect does to the phase: it is connecting once the first round has
begun, disconnected when the call fails and connected when it has brought a connection up. -/
inductive Connects (k : Control) (a : Attempt) (turn : Turn) : Prop where
  | begins (fresh : a = .fresh) (phase : turn.control.phase = .connecting)
      (active : turn.control.active = k.active)
  | fails (e : Error) (failed : turn.result = some (.connected (.error e)))
      (phase : turn.control.phase = .disconnected) (active : turn.control.active = k.active)
  | goes (begun : a ≠ .fresh) (good : ∀ e, turn.result ≠ some (.connected (.error e)))
      (phase : turn.control.phase = k.phase) (active : turn.control.active = k.active)
  | installs (begun : a ≠ .fresh) (good : ∀ e, turn.result ≠ some (.connected (.error e)))
      (phase : turn.control.phase = .connected)

theorem ofConnect_cases (o : Control × Progress Attempt Attempt.Result) :
    (∃ e, o.2 = .done (.error e) ∧
      ofConnect o = answer (o.1.shift .disconnected) (.connected (.error e))) ∨
    ((ofConnect o).control = o.1 ∧ ∀ e, (ofConnect o).result ≠ some (.connected (.error e))) := by
  unfold ofConnect
  split
  · exact .inr ⟨rfl, fun e h => by cases h⟩
  · exact .inr ⟨rfl, fun e h => by cases h⟩
  · exact .inr ⟨rfl, fun e h => by cases h⟩
  · exact .inl ⟨_, rfl, rfl⟩

theorem handle?_ofConnect (o : Control × Progress Attempt Attempt.Result) :
    ∀ t ∈ (ofConnect o).tasks, t.handle? = none := by
  unfold ofConnect
  split
  · intro t ht
    rw [List.mem_singleton.mp ht]
    rfl
  all_goals exact List.forall_mem_nil _

theorem connects_ofConnect {k : Control} {a : Attempt}
    {o : Control × Progress Attempt Attempt.Result}
    (adv : Attempt.Advances ((Task.connect a).readied k) a o)
    (start : a = .fresh → Attempt.Searching o.2) (hk : k.phase ≠ .closed) :
    Connects k a (ofConnect o) := by
  have hactive := Task.active_readied k (.connect a)
  have hphase : a = .fresh → ((Task.connect a).readied k).phase = .connecting := by
    rintro rfl
    exact (Control.phase_shift _ _).trans (Phase.shift_of_ne hk)
  have hsame : a ≠ .fresh → (Task.connect a).readied k = k := by
    intro hn
    cases a with
    | fresh => exact absurd rfl hn
    | round r | installing i => rfl
  rcases ofConnect_cases o with ⟨e, ho, he⟩ | ⟨hcontrol, hgood⟩
  · rcases adv.installs with ⟨ha, hp, _⟩ | ⟨_, _, hup, _⟩
    · refine .fails e (by rw [he]; rfl) ?_ ?_
      · rw [he]
        refine (Control.phase_shift _ _).trans (Phase.shift_of_ne ?_)
        rw [hp]
        by_cases hf : a = .fresh
        · rw [hphase hf]
          exact Phase.noConfusion
        · rw [hsame hf]
          exact hk
      · rw [he]
        exact (Control.active_shift _ _).trans (ha.trans hactive)
    · rw [ho] at hup
      exact absurd trivial hup
  · by_cases hf : a = .fresh
    · rcases adv.installs with ⟨ha, hp, _⟩ | ⟨_, _, hup, _⟩
      · exact .begins hf (by rw [hcontrol, hp, hphase hf]) (by rw [hcontrol, ha, hactive])
      · exact absurd (start hf) hup
    · rw [hsame hf] at adv
      rcases adv.installs with ⟨ha, hp, _⟩ | ⟨_, hp, _⟩
      · exact .goes hf hgood (by rw [hcontrol, hp]) (by rw [hcontrol, ha])
      · exact .installs hf hgood (by rw [hcontrol, hp, Phase.shift_of_ne hk])

end Turn

namespace Task

variable {k : Control} {signal : Signal} {turn : Turn}

/-- What is left of a call to connect after its turn owns no handle either. -/
theorem connects_resume {a : Attempt} (h : (Task.connect a).resume k signal = some turn)
    (hears : (Task.connect a).Hears k signal)
    (calm : (Task.connect a).GivenUp → k.isShutDown = true) (hk : k.phase ≠ .closed) :
    Turn.Connects k a turn ∧ ∀ t ∈ turn.tasks, t.handle? = none := by
  obtain ⟨o, ho, rfl⟩ : ∃ o, a.resume ((Task.connect a).readied k) signal = some o ∧
      Turn.ofConnect o = turn := by
    cases a with
    | fresh | round r | installing i => exact Option.map_eq_some_iff.mp h
  have hlive := isShutDown_readied k (.connect a)
  have adv := (Attempts.goes ho).advances
    (fun hn hc => hlive.trans (isShutDown_of_hears rfl hn (hc ▸ hears)))
    fun hg => hlive.trans (calm ⟨a, rfl, hg⟩)
  refine ⟨Turn.connects_ofConnect adv ?_ hk, Turn.handle?_ofConnect o⟩
  rintro rfl
  cases signal with
  | go => cases ho; exact Attempt.searching_start _
  | _ => cases ho

end Task

/-! ## Truthful systems -/

/-- The phase agrees with the active connection and the session in the slot. -/
structure System.Truthful (s : System) : Prop where
  connected : s.control.active.isSome = true →
    s.control.phase = .connected ∨ s.control.phase = .reconnecting
  reconnecting : s.Seeks → s.control.phase = .reconnecting

/-- A call to connect begins its round or fails while a connection is active or a session seeks,
or it has brought a connection up while a session seeks. -/
def Transition.Overlaps (x : Transition) : Prop :=
  ∃ job ∈ x.before.jobs, ∃ a signal, job.task = .connect a ∧ x.action = .signal job.id signal ∧
    ((a = .fresh ∨ ∃ e, x.after.result? job.id = some (.connected (.error e))) ∧
        (x.before.control.active.isSome = true ∨ x.before.Seeks) ∨
      x.after.control.phase = .connected ∧ x.before.Seeks)

namespace System

variable {settings : Settings} {store : Store} {balancing : Balancing}
variable {s t u : System} {a : Action} {job : Job} {h : List Transition}

theorem seeks_iff_mem (o : Occupied s.control s.tasks) (live : s.control.isShutDown = false) :
    s.Seeks ↔ ∃ task ∈ s.tasks, task.isSeeking = true := by
  constructor
  · rintro ⟨task, ht, hs, _⟩
    exact ⟨task, ht, hs⟩
  · rintro ⟨task, ht, hs⟩
    obtain ⟨handle, hh⟩ := Option.isSome_iff_exists.mp (Bool.and_eq_true_iff.mp hs).1
    exact ⟨task, ht, hs, hh.trans (o.holds live ht hh).symm⟩

/-- A turn that is not about a call to connect keeps the phase truthful. -/
theorem truthful_shows (hs : s.Proper) (o : Occupied s.control s.tasks) (hj : job ∈ s.jobs)
    {turn : Turn} (o' : Occupied (s.apply job.id turn).control (s.apply job.id turn).tasks)
    (live : s.control.isShutDown = false)
    (live' : (s.apply job.id turn).control.isShutDown = false)
    (shows : turn.Shows s.control job.task) (ht : s.Truthful) : (s.apply job.id turn).Truthful := by
  obtain ⟨others, hp, happly⟩ := tasks_apply hs.order hj
  have hseeks : (s.apply job.id turn).Seeks →
      ∃ task ∈ turn.tasks ++ others, task.isSeeking = true := by
    intro h
    obtain ⟨task, hm, htask⟩ := (seeks_iff_mem o' live').mp h
    exact ⟨task, (happly turn).mem_iff.mp hm, htask⟩
  have hbefore : ∀ task ∈ job.task :: others, task.isSeeking = true →
      s.control.phase = .reconnecting := fun task hm htask =>
    ht.reconnecting ((seeks_iff_mem o live).mpr ⟨task, hp.mem_iff.mpr hm, htask⟩)
  cases shows with
  | keeps phase active seeking =>
    constructor
    · rw [control_apply, phase, active]
      exact ht.connected
    · intro h
      rw [control_apply, phase]
      obtain ⟨task, hm, htask⟩ := hseeks h
      rcases List.mem_append.mp hm with hm | hm
      · exact hbefore job.task List.mem_cons_self (seeking task hm htask)
      · exact hbefore task (List.mem_cons_of_mem _ hm) htask
  | starts phase =>
    rw [← control_apply s job.id turn] at phase
    exact ⟨fun _ => .inr phase, fun _ => phase⟩
  | installs own phase settled =>
    rw [← control_apply s job.id turn] at phase
    refine ⟨fun _ => .inl phase, fun h => ?_⟩
    -- the only owner of a handle seeks no more
    obtain ⟨task, hm, htask⟩ := hseeks h
    obtain ⟨handle, hown⟩ := Option.isSome_iff_exists.mp own
    have hnone := (Occupied.owner live (o.perm hp) hown).2
    rcases List.mem_append.mp hm with hm | hm
    · rw [settled task hm] at htask
      cases htask
    · obtain ⟨other, hother⟩ := Option.isSome_iff_exists.mp (Bool.and_eq_true_iff.mp htask).1
      have hin : other ∈ Task.handles others := List.mem_filterMap.mpr ⟨task, hm, hother⟩
      rw [hnone] at hin
      cases hin

/-- A phase that belongs to neither a connection nor a session. -/
theorem truthful_iff_idle (hc : s.control.phase ≠ .connected)
    (hr : s.control.phase ≠ .reconnecting) :
    s.Truthful ↔ ¬ (s.control.active.isSome = true ∨ s.Seeks) := by
  constructor
  · rintro ht (hactive | hseeks)
    · exact (ht.connected hactive).elim hc hr
    · exact hr (ht.reconnecting hseeks)
  · intro hn
    exact ⟨fun h => absurd (.inl h) hn, fun h => absurd (.inr h) hn⟩

theorem overlaps_iff (hs : s.Proper) (hj : job ∈ s.jobs) {b : Attempt} (hb : job.task = .connect b)
    {signal : Signal} : Transition.Overlaps ⟨s, .signal job.id signal, u⟩ ↔
      (b = .fresh ∨ ∃ e, u.result? job.id = some (.connected (.error e))) ∧
          (s.control.active.isSome = true ∨ s.Seeks) ∨
        u.control.phase = .connected ∧ s.Seeks := by
  constructor
  · rintro ⟨j, hm, a, _, ha, hsignal, hover⟩
    obtain rfl := hs.order.eq_of_id hj hm (Action.signal.inj hsignal).1
    obtain rfl := Task.connect.inj (hb.symm.trans ha)
    exact hover
  · exact fun hover => ⟨job, hj, b, signal, hb, rfl, hover⟩

/-- A turn of a job that owns no handle neither starts nor ends a search, if it leaves no task that
owns one. -/
theorem seeks_apply (hs : s.Proper) (o : Occupied s.control s.tasks) (hj : job ∈ s.jobs)
    {turn : Turn} (o' : Occupied (s.apply job.id turn).control (s.apply job.id turn).tasks)
    (live : s.control.isShutDown = false)
    (live' : (s.apply job.id turn).control.isShutDown = false) (hjob : job.task.handle? = none)
    (handles : ∀ t ∈ turn.tasks, t.handle? = none) :
    (s.apply job.id turn).Seeks ↔ s.Seeks := by
  obtain ⟨others, hp, happly⟩ := tasks_apply hs.order hj
  rw [seeks_iff_mem o' live', seeks_iff_mem o live]
  constructor
  · rintro ⟨task, hm, htask⟩
    rcases List.mem_append.mp ((happly turn).mem_iff.mp hm) with hm | hm
    · rw [Turn.not_seeking_of_handle (handles task hm)] at htask
      cases htask
    · exact ⟨task, hp.mem_iff.mpr (List.mem_cons_of_mem _ hm), htask⟩
  · rintro ⟨task, hm, htask⟩
    rcases List.mem_cons.mp (hp.mem_iff.mp hm) with rfl | hm
    · rw [Turn.not_seeking_of_handle hjob] at htask
      cases htask
    · exact ⟨task, (happly turn).mem_iff.mpr (List.mem_append_right _ hm), htask⟩

/-- A turn of a call to connect keeps a truthful phase truthful unless it overlaps. -/
theorem truthful_connects (hs : s.Proper) (o : Occupied s.control s.tasks) (hj : job ∈ s.jobs)
    {turn : Turn} (o' : Occupied (s.apply job.id turn).control (s.apply job.id turn).tasks)
    (live : s.control.isShutDown = false)
    (live' : (s.apply job.id turn).control.isShutDown = false) {b : Attempt}
    (hb : job.task = .connect b) (connects : turn.Connects s.control b)
    (handles : ∀ t ∈ turn.tasks, t.handle? = none) {signal : Signal} (ht : s.Truthful) :
    (s.apply job.id turn).Truthful ↔
      ¬ Transition.Overlaps ⟨s, .signal job.id signal, s.apply job.id turn⟩ := by
  have hseeks := seeks_apply hs o hj o' live live' (by rw [hb]; rfl) handles
  rw [overlaps_iff hs hj hb, result?_apply hs hj]
  have hcontrol := control_apply s job.id turn
  cases connects with
  | begins fresh phase active =>
    rw [truthful_iff_idle (by simp [phase]) (by simp [phase]), hseeks,
      hcontrol, active, phase]
    simp [fresh]
  | fails e failed phase active =>
    rw [truthful_iff_idle (by simp [phase]) (by simp [phase]), hseeks,
      hcontrol, active, phase]
    simp [failed]
  | goes begun good phase active =>
    refine iff_of_true ⟨?_, ?_⟩ ?_
    · rw [hcontrol, phase, active]
      exact ht.connected
    · rw [hseeks, hcontrol, phase]
      exact ht.reconnecting
    · rw [hcontrol, phase]
      rintro (⟨hor, _⟩ | ⟨hc, hs⟩)
      · exact hor.elim begun fun ⟨e, he⟩ => good e he
      · rw [ht.reconnecting hs] at hc
        cases hc
  | installs begun good phase =>
    rw [hcontrol, phase]
    constructor
    · rintro hu (⟨hor, _⟩ | ⟨_, hs⟩)
      · exact hor.elim begun fun ⟨e, he⟩ => good e he
      · have hp := hu.reconnecting (hseeks.mpr hs)
        rw [hcontrol, phase] at hp
        cases hp
    · intro hn
      refine ⟨fun _ => .inl (by rw [hcontrol, phase]), fun h => ?_⟩
      exact absurd (.inr ⟨rfl, hseeks.mp h⟩) hn

theorem phase_ne_closed {k : Control} {ts : List Task} (e : Ending k ts)
    (live : k.isShutDown = false) : k.phase ≠ .closed ∧ ∀ t ∈ ts, t.isShutdown = false := by
  have hsum := e.endings
  rw [live, Control.endings] at hsum
  have hevents : k.events.count .closed = 0 := by
    rw [Bool.toNat_false] at hsum
    omega
  have htasks : ts.countP Task.isShutdown = 0 := by
    rw [Bool.toNat_false] at hsum
    omega
  refine ⟨fun hc => List.count_eq_zero.mp hevents (e.closed.mp hc), fun t ht => ?_⟩
  exact Bool.eq_false_iff.mpr (List.countP_eq_zero.mp htasks t ht)

/-- A step that is not about a call to connect keeps the phase truthful. -/
theorem truthful_moves (hs : s.Proper) (o : Occupied s.control s.tasks)
    (o' : Occupied u.control u.tasks) (e : Ending s.control s.tasks) (m : Moves s a u)
    (live : s.control.isShutDown = false) (live' : u.control.isShutDown = false)
    (hx : ∀ job ∈ s.jobs, ∀ b signal, job.task = .connect b → a ≠ .signal job.id signal)
    (ht : s.Truthful) : u.Truthful := by
  obtain ⟨hk, hnone⟩ := phase_ne_closed e live
  cases m with
  | outside f _ => exact ⟨ht.connected, ht.reconnecting⟩
  | called call =>
    refine ⟨ht.connected, fun hseeks => ht.reconnecting ?_⟩
    obtain ⟨task, hm, hts, hh⟩ := hseeks
    rw [tasks_spawn] at hm
    rcases List.mem_append.mp hm with hm | hm
    · exact ⟨task, hm, hts, hh⟩
    · rw [List.mem_singleton.mp hm] at hts
      cases hts
  | @started _ f k _ _ htrigger =>
    obtain ⟨_, t, _⟩ := Turn.triggers_of_trigger htrigger
    have hphase : k.phase = .reconnecting := t.phase.trans (Phase.shift_of_ne hk)
    exact ⟨fun _ => .inr hphase, fun _ => hphase⟩
  | polled id b =>
    refine ⟨ht.connected, fun hseeks => ht.reconnecting ?_⟩
    rw [Seeks, tasks_setPolled] at hseeks
    exact hseeks
  | @turn _ job signal turn hj hr hears ha =>
    have hc : ∀ b, job.task ≠ .connect b := by
      intro b hb
      rcases ha with ha | ⟨_, hcancelled⟩
      · exact hx job hj b signal hb ha
      · have hshut := Task.shutDown_of_hears (by rw [hb]; rfl) hears hcancelled
        rw [live] at hshut
        cases hshut
    have hmem := List.mem_map_of_mem (f := Job.task) hj
    have hlive : turn.control.isShutDown = false := by rwa [control_apply] at live'
    have shows := Task.shows_resume hc (hnone _ hmem) hr hears (hs.calm _ hmem) hk hlive
    exact truthful_shows hs o hj o' live live' shows ht

/-- **A step keeps a truthful phase truthful, unless it is an overlapping call to connect.** -/
theorem truthful_step (hs : s.Proper) (o : Occupied s.control s.tasks)
    (o' : Occupied u.control u.tasks) (e : Ending s.control s.tasks) (h : s.step a = some u)
    (live' : u.control.isShutDown = false) (ht : s.Truthful) :
    u.Truthful ↔ ¬ Transition.Overlaps ⟨s, a, u⟩ := by
  have live := live_of_reaches hs (.step a (.refl s) h) live'
  by_cases hx : ∃ job ∈ s.jobs, ∃ b signal, job.task = .connect b ∧ a = .signal job.id signal
  · obtain ⟨job, hj, b, signal, hb, rfl⟩ := hx
    obtain ⟨hadmits, turn, hr, rfl⟩ := turn_of_signal hs hj h
    have hears : job.task.Hears s.control signal := fun hc => by
      rw [hc] at hadmits
      cases hadmits
    have hcalm := hs.calm _ (List.mem_map_of_mem hj)
    obtain ⟨hk, _⟩ := phase_ne_closed e live
    obtain ⟨connects, handles⟩ := Task.connects_resume (hb ▸ hr) (hb ▸ hears) (hb ▸ hcalm) hk
    exact truthful_connects hs o hj o' live live' hb connects handles ht
  · refine iff_of_true ?_ fun ⟨job, hj, b, signal, hb, ha, _⟩ => hx ⟨job, hj, b, signal, hb, ha⟩
    refine truthful_moves hs o o' e (moves_of_step h) live live' ?_ ht
    exact fun job hj b signal hb ha => hx ⟨job, hj, b, signal, hb, ha⟩

theorem truthful_initial : (initial settings store balancing).Truthful :=
  ⟨fun h => (by cases h), fun ⟨_, hm, _⟩ => absurd hm List.not_mem_nil⟩

theorem truthful_last (run : Run (initial settings store balancing) h t)
    (hall : ∀ x ∈ h, x.after.Truthful) : t.Truthful := by
  cases run with
  | nil => exact truthful_initial
  | snoc action run step => exact hall _ (List.mem_append_right _ (List.mem_singleton.mpr rfl))

/-- **The phase tells the truth throughout a run exactly if no call to connect overlaps.** -/
theorem truthful_iff (settings : Settings) (store : Store) (balancing : Balancing)
    (run : Run (initial settings store balancing) h t) (live : t.control.isShutDown = false) :
    (∀ x ∈ h, x.after.Truthful) ↔ ∀ x ∈ h, ¬ x.Overlaps := by
  have h0 := proper_initial settings store balancing
  induction run with
  | nil => exact iff_of_true (List.forall_mem_nil _) (List.forall_mem_nil _)
  | @snoc h t u action run hstep ih =>
    have ht := h0.reaches run.reaches
    have o := occupied_of_reaches run.reaches
    have o' := occupied_of_reaches (run.reaches.step action hstep)
    have hlive := live_of_reaches ht (.step action (.refl t) hstep) live
    have hlast := truthful_step ht o o' (ending_of_reaches run.reaches) hstep live
    rw [List.forall_mem_append, List.forall_mem_append, List.forall_mem_singleton,
      List.forall_mem_singleton]
    refine Iff.trans ?_ (and_congr (ih hlive) Iff.rfl)
    exact and_congr_right fun hall => hlast (truthful_last run hall)

/-- Two calls to connect begin before a connection is active. The one brings a connection up; then
the other fails, and says that there is none. -/
def overlapping : List Action :=
  [.addHost (.v4 .loopback 9042), .call .connect, .signal 0 .go, .call .connect, .signal 1 .go,
    .signal 1 .go] ++ bringsUp 0 ++
      [.signal 1 (.opened (.error (.connection (.v4 .loopback 9042) "refused")))]

theorem phase_overlapped : ∃ t, Reaches lone t ∧ t.control.isShutDown = false ∧
    t.control.active = some ⟨0, .v4 .loopback 9042⟩ ∧ t.control.phase = .disconnected := by
  have h : ((lone.run overlapping).any fun t => t.control.isShutDown = false ∧
      t.control.active = some ⟨0, .v4 .loopback 9042⟩ ∧ t.control.phase = .disconnected) =
        true := by
    decide +kernel
  exact exists_reaches h

theorem truthful_iff_overlapped : ∃ h t, Run lone h t ∧ t.control.isShutDown = false ∧
    ((∀ x ∈ h, x.after.Truthful) ↔ ∀ x ∈ h, ¬ x.Overlaps) ∧ ∃ x ∈ h, x.Overlaps := by
  have h : ((lone.run overlapping).any fun t => t.control.isShutDown = false ∧
      t.control.active.isSome = true ∧ t.control.phase = .disconnected) = true := by
    decide +kernel
  obtain ⟨t, r, live, hactive, hphase⟩ := exists_reaches h
  obtain ⟨h, run⟩ := Run.of_reaches r
  have hiff := truthful_iff _ _ _ run live
  refine ⟨h, t, run, live, hiff, ?_⟩
  refine Classical.byContradiction fun hn => ?_
  have ht := truthful_last run (hiff.mpr fun x hx hover => hn ⟨x, hx, hover⟩)
  rcases ht.connected hactive with hp | hp <;> rw [hphase] at hp <;> cases hp

end System

end ControlChannel
