import ControlChannel.Proofs.Control.Faults

/-! # Sessions that seek a connection

The session in the slot seeks a connection until it has brought one up (`System.Seeks`). What is
left for it then is to close the connection that it replaced (`System.Settles`), and it occupies
the slot meanwhile. A session that is asked for in between does not start, although the one in the
slot seeks nothing any more. Main statement: `seeks_when_asked`. -/

namespace ControlChannel

/-- Whether a task owns a handle and has brought a connection up. -/
def Task.isSettling (task : Task) : Bool :=
  task.handle?.isSome && task.attempt?.any (·.isInstalling)

theorem Task.isSeeking_eq (task : Task) :
    task.isSeeking = (task.handle?.isSome && !task.isSettling) := by
  unfold isSeeking isSettling
  cases task.handle?.isSome <;> simp

theorem Task.handle?_of_asks {task : Task} (h : task.asks ≠ []) : task.handle? = none := by
  cases task <;> first | rfl | exact absurd rfl h

/-! ## Announcements -/

theorem Install.announced_start {k : Control} (link : Link) (live : k.isShutDown = false) :
    (start k link).1.announced = link.address :: k.announced := by
  have hswap : (swap k link).announced = link.address :: k.announced := by
    rw [Control.announced, Attempt.events_swap]
    rfl
  have hn : ¬ k.isShutDown = true := by simp [live]
  unfold start
  rw [if_neg hn]
  split
  · split <;> exact hswap
  · exact hswap

namespace Attempt

theorem control_afterInstall (x : Control × Progress Install Bool) : (afterInstall x).1 = x.1 := by
  unfold afterInstall
  split <;> rfl

theorem announced_afterRound {k : Control} {held used : Option Link}
    {x : Control × Progress Round Round.Result}
    (s : BringUp.Advances k held used (x.1, Round.bringUpOf x.2)) (live : k.isShutDown = false)
    (up : ¬ Searching (afterRound x).2) :
    ∃ address, (afterRound x).1.announced = address :: k.announced := by
  obtain ⟨l, p⟩ := x
  obtain ⟨es, he, hes⟩ := s.events
  have hsame : l.announced = k.announced :=
    Control.announced_eq he fun a ha => by cases hes _ ha
  cases p with
  | running r => exact absurd trivial up
  | done result =>
    rcases result with e | (link | _)
    · exact absurd trivial up
    · refine ⟨link.address, ?_⟩
      show (afterInstall (Install.start l link)).1.announced = _
      rw [control_afterInstall, Install.announced_start link (s.keeps.isShutDown.trans live), hsame]
    · exact absurd trivial up

/-- An attempt that brings a connection up announces it. -/
theorem announced_of_resume {k : Control} {a : Attempt} {signal : Signal}
    {o : Control × Progress Attempt Result} (h : a.resume k signal = some o)
    (hs : signal = .cancelled → k.isShutDown = true)
    (ha : GivenUp (.running a) → k.isShutDown = true) (live : k.isShutDown = false)
    (hn : a.isInstalling = false) (up : ¬ Searching o.2) :
    ∃ address, o.1.announced = address :: k.announced := by
  cases a with
  | fresh =>
    cases signal with
    | go => cases h; exact announced_afterRound (Round.advances_start k) live up
    | _ => cases h
  | round r =>
    obtain ⟨x, hx, rfl⟩ := Option.map_eq_some_iff.mp h
    exact announced_afterRound (Round.advances_resume hx hs ha) live up
  | installing i => cases hn

end Attempt

namespace Task

variable {k : Control} {task : Task} {signal : Signal} {turn : Turn}

theorem Attempts.announces {a : Attempt} {o : Control × Progress Attempt Attempt.Result}
    (h : Attempts k a signal o) (hs : a ≠ .fresh → signal = .cancelled → k.isShutDown = true)
    (ha : Attempt.GivenUp (.running a) → k.isShutDown = true) (live : k.isShutDown = false)
    (hn : a.isInstalling = false) (up : ¬ Attempt.Searching o.2) :
    ∃ address, o.1.announced = address :: k.announced := by
  cases h with
  | waits => exact absurd trivial up
  | begins => exact Attempt.announced_afterRound (Round.advances_start k) live up
  | goes h =>
    refine Attempt.announced_of_resume h (fun hc => ?_) ha live hn up
    cases a with
    | fresh => rw [hc] at h; cases h
    | round r => exact hs (fun h => by cases h) hc
    | installing i => cases hn

/-- A task that seeks makes an attempt on the control connection as it is. -/
theorem attempt?_of_isSeeking (h : task.isSeeking = true) : ∃ a, task.attempt? = some a ∧
    a.isInstalling = false ∧ ∀ k, task.readied k = k := by
  unfold isSeeking at h
  cases task with
  | background handle a => exact ⟨a, rfl, (Bool.not_eq_true' _).mp h, fun _ => rfl⟩
  | session handle s => exact ⟨_, rfl, (Bool.not_eq_true' _).mp h, fun _ => rfl⟩
  | called _ | connect _ | refreshSchema _ | refreshNodes _ | shutdown _ => cases h

/-- Until a shutdown, a session that seeks goes on seeking or announces a connection. -/
theorem seeks_turn (h : task.resume k signal = some turn) (hears : task.Hears k signal)
    (calm : task.GivenUp → k.isShutDown = true) (live : k.isShutDown = false)
    (unbroken : k.slot.evicted = []) (hseek : task.isSeeking = true) :
    (∃ t ∈ turn.tasks, t.isSeeking = true ∧ t.handle? = task.handle?) ∨
      ∃ address, turn.control.announced = address :: k.announced := by
  obtain ⟨a, ha, hn, hready⟩ := attempt?_of_isSeeking hseek
  obtain ⟨o, ho, f⟩ := follows_resume ha h hears
  rw [hready] at ho
  have hs : a ≠ .fresh → signal = .cancelled → k.isShutDown = true := fun hn hc =>
    isShutDown_of_hears ha hn (hc ▸ hears)
  have hg : Attempt.GivenUp (.running a) → k.isShutDown = true := fun hg => calm ⟨a, ha, hg⟩
  have adv := ho.advances hs hg
  by_cases up : Attempt.Searching o.2
  · refine .inl ?_
    rcases f.seeking hseek up with ⟨t, ht, hts⟩ | hgiven | ⟨handle, hcancelled⟩
    · refine ⟨t, ht, hts, ?_⟩
      rcases f.slot with ⟨_, hhandles⟩ | ⟨_, _, _, hover⟩
      · obtain ⟨handle, hh⟩ := Option.isSome_iff_exists.mp (Bool.and_eq_true_iff.mp hts).1
        have hin : handle ∈ task.handle?.toList :=
          hhandles ▸ List.mem_filterMap.mpr ⟨t, ht, hh⟩
        rw [hh, Option.mem_toList.mp hin]
      · rw [hover] at ht
        cases ht
    · have hshut := adv.givenUp hgiven
      rw [live] at hshut
      cases hshut
    · rw [adv.slot, Slot.isCancelled, show k.slot.revoked = false from live, unbroken] at hcancelled
      cases hcancelled
  · refine .inr ?_
    obtain ⟨address, hannounced⟩ := ho.announces hs hg live hn up
    obtain ⟨es, he, hes⟩ := f.events
    refine ⟨address, (Control.announced_eq he fun b hb => ?_).trans hannounced⟩
    cases hes _ hb

end Task

namespace Occupied

variable {k : Control} {ts : List Task} {t t' : Task}

/-- Who owns a handle owns the one in the slot, and nobody else does. -/
theorem holds (o : Occupied k ts) (live : k.isShutDown = false) (ht : t ∈ ts) {h : Handle}
    (hh : t.handle? = some h) : k.slot.holder = some h := by
  obtain ⟨l, r, rfl⟩ := List.append_of_mem ht
  exact (owner live (o.perm List.perm_middle) hh).1

theorem owner_eq (o : Occupied k ts) (live : k.isShutDown = false) (ht : t ∈ ts) (ht' : t' ∈ ts)
    (hh : t.handle?.isSome = true) (hh' : t'.handle?.isSome = true) : t = t' := by
  obtain ⟨h, hh⟩ := Option.isSome_iff_exists.mp hh
  obtain ⟨h', hh'⟩ := Option.isSome_iff_exists.mp hh'
  obtain ⟨l, r, rfl⟩ := List.append_of_mem ht
  have hnone := (owner live (o.perm List.perm_middle) hh).2
  rcases List.mem_cons.mp (List.perm_middle.mem_iff.mp ht') with e | hm
  · exact e.symm
  · have hin : h' ∈ Task.handles (l ++ r) := List.mem_filterMap.mpr ⟨t', hm, hh'⟩
    rw [hnone] at hin
    cases hin

end Occupied

namespace System

variable {settings : Settings} {store : Store} {balancing : Balancing}
variable {s t u v : System} {a : Action} {job : Job}

/-- The session that occupies the slot has not brought a connection up, so far. -/
def Seeks (s : System) : Prop :=
  ∃ task ∈ s.tasks, task.isSeeking = true ∧ task.handle? = s.control.slot.holder

/-- The session that occupies the slot has brought a connection up and is not over. -/
def Settles (s : System) : Prop :=
  ∃ task ∈ s.tasks, task.isSettling = true ∧ task.handle? = s.control.slot.holder

instance (s : System) : Decidable s.Seeks :=
  inferInstanceAs (Decidable (∃ task ∈ s.tasks, _))

instance (s : System) : Decidable s.Settles :=
  inferInstanceAs (Decidable (∃ task ∈ s.tasks, _))

theorem Seeks.isActive (h : s.Seeks) : s.control.slot.isActive = true := by
  obtain ⟨task, _, hs, hh⟩ := h
  rw [Slot.isActive, ← hh]
  exact (Bool.and_eq_true_iff.mp hs).1

theorem Settles.isActive (h : s.Settles) : s.control.slot.isActive = true := by
  obtain ⟨task, _, hs, hh⟩ := h
  rw [Slot.isActive, ← hh]
  exact (Bool.and_eq_true_iff.mp hs).1

/-- The session in the slot either seeks or settles. -/
theorem seeks_iff (o : Occupied s.control s.tasks) (live : s.control.isShutDown = false)
    (active : s.control.slot.isActive = true) : s.Seeks ↔ ¬ s.Settles := by
  obtain ⟨h, hh⟩ := Option.isSome_iff_exists.mp active
  have hm : h ∈ Task.handles s.tasks := by
    rw [handles_eq o live, hh]
    exact List.mem_singleton.mpr rfl
  obtain ⟨task, ht, htask⟩ := List.mem_filterMap.mp hm
  have hsome : task.handle?.isSome = true := by simp [htask]
  have hown : task.handle? = s.control.slot.holder := htask.trans hh.symm
  have hsame : ∀ t' ∈ s.tasks, t'.handle?.isSome = true → t' = task := fun t' ht' hh' =>
    o.owner_eq live ht' ht hh' hsome
  have hseek := task.isSeeking_eq
  rw [hsome, Bool.true_and] at hseek
  constructor
  · rintro ⟨t₁, h₁, hs₁, _⟩ ⟨t₂, h₂, hs₂, _⟩
    obtain rfl := hsame t₁ h₁ (Bool.and_eq_true_iff.mp hs₁).1
    obtain rfl := hsame t₂ h₂ (Bool.and_eq_true_iff.mp hs₂).1
    rw [hs₁, hs₂] at hseek
    cases hseek
  · intro hn
    refine ⟨task, ht, ?_, hown⟩
    rw [hseek, Bool.not_eq_true']
    exact Bool.eq_false_iff.mpr fun hs => hn ⟨task, ht, hs, hown⟩

/-- A session was asked for: a new one seeks if the slot was free, otherwise the one in the slot
stays there. -/
structure Asked (s u : System) : Prop where
  free : s.control.slot.isActive = false → u.Seeks
  taken : s.control.slot.isActive = true → (u.Seeks ↔ s.Seeks)

theorem Asked.seeks_iff (h : Asked s u) (o : Occupied s.control s.tasks)
    (live : s.control.isShutDown = false) : u.Seeks ↔ ¬ s.Settles := by
  cases hactive : s.control.slot.isActive with
  | true => exact (h.taken hactive).trans (System.seeks_iff o live hactive)
  | false =>
    refine ⟨fun _ hs => ?_, fun _ => h.free hactive⟩
    rw [hs.isActive] at hactive
    cases hactive

theorem StartsSession.seeks (h : StartsSession s u) : u.Seeks := by
  refine ⟨.background ⟨s.control.slot.nextId⟩ .fresh, ?_, rfl, h.holder.symm⟩
  rw [tasks, h.jobs, List.map_append]
  exact List.mem_append_right _ (List.mem_singleton.mpr rfl)

theorem asked_trigger (live : s.control.isShutDown = false) : Asked s s.trigger.2 where
  free hfree := (trigger_free hfree live).2.seeks
  taken hactive := by rw [trigger_occupied hactive]

theorem asked_hostDown (live : s.control.isShutDown = false) {link : Link}
    (hl : s.control.active = some link) : Asked s (s.hostDown link.address) where
  free hfree := (hostDown_bereaves ⟨hfree, link, hl, rfl⟩ live).seeks
  taken hactive := by
    have hn : ¬ s.Bereaves link.address := fun hb => by
      rw [hb.1] at hactive
      cases hactive
    rw [hostDown_not_bereaves hn]
    exact Iff.rfl

/-- A refresh that is over takes no session with it. -/
theorem seeks_retire (hs : s.Proper) (hj : job ∈ s.jobs) (hh : job.task.handle? = none) :
    (s.retire job.id).Seeks ↔ s.Seeks := by
  constructor
  · rintro ⟨task, ht, hseek⟩
    obtain ⟨j, hm, rfl⟩ := List.mem_map.mp ht
    exact ⟨j.task, List.mem_map_of_mem (List.mem_filter.mp hm).1, hseek⟩
  · rintro ⟨task, ht, hseek⟩
    obtain ⟨j, hm, rfl⟩ := List.mem_map.mp ht
    have hne : j.id ≠ job.id := fun e => by
      obtain rfl := hs.order.eq_of_id hm hj e
      rw [Task.isSeeking, hh] at hseek
      cases hseek.1
    exact ⟨j.task, List.mem_map_of_mem (List.mem_filter.mpr ⟨hm, by simpa using hne⟩), hseek⟩

theorem asked_breaks (hs : s.Proper) (live : s.control.isShutDown = false) (hj : job ∈ s.jobs)
    (h : s.step a = some u) (hb : a.Breaks job) : Asked s u where
  free hfree := (startsSession_of_breaks hs hj h hb hfree live).seeks
  taken hactive := by
    obtain ⟨rfl, _⟩ := fault_of_breaks hs hj h hb
    obtain ⟨_, _, hasks, _⟩ := hb
    rw [apply_ofFault, trigger_occupied (s := s.retire job.id) hactive]
    exact seeks_retire hs hj (Task.handle?_of_asks hasks)

/-! ## Until a connection is announced -/

theorem seeks_of_mem (o : Occupied u.control u.tasks) (live : u.control.isShutDown = false)
    {task : Task} (hm : task ∈ u.tasks) (hseek : task.isSeeking = true)
    (hh : task.handle? = s.control.slot.holder) :
    u.Seeks ∧ u.control.slot.holder = s.control.slot.holder := by
  obtain ⟨handle, hhandle⟩ := Option.isSome_iff_exists.mp (Bool.and_eq_true_iff.mp hseek).1
  have hholder := o.holds live hm hhandle
  exact ⟨⟨task, hm, hseek, hhandle.trans hholder.symm⟩, by rw [hholder, ← hh, hhandle]⟩

/-- A session that seeks stays in the slot until it announces a connection. -/
theorem seeks_moves (hs : s.Proper) (o : Occupied s.control s.tasks)
    (o' : Occupied u.control u.tasks) (m : Moves s a u) (live : s.control.isShutDown = false)
    (live' : u.control.isShutDown = false) (hseek : s.Seeks) :
    (u.Seeks ∧ u.control.slot.holder = s.control.slot.holder) ∨
      ∃ address, u.control.announced = address :: s.control.announced := by
  have hactive := hseek.isActive
  obtain ⟨task, ht, hts, hh⟩ := hseek
  cases m with
  | outside f _ => exact .inl (seeks_of_mem o' live' ht hts hh)
  | called call =>
    refine .inl (seeks_of_mem o' live' ?_ hts hh)
    rw [tasks_spawn]
    exact List.mem_append_left _ ht
  | started _ htrigger =>
    obtain ⟨_, t, _⟩ := Turn.triggers_of_trigger htrigger
    obtain ⟨hfree, _⟩ := Slot.tryOccupy_eq t.slot
    rw [Slot.isActive, show s.control.slot.holder = none from hfree] at hactive
    cases hactive
  | polled id b => exact .inl (seeks_of_mem o' live' (by rw [tasks_setPolled]; exact ht) hts hh)
  | @turn _ job signal turn hj hr hears _ =>
    obtain ⟨j, hm, rfl⟩ := List.mem_map.mp ht
    by_cases hne : j.id = job.id
    · -- the session's own turn
      obtain rfl := hs.order.eq_of_id hm hj hne
      rw [control_apply]
      refine (Task.seeks_turn hr hears (hs.calm _ ht) live (o.unbroken live) hts).imp_left ?_
      rintro ⟨t, htt, hts', hh'⟩
      obtain ⟨others, _, happly⟩ := tasks_apply hs.order hj
      have hin := (happly turn).mem_iff.mpr (List.mem_append_left _ htt)
      have := seeks_of_mem o' live' hin hts' (hh'.trans hh)
      rwa [control_apply] at this
    · have hin : j ∈ (s.apply job.id turn).jobs := mem_apply_of_ne hs.order hj turn hm hne
      exact .inl (seeks_of_mem o' live' (List.mem_map_of_mem hin) hts hh)

theorem live_of_reaches (hs : s.Proper) (r : Reaches s u) (live : u.control.isShutDown = false) :
    s.control.isShutDown = false := by
  refine Bool.eq_false_iff.mpr fun hshut => ?_
  rw [(rests_reaches hs hshut r).shutDown] at live
  cases live

/-- What was announced stays announced. -/
theorem announced_moves (hs : s.Proper) (m : Moves s a u) :
    s.control.announced <:+ u.control.announced := by
  cases m with
  | outside _ _ | called _ | polled _ _ => exact List.suffix_refl _
  | @started _ f k _ _ htrigger =>
    obtain ⟨_, t, _⟩ := Turn.triggers_of_trigger htrigger
    have he : k.events = [] ++ s.control.events := t.events
    exact Control.announced_eq he (fun _ => List.not_mem_nil) ▸ List.suffix_refl _
  | turn hj hr hh _ =>
    obtain ⟨es, he, _⟩ := (hs.sound hj hr hh).events
    rw [control_apply, Control.announced, Control.announced, he, List.filterMap_append]
    exact List.suffix_append _ _

theorem announced_reaches (hs : s.Proper) (r : Reaches s u) :
    s.control.announced <:+ u.control.announced := by
  induction r with
  | refl => exact List.suffix_refl _
  | step a r e ih => exact ih.trans (announced_moves (hs.reaches r) (moves_of_step e))

/-- Until a shutdown, a session that seeks stays in the slot until a connection is announced. -/
theorem seeks_reaches (r : Reaches (initial settings store balancing) t) (hseek : t.Seeks)
    (rv : Reaches t v) (live : v.control.isShutDown = false) :
    (v.Seeks ∧ v.control.slot.holder = t.control.slot.holder) ∨
      t.control.announced.length < v.control.announced.length := by
  have ht := (proper_initial settings store balancing).reaches r
  induction rv with
  | refl => exact .inl ⟨hseek, rfl⟩
  | @step v w action rv hstep ih =>
    have hv := ht.reaches rv
    have hlive := live_of_reaches hv (.step action (.refl v) hstep) live
    have hm := moves_of_step hstep
    rcases ih hlive with ⟨hvs, hholder⟩ | hlt
    · have o := occupied_of_reaches (r.trans rv)
      have o' := occupied_of_reaches ((r.trans rv).step action hstep)
      rcases seeks_moves hv o o' hm hlive live hvs with ⟨hw, hh⟩ | ⟨address, he⟩
      · exact .inl ⟨hw, hh.trans hholder⟩
      · have hle := (announced_reaches ht rv).length_le
        simp only [he, List.length_cons]
        omega
    · exact .inr (Nat.lt_of_lt_of_le hlt (announced_moves hv hm).length_le)

/-- **A session that is asked for seeks, unless one is settling.** After a trigger, after the loss
of the connected host and after a connection fault of a refresh, a session that seeks a connection
occupies the slot, and will until it announces one; but while the session in the slot only waits
for the connection that it replaced to be closed, none starts and nobody seeks. -/
theorem seeks_when_asked (settings : Settings) (store : Store) (balancing : Balancing)
    (r : Reaches (initial settings store balancing) t) (live : t.control.isShutDown = false) :
    (t.trigger.2.Seeks ↔ ¬ t.Settles) ∧
    (∀ link, t.control.active = some link →
      ((t.hostDown link.address).Seeks ↔ ¬ t.Settles)) ∧
    (∀ job ∈ t.jobs, ∀ a u, t.step a = some u → a.Breaks job → (u.Seeks ↔ ¬ t.Settles)) ∧
    (t.Settles → t.trigger = (false, t)) ∧
    (t.Seeks → ∀ v, Reaches t v → v.control.isShutDown = false →
      (v.Seeks ∧ v.control.slot.holder = t.control.slot.holder) ∨
        t.control.announced.length < v.control.announced.length) := by
  have hp := (proper_initial settings store balancing).reaches r
  have o := occupied_of_reaches r
  refine ⟨(asked_trigger live).seeks_iff o live, fun link hl => ?_, fun job hj a u h hb => ?_,
    fun hs => trigger_occupied hs.isActive, fun hseek v rv hv => seeks_reaches r hseek rv hv⟩
  · exact (asked_hostDown live hl).seeks_iff o live
  · exact (asked_breaks hp live hj h hb).seeks_iff o live

theorem seeks_when_asked_idle : ∃ t, Reaches lone t ∧
    (t.control.isShutDown = false ∧ Link.ids t.control.active = [0]) ∧ t.trigger.2.Seeks := by
  have h : ((lone.run (.trigger :: bringsUp 0 ++ [.signal 0 .go])).any fun t =>
      (t.control.isShutDown = false ∧ Link.ids t.control.active = [0]) ∧ ¬ t.Settles) = true := by
    decide +kernel
  obtain ⟨t, r, hk, hn⟩ := exists_reaches h
  exact ⟨t, r, hk, (seeks_when_asked _ _ _ r hk.1).1.mpr hn⟩

/-- A session has replaced connection 0 by connection 1 and waits for the former to be closed. The
latter breaks, which nobody makes up for any more. -/
theorem settles_unheard : ∃ t v, Reaches lone t ∧ t.control.isShutDown = false ∧
    t.control.active = some ⟨1, .v4 .loopback 9042⟩ ∧
    t.trigger = (false, t) ∧ ¬ t.trigger.2.Seeks ∧ ¬ (t.hostDown (.v4 .loopback 9042)).Seeks ∧
    t.run [.lose 1, .hostDown (.v4 .loopback 9042), .signal 1 .closed] = some v ∧
    v.jobs.length = 0 ∧ v.control.slot.isActive = false ∧
    Link.ids v.control.active = [1] ∧ v.control.fabric.isClosed 1 = true := by
  have h : ((lone.run (.trigger :: bringsUp 0 ++ .signal 0 .go :: .trigger :: bringsUp 1)).any
      fun t => (t.control.isShutDown = false ∧ t.control.active = some ⟨1, .v4 .loopback 9042⟩ ∧
        t.control.slot.isActive = true ∧ ¬ t.trigger.2.Seeks ∧
          ¬ (t.hostDown (.v4 .loopback 9042)).Seeks) ∧
        ((t.run [.lose 1, .hostDown (.v4 .loopback 9042), .signal 1 .closed]).any fun v =>
          v.jobs.length = 0 ∧ v.control.slot.isActive = false ∧
            Link.ids v.control.active = [1] ∧ v.control.fabric.isClosed 1 = true) = true) =
              true := by
    decide +kernel
  obtain ⟨t, r, ⟨live, hactive, hslot, htrigger, hdown⟩, hv⟩ := exists_reaches h
  obtain ⟨v, hv, hend⟩ := (Option.any_eq_true _ _).mp hv
  exact ⟨t, v, r, live, hactive, trigger_occupied hslot, htrigger, hdown, hv,
    of_decide_eq_true hend⟩

end System

end ControlChannel
