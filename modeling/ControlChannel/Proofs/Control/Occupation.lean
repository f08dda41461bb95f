import ControlChannel.Proofs.Control.Steps

/-! # The slot has one owner

Until a shutdown, the handle that occupies the slot is owned by exactly one task, and a free slot's
handle by nobody (`Occupied`); so a session can neither be doubled nor lose the slot. While the
phase says that a reconnection is running, the owner has not brought a connection up yet. Main
statement: what the slot, triggers and steps do in every run (`slot_owned`). -/

namespace ControlChannel

/-- The slot and the tasks agree on who owns it. -/
structure Occupied (k : Control) (ts : List Task) : Prop where
  owned : k.isShutDown = false → (Task.handles ts).Perm k.slot.holder.toList
  unbroken : k.isShutDown = false → k.slot.evicted = []
  emptied : k.isShutDown = true → k.slot.holder = none
  seeking : k.isShutDown = false → k.phase = .reconnecting → ∃ t ∈ ts, t.isSeeking = true

namespace Occupied

variable {k : Control} {ts us : List Task} {task : Task} {turn : Turn}

theorem handles_append (ts us : List Task) :
    Task.handles (ts ++ us) = Task.handles ts ++ Task.handles us := List.filterMap_append

theorem handles_cons (t : Task) (ts : List Task) :
    Task.handles (t :: ts) = t.handle?.toList ++ Task.handles ts := by
  rw [Task.handles, List.filterMap_cons]
  cases t.handle? <;> rfl

theorem perm (p : ts.Perm us) (o : Occupied k ts) : Occupied k us := by
  refine ⟨fun h => (p.filterMap _).symm.trans (o.owned h), o.unbroken, o.emptied, fun h hr => ?_⟩
  obtain ⟨t, ht, hs⟩ := o.seeking h hr
  exact ⟨t, p.mem_iff.mp ht, hs⟩

/-- A task that gives its handle back was the only one that had any. -/
theorem owner {h : Handle} (hk : k.isShutDown = false) (o : Occupied k (task :: ts))
    (hh : task.handle? = some h) : k.slot.holder = some h ∧ Task.handles ts = [] := by
  have hp := o.owned hk
  rw [handles_cons, hh] at hp
  cases hs : k.slot.holder with
  | none =>
    rw [hs] at hp
    exact absurd hp.eq_nil (List.cons_ne_nil _ _)
  | some h' =>
    rw [hs] at hp
    obtain ⟨rfl, hn⟩ := List.cons_eq_cons.mp hp.eq_singleton
    exact ⟨rfl, hn⟩

theorem owned_turn (s : Turn.Sound k task turn) (o : Occupied k (task :: ts))
    (live : turn.control.isShutDown = false) :
    (Task.handles (turn.tasks ++ ts)).Perm turn.control.slot.holder.toList := by
  have hk := s.live live
  rw [handles_append]
  cases s.slot with
  | kept hs hh =>
    rw [hs, hh, ← handles_cons]
    exact o.owned hk
  | released h ho hs hn =>
    obtain ⟨hslot, hts⟩ := owner hk o ho
    rw [hn, hts, hs, Slot.holder_release, Slot.holds, hslot, beq_self_eq_true, if_pos rfl]
    exact List.Perm.refl _
  | taken h ho hs hh =>
    obtain ⟨hfree, _, _, hslot⟩ := Slot.tryOccupy_eq hs
    have hts : Task.handles ts = [] := by
      have hp := o.owned hk
      rw [handles_cons, ho, hfree] at hp
      exact hp.eq_nil
    rw [hh, hts, hslot]
    exact List.Perm.refl _
  | revoked ho _ hs hh =>
    rw [Control.isShutDown, hs, Slot.revoked_cancel] at live
    cases live

theorem unbroken_turn (s : Turn.Sound k task turn) (o : Occupied k (task :: ts))
    (live : turn.control.isShutDown = false) : turn.control.slot.evicted = [] := by
  have hk := s.live live
  cases s.slot with
  | kept hs hh => rw [hs]; exact o.unbroken hk
  | released h ho hs hn =>
    rw [hs, Slot.release]
    split <;> exact o.unbroken hk
  | taken h ho hs hh =>
    obtain ⟨_, _, _, hslot⟩ := Slot.tryOccupy_eq hs
    rw [hslot]
    exact o.unbroken hk
  | revoked ho _ hs hh =>
    rw [Control.isShutDown, hs, Slot.revoked_cancel] at live
    cases live

theorem emptied_turn (s : Turn.Sound k task turn) (o : Occupied k (task :: ts))
    (h : turn.control.isShutDown = true) : turn.control.slot.holder = none := by
  cases s.slot with
  | kept hs hh =>
    rw [hs]
    exact o.emptied (by rw [Control.isShutDown, ← hs]; exact h)
  | released handle ho hs hn =>
    have hk : k.isShutDown = true := by
      rw [Control.isShutDown, hs, Slot.revoked_release] at h
      exact h
    rw [hs, Slot.holder_release, o.emptied hk]
    split <;> rfl
  | taken handle ho hs hh =>
    obtain ⟨_, hr, _, hslot⟩ := Slot.tryOccupy_eq hs
    rw [Control.isShutDown, hslot] at h
    rw [hr] at h
    cases h
  | revoked ho _ hs hh => rw [hs, Slot.holder_cancel]

/-- **Every move keeps the slot and its owner in step.** -/
theorem invariant : System.Invariant Occupied where
  perm := perm
  outside _ o := ⟨o.owned, o.unbroken, o.emptied, o.seeking⟩
  called _ o := by
    refine ⟨o.owned, o.unbroken, o.emptied, fun h hr => ?_⟩
    obtain ⟨t, ht, hs⟩ := o.seeking h hr
    exact ⟨t, List.mem_cons_of_mem _ ht, hs⟩
  turn {k task turn ts} s o := by
    refine ⟨owned_turn s o, unbroken_turn s o, emptied_turn s o, fun h hr => ?_⟩
    have hk := s.live h
    rcases s.seeking hk (o.unbroken hk) hr with ⟨hp, hn⟩ | ⟨t, ht, hs⟩
    · obtain ⟨t, ht, hs⟩ := o.seeking hk hp
      rcases List.mem_cons.mp ht with rfl | ht
      · rw [hn] at hs; cases hs
      · exact ⟨t, List.mem_append_right _ ht, hs⟩
    · exact ⟨t, List.mem_append_left _ ht, hs⟩

theorem initial (settings : Settings) (store : Store) (balancing : Balancing) :
    Occupied (System.initial settings store balancing).control [] :=
  ⟨fun _ => .refl _, fun _ => rfl, fun _ => rfl, fun _ h => by cases h⟩

end Occupied

/-! ## Steps of the slot -/

/-- What one step may do to the slot: nothing, let a new session in, or let its session out. -/
inductive Slot.Passes (s t : Slot) : Prop where
  | same (h : t = s)
  | occupied (free : s.holder = none)
      (h : t = { s with holder := some ⟨s.nextId⟩, nextId := s.nextId + 1 })
  | freed (handle : Handle) (held : s.holder = some handle) (h : t = { s with holder := none })

theorem Slot.passes_tryOccupy {s t : Slot} {handle : Handle}
    (h : s.tryOccupy = some (handle, t)) : s.Passes t := by
  obtain ⟨hfree, _, hh, ht⟩ := Slot.tryOccupy_eq h
  exact .occupied hfree (hh ▸ ht)

theorem Occupied.passes_turn {k : Control} {task : Task} {turn : Turn} {ts : List Task}
    (o : Occupied k (task :: ts)) (s : Turn.Sound k task turn)
    (live : turn.control.isShutDown = false) : k.slot.Passes turn.control.slot := by
  cases s.slot with
  | kept hs hh => exact .same hs
  | released h ho hs hn =>
    obtain ⟨hheld, _⟩ := owner (s.live live) o ho
    refine .freed h hheld ?_
    rw [hs, Slot.release, Slot.holds, hheld, beq_self_eq_true, if_pos rfl]
  | taken h ho hs hh => exact Slot.passes_tryOccupy hs
  | revoked ho _ hs hh =>
    rw [Control.isShutDown, hs, Slot.revoked_cancel] at live
    cases live

namespace System

theorem occupied_of_reaches {settings : Settings} {store : Store} {balancing : Balancing}
    {t : System} (r : Reaches (initial settings store balancing) t) :
    Occupied t.control t.tasks :=
  Occupied.invariant.reaches (proper_initial settings store balancing) r
    (Occupied.initial settings store balancing)

theorem handles_eq {t : System} (o : Occupied t.control t.tasks)
    (live : t.control.isShutDown = false) :
    Task.handles t.tasks = t.control.slot.holder.toList := by
  have hp := o.owned live
  cases hs : t.control.slot.holder with
  | none => rw [hs] at hp; exact hp.eq_nil
  | some h => rw [hs] at hp; exact hp.eq_singleton

theorem passes_step {s u : System} {a : Action} (hs : s.Proper)
    (o : Occupied s.control s.tasks) (h : s.step a = some u)
    (live : u.control.isShutDown = false) : s.control.slot.Passes u.control.slot := by
  cases moves_of_step h with
  | outside f _ => exact .same rfl
  | called call => exact .same rfl
  | @started _ f k task _ ht =>
    obtain ⟨handle, t, _⟩ := Turn.triggers_of_trigger ht
    exact Slot.passes_tryOccupy t.slot
  | polled id b => exact .same rfl
  | @turn _ job _ turn hj hr hh _ =>
    obtain ⟨others, hp, _⟩ := tasks_apply hs.order hj
    rw [control_apply] at live ⊢
    exact (o.perm hp).passes_turn (hs.sound hj hr hh) live

/-! ## Triggers -/

/-- A session has just been started in a free slot, as one more job. -/
structure StartsSession (s u : System) : Prop where
  free : s.control.slot.isActive = false
  holder : u.control.slot.holder = some ⟨s.control.slot.nextId⟩
  jobs : u.jobs = s.jobs ++
    [{ id := s.nextJob, task := .background ⟨s.control.slot.nextId⟩ .fresh }]

theorem trigger_occupied {s : System} (h : s.control.slot.isActive = true) :
    s.trigger = (false, s) := by
  have hn : s.control.trigger = none := by
    rw [Control.trigger, Slot.tryOccupy, h]
    rfl
  rw [trigger, hn]

theorem trigger_free {s : System} (h : s.control.slot.isActive = false)
    (live : s.control.isShutDown = false) :
    s.trigger.1 = true ∧ StartsSession s s.trigger.2 := by
  cases ht : s.control.trigger with
  | none =>
    rw [Control.trigger, Slot.tryOccupy, h, show s.control.slot.revoked = false from live] at ht
    cases ht
  | some x =>
    obtain ⟨k, task⟩ := x
    obtain ⟨handle, t, rfl⟩ := Turn.triggers_of_trigger ht
    obtain ⟨_, _, rfl, hslot⟩ := Slot.tryOccupy_eq t.slot
    rw [trigger, ht]
    exact ⟨rfl, h, congrArg Slot.holder hslot, rfl⟩

/-- What some triggers in a row return, and the system after them. -/
def triggers (s : System) : Nat → List Bool × System
  | 0 => ([], s)
  | n + 1 => (s.trigger.1 :: (s.trigger.2.triggers n).1, (s.trigger.2.triggers n).2)

theorem triggers_occupied {s : System} (h : s.control.slot.isActive = true) (n : Nat) :
    s.triggers n = (List.replicate n false, s) := by
  induction n with
  | zero => rfl
  | succ n ih => rw [triggers, trigger_occupied h, ih]; rfl

theorem triggers_free {s : System} (h : s.control.slot.isActive = false)
    (live : s.control.isShutDown = false) (n : Nat) :
    s.triggers (n + 1) = (true :: List.replicate n false, s.trigger.2) := by
  obtain ⟨ht, hs⟩ := trigger_free h live
  have ho : s.trigger.2.control.slot.isActive = true := by
    rw [Slot.isActive, hs.holder]; rfl
  rw [triggers, ht, triggers_occupied ho]

/-- Whether it is the connected host that went down while no session is running. -/
def Bereaves (s : System) (a : Address) : Prop :=
  s.control.slot.isActive = false ∧ ∃ link, s.control.active = some link ∧ link.address = a

theorem hostDown_bereaves {s : System} {a : Address} (h : s.Bereaves a)
    (live : s.control.isShutDown = false) : StartsSession s (s.hostDown a) := by
  obtain ⟨hfree, link, hl, ha⟩ := h
  have hc : ((s.hostLeaves a).control.active.any (·.address == a) &&
      !(s.hostLeaves a).control.slot.isActive) = true := by
    show (s.control.active.any (·.address == a) && !s.control.slot.isActive) = true
    rw [hl, Option.any_some, ha, beq_self_eq_true, hfree]
    rfl
  simp only [hostDown, if_pos hc]
  obtain ⟨_, hs⟩ := trigger_free (s := s.hostLeaves a) hfree live
  exact ⟨hfree, hs.holder, hs.jobs⟩

theorem hostDown_not_bereaves {s : System} {a : Address} (h : ¬ s.Bereaves a) :
    s.hostDown a = s.hostLeaves a := by
  have hc : ¬ ((s.hostLeaves a).control.active.any (·.address == a) &&
      !(s.hostLeaves a).control.slot.isActive) = true := by
    intro hc
    obtain ⟨ha, hf⟩ := Bool.and_eq_true_iff.mp hc
    refine h ⟨(Bool.not_eq_true' _).mp hf, ?_⟩
    have hsame : (s.hostLeaves a).control.active = s.control.active := rfl
    cases hl : s.control.active with
    | none =>
      rw [hsame, hl] at ha
      cases ha
    | some link =>
      rw [hsame, hl, Option.any_some] at ha
      exact ⟨link, rfl, eq_of_beq ha⟩
  simp only [hostDown, if_neg hc]

/-- **The slot is never orphaned and never shared.** Its handle is owned by exactly one task while
it is occupied, and by none while it is free; a new session comes in only when it is free, which is
when a trigger, or the loss of the connected host, starts one. -/
theorem slot_owned (settings : Settings) (store : Store) (balancing : Balancing) {t : System}
    (r : Reaches (initial settings store balancing) t) (live : t.control.isShutDown = false) :
    t.tasks.filterMap Task.handle? = t.control.slot.holder.toList ∧
    (t.control.phase = .reconnecting → t.control.slot.isActive = true) ∧
    (∀ action u, t.step action = some u → u.control.isShutDown = false →
      t.control.slot.Passes u.control.slot ∧
        u.tasks.filterMap Task.handle? = u.control.slot.holder.toList) ∧
    (t.control.slot.isActive = true ∧ t.trigger = (false, t) ∨
      t.trigger.1 = true ∧ StartsSession t t.trigger.2) ∧
    (∀ a, t.Bereaves a ∧ StartsSession t (t.hostDown a) ∨
      ¬ t.Bereaves a ∧ (t.hostDown a).jobs = t.jobs ∧
        (t.hostDown a).control.slot = t.control.slot) ∧
    ∀ n, t.triggers (n + 1) =
      ((!t.control.slot.isActive) :: List.replicate n false, t.trigger.2) := by
  have o := occupied_of_reaches r
  have hp := (proper_initial settings store balancing).reaches r
  have howned := handles_eq o live
  refine ⟨howned, fun hr => ?_, fun action u hu hl => ⟨passes_step hp o hu hl, ?_⟩, ?_, fun a => ?_,
    fun n => ?_⟩
  · obtain ⟨task, ht, hs⟩ := o.seeking live hr
    obtain ⟨h, hh⟩ := Option.isSome_iff_exists.mp (Bool.and_eq_true_iff.mp hs).1
    have hm : h ∈ Task.handles t.tasks := List.mem_filterMap.mpr ⟨task, ht, hh⟩
    rw [howned, Option.mem_toList] at hm
    rw [Slot.isActive, hm]
    rfl
  · exact handles_eq (occupied_of_reaches (r.step action hu)) hl
  · cases hs : t.control.slot.isActive with
    | true => exact .inl ⟨rfl, trigger_occupied hs⟩
    | false => exact .inr (trigger_free hs live)
  · by_cases h : t.Bereaves a
    · exact .inl ⟨h, hostDown_bereaves h live⟩
    · refine .inr ⟨h, ?_⟩
      rw [hostDown_not_bereaves h]
      exact ⟨rfl, rfl⟩
  · cases hs : t.control.slot.isActive with
    | true => rw [triggers_occupied hs, trigger_occupied hs]; rfl
    | false => exact triggers_free hs live n

theorem slot_owned_round : ∃ t, Reaches lone t ∧
    (t.control.isShutDown = false ∧ t.control.slot.isActive = true ∧
      t.control.phase = .reconnecting) ∧
    t.tasks.filterMap Task.handle? = t.control.slot.holder.toList ∧
    t.triggers 3 = ([false, false, false], t.trigger.2) := by
  have h : ((lone.run [.trigger, .signal 0 .go]).any fun t => t.control.isShutDown = false ∧
      t.control.slot.isActive = true ∧ t.control.phase = .reconnecting) = true := by
    decide
  obtain ⟨t, hr, hk⟩ := exists_reaches h
  obtain ⟨howned, _, _, _, _, htriggers⟩ := slot_owned _ _ _ hr hk.1
  have h3 := htriggers 2
  rw [hk.2.1] at h3
  exact ⟨t, hr, hk, howned, h3⟩

end System

end ControlChannel
