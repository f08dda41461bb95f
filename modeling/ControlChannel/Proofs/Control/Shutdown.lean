import ControlChannel.Proofs.Control.Occupation
import ControlChannel.Proofs.Custody.Keepers

/-! # A shutdown is for good

The call that shuts a control connection down empties the slots at once, and publishes the end when
it returns; that end is published once, by that call (`Ending`, `Finishing`). From the shutdown on,
no step starts an opening, makes a connection active or lets a session in. Main statement:
`shutdown_absorbing`. -/

namespace ControlChannel

/-- The end is published once, by the shutdown that is closing a connection or has closed it. -/
structure Ending (k : Control) (ts : List Task) : Prop where
  endings : k.endings ts = k.isShutDown.toNat
  closed : k.phase = .closed ↔ .closed ∈ k.events

namespace Ending

variable {k : Control} {ts us : List Task}

theorem endings_append (k : Control) (ts us : List Task) :
    k.endings (ts ++ us) = k.endings ts + us.countP Task.isShutdown := by
  rw [Control.endings, Control.endings, List.countP_append, Nat.add_assoc]

/-- **Every move keeps the end where it is due.** -/
theorem invariant : System.Invariant Ending where
  perm p e := ⟨by rw [← e.endings, Control.endings, Control.endings, p.countP_eq], e.closed⟩
  outside _ e := ⟨e.endings, e.closed⟩
  called _ e := ⟨e.endings, e.closed⟩
  turn {k task turn ts} s e := by
    refine ⟨?_, s.closed e.closed⟩
    have hbefore : k.endings [task] + ts.countP Task.isShutdown = k.isShutDown.toNat := by
      rw [← endings_append]
      exact e.endings
    have hturn := s.endings
    rw [endings_append]
    omega

theorem initial (settings : Settings) (store : Store) (balancing : Balancing) :
    Ending (System.initial settings store balancing).control [] :=
  ⟨rfl, fun h => (by cases h), fun h => by cases h⟩

end Ending

/-- The nodes whose connections were announced as the active one, the latest first. -/
def Control.announced (k : Control) : List Address :=
  k.events.filterMap fun e => match e with
    | .connected address => some address
    | _ => none

/-- What is told beside new connections announces nothing. -/
theorem Control.announced_eq {k l : Control} {es : List Event} (he : l.events = es ++ k.events)
    (hes : ∀ a, .connected a ∉ es) : l.announced = k.announced := by
  rw [announced, announced, he, List.filterMap_append]
  refine (congrArg (· ++ _) (List.filterMap_eq_nil_iff.mpr fun e hm => ?_)).trans
    (List.nil_append _)
  cases e with
  | connected a => exact absurd hm (hes a)
  | connectionFailed _ _ | reconnectionScheduled _ | unexpectedError _ | closed => rfl

namespace System

theorem ending_of_reaches {settings : Settings} {store : Store} {balancing : Balancing}
    {t : System} (r : Reaches (initial settings store balancing) t) :
    Ending t.control t.tasks :=
  Ending.invariant.reaches (proper_initial settings store balancing) r
    (Ending.initial settings store balancing)

/-! ## After a shutdown -/

/-- What no step changes any more. -/
structure Rests (s u : System) : Prop where
  shutDown : u.control.isShutDown = true
  openings : u.control.fabric.openings = s.control.fabric.openings
  announced : u.control.announced = s.control.announced

theorem announced_turn {k : Control} {task : Task} {turn : Turn} (s : Turn.Sound k task turn)
    (h : k.isShutDown = true) : turn.control.announced = k.announced := by
  obtain ⟨es, he, hes⟩ := s.events
  refine Control.announced_eq he fun a ha => ?_
  have hf := hes a ha
  rw [h] at hf
  cases hf

theorem rests_moves {s u : System} {a : Action} (hs : s.Proper) (m : Moves s a u)
    (h : s.control.isShutDown = true) : Rests s u := by
  cases m with
  | outside f hf => exact ⟨h, Fabric.openings_congr hf.acts, rfl⟩
  | called call => exact ⟨h, rfl, rfl⟩
  | @started _ f k _ hf ht =>
    obtain ⟨_, t, _⟩ := Turn.triggers_of_trigger ht
    have hl : s.control.isShutDown = false := t.live.1
    rw [h] at hl
    cases hl
  | polled id b => exact ⟨h, rfl, rfl⟩
  | turn hj hr hh _ =>
    have hsound := hs.sound hj hr hh
    refine ⟨?_, ?_, ?_⟩
    · rw [control_apply]; exact hsound.isShutDown h
    · rw [control_apply]; exact hsound.openings h
    · rw [control_apply]; exact announced_turn hsound h

theorem rests_reaches {s u : System} (hs : s.Proper) (h : s.control.isShutDown = true)
    (r : Reaches s u) : Rests s u := by
  induction r with
  | refl => exact ⟨h, rfl, rfl⟩
  | step a hr e ih =>
    have hm := rests_moves (hs.reaches hr) (moves_of_step e) ih.shutDown
    exact ⟨hm.shutDown, hm.openings.trans ih.openings, hm.announced.trans ih.announced⟩

/-! ## The call that shuts down -/

/-- The shutdown of a job is closing a connection, or has published the end and returned. -/
def Finishing (id : JobId) (s : System) : Prop :=
  (∃ j ∈ s.jobs, j.id = id ∧ j.task.isShutdown = true) ∨
    (.closed ∈ s.control.events ∧ ∃ r ∈ s.returned, r.job = id)

theorem finish_of_resume {k : Control} {task : Task} {signal : Signal} {turn : Turn}
    (ht : task.isShutdown = true) (h : task.resume k signal = some turn) :
    .closed ∈ turn.control.events ∧ turn.result = some .shutDown := by
  cases task with
  | shutdown closing =>
    cases signal with
    | closed =>
      cases h
      refine ⟨?_, rfl⟩
      rw [(Turn.ends_finishShutdown _).events]
      exact List.mem_cons_self
    | _ => cases h
  | _ => cases ht

theorem mem_returned_apply (s : System) (id : JobId) (turn : Turn) {r : Returned}
    (h : r ∈ s.returned) : r ∈ (s.apply id turn).returned := by
  rw [returned_apply]
  exact List.mem_append_right _ h

theorem finishing_moves {s u : System} {a : Action} {id : JobId} (hs : s.Proper)
    (m : Moves s a u) (h : Finishing id s) : Finishing id u := by
  cases m with
  | outside f hf => exact h
  | called call => exact h.imp_left fun ⟨j, hj, he⟩ => ⟨j, List.mem_append_left _ hj, he⟩
  | @started _ f k _ hf ht =>
    obtain ⟨_, t, _⟩ := Turn.triggers_of_trigger ht
    have hev : k.events = s.control.events := t.events
    rcases h with ⟨j, hj, he⟩ | ⟨hc, hr⟩
    · exact .inl ⟨j, List.mem_append_left _ hj, he⟩
    · exact .inr ⟨by show Event.closed ∈ k.events; rw [hev]; exact hc, hr⟩
  | polled i b =>
    refine h.imp_left fun ⟨j, hj, he⟩ => ?_
    refine ⟨if j.id == i then { j with polled := b } else j, List.mem_map_of_mem hj, ?_⟩
    split <;> exact he
  | @turn _ job signal turn hj hr hh _ =>
    rcases h with ⟨j, hm, hid, ht⟩ | ⟨hc, r, hret, hid⟩
    · by_cases hne : j.id = job.id
      · -- it is the shutdown's own turn
        have hjob : j = job := hs.order.eq_of_id hm hj hne
        subst hjob
        obtain ⟨hc, hres⟩ := finish_of_resume ht hr
        refine .inr ⟨by rw [control_apply]; exact hc, ?_⟩
        rw [returned_apply, hres]
        exact ⟨_, List.mem_append_left _ (List.mem_singleton.mpr rfl), hid⟩
      · exact .inl ⟨j, mem_apply_of_ne hs.order hj turn hm hne, hid, ht⟩
    · obtain ⟨es, he, _⟩ := (hs.sound hj hr hh).events
      refine .inr ⟨?_, r, mem_returned_apply s _ turn hret, hid⟩
      rw [control_apply, he]
      exact List.mem_append_right _ hc

theorem finishing_reaches {s u : System} {id : JobId} (hs : s.Proper) (r : Reaches s u)
    (h : Finishing id s) : Finishing id u := by
  induction r with
  | refl => exact h
  | step a hr e ih => exact finishing_moves (hs.reaches hr) (moves_of_step e) ih

theorem returned_moves {s u : System} {a : Action} (m : Moves s a u) {r : Returned}
    (h : r ∈ s.returned) : r ∈ u.returned := by
  cases m with
  | turn _ _ _ _ => exact mem_returned_apply s _ _ h
  | _ => exact h

theorem returned_reaches {s u : System} (hr : Reaches s u) {r : Returned}
    (h : r ∈ s.returned) : r ∈ u.returned := by
  induction hr with
  | refl => exact h
  | step a _ e ih => exact returned_moves (moves_of_step e) ih

/-- Only the first step of a shutdown shuts down. -/
theorem canceller {s u : System} {a : Action} (hs : s.Proper) (h : s.step a = some u)
    (live : s.control.isShutDown = false) (shut : u.control.isShutDown = true) :
    ∃ job ∈ s.jobs, job.task = .called .shutdown ∧ a = .signal job.id .go ∧
      u = s.apply job.id (Turn.beginShutdown s.control) := by
  cases moves_of_step h with
  | outside f _ | called call | polled id b =>
    have hl : s.control.isShutDown = true := shut
    rw [live] at hl; cases hl
  | @started _ f k _ hf ht =>
    obtain ⟨_, t, _⟩ := Turn.triggers_of_trigger ht
    have hl : k.isShutDown = true := shut
    rw [t.live.2] at hl; cases hl
  | @turn _ job signal turn hj hr hh ha =>
    rw [control_apply] at shut
    cases (hs.sound hj hr hh).slot with
    | kept hslot _ =>
      rw [Control.isShutDown, hslot] at shut
      rw [Control.isShutDown, shut] at live; cases live
    | released handle _ hslot _ =>
      rw [Control.isShutDown, hslot, Slot.revoked_release] at shut
      rw [Control.isShutDown, shut] at live; cases live
    | taken handle _ hslot _ =>
      obtain ⟨_, hrev, _, e⟩ := Slot.tryOccupy_eq hslot
      rw [Control.isShutDown, e, hrev] at shut; cases shut
    | revoked hcall _ _ _ =>
      rw [hcall] at hr
      cases signal with
      | go =>
        cases hr
        rcases ha with ha | ⟨_, ha⟩
        · exact ⟨job, hj, hcall, ha, rfl⟩
        · cases ha
      | _ => cases hr

theorem finishing_canceller {s : System} (hs : s.Proper) {job : Job} (hj : job ∈ s.jobs)
    (live : s.control.isShutDown = false) :
    Finishing job.id (s.apply job.id (Turn.beginShutdown s.control)) := by
  have hn : ¬ s.control.isShutDown = true := by rw [live]; exact Bool.false_ne_true
  cases hactive : s.control.active with
  | none =>
    have he : Turn.beginShutdown s.control =
        Turn.finishShutdown { s.control with slot := s.control.slot.revoke.cancel } := by
      simp only [Turn.beginShutdown, if_neg hn, hactive]
    rw [he]
    refine .inr ⟨?_, ?_⟩
    · rw [control_apply, (Turn.ends_finishShutdown _).events]
      exact List.mem_cons_self
    · rw [returned_apply]
      exact ⟨_, List.mem_append_left _ (List.mem_singleton.mpr rfl), rfl⟩
  | some link =>
    have ht : (Turn.beginShutdown s.control).task = some (.shutdown link) := by
      simp only [Turn.beginShutdown, if_neg hn, hactive]
      rfl
    exact .inl ⟨_, mem_apply_of_task hs.order hj ht, rfl, rfl⟩

theorem result?_isSome {s : System} {id : JobId} :
    (s.result? id).isSome = true ↔ ∃ r ∈ s.returned, r.job = id := by
  rw [result?, Option.isSome_map, List.find?_isSome]
  simp

/-- How often the end has been published: once, as soon as the shutdown has returned. -/
theorem count_closed {s : System} {id : JobId} (hs : s.Proper) (he : Ending s.control s.tasks)
    (shut : s.control.isShutDown = true) (h : Finishing id s) :
    s.control.events.count .closed = if (s.result? id).isSome then 1 else 0 := by
  have hsum : s.control.events.count .closed + s.tasks.countP Task.isShutdown = 1 := by
    have := he.endings
    rw [shut] at this
    exact this
  rcases h with ⟨j, hj, hid, ht⟩ | ⟨hc, hr⟩
  · have hpos : 0 < s.tasks.countP Task.isShutdown :=
      List.countP_pos_iff.mpr ⟨j.task, List.mem_map_of_mem hj, ht⟩
    rw [if_neg]
    · omega
    · intro hres
      obtain ⟨r, hr, e⟩ := result?_isSome.mp hres
      exact (hs.settled r hr).2 j hj (hid.trans e.symm)
  · have hpos : 0 < s.control.events.count .closed := List.count_pos_iff.mpr hc
    rw [if_pos (result?_isSome.mpr hr)]
    omega

theorem trigger_shutDown {s : System} (h : s.control.isShutDown = true) :
    s.trigger = (false, s) := by
  cases ht : s.control.trigger with
  | none => rw [trigger, ht]
  | some x =>
    obtain ⟨k, task⟩ := x
    obtain ⟨_, t, _⟩ := Turn.triggers_of_trigger ht
    rw [t.live.1] at h
    cases h

/-- **A shutdown is absorbing.** Once a call has shut the control connection down, nothing is
opened, no connection becomes active or is announced, and no session gets in; when that call has
returned, the connection is closed for good, and the end has been published exactly once. -/
theorem shutdown_absorbing (settings : Settings) (store : Store) (balancing : Balancing)
    {t u : System} {a : Action} (r : Reaches (initial settings store balancing) t)
    (h : t.step a = some u) (live : t.control.isShutDown = false)
    (shut : u.control.isShutDown = true) :
    ∃ job ∈ t.jobs, job.task = .called .shutdown ∧ a = .signal job.id .go ∧
      ∀ v, Reaches u v →
        v.control.fabric.openings = u.control.fabric.openings ∧
        v.control.announced = u.control.announced ∧
        v.control.active = none ∧
        v.control.slot.isActive = false ∧ v.trigger = (false, v) ∧
        v.control.events.count .closed = (if (v.result? job.id).isSome then 1 else 0) ∧
        ((v.result? job.id).isSome = true → ∀ w, Reaches v w →
          w.control.phase = .closed ∧ w.control.active = none ∧
            w.control.events.count .closed = 1) := by
  have ht := (proper_initial settings store balancing).reaches r
  have ru := r.step a h
  have hu := (proper_initial settings store balancing).reaches ru
  obtain ⟨job, hj, hcall, ha, rfl⟩ := canceller ht h live shut
  have hfin := finishing_canceller ht hj live
  refine ⟨job, hj, hcall, ha, fun v rv => ?_⟩
  have hrest := rests_reaches hu shut rv
  have hv := hu.reaches rv
  have r0 := ru.trans rv
  have hactive : v.control.active = none := (custody_of_reaches r0).emptied hrest.shutDown
  have hholder : v.control.slot.holder = none := (occupied_of_reaches r0).emptied hrest.shutDown
  have hcount := count_closed hv (ending_of_reaches r0) hrest.shutDown
    (finishing_reaches hu rv hfin)
  refine ⟨hrest.openings, hrest.announced, hactive, ?_, ?_, hcount, fun hres w rw' => ?_⟩
  · rw [Slot.isActive, hholder]; rfl
  · exact trigger_shutDown hrest.shutDown
  · obtain ⟨x, hx, hid⟩ := result?_isSome.mp hres
    have hres' : (w.result? job.id).isSome = true :=
      result?_isSome.mpr ⟨x, returned_reaches rw' hx, hid⟩
    have rw0 := ru.trans (rv.trans rw')
    have hshut := (rests_reaches hu shut (rv.trans rw')).shutDown
    have he := ending_of_reaches rw0
    have hc := count_closed (hv.reaches rw') he hshut (finishing_reaches hu (rv.trans rw') hfin)
    rw [if_pos hres'] at hc
    refine ⟨he.closed.mpr (List.count_pos_iff.mp ?_), (custody_of_reaches rw0).emptied hshut, hc⟩
    rw [hc]
    exact Nat.one_pos

/-- A shutdown of an active connection, called twice. -/
theorem shutdown_absorbing_twice : ∃ t u v, Reaches lone t ∧ Reaches u v ∧
    (t.step (.signal 1 .go) = some u ∧ t.control.isShutDown = false ∧
      u.control.isShutDown = true) ∧
    ((v.result? 1).isSome = true ∧ (v.result? 2).isSome = true) ∧
    v.trigger = (false, v) ∧ v.control.phase = .closed ∧ v.control.events.count .closed = 1 := by
  have h : ((lone.run (.trigger :: bringsUp 0 ++
      [.signal 0 .go, .call .shutdown, .call .shutdown])).any fun t =>
        t.control.isShutDown = false ∧ ((t.step (.signal 1 .go)).any fun u =>
          u.control.isShutDown && ((u.run [.signal 2 .go, .signal 1 .closed]).any fun v =>
            (v.result? 1).isSome = true ∧ (v.result? 2).isSome = true)) = true) = true := by
    decide +kernel
  obtain ⟨t, rt, live, hu⟩ := exists_reaches h
  obtain ⟨u, hstep, hu⟩ := (Option.any_eq_true _ _).mp hu
  obtain ⟨shut, hv⟩ := Bool.and_eq_true_iff.mp hu
  obtain ⟨v, rv, hres⟩ := exists_reaches hv
  obtain ⟨job, _, _, ha, hall⟩ := shutdown_absorbing _ _ _ rt hstep live shut
  have hid : job.id = 1 := (Action.signal.inj ha).1.symm
  rw [hid] at hall
  obtain ⟨_, _, _, _, htrigger, _, hclosed⟩ := hall v rv
  obtain ⟨hphase, _, hcount⟩ := hclosed hres.1 v (.refl v)
  exact ⟨t, u, v, rt, rv, ⟨hstep, live, shut⟩, hres, htrigger, hphase, hcount⟩

end System

end ControlChannel
