import ControlChannel.Proofs.Custody.Keepers
import ControlChannel.Proofs.Readiness.Sending

/-! # Only what has been brought up is ever active

Connections come into the slot and, until a shutdown, one of them is always in it. The invariant
of a run and its history is `Entrance`: the tasks are on their trails, a connection that has never
been in the slot was sent no more than a bring-up sends, and refreshes ask on connections that
have been in it. Main statement: `active_brought_up`. -/

namespace ControlChannel

/-- The connection was in the slot after some step. -/
def Entered (h : List Transition) (c : ConnectionId) : Prop :=
  ∃ x ∈ h, c ∈ Link.ids x.after.control.active

theorem entered_snoc {h : List Transition} {x : Transition} {c : ConnectionId} :
    Entered (h ++ [x]) c ↔ Entered h c ∨ c ∈ Link.ids x.after.control.active := by
  constructor
  · rintro ⟨y, hy, hc⟩
    rcases List.mem_append.mp hy with hy | hy
    · exact .inl ⟨y, hy, hc⟩
    · exact .inr (List.mem_singleton.mp hy ▸ hc)
  · rintro (⟨y, hy, hc⟩ | hc)
    · exact ⟨y, List.mem_append_left _ hy, hc⟩
    · exact ⟨x, List.mem_append_right _ (List.mem_singleton.mpr rfl), hc⟩

theorem Task.Trail.skip {port : UInt16} {h : List Transition} {f g : Fabric} {task : Task}
    (t : task.Trail port h f) (x : Transition)
    (same : ∀ c ∈ Link.ids task.uses?, g.requests c = f.requests c) :
    task.Trail port (h ++ [x]) g := by
  intro a ha
  cases a with
  | fresh | installing i => trivial
  | round r =>
    refine BringUp.Trail.skip (t _ ha) x fun link hl => same link.id ?_
    rw [Task.uses?_of_attempt ha]
    show link.id ∈ Link.ids r.bringUp.uses?
    rw [hl]
    exact List.mem_singleton.mpr rfl

/-- What holds of a control connection and its tasks after the steps `h`. -/
structure Entrance (port : UInt16) (h : List Transition) (k : Control) (ts : List Task) :
    Prop extends Control.Blank port k where
  begun : ∀ d, ¬ Entered h d → k.fabric.requests d <+: Request.bringUp
  trails : ∀ t ∈ ts, t.Trail port h k.fabric
  refreshes : ∀ t ∈ ts, ∀ c ∈ t.asks, Entered h c
  current : ∀ c ∈ Link.ids k.active, Entered h c
  apart : ∀ c ∈ Task.used ts, ¬ Entered h c
  known : ∀ c, Entered h c → c < k.fabric.connections.size

namespace Entrance

variable {port : UInt16} {h : List Transition} {k l : Control} {ts us : List Task} {task : Task}
variable {turn : Turn} {x : Transition}

theorem perm (p : ts.Perm us) (e : Entrance port h k ts) : Entrance port h k us :=
  ⟨e.toBlank, e.begun, fun t ht => e.trails t (p.mem_iff.mpr ht),
    fun t ht => e.refreshes t (p.mem_iff.mpr ht), e.current,
    fun c hc => e.apart c ((Task.used_perm p).mem_iff.mpr hc), e.known⟩

theorem initial (settings : Settings) (store : Store) (balancing : Balancing) :
    Entrance settings.port [] (System.initial settings store balancing).control [] :=
  ⟨⟨rfl, fun _ _ => rfl⟩, fun _ _ => List.nil_prefix, List.forall_mem_nil _, List.forall_mem_nil _,
    List.forall_mem_nil _, List.forall_mem_nil _, fun _ ⟨_, hx, _⟩ => absurd hx List.not_mem_nil⟩

/-- A step that sends nothing and leaves the slot as it is. -/
theorem skip (e : Entrance port h k ts) (hx : x.after.control.active = k.active)
    (settings : l.settings = k.settings) (active : l.active = k.active)
    (size : l.fabric.connections.size = k.fabric.connections.size)
    (requests : ∀ d, l.fabric.requests d = k.fabric.requests d) :
    Entrance port (h ++ [x]) l ts := by
  have hsame : ∀ c, Entered (h ++ [x]) c ↔ Entered h c := by
    intro c
    rw [entered_snoc, hx]
    exact ⟨fun hc => hc.elim id (e.current c), .inl⟩
  exact
    { constant := settings ▸ e.constant
      unsent := by
        intro d hd
        rw [requests]
        exact e.unsent d (size ▸ hd)
      begun := by
        intro d hn
        rw [requests]
        exact e.begun d fun hc => hn ((hsame d).mpr hc)
      trails := fun t ht => (e.trails t ht).skip x fun c _ => requests c
      refreshes := fun t ht c hc => (hsame c).mpr (e.refreshes t ht c hc)
      current := fun c hc => (hsame c).mpr (e.current c (active ▸ hc))
      apart := by
        intro c hc
        rw [hsame]
        exact e.apart c hc
      known := by
        intro c hc
        rw [size]
        exact e.known c ((hsame c).mp hc) }

/-- One more task, which has not begun. -/
theorem cons (e : Entrance port h k ts) (trail : task.Trail port h k.fabric)
    (asks : task.asks = []) (uses : task.uses? = none) : Entrance port h k (task :: ts) := by
  refine ⟨e.toBlank, e.begun, fun t ht => ?_, fun t ht => ?_, e.current, ?_, e.known⟩
  · rcases List.mem_cons.mp ht with rfl | ht
    · exact trail
    · exact e.trails t ht
  · rcases List.mem_cons.mp ht with rfl | ht
    · rw [asks]
      exact List.forall_mem_nil _
    · exact e.refreshes t ht
  · rw [Task.used_cons, uses]
    exact e.apart

/-- What a refresh may ask on has been in the slot. -/
theorem entered_free (e : Entrance port h k (task :: ts)) :
    ∀ c ∈ Link.ids k.active ++ task.asks, Entered h c := by
  intro c hc
  rcases List.mem_append.mp hc with hc | hc
  · exact e.current c hc
  · exact e.refreshes task List.mem_cons_self c hc

/-- The other tasks keep to their trails: nobody else sends on their connections. -/
theorem trails_turn (e : Entrance port h k (task :: ts)) (c : Custody k (task :: ts))
    (t : Turn.Treads port (h ++ [x]) k task turn) :
    ∀ u ∈ ts, u.Trail port (h ++ [x]) turn.control.fabric := by
  obtain ⟨_, hheld, _⟩ := List.nodup_append.mp c.hands.nodup
  obtain ⟨_, _, hothers⟩ := List.nodup_append.mp hheld
  intro u hu
  refine (e.trails u (List.mem_cons_of_mem _ hu)).skip x fun d hd => ?_
  have hused : d ∈ Task.used ts := List.mem_flatMap.mpr ⟨u, hu, hd⟩
  have hmem : d ∈ Task.used (task :: ts) := List.mem_append_right _ hused
  have hheld : d ∈ Task.held (task :: ts) := Task.mem_held_of_mem_used hmem
  rcases t.sends.frame d with same | hd | ⟨hnew, _⟩
  · exact same
  · rcases List.mem_append.mp hd with hd | hd
    · exact absurd rfl (hothers d (Task.mem_held?_of_mem_uses? hd) d
        (Task.mem_held_of_mem_used hused))
    · exact absurd (e.entered_free d hd) (e.apart d hmem)
  · exact absurd (c.hands.below d (List.mem_append_right _ hheld)) (Nat.not_lt.mpr hnew)

theorem unsent_turn (e : Entrance port h k (task :: ts)) (c : Custody k (task :: ts))
    (s : Turn.Sound k task turn) (t : Turn.Treads port (h ++ [x]) k task turn) :
    ∀ d, turn.control.fabric.connections.size ≤ d → turn.control.fabric.requests d = [] := by
  intro d hd
  have hsize : k.fabric.connections.size ≤ d := Nat.le_trans s.custody.grows hd
  rcases t.sends.frame d with same | hd' | ⟨_, hlt⟩
  · rw [same]
    exact e.unsent d hsize
  · have hbelow : d < k.fabric.connections.size := by
      rcases List.mem_append.mp hd' with hd' | hd'
      · refine c.hands.below d (List.mem_append_right _ ?_)
        exact Task.mem_held_of_mem_used (List.mem_append_left _ hd')
      · exact e.known d (e.entered_free d hd')
    exact absurd hbelow (Nat.not_lt.mpr hsize)
  · exact absurd hlt (Nat.not_lt.mpr hd)

/-- A connection that a bring-up works on has never been in the slot. -/
theorem apart_turn (e : Entrance port h k (task :: ts)) (c : Custody k (task :: ts))
    (s : Turn.Sound k task turn) (hx : x.after.control = turn.control) :
    ∀ d ∈ Task.used (turn.tasks ++ ts), ¬ Entered (h ++ [x]) d := by
  obtain ⟨_, _, hactive⟩ := List.nodup_append.mp (c.passes s).nodup
  intro d hd hin
  rw [entered_snoc, hx] at hin
  rcases hin with hin | hin
  · rw [Task.used_append] at hd
    rcases List.mem_append.mp hd with hd | hd
    · rcases s.uses d hd with hd | hd
      · exact e.apart d (List.mem_append_left _ hd) hin
      · exact absurd (e.known d hin) (Nat.not_lt.mpr hd)
    · exact e.apart d (List.mem_append_right _ hd) hin
  · have hheld := Task.mem_held_of_mem_used hd
    rw [Task.held_append] at hheld
    exact hactive d hin d hheld rfl

theorem carried (e : Entrance port h k (task :: ts)) (c : Custody k (task :: ts))
    (s : Turn.Sound k task turn) (t : Turn.Treads port (h ++ [x]) k task turn)
    (hx : x.after.control = turn.control) :
    Entrance port (h ++ [x]) turn.control (turn.tasks ++ ts) := by
  exact
    { constant := s.settings ▸ e.constant
      unsent := e.unsent_turn c s t
      begun := by
        intro d hn
        have hout : ¬ Entered h d := fun hc => hn (entered_snoc.mpr (.inl hc))
        exact t.sends.begun d (fun hd => hout (e.entered_free d hd)) (e.begun d hout)
      trails := by
        intro u hu
        rcases List.mem_append.mp hu with hu | hu
        · exact t.trail u hu
        · exact e.trails_turn c t u hu
      refreshes := by
        intro u hu d hd
        refine entered_snoc.mpr (.inl ?_)
        rcases List.mem_append.mp hu with hu | hu
        · exact e.entered_free d (t.asks u hu d hd)
        · exact e.refreshes u (List.mem_cons_of_mem _ hu) d hd
      current := fun d hd => entered_snoc.mpr (.inr (hx ▸ hd))
      apart := e.apart_turn c s hx
      known := by
        intro d hd
        rcases entered_snoc.mp hd with hd | hd
        · exact Nat.lt_of_lt_of_le (e.known d hd) s.custody.grows
        · exact (c.passes s).below d (List.mem_append_left _ (hx ▸ hd)) }

end Entrance

namespace System

variable {port : UInt16} {h : List Transition}

/-- The turn of a job treads on the trail of its task. -/
theorem treads_of_turn {s : System} {a : Action} {job : Job} {signal : Signal} {turn : Turn}
    (hp : s.Proper) (e : Entrance port h s.control s.tasks) (hj : job ∈ s.jobs)
    (hr : job.task.resume s.control signal = some turn) (hh : job.task.Hears s.control signal)
    (ha : a = .signal job.id signal ∨ a = .poll job.id ∧ signal = .cancelled) :
    Turn.Treads port (h ++ [⟨s, a, s.apply job.id turn⟩]) s.control job.task turn := by
  have hm : job.task ∈ s.tasks := List.mem_map_of_mem hj
  refine Task.treads_resume hr hh (hp.calm _ hm) (e.trails _ hm) e.toBlank
    ⟨fun link hl => ⟨job, hj, hl, rfl, ha⟩, rfl, ?_⟩
  rw [Transition.storeAfter, control_apply]

/-- Every step keeps to the entrance, and lets only a connection into the slot that has just been
brought up. -/
theorem entrance_moves {s u : System} {a : Action} (hp : s.Proper) (c : Custody s.control s.tasks)
    (m : Moves s a u) (e : Entrance port h s.control s.tasks) :
    Entrance port (h ++ [⟨s, a, u⟩]) u.control u.tasks ∧
      Attempt.Enters port (h ++ [⟨s, a, u⟩]) s.control u.control := by
  cases m with
  | outside f hf =>
    exact ⟨e.skip rfl rfl rfl hf.size (Fabric.requests_congr hf.acts), .of_active rfl⟩
  | called call =>
    refine ⟨?_, .of_active rfl⟩
    rw [tasks_spawn]
    refine .perm (List.perm_append_singleton _ _).symm ?_
    exact (e.skip rfl rfl rfl rfl fun _ => rfl).cons (Task.trail_of_isIdle rfl) rfl rfl
  | @started _ f k task hf ht =>
    obtain ⟨handle, t, rfl⟩ := Turn.triggers_of_trigger ht
    have hfabric : k.fabric = f := t.fabric
    refine ⟨?_, .of_active t.active⟩
    rw [tasks_spawn]
    refine .perm (List.perm_append_singleton _ _).symm (.cons ?_ (fun a ha => ?_) rfl rfl)
    · refine e.skip t.active t.settings t.active ?_ fun d => ?_
      · exact (congrArg (·.connections.size) hfabric).trans hf.size
      · exact (congrArg (·.requests d) hfabric).trans (Fabric.requests_congr hf.acts d)
    · cases ha
      trivial
  | polled id b =>
    rw [tasks_setPolled]
    exact ⟨e.skip rfl rfl rfl rfl fun _ => rfl, .of_active rfl⟩
  | @turn _ job signal turn hj hr hh ha =>
    have ht := treads_of_turn hp e hj hr hh ha
    obtain ⟨others, hperm, happly⟩ := tasks_apply hp.order hj
    have hcontrol := control_apply s job.id turn
    rw [hcontrol]
    refine ⟨.perm (happly turn).symm ?_, ht.enters⟩
    exact (e.perm hperm).carried (c.perm hperm) (hp.sound hj hr hh) ht hcontrol

theorem entrance_of_run {settings : Settings} {store : Store} {balancing : Balancing} {t : System}
    (run : Run (initial settings store balancing) h t) :
    Entrance settings.port h t.control t.tasks := by
  induction run with
  | nil => exact Entrance.initial settings store balancing
  | snoc a run e ih =>
    have hp := (proper_initial settings store balancing).reaches run.reaches
    exact (entrance_moves hp (custody_of_reaches run.reaches) (moves_of_step e) ih).1

/-- The slot of the active connection stays filled until the shutdown. -/
theorem filled_invariant :
    Invariant fun k _ => k.isShutDown = true ∨ k.active.isSome = true where
  perm _ h := h
  outside _ h := h
  called _ h := h
  turn s h := by
    rcases h with h | h
    · exact .inl (s.isShutDown h)
    · exact (s.filled h).symm

theorem filled_of_run {s t : System} (hs : s.Proper) (run : Run s h t) :
    ∀ x ∈ h, x.after.control.active.isSome = true →
      t.control.isShutDown = true ∨ t.control.active.isSome = true := by
  induction run with
  | nil => exact List.forall_mem_nil _
  | snoc a run e ih =>
    intro x hx hsome
    rcases List.mem_append.mp hx with hx | hx
    · exact filled_invariant.moves (hs.reaches run.reaches) (moves_of_step e) (ih x hx hsome)
    · rw [List.mem_singleton.mp hx] at hsome
      exact .inr hsome

/-- A connection that was in the slot is asked to close by whoever takes it out of the slot. -/
theorem closings_moves {s u : System} {a : Action} (hp : s.Proper)
    (c : Custody s.control s.tasks) (e : Entrance port h s.control s.tasks) (m : Moves s a u)
    {d : ConnectionId} (hd : Entered h d) (hnew : d ∉ s.control.fabric.closings)
    (hcl : d ∈ u.control.fabric.closings) : d ∈ Link.ids s.control.active := by
  have hquiet : u.control.fabric.acts = s.control.fabric.acts → False := fun hacts =>
    hnew (Fabric.closings_congr hacts ▸ hcl)
  cases m with
  | outside f hf => exact (hquiet hf.acts).elim
  | called call => exact (hquiet rfl).elim
  | started hf ht =>
    obtain ⟨handle, t, rfl⟩ := Turn.triggers_of_trigger ht
    exact (hquiet ((congrArg Fabric.acts t.fabric).trans hf.acts)).elim
  | polled id b => exact (hquiet rfl).elim
  | @turn _ job signal turn hj hr hh ha =>
    have hsound := hp.sound hj hr hh
    rw [control_apply] at hcl
    obtain ⟨hheld, _⟩ := (hsound.closings d hcl).resolve_left hnew
    rcases hsound.custody.known d (List.mem_append_right _ hheld) with hin | ⟨hsize, _⟩
    · rcases List.mem_append.mp hin with hin | hin
      · exact hin
      · -- a task that held it had a use for it, and so it had never been in the slot
        have hmem : d ∈ Task.held s.tasks :=
          List.mem_flatMap.mpr ⟨job.task, List.mem_map_of_mem hj, hin⟩
        have hused := (c.discards d hmem).resolve_right hnew
        exact absurd hd (e.apart d hused)
    · exact absurd (e.known d hd) (Nat.not_lt.mpr hsize)

/-- **Every connection that is ever active has been brought up, and the slot has no gap.** A
connection comes into the slot when, on this connection, the registration was acknowledged, the
three surveys of the whole schema were answered and the schema rebuilt, and the peers were answered
and applied to the host list. What any bring-up sends leads up to what a complete one sends.
Once filled, the slot stays filled until the shutdown, and who replaces a connection asks it to
close with its successor in the slot. -/
theorem active_brought_up (settings : Settings) (store : Store) (balancing : Balancing)
    {t : System} (run : Run (initial settings store balancing) h t) :
    (∀ action u link, t.step action = some u → u.control.active = some link →
      t.control.active ≠ some link →
        BroughtUp link settings.port (h ++ [⟨t, action, u⟩]) ∧
          u.control.fabric.requests link.id = Request.bringUp) ∧
    (∀ c, ¬ Entered h c → t.control.fabric.requests c <+: Request.bringUp) ∧
    (∀ task ∈ t.tasks, ∀ c ∈ Link.ids task.uses?, ¬ Entered h c) ∧
    (∀ x ∈ h, x.after.control.active.isSome = true →
      t.control.isShutDown = true ∨ t.control.active.isSome = true) ∧
    (∀ action u c, t.step action = some u → Entered h c → c ∉ t.control.fabric.closings →
      c ∈ u.control.fabric.closings → c ∈ Link.ids t.control.active ∧
        (u.control.isShutDown = true ∨
          ∃ successor, u.control.active = some successor ∧ successor.id ≠ c)) := by
  have h0 := proper_initial settings store balancing
  have hp := h0.reaches run.reaches
  have hc := custody_of_reaches run.reaches
  have he := entrance_of_run run
  refine ⟨?_, he.begun, ?_, filled_of_run h0 run, ?_⟩
  · intro action u link hstep hin hout
    have hent := (entrance_moves hp hc (moves_of_step hstep) he).2
    exact (hent link hin).resolve_left hout
  · intro task ht c hcu
    exact he.apart c (List.mem_flatMap.mpr ⟨task, ht, hcu⟩)
  · intro action u c hstep hd hnew hcl
    have hactive := closings_moves hp hc he (moves_of_step hstep) hd hnew hcl
    refine ⟨hactive, ?_⟩
    have hsome : t.control.active.isSome = true := by
      cases ha : t.control.active with
      | none => rw [ha] at hactive; cases hactive
      | some link => rfl
    have hor := filled_invariant.moves hp (moves_of_step hstep) (.inr hsome)
    refine hor.imp_right fun hfilled => ?_
    obtain ⟨successor, hs⟩ := Option.isSome_iff_exists.mp hfilled
    refine ⟨successor, hs, fun hid => ?_⟩
    -- nobody asks the connection in the slot to close
    have hspared := (custody_of_reaches (run.reaches.step action hstep)).spared c
    rw [hs] at hspared
    exact hspared (List.mem_append_left _ (List.mem_singleton.mpr hid.symm)) hcl

theorem active_brought_up_first : ∃ h t u, Run lone h t ∧
    t.step (.signal 0 .go) = some u ∧ u.control.active = some ⟨0, .v4 .loopback 9042⟩ ∧
    BroughtUp ⟨0, .v4 .loopback 9042⟩ 9042 (h ++ [⟨t, .signal 0 .go, u⟩]) ∧
    u.control.fabric.requests 0 = Request.bringUp := by
  have hrun : ((lone.run (.trigger :: bringsUp 0)).any fun t =>
      t.control.active = none ∧ ((t.step (.signal 0 .go)).any fun u =>
        u.control.active = some ⟨0, .v4 .loopback 9042⟩) = true) = true := by
    decide +kernel
  obtain ⟨t, hr, hnone, hany⟩ := exists_reaches hrun
  obtain ⟨u, hu, hin⟩ := (Option.any_eq_true _ _).mp hany
  obtain ⟨h, run⟩ := Run.of_reaches hr
  have hin := of_decide_eq_true hin
  have hout : t.control.active ≠ some ⟨0, .v4 .loopback 9042⟩ := by
    rw [hnone]
    exact fun e => by cases e
  obtain ⟨hup, hreq⟩ := (active_brought_up _ _ _ run).1 _ u _ hu hin hout
  exact ⟨h, t, u, run, hu, hin, hup, hreq⟩

end System

end ControlChannel
