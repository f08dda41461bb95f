import ControlChannel.Proofs.Control.Calls

/-! # The turns of attempts

A task that makes an attempt follows it: whatever the attempt comes to, the task keeps what the
attempt holds, and keeps its handle or gives it back (`Turn.Follows`). Main statement: every turn
is sound (`Task.sound_resume`). -/

namespace ControlChannel

namespace Turn

/-- What a task does when its attempt has gone on: it reports failures, keeps what the attempt
holds, and keeps its handle or gives it back. One with a handle leaves the phase to its attempt,
and seeks no more when the attempt has brought a connection up. -/
structure Follows (task : Task) (o : Control × Progress Attempt Attempt.Result) (turn : Turn) :
    Prop where
  settings : turn.control.settings = o.1.settings
  fabric : turn.control.fabric = o.1.fabric
  active : turn.control.active = o.1.active
  events : ∃ es, turn.control.events = es ++ o.1.events ∧ ∀ e ∈ es, e.isFailure = true
  phase : turn.control.phase = o.1.phase ∨ turn.control.phase = o.1.phase.shift .disconnected
  held : Task.held turn.tasks = Link.ids (Attempt.heldBy o.2)
  used : Task.used turn.tasks = Link.ids (Attempt.usedBy o.2)
  slot : (turn.control.slot = o.1.slot ∧ Task.handles turn.tasks = task.handle?.toList) ∨
    ∃ h, task.handle? = some h ∧ turn.control.slot = o.1.slot.release h ∧ turn.tasks = []
  seeking : task.isSeeking = true → Attempt.Searching o.2 → (∃ t ∈ turn.tasks, t.isSeeking = true) ∨
    Attempt.GivenUp o.2 ∨ ∃ h, o.1.slot.isCancelled h = true
  position : ∀ t ∈ turn.tasks, ∃ a, t.attempt? = some a ∧ (o.2 = .running a ∨ a = .fresh)
  finished : turn.result.isSome = true → turn.task = none
  steady : task.handle?.isSome = true → turn.control.phase = o.1.phase
  settled : ∀ t ∈ turn.tasks, t.isSeeking = true → Attempt.Searching o.2

namespace Follows

variable {k : Control} {task : Task} {a : Attempt} {o : Control × Progress Attempt Attempt.Result}
variable {turn : Turn}

theorem onSlot (f : Follows task o turn) (adv : Attempt.Advances k a o) : OnSlot k task turn := by
  rcases f.slot with ⟨hs, hh⟩ | ⟨h, ho, hs, hn⟩
  · exact .kept (hs.trans adv.slot) hh
  · exact .released h ho (by rw [hs, adv.slot]) hn

theorem live (f : Follows task o turn) (adv : Attempt.Advances k a o) :
    turn.control.isShutDown = k.isShutDown := by
  rw [Control.isShutDown, Control.isShutDown, ← adv.slot]
  rcases f.slot with ⟨hs, _⟩ | ⟨h, _, hs, _⟩
  · rw [hs]
  · rw [hs, Slot.revoked_release]

theorem goes (f : Follows task o turn) (adv : Attempt.Advances k a o)
    (ha : task.attempt? = some a) : Goes k task turn := by
  have hphase : o.1.phase = .closed ↔ k.phase = .closed := by
    rcases adv.installs with ⟨_, hp, _⟩ | ⟨_, hp, _⟩
    · rw [hp]
    · rw [hp]; exact Phase.shift_eq_closed Phase.noConfusion
  refine ⟨?_, f.live adv, ?_, Task.isShutdown_of_attempt ha, fun t ht => ?_⟩
  · obtain ⟨es, he, hes⟩ := adv.events
    obtain ⟨fs, hf, hfs⟩ := f.events
    refine ⟨fs ++ es, by rw [hf, he, List.append_assoc], ?_⟩
    exact (Tells.of_failures hfs).append hes
  · rw [← hphase]
    rcases f.phase with hp | hp
    · rw [hp]
    · rw [hp]; exact Phase.shift_eq_closed Phase.noConfusion
  · obtain ⟨b, hb, _⟩ := f.position t ht
    exact Task.isShutdown_of_attempt hb

/-- A reconnection is still said to run: either it did before, or the task goes on with it. -/
theorem seeks (f : Follows task o turn) (adv : Attempt.Advances k a o)
    (ha : task.attempt? = some a) (hk : k.isShutDown = false) (hev : k.slot.evicted = [])
    (hre : turn.control.phase = .reconnecting) :
    (k.phase = .reconnecting ∧ task.isSeeking = false) ∨ ∃ t ∈ turn.tasks, t.isSeeking = true := by
  have hre' : o.1.phase = .reconnecting := by
    rcases f.phase with hp | hp
    · exact hp ▸ hre
    · cases Phase.reconnecting_of_shift (hp ▸ hre)
  rcases adv.installs with ⟨_, hp, hor⟩ | ⟨_, hp, _⟩
  · cases hseek : task.isSeeking with
    | false => exact .inl ⟨hp ▸ hre', rfl⟩
    | true =>
      have hsearch : Attempt.Searching o.2 := by
        rcases hor with hs | hs | hs
        · exact hs
        · rw [hk] at hs; cases hs
        · rw [Task.isSeeking, ha, Option.any_some, hs, Bool.not_true, Bool.and_false] at hseek
          cases hseek
      rcases f.seeking hseek hsearch with ht | hg | ⟨h, hcan⟩
      · exact .inr ht
      · have := adv.givenUp hg
        rw [hk] at this; cases this
      · rw [adv.slot, Slot.isCancelled, hev] at hcan
        rw [Control.isShutDown] at hk
        rw [hk] at hcan; cases hcan
  · cases Phase.reconnecting_of_shift (hp ▸ hre')

end Follows

/-- A task whose attempt has advanced. -/
theorem sound_attempt {k : Control} {task : Task} {a : Attempt}
    {o : Control × Progress Attempt Attempt.Result} {turn : Turn} (ha : task.attempt? = some a)
    (adv : Attempt.Advances k a o) (f : Follows task o turn) : Sound k task turn := by
  have hheld := Task.held?_of_attempt ha
  have huses := Task.uses?_of_attempt ha
  have g := f.goes adv ha
  exact
    { settings := f.settings.trans adv.settings
      slot := f.onSlot adv
      custody := by
        rw [f.fabric, f.active, f.held, hheld]
        exact adv.custody
      openings := by
        rw [f.fabric]
        exact adv.openings
      closings := by
        rw [f.fabric, f.held, f.used]
        exact adv.closings
      asked := by
        rw [f.fabric]
        exact adv.asked
      discards := by
        rw [f.fabric, f.held, f.used]
        exact adv.discards
      uses := by
        rw [f.used, huses]
        exact adv.uses
      actives := by
        rw [f.active, huses]
        exact adv.actives
      filled := by
        intro h
        rw [f.active]
        rcases adv.installs with ⟨he, _⟩ | ⟨he, _⟩
        · exact .inl (he ▸ h)
        · exact .inl he
      stays := by
        intro h
        rw [f.active]
        rcases adv.installs with ⟨he, _⟩ | ⟨_, _, _, hn⟩
        · exact he
        · rw [h] at hn; cases hn
      emptied := fun h => .inl (f.live adv ▸ h)
      events := g.events
      endings := g.endings
      closed := g.closed
      seeking := f.seeks adv ha
      calm := by
        intro t ht hgiven
        obtain ⟨b, hb, hg⟩ := hgiven
        obtain ⟨c, hc, hp⟩ := f.position t ht
        obtain rfl : c = b := Option.some.inj (hc.symm.trans hb)
        rcases hp with hp | rfl
        · exact adv.givenUp (hp ▸ hg)
        · exact hg.elim
      finished := f.finished }

/-! ## What follows an attempt -/

/-- The task goes on with its attempt, under the handle it had. -/
theorem follows_stay {task task' : Task} {k : Control} {a : Attempt}
    (ha : task'.attempt? = some a) (hh : task'.handle? = task.handle?) :
    Follows task (k, .running a) (stay k task') := by
  refine ⟨rfl, rfl, rfl, ⟨[], rfl, List.forall_mem_nil _⟩, .inl rfl, ?_, ?_, .inl ⟨rfl, ?_⟩,
    ?_, ?_, fun h => (by cases h), fun _ => rfl, ?_⟩
  · show Task.held [task'] = _
    rw [Task.held, List.flatMap_singleton, Task.held?_of_attempt ha]
    rfl
  · show Task.used [task'] = _
    rw [Task.used, List.flatMap_singleton, Task.uses?_of_attempt ha]
    rfl
  · show Task.handles [task'] = _
    rw [Task.handles, List.filterMap_cons, hh]
    cases task.handle? <;> rfl
  · intro hs hsearch
    refine .inl ⟨task', List.mem_singleton.mpr rfl, ?_⟩
    rw [Task.isSeeking, Bool.and_eq_true] at hs
    rw [Task.isSeeking, hh, hs.1, ha]
    cases a with
    | fresh | round r => rfl
    | installing i => exact hsearch.elim
  · intro t ht
    rw [List.mem_singleton.mp ht]
    exact ⟨a, ha, .inl rfl⟩
  · intro t ht hs
    rw [List.mem_singleton.mp ht, Task.isSeeking, ha] at hs
    cases a with
    | fresh | round r => trivial
    | installing i => simp [Attempt.isInstalling] at hs

/-- The attempt is over and the task gives its handle back. -/
theorem follows_release {task : Task} {k : Control} {handle : Handle}
    {p : Progress Attempt Attempt.Result} (hh : task.handle? = some handle)
    (held : Attempt.heldBy p = none) (used : Attempt.usedBy p = none)
    (why : ¬ Attempt.Searching p ∨ Attempt.GivenUp p ∨ k.slot.isCancelled handle = true) :
    Follows task (k, p) (release k handle) := by
  refine ⟨rfl, rfl, rfl, ⟨[], rfl, List.forall_mem_nil _⟩, .inl rfl, by rw [held]; rfl,
    by rw [used]; rfl, .inr ⟨handle, hh, rfl, rfl⟩, fun _ hs => ?_,
    List.forall_mem_nil _, fun h => (by cases h), fun _ => rfl, List.forall_mem_nil _⟩
  rcases why with h | h | h
  · exact absurd hs h
  · exact .inr (.inl h)
  · exact .inr (.inr ⟨handle, h⟩)

/-- The attempt came to nothing and a session goes on under the handle, after some reports. -/
theorem follows_session {task : Task} {k : Control} {handle : Handle} {turn : Turn}
    {p : Progress Attempt Attempt.Result} {session : Session Round Install} {es : List Event}
    (hh : task.handle? = some handle) (hp : Attempt.Searching p)
    (held : Attempt.heldBy p = none) (used : Attempt.usedBy p = none)
    (hc : turn.control = { k with events := es ++ k.events })
    (hes : ∀ e ∈ es, e.isFailure = true) (ht : turn.tasks = [.session handle session])
    (hs : session.stage.attempt = .fresh) (hr : turn.result = none) :
    Follows task (k, p) turn := by
  refine ⟨by rw [hc], by rw [hc], by rw [hc], ⟨es, by rw [hc], hes⟩, .inl (by rw [hc]), ?_, ?_,
    .inl ⟨by rw [hc], ?_⟩, fun _ _ => .inl ⟨_, ht ▸ List.mem_singleton.mpr rfl, ?_⟩, ?_,
    fun h => (by rw [hr] at h; cases h), fun _ => (by rw [hc]), fun _ _ _ => hp⟩
  · rw [ht, Task.held, List.flatMap_singleton, Task.held?, hs, held]
    rfl
  · rw [ht, Task.used, List.flatMap_singleton, Task.uses?, Task.attempt?, hs, used]
    rfl
  · rw [ht, hh]; rfl
  · rw [Task.isSeeking, Task.attempt?, hs]; rfl
  · intro t h
    rw [ht, List.mem_singleton] at h
    exact ⟨.fresh, by rw [h, Task.attempt?, hs], .inr rfl⟩

/-- The call to connect returns. -/
theorem follows_answer {a : Attempt} {k : Control} {p : Progress Attempt Attempt.Result}
    (held : Attempt.heldBy p = none) (used : Attempt.usedBy p = none) (result : CallResult) :
    Follows (.connect a) (k, p) (answer k result) := by
  refine ⟨rfl, rfl, rfl, ⟨[], rfl, List.forall_mem_nil _⟩, .inl rfl, by rw [held]; rfl,
    by rw [used]; rfl, .inl ⟨rfl, rfl⟩, ?_, List.forall_mem_nil _, fun _ => rfl, fun _ => rfl,
    List.forall_mem_nil _⟩
  intro h
  cases h

theorem follows_connect (a : Attempt) (o : Control × Progress Attempt Attempt.Result) :
    Follows (.connect a) o (ofConnect o) := by
  unfold ofConnect
  split
  · exact follows_stay rfl rfl
  · exact follows_answer rfl rfl _
  · exact follows_answer rfl rfl _
  · rename_i k e
    have f := follows_answer (a := a) (k := k) (p := .done (.error e)) rfl rfl
      (.connected (.error e))
    exact ⟨Attempt.settings_shift _ _, Control.fabric_shift _ _, Control.active_shift _ _,
      ⟨[], Control.events_shift _ _, List.forall_mem_nil _⟩, .inr (Control.phase_shift _ _), f.held,
      f.used, .inl ⟨Control.slot_shift _ _, rfl⟩, f.seeking, f.position, f.finished,
      fun h => (by cases h), f.settled⟩

/-- A report of an unexpected error is one event or none. -/
theorem reportUnexpected_eq (k : Control) (e : Error) :
    ∃ es, k.reportUnexpected e = { k with events := es ++ k.events } ∧
      ∀ x ∈ es, x.isFailure = true := by
  unfold Control.reportUnexpected
  split
  · exact ⟨[], rfl, List.forall_mem_nil _⟩
  · refine ⟨[.unexpectedError e.message], rfl, fun x hx => ?_⟩
    rw [List.mem_singleton.mp hx]
    rfl

theorem publishFailure_eq (k : Control) (failure : Failure) :
    ∃ es, k.publishFailure failure = { k with events := es ++ k.events } ∧
      ∀ x ∈ es, x.isFailure = true := by
  obtain ⟨es, he, hes⟩ := reportUnexpected_eq k failure.error
  refine ⟨.reconnectionScheduled failure.delay :: es, ?_, fun x hx => ?_⟩
  · rw [Control.publishFailure, he]; rfl
  · rcases List.mem_cons.mp hx with rfl | hx
    · rfl
    · exact hes x hx

theorem follows_background (handle : Handle) (a : Attempt)
    (o : Control × Progress Attempt Attempt.Result) :
    Follows (.background handle a) o (ofBackground handle o) := by
  unfold ofBackground
  split
  · exact follows_stay rfl rfl
  · rename_i outcome
    refine follows_release rfl rfl rfl ?_
    cases outcome with
    | ready kept => exact .inl id
    | cancelled => exact .inr (.inl trivial)
  · rename_i k e
    split
    · rename_i hc
      exact follows_release rfl rfl rfl (.inr (.inr hc))
    · obtain ⟨es, he, hes⟩ := reportUnexpected_eq k e
      rw [he]
      exact follows_session rfl trivial rfl rfl rfl hes rfl rfl rfl

theorem attempt_stage (a : Attempt) : a.stage.attempt = a := by cases a <;> rfl

theorem follows_sessionAttempt (handle : Handle) (s : Session Round Install)
    (o : Control × Progress Attempt Attempt.Result) :
    Follows (.session handle s) o (ofSessionAttempt handle s.schedule o) := by
  unfold ofSessionAttempt
  split
  · exact follows_stay (congrArg some (attempt_stage _)) rfl
  · rename_i outcome
    refine follows_release rfl rfl rfl ?_
    cases outcome with
    | ready kept => exact .inl id
    | cancelled => exact .inr (.inl trivial)
  · rename_i k e
    cases hc : k.slot.isCancelled handle with
    | true => exact follows_release rfl rfl rfl (.inr (.inr hc))
    | false =>
      obtain ⟨es, he, hes⟩ := publishFailure_eq k ⟨e, s.schedule.next.1⟩
      simp only [Session.failure?, Session.afterFailure, Session.sleep, Bool.false_eq_true,
        if_false, if_true, ofSession]
      exact follows_session rfl trivial rfl rfl he hes rfl rfl rfl

/-- A session before its first attempt. -/
theorem follows_start (k : Control) (handle : Handle) (s : Session Round Install) :
    Follows (.session handle s) (k, .running .fresh)
      (ofSession k handle
        (Session.start s.schedule k.fabric.clock (k.slot.isCancelled handle))) := by
  cases hc : k.slot.isCancelled handle with
  | true => exact follows_release rfl rfl rfl (.inr (.inr hc))
  | false =>
    have hes : ∀ e ∈ ([] : List Event), e.isFailure = true := List.forall_mem_nil _
    exact follows_session rfl trivial rfl rfl rfl hes rfl rfl rfl

/-- What a call to connect does before its first round. -/
theorem sound_connecting {k : Control} {task : Task} {turn : Turn}
    (s : Sound k.connecting task turn) : Sound k task turn := by
  have hslot : k.connecting.slot = k.slot := Control.slot_shift _ _
  have hactive : k.connecting.active = k.active := Control.active_shift _ _
  have hevents : k.connecting.events = k.events := Control.events_shift _ _
  have hphase : k.connecting.phase = k.phase.shift .connecting := Control.phase_shift _ _
  have hlive : k.connecting.isShutDown = k.isShutDown := congrArg Slot.revoked hslot
  have hconn : k.connecting.fabric.connections = k.fabric.connections := by
    rw [Control.connecting, Control.fabric_shift]
  have hacts : k.connecting.fabric.acts = k.fabric.acts := by
    rw [Control.connecting, Control.fabric_shift]; rfl
  have hclosings : k.connecting.fabric.closings = k.fabric.closings := Fabric.closings_congr hacts
  exact
    { settings := s.settings.trans (Attempt.settings_shift _ _)
      slot := by
        cases s.slot with
        | kept hs hh => exact .kept (hs.trans hslot) hh
        | released h ho hs hn => exact .released h ho (hslot ▸ hs) hn
        | taken h ho hs hh => exact .taken h ho (hslot ▸ hs) hh
        | revoked ho hl hs hh => exact .revoked ho (hlive ▸ hl) (hslot ▸ hs) hh
      custody := by
        rw [← hactive]
        exact (Passes.of_connections hconn _).trans s.custody
      openings := fun h => (s.openings (hlive.trans h)).trans (Fabric.openings_congr hacts)
      closings := by
        rw [← hclosings]
        exact s.closings
      asked := by
        rw [← hclosings]
        exact s.asked
      discards := s.discards
      uses := by
        rw [← hconn]
        exact s.uses
      actives := by
        rw [← hactive, ← hconn]
        exact s.actives
      filled := by
        rw [← hactive]
        exact s.filled
      stays := by
        rw [← hactive, ← hlive]
        exact s.stays
      emptied := by
        rw [← hlive]
        exact s.emptied
      events := by
        rw [← hevents, ← hlive]
        exact s.events
      endings := by
        have hend : k.endings [task] = k.connecting.endings [task] := by
          rw [Control.endings, Control.endings, hevents]
        rw [hend, ← hlive]
        exact s.endings
      closed := by
        rw [← hevents, ← Phase.shift_eq_closed (p := k.phase) (q := .connecting)
          Phase.noConfusion, ← hphase]
        exact s.closed
      seeking := by
        intro hk hev hre
        rcases s.seeking (hlive.trans hk) (hslot ▸ hev) hre with ⟨hp, _⟩ | ht
        · cases Phase.reconnecting_of_shift (hphase ▸ hp)
        · exact .inr ht
      calm := by
        rw [← hlive]
        exact s.calm
      finished := s.finished }

end Turn

namespace Task

theorem need_ne_sleep (a : Attempt) (delay : Duration) (since : Nat) :
    a.need ≠ .sleep delay since := by
  cases a with
  | fresh => exact fun h => by cases h
  | installing i => exact fun h => by cases h
  | round r =>
    show r.bringUp.need r.target ≠ _
    cases r.bringUp with
    | opening t => exact fun h => by cases h
    | registering link => exact fun h => by cases h
    | closing link e => exact fun h => by cases h
    | schema link r =>
      simp only [BringUp.need, SchemaRefresh.need]
      split <;> exact fun h => by cases h
    | topology link r =>
      simp only [BringUp.need, TopologyRefresh.need]
      split <;> exact fun h => by cases h

/-- Anything but a sleep is cancelled with the whole control connection. -/
theorem cancels_eq {k : Control} {task : Task} {a : Attempt} (h : task.need = a.need) :
    k.cancels task = k.isShutDown := by
  unfold Control.cancels
  rw [h]
  split
  · rename_i hs _
    exact absurd hs (need_ne_sleep a _ _)
  · rfl

/-- What a task's attempt comes to in a turn. -/
inductive Attempts (k : Control) :
    Attempt → Signal → Control × Progress Attempt Attempt.Result → Prop where
  /-- The session sleeps before it, or is over. -/
  | waits {signal : Signal} : Attempts k .fresh signal (k, .running .fresh)
  | begins {signal : Signal} : Attempts k .fresh signal (Attempt.afterRound (Round.start k))
  | goes {a : Attempt} {signal : Signal} {o : Control × Progress Attempt Attempt.Result}
      (h : a.resume k signal = some o) : Attempts k a signal o

theorem Attempts.advances {k : Control} {a : Attempt} {signal : Signal}
    {o : Control × Progress Attempt Attempt.Result} (h : Attempts k a signal o)
    (hs : a ≠ .fresh → signal = .cancelled → k.isShutDown = true)
    (ha : Attempt.GivenUp (.running a) → k.isShutDown = true) : Attempt.Advances k a o := by
  cases h with
  | waits => exact Attempt.advances_fresh k
  | begins =>
    have h : Attempt.fresh.resume k .go = some (Attempt.afterRound (Round.start k)) := rfl
    exact Attempt.advances_resume h (fun h => by cases h) ha
  | goes h =>
    refine Attempt.advances_resume h (fun hc => ?_) ha
    cases a with
    | fresh => rw [hc] at h; cases h
    | round r => exact hs (fun h => by cases h) hc
    | installing i => exact hs (fun h => by cases h) hc

theorem follows_resumeSession {k : Control} {handle : Handle} {s : Session Round Install}
    {signal : Signal} {turn : Turn} (h : resumeSession k handle s signal = some turn)
    (hears : (Task.session handle s).Hears k signal) :
    ∃ o, Attempts k s.stage.attempt signal o ∧ Turn.Follows (.session handle s) o turn := by
  obtain ⟨schedule, stage⟩ := s
  cases stage with
  | fresh =>
    cases signal with
    | go => cases h; exact ⟨_, .waits, Turn.follows_start k handle _⟩
    | _ => cases h
  | sleeping delay since =>
    cases signal with
    | cancelled =>
      cases h
      have hc : k.slot.isCancelled handle = true := hears rfl
      exact ⟨_, .waits, Turn.follows_release rfl rfl rfl (.inr (.inr hc))⟩
    | woken =>
      simp only [resumeSession] at h
      split at h
      · cases h
        exact ⟨_, .begins, Turn.follows_sessionAttempt handle ⟨schedule, _⟩ _⟩
      · cases h
    | _ => cases h
  | attempting r =>
    obtain ⟨o, ho, rfl⟩ := Option.map_eq_some_iff.mp h
    exact ⟨o, .goes ho, Turn.follows_sessionAttempt handle ⟨schedule, _⟩ o⟩
  | settling i =>
    obtain ⟨o, ho, rfl⟩ := Option.map_eq_some_iff.mp h
    exact ⟨o, .goes ho, Turn.follows_sessionAttempt handle ⟨schedule, _⟩ o⟩

/-- The control connection on which a task's attempt goes on: a call to connect prepares it
first. -/
def readied (k : Control) : Task → Control
  | .connect .fresh => k.connecting
  | _ => k

theorem isShutDown_readied (k : Control) (task : Task) :
    (task.readied k).isShutDown = k.isShutDown := by
  unfold readied
  split
  · exact congrArg Slot.revoked (Control.slot_shift _ _)
  · rfl

/-- The turn of a task that makes an attempt is a turn of that attempt. -/
theorem follows_resume {k : Control} {task : Task} {a : Attempt} {signal : Signal} {turn : Turn}
    (ha : task.attempt? = some a) (h : task.resume k signal = some turn)
    (hears : task.Hears k signal) :
    ∃ o, Attempts (task.readied k) a signal o ∧ Turn.Follows task o turn := by
  cases task with
  | called call | refreshSchema r | refreshNodes r | shutdown closing => cases ha
  | connect b =>
    cases ha
    cases a with
    | fresh | round r | installing i =>
      obtain ⟨o, ho, rfl⟩ := Option.map_eq_some_iff.mp h
      exact ⟨o, .goes ho, Turn.follows_connect _ o⟩
  | background handle b =>
    cases ha
    obtain ⟨o, ho, rfl⟩ := Option.map_eq_some_iff.mp h
    exact ⟨o, .goes ho, Turn.follows_background handle a o⟩
  | session handle s =>
    cases ha
    exact follows_resumeSession h hears

/-- An attempt that has begun says what its task waits for. -/
theorem need_of_attempt {task : Task} {a : Attempt} (ha : task.attempt? = some a)
    (hn : a ≠ .fresh) : task.need = a.need := by
  cases task with
  | called call | refreshSchema r | refreshNodes r | shutdown closing => cases ha
  | connect b | background handle b => cases ha; rfl
  | session handle s =>
    cases ha
    obtain ⟨schedule, stage⟩ := s
    cases stage with
    | fresh | sleeping delay since => exact absurd rfl hn
    | attempting r | settling i => rfl

/-- A task that waits for a node is told of a cancellation after a shutdown only. -/
theorem isShutDown_of_hears {k : Control} {task : Task} {a : Attempt} (ha : task.attempt? = some a)
    (hn : a ≠ .fresh) (hears : task.Hears k .cancelled) : k.isShutDown = true := by
  rw [← cancels_eq (need_of_attempt ha hn)]
  exact hears rfl

theorem sound_resumeAttempt {k : Control} {task : Task} {a : Attempt} {signal : Signal}
    {turn : Turn} (ha : task.attempt? = some a) (h : task.resume k signal = some turn)
    (hears : task.Hears k signal) (calm : task.GivenUp → k.isShutDown = true) :
    Turn.Sound k task turn := by
  obtain ⟨o, ho, f⟩ := follows_resume ha h hears
  have hs : a ≠ .fresh → signal = .cancelled → k.isShutDown = true := fun hn hc =>
    isShutDown_of_hears ha hn (hc ▸ hears)
  have hlive := isShutDown_readied k task
  have s : Turn.Sound (task.readied k) task turn := by
    refine Turn.sound_attempt ha (ho.advances ?_ fun hg => ?_) f
    · rw [hlive]; exact hs
    · rw [hlive]; exact calm ⟨a, ha, hg⟩
  unfold readied at s
  split at s
  · exact Turn.sound_connecting s
  · exact s

/-- **Every turn of a task is sound.** -/
theorem sound_resume {k : Control} {task : Task} {signal : Signal} {turn : Turn}
    (h : task.resume k signal = some turn) (hears : task.Hears k signal)
    (calm : task.GivenUp → k.isShutDown = true) : Turn.Sound k task turn := by
  cases task with
  | called call =>
    cases signal with
    | go => cases h; exact Turn.sound_begin call
    | _ => cases h
  | refreshSchema r =>
    obtain ⟨o, ho, rfl⟩ := Option.map_eq_some_iff.mp h
    exact Turn.sound_ofSchema rfl (SchemaRefresh.staysOn_resume ho).quiet
  | refreshNodes r =>
    obtain ⟨o, ho, rfl⟩ := Option.map_eq_some_iff.mp h
    exact Turn.sound_ofNodes rfl (TopologyRefresh.staysOn_resume ho).quiet
  | shutdown closing =>
    cases signal with
    | closed => cases h; exact Turn.sound_finishShutdown closing
    | _ => cases h
  | connect a | background _ a => exact sound_resumeAttempt rfl h hears calm
  | session handle s => exact sound_resumeAttempt rfl h hears calm

end Task

end ControlChannel
