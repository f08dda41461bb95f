import ControlChannel.Proofs.Control.Following
import ControlChannel.Proofs.Readiness.Installing

/-! # What a turn sends

A task that makes an attempt sends what is due in bring-ups. A refresh sends on the connection that
was active when it was called, whatever it may be (`Fabric.StaysOn`). Main statement: every turn
treads on the trails of its tasks (`Task.treads_resume`). -/

namespace ControlChannel

/-! ## Turns -/

namespace Task

/-- The connections on which a refresh asks. -/
def asks : Task → List ConnectionId
  | .refreshSchema r => [r.connection]
  | .refreshNodes r => [r.link.id]
  | .called _ | .connect _ | .shutdown _ | .background .. | .session .. => []

/-- What has happened when the attempt of a task has reached its position. -/
def Trail (port : UInt16) (h : List Transition) (f : Fabric) (task : Task) : Prop :=
  ∀ a, task.attempt? = some a → a.Trail port h f

theorem asks_of_attempt {task : Task} {a : Attempt} (h : task.attempt? = some a) :
    task.asks = [] := by
  cases task <;> first | rfl | cases h

theorem trail_of_isIdle {task : Task} (h : task.isIdle = true) {port : UInt16}
    {hs : List Transition} {f : Fabric} : task.Trail port hs f := by
  intro a ha
  unfold isIdle at h
  split at h
  · cases ha
  · cases ha
  · cases ha
  · cases ha; trivial
  · cases h

end Task

namespace Turn

/-- A turn of a task: it carries the trails on, sends what is due in bring-ups and whatever it
may be on the active connection, and brings nothing else into the slot. -/
structure Treads (port : UInt16) (h : List Transition) (k : Control) (task : Task) (turn : Turn) :
    Prop where
  trail : ∀ t ∈ turn.tasks, t.Trail port h turn.control.fabric
  sends : k.fabric.Sends turn.control.fabric (Link.ids task.uses?) (Link.ids k.active ++ task.asks)
  enters : Attempt.Enters port h k turn.control
  asks : ∀ t ∈ turn.tasks, ∀ c ∈ t.asks, c ∈ Link.ids k.active ++ task.asks

variable {port : UInt16} {h : List Transition} {k : Control} {task : Task}

theorem treads_follows {o : Control × Progress Attempt Attempt.Result} {turn : Turn}
    (t : Attempt.Treads port h k task.uses? o) (f : Follows task o turn) :
    Treads port h k task turn := by
  refine ⟨fun u hu b hb => ?_, ?_, fun link hl => ?_, fun u hu => ?_⟩
  · obtain ⟨c, hc, hp⟩ := f.position u hu
    obtain rfl : c = b := Option.some.inj (hc.symm.trans hb)
    rw [f.fabric]
    rcases hp with hp | rfl
    · exact t.trail c hp
    · trivial
  · rw [f.fabric]
    exact t.sends.mono
  · rw [f.active] at hl
    rw [f.fabric]
    exact t.enters link hl
  · obtain ⟨c, hc, _⟩ := f.position u hu
    rw [Task.asks_of_attempt hc]
    exact List.forall_mem_nil _

/-- A turn after which nobody brings a connection up. -/
theorem treads_idle {turn : Turn} (idle : ∀ t ∈ turn.tasks, t.attempt? = none ∨ t.isIdle = true)
    (sends : k.fabric.Sends turn.control.fabric (Link.ids task.uses?)
      (Link.ids k.active ++ task.asks))
    (active : turn.control.active = k.active ∨ turn.control.active = none)
    (asks : ∀ t ∈ turn.tasks, ∀ c ∈ t.asks, c ∈ Link.ids k.active ++ task.asks) :
    Treads port h k task turn := by
  refine ⟨fun t ht => ?_, sends, fun link hl => ?_, asks⟩
  · rcases idle t ht with hn | hi
    · intro a ha
      rw [hn] at ha
      cases ha
    · exact Task.trail_of_isIdle hi
  · rcases active with e | e
    · exact .inl (e ▸ hl)
    · rw [e] at hl; cases hl

/-- The call is over. -/
theorem treads_answer {f : Fabric}
    (sends : k.fabric.Sends f (Link.ids task.uses?) (Link.ids k.active ++ task.asks))
    (result : CallResult) : Treads port h k task (answer { k with fabric := f } result) :=
  treads_idle (List.forall_mem_nil _) sends (.inl rfl) (List.forall_mem_nil _)

/-- A trigger that found the slot free. -/
theorem treads_trigger {l : Control} {f : Fabric} {handle : Handle} {turn : Turn}
    (t : Triggers { k with fabric := f } l handle)
    (sends : k.fabric.Sends f (Link.ids task.uses?) (Link.ids k.active ++ task.asks))
    (hc : turn.control = l) (ht : turn.tasks = [.background handle .fresh]) :
    Treads port h k task turn := by
  refine ⟨fun u hu a ha => ?_, ?_, fun link hl => .inl ?_, fun u hu => ?_⟩
  · rw [ht, List.mem_singleton] at hu
    subst hu
    cases ha
    trivial
  · rw [hc, t.fabric]
    exact sends
  · rw [hc, t.active] at hl
    exact hl
  · rw [ht, List.mem_singleton] at hu
    subst hu
    exact List.forall_mem_nil _

/-! ### Refreshes -/

variable {c : ConnectionId}

/-- A refresh has gone on, on a connection on which whatever it may be can be sent. -/
theorem sends_of_refresh {f : Fabric} {due : List ConnectionId}
    (hc : c ∈ Link.ids k.active ++ task.asks)
    (elsewhere : ∀ d ≠ c, f.requests d = k.fabric.requests d) :
    k.fabric.Sends f due (Link.ids k.active ++ task.asks) := by
  refine ⟨fun d hd hb => ?_, fun d => ?_⟩
  · rw [elsewhere d fun e => hd (e ▸ hc)]
    exact hb
  · by_cases e : d = c
    · exact .inr (.inl (List.mem_append_right _ (e ▸ hc)))
    · exact .inl (elsewhere d e)

theorem treads_ofRefresh {α : Type} {f : Fabric} (hc : c ∈ Link.ids k.active ++ task.asks)
    (elsewhere : ∀ d ≠ c, f.requests d = k.fabric.requests d)
    (result : Except Error (Awaited α)) :
    Treads port h k task (ofRefresh { k with fabric := f } result) := by
  have hs : k.fabric.Sends f (Link.ids task.uses?) (Link.ids k.active ++ task.asks) :=
    sends_of_refresh hc elsewhere
  unfold ofRefresh
  split
  · exact treads_answer hs _
  · exact treads_answer hs _
  · split
    · split
      · exact treads_answer hs _
      · rename_i ht
        obtain ⟨handle, t, rfl⟩ := triggers_of_trigger ht
        exact treads_trigger t hs rfl rfl
    · exact treads_idle (List.forall_mem_nil _) hs (.inl rfl) (List.forall_mem_nil _)

theorem treads_ofSchema {o : Fabric × Progress SchemaRefresh SchemaRefresh.Result}
    (hc : c ∈ Link.ids k.active ++ task.asks)
    (s : k.fabric.StaysOn SchemaRefresh.connection c o) :
    Treads port h k task (ofSchema k o) := by
  obtain ⟨f, p⟩ := o
  cases p with
  | running r =>
    refine treads_idle (fun t ht => ?_) (sends_of_refresh hc s.elsewhere) (.inl rfl) fun t ht => ?_
    · rw [List.mem_singleton.mp ht]
      exact .inl rfl
    · rw [List.mem_singleton.mp ht]
      intro d hd
      rw [List.mem_singleton.mp hd, s.same r rfl]
      exact hc
  | done result => exact treads_ofRefresh hc s.elsewhere result

theorem treads_ofNodes {o : Fabric × Progress TopologyRefresh TopologyRefresh.Result}
    (hc : c ∈ Link.ids k.active ++ task.asks)
    (s : k.fabric.StaysOn (fun r : TopologyRefresh => r.link.id) c o) :
    Treads port h k task (ofNodes k o) := by
  obtain ⟨f, p⟩ := o
  cases p with
  | running r =>
    refine treads_idle (fun t ht => ?_) (sends_of_refresh hc s.elsewhere) (.inl rfl) fun t ht => ?_
    · rw [List.mem_singleton.mp ht]
      exact .inl rfl
    · rw [List.mem_singleton.mp ht]
      intro d hd
      rw [List.mem_singleton.mp hd]
      exact s.same r rfl ▸ hc
  | done result => exact treads_ofRefresh hc s.elsewhere result

/-- The connection on which a refresh is asked for is the active one. -/
theorem active_of_requireActive {link : Link} (hk : k.requireActive = .ok link) :
    link.id ∈ Link.ids k.active ++ task.asks := by
  refine List.mem_append_left _ ?_
  unfold Control.requireActive at hk
  split at hk
  · rename_i hl
    cases hk
    rw [hl]
    exact List.mem_singleton.mpr rfl
  · cases hk

theorem treads_begin (call : Call) : Treads port h k (.called call) (begin k call) := by
  have hsame : k.fabric.Sends k.fabric (Link.ids (Task.called call).uses?)
      (Link.ids k.active ++ (Task.called call).asks) := .of_same fun _ => rfl
  cases call with
  | connect =>
    simp only [begin]
    split
    · exact treads_answer hsame _
    · split
      · exact treads_answer hsame _
      · refine treads_idle (fun t ht => ?_) hsame (.inl rfl) fun t ht => ?_
        · exact .inr (List.mem_singleton.mp ht ▸ rfl)
        · rw [List.mem_singleton.mp ht]
          exact List.forall_mem_nil _
  | refreshSchema keyspace table =>
    simp only [begin, beginSchema]
    split
    · exact treads_answer hsame _
    · exact treads_answer hsame _
    · rename_i hk
      exact treads_ofSchema (active_of_requireActive hk) (SchemaRefresh.staysOn_start _ _ _ _)
  | refreshNodes =>
    simp only [begin, beginNodes]
    split
    · exact treads_answer hsame _
    · rename_i hk
      exact treads_ofNodes (active_of_requireActive hk) (TopologyRefresh.staysOn_start _ _ _ _)
  | shutdown =>
    simp only [begin, beginShutdown]
    split
    · exact treads_answer hsame _
    · split
      · have e := ends_finishShutdown { k with slot := k.slot.revoke.cancel }
        refine treads_idle (List.forall_mem_nil _) ?_ (.inl e.active) (List.forall_mem_nil _)
        rw [e.fabric]
        exact hsame
      · rename_i link hlink
        refine treads_idle (fun t ht => ?_) ?_ (.inr rfl) fun t ht => ?_
        · exact .inl (List.mem_singleton.mp ht ▸ rfl)
        · exact .of_same fun d => Fabric.requests_close _ _ d
        · rw [List.mem_singleton.mp ht]
          exact List.forall_mem_nil _

end Turn

namespace Task

variable {port : UInt16} {h : List Transition} {k : Control}

theorem mute_readied (k : Control) (task : Task) : k.fabric.Mute (task.readied k).fabric := by
  unfold readied
  split
  · rw [Control.connecting, Control.fabric_shift]
    exact ⟨rfl, rfl, fun _ => rfl⟩
  · exact .refl _

theorem active_readied (k : Control) (task : Task) : (task.readied k).active = k.active := by
  unfold readied
  split
  · exact Control.active_shift _ _
  · rfl

theorem settings_readied (k : Control) (task : Task) : (task.readied k).settings = k.settings := by
  unfold readied
  split
  · exact Attempt.settings_shift _ _
  · rfl

theorem Attempts.treads {a : Attempt} {signal : Signal}
    {o : Control × Progress Attempt Attempt.Result} {x : Transition} (ho : Attempts k a signal o)
    (hs : a ≠ .fresh → signal = .cancelled → k.isShutDown = true)
    (hg : Attempt.GivenUp (.running a) → k.isShutDown = true)
    (t : a.Trail port h k.fabric) (blank : k.Blank port)
    (d : x.Drives a.held? a.need signal k.fabric o.1.fabric) :
    Attempt.Treads port (h ++ [x]) k a.uses? o := by
  cases ho with
  | waits =>
    refine ⟨fun a ha => ?_, .of_same fun _ => rfl, .of_active rfl⟩
    cases ha
    trivial
  | begins => exact Attempt.treads_start k
  | goes hr => exact Attempt.treads_resume hr hs hg t blank d

theorem treads_resumeAttempt {task : Task} {a : Attempt} {signal : Signal} {turn : Turn}
    {x : Transition} (hattempt : task.attempt? = some a) (hr : task.resume k signal = some turn)
    (hears : task.Hears k signal) (calm : task.GivenUp → k.isShutDown = true)
    (t : task.Trail port h k.fabric) (blank : k.Blank port)
    (d : x.Drives task.held? task.need signal k.fabric turn.control.fabric) :
    Turn.Treads port (h ++ [x]) k task turn := by
  obtain ⟨o, ho, f⟩ := follows_resume hattempt hr hears
  have m := mute_readied k task
  have hactive := active_readied k task
  have hlive := isShutDown_readied k task
  have hdrives : x.Drives a.held? a.need signal (task.readied k).fabric o.1.fabric := by
    refine ⟨fun link hl => ?_, d.before.trans m.store.symm, f.fabric ▸ d.after⟩
    have hn : a ≠ .fresh := fun e => by rw [e] at hl; cases hl
    rw [← need_of_attempt hattempt hn]
    exact d.serves link (held?_of_attempt hattempt ▸ hl)
  have htrail : a.Trail port h (task.readied k).fabric := by
    unfold readied
    split
    · cases hattempt
      trivial
    · exact t a hattempt
  have ht := ho.treads
    (fun hn hc => hlive.trans (isShutDown_of_hears hattempt hn (hc ▸ hears)))
    (fun hg => hlive.trans (calm ⟨a, hattempt, hg⟩)) htrail
    (m.blank (settings_readied k task) blank) hdrives
  rw [← uses?_of_attempt hattempt] at ht
  refine Turn.treads_follows ⟨ht.trail, m.before ht.sends, fun link hl => ?_⟩ f
  exact hactive ▸ ht.enters link hl

/-- **Every turn of a task treads on its trail.** -/
theorem treads_resume {task : Task} {signal : Signal} {turn : Turn} {x : Transition}
    (hr : task.resume k signal = some turn) (hears : task.Hears k signal)
    (calm : task.GivenUp → k.isShutDown = true) (t : task.Trail port h k.fabric)
    (blank : k.Blank port)
    (d : x.Drives task.held? task.need signal k.fabric turn.control.fabric) :
    Turn.Treads port (h ++ [x]) k task turn := by
  cases task with
  | called call =>
    cases signal with
    | go => cases hr; exact Turn.treads_begin call
    | _ => cases hr
  | refreshSchema r =>
    obtain ⟨o, ho, rfl⟩ := Option.map_eq_some_iff.mp hr
    exact Turn.treads_ofSchema (List.mem_append_right _ (List.mem_singleton.mpr rfl))
      (SchemaRefresh.staysOn_resume ho)
  | refreshNodes r =>
    obtain ⟨o, ho, rfl⟩ := Option.map_eq_some_iff.mp hr
    exact Turn.treads_ofNodes (List.mem_append_right _ (List.mem_singleton.mpr rfl))
      (TopologyRefresh.staysOn_resume ho)
  | shutdown closing =>
    cases signal with
    | closed =>
      cases hr
      have e := Turn.ends_finishShutdown { k with fabric := k.fabric.lose closing.id }
      refine Turn.treads_idle (List.forall_mem_nil _) (.of_same fun d => ?_) (.inl e.active)
        (List.forall_mem_nil _)
      rw [e.fabric]
      rfl
    | _ => cases hr
  | connect a | background _ a | session _ s =>
    exact treads_resumeAttempt rfl hr hears calm t blank d

end Task

end ControlChannel
