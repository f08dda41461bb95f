import ControlChannel.Proofs.Readiness.Hosts
import ControlChannel.Proofs.Readiness.Surveys

/-! # The trail of a bring-up

Wherever a bring-up stands, it has sent the requests up to there on its connection and passed the
milestones up to there (`BringUp.Trail`); one step carries that on (`BringUp.treads_resume`). What
comes back as a connection has been brought up completely. -/

namespace ControlChannel

/-- The settings name the port, and nothing has been sent on the connections to come. -/
structure Control.Blank (port : UInt16) (k : Control) : Prop where
  constant : k.settings.port = port
  unsent : ∀ d, k.fabric.connections.size ≤ d → k.fabric.requests d = []

/-- What is sent while a fabric goes from `f` to `g`: on the connections of `due` and on new ones
what is due in a bring-up, on those of `free` whatever it may be, and nothing on the others. -/
structure Fabric.Sends (f g : Fabric) (due free : List ConnectionId) : Prop where
  begun : ∀ d ∉ free, f.requests d <+: Request.bringUp → g.requests d <+: Request.bringUp
  frame : ∀ d, g.requests d = f.requests d ∨ d ∈ due ++ free ∨
    (f.connections.size ≤ d ∧ d < g.connections.size)

namespace Fabric.Sends

variable {f g : Fabric} {due free : List ConnectionId}

theorem of_same (same : ∀ d, g.requests d = f.requests d) : f.Sends g due free :=
  ⟨fun d _ hd => same d ▸ hd, fun d => .inl (same d)⟩

theorem mono (s : f.Sends g due []) : f.Sends g due free := by
  refine ⟨fun d _ hd => s.begun d List.not_mem_nil hd, fun d => ?_⟩
  rcases s.frame d with e | hd | hd
  · exact .inl e
  · exact .inr (.inl (List.mem_append_left _ (List.append_nil due ▸ hd)))
  · exact .inr (.inr hd)

/-- Only on the connection `c` something may have been sent. -/
theorem of_one {c : ConnectionId} (begun : g.requests c <+: Request.bringUp)
    (elsewhere : ∀ d ≠ c, g.requests d = f.requests d)
    (hc : c ∈ due ++ free ∨ (f.connections.size ≤ c ∧ c < g.connections.size)) :
    f.Sends g due free := by
  refine ⟨fun d _ hd => ?_, fun d => ?_⟩
  · by_cases e : d = c
    · exact e ▸ begun
    · exact elsewhere d e ▸ hd
  · by_cases e : d = c
    · exact .inr (e ▸ hc)
    · exact .inl (elsewhere d e)

end Fabric.Sends

namespace TopologyRefresh

/-- What has happened while a bring-up refreshes the host list over `link`. -/
def Trail (link : Link) (port : UInt16) (h : List Transition) (f : Fabric) :
    Progress TopologyRefresh Result → Prop
  | .running r => r.link = link ∧ r.port = port ∧ f.requests link.id = Request.bringUp ∧
      ∃ schema, SchemaLearnt schema ∧ r.stage.Trail link port schema h
  | .done (.ok (.ready _)) => f.requests link.id = Request.bringUp ∧ BroughtUp link port h
  | .done _ => f.requests link.id <+: Request.bringUp

variable {link : Link} {port : UInt16} {h : List Transition} {f : Fabric}

theorem Trail.begun {p : Progress TopologyRefresh Result} (t : Trail link port h f p) :
    f.requests link.id <+: Request.bringUp := by
  cases p with
  | running r => exact t.2.2.1 ▸ List.prefix_refl _
  | done result =>
    rcases result with e | (diff | _)
    · exact t
    · exact t.1 ▸ List.prefix_refl _
    · exact t

theorem Trail.skip {r : TopologyRefresh} (t : Trail link port h f (.running r)) (x : Transition)
    {g : Fabric} (same : g.requests link.id = f.requests link.id) :
    Trail link port (h ++ [x]) g (.running r) := by
  obtain ⟨hl, hp, hreq, schema, learnt, hstage⟩ := t
  exact ⟨hl, hp, same.trans hreq, schema, learnt, hstage.skip x⟩

/-- A refresh begins once the schema is rebuilt. -/
theorem trail_start (cancelled : Bool) (hreq : f.requests link.id = SchemaRefresh.requests)
    {schema : List Milestone} (learnt : SchemaLearnt schema) (hp : Passed link port h schema) :
    Trail link port h (start f cancelled link port).1 (start f cancelled link port).2 := by
  cases cancelled with
  | true =>
    show f.requests link.id <+: _
    exact hreq ▸ SchemaRefresh.prefix_requests
  | false =>
    refine ⟨rfl, rfl, ?_, schema, learnt, hp⟩
    exact (Fabric.requests_send _ _ _ _).trans (by rw [if_pos rfl, hreq]; rfl)

theorem trail_resume {r : TopologyRefresh} {signal : Signal}
    {o : Fabric × Progress TopologyRefresh Result} {x : Transition}
    (hr : r.resume f signal = some o) (t : Trail link port h f (.running r))
    (d : x.Drives (some link) r.need signal f o.1) : Trail link port (h ++ [x]) o.1 o.2 := by
  obtain ⟨rl, rp, stage⟩ := r
  obtain ⟨hl, hport, hreq, schema, learnt, hstage⟩ := t
  simp only at hl hport
  subst hl hport
  obtain ⟨⟨g, p⟩, hadv, rfl⟩ := Option.map_eq_some_iff.mp hr
  have hreached := reached_advance learnt hadv hstage d
  have hreq' : g.requests rl.id = Request.bringUp :=
    (Fabric.requests_congr (acts_of_advance hadv).1 _).trans hreq
  have hprefix : g.requests rl.id <+: Request.bringUp := hreq' ▸ List.prefix_refl _
  rcases p with stage | (e | (diff | _))
  · exact ⟨rfl, rfl, hreq', schema, learnt, hreached⟩
  · exact hprefix
  · exact ⟨hreq', hreached⟩
  · exact hprefix

end TopologyRefresh

namespace BringUp

/-- What has happened when a bring-up has reached a position, or its end. -/
def Trail (port : UInt16) (h : List Transition) (f : Fabric) : Progress BringUp Result → Prop
  | .running (.opening _) | .running (.closing ..) => True
  | .running (.registering link) => f.requests link.id = Question.requests [.registration]
  | .running (.schema link r) => SchemaRefresh.Trail link port h f (.running r)
  | .running (.topology link r) => TopologyRefresh.Trail link port h f (.running r)
  | .done (.ok (.ready link)) => f.requests link.id = Request.bringUp ∧ BroughtUp link port h
  | .done _ => True

/-- A trail stays when something else is done. -/
theorem Trail.skip {port : UInt16} {h : List Transition} {f g : Fabric} {b : BringUp}
    (t : Trail port h f (.running b)) (x : Transition)
    (same : ∀ link, b.uses? = some link → g.requests link.id = f.requests link.id) :
    Trail port (h ++ [x]) g (.running b) := by
  cases b with
  | opening since => trivial
  | closing link error => trivial
  | registering link => exact (same link rfl).trans t
  | schema link r => exact SchemaRefresh.Trail.skip t x (same link rfl)
  | topology link r => exact TopologyRefresh.Trail.skip t x (same link rfl)

/-- A step of a bring-up that had a use for `used`: it carries the trail on, and sends nothing but
what is due on its own connection, which may be a new one. -/
structure Treads (port : UInt16) (h : List Transition) (k : Control) (used : Option Link)
    (o : Control × Progress BringUp Result) : Prop where
  trail : Trail port h o.1.fabric o.2
  sends : k.fabric.Sends o.1.fabric (Link.ids used) []

variable {port : UInt16} {h : List Transition} {k : Control} {link : Link}

/-- Work on `link` treads on its trail when it has sent what is due there and nothing elsewhere. -/
theorem Treads.of_link {o : Control × Progress BringUp Result}
    (trail : Trail port h o.1.fabric o.2)
    (begun : o.1.fabric.requests link.id <+: Request.bringUp)
    (elsewhere : ∀ d ≠ link.id, o.1.fabric.requests d = k.fabric.requests d) :
    Treads port h k (some link) o :=
  ⟨trail, .of_one begun elsewhere (.inl (List.mem_singleton.mpr rfl))⟩

theorem treads_giveUp {f : Fabric} (begun : f.requests link.id <+: Request.bringUp)
    (elsewhere : ∀ d ≠ link.id, f.requests d = k.fabric.requests d) (error : Option Error) :
    Treads port h k (some link) (giveUp { k with fabric := f } link error) := by
  have hsame : ∀ d, (giveUp { k with fabric := f } link error).1.fabric.requests d =
      f.requests d := fun d => Fabric.requests_close _ _ d
  exact .of_link trivial ((hsame _).symm ▸ begun) fun d hd => (hsame d).trans (elsewhere d hd)

theorem treads_afterTopology {o : Fabric × Progress TopologyRefresh TopologyRefresh.Result}
    (t : TopologyRefresh.Trail link port h o.1 o.2)
    (elsewhere : ∀ d ≠ link.id, o.1.requests d = k.fabric.requests d) :
    Treads port h k (some link) (afterTopology k link o) := by
  have hbegun := t.begun
  obtain ⟨f, p⟩ := o
  rcases p with r | (e | (diff | _))
  · exact .of_link t hbegun elsewhere
  · exact treads_giveUp hbegun elsewhere _
  · exact .of_link t hbegun elsewhere
  · exact treads_giveUp hbegun elsewhere _

theorem store_afterTopology (k : Control) (link : Link)
    (o : Fabric × Progress TopologyRefresh TopologyRefresh.Result) :
    (afterTopology k link o).1.fabric.store = o.1.store := by
  obtain ⟨f, p⟩ := o
  rcases p with r | (e | (diff | _)) <;> rfl

theorem store_afterSchema (k : Control) (link : Link)
    (o : Fabric × Progress SchemaRefresh SchemaRefresh.Result) :
    (afterSchema k link o).1.fabric.store = o.1.store := by
  obtain ⟨f, p⟩ := o
  rcases p with r | (e | (u | _))
  · rfl
  · rfl
  · refine (store_afterTopology k link _).trans ?_
    show (TopologyRefresh.start f k.isShutDown link k.settings.port).1.store = f.store
    unfold TopologyRefresh.start
    split <;> rfl
  · rfl

theorem treads_afterSchema (hport : k.settings.port = port)
    {o : Fabric × Progress SchemaRefresh SchemaRefresh.Result}
    (t : SchemaRefresh.Trail link port h o.1 o.2)
    (elsewhere : ∀ d ≠ link.id, o.1.requests d = k.fabric.requests d) :
    Treads port h k (some link) (afterSchema k link o) := by
  have hbegun := t.begun
  obtain ⟨f, p⟩ := o
  rcases p with r | (e | (u | _))
  · exact .of_link t hbegun elsewhere
  · exact treads_giveUp hbegun elsewhere _
  · obtain ⟨hreq, schema, learnt, hp⟩ := t
    subst hport
    have hstays := TopologyRefresh.staysOn_start f k.isShutDown link k.settings.port
    exact treads_afterTopology (TopologyRefresh.trail_start k.isShutDown hreq learnt hp)
      fun d hd => (hstays.elsewhere d hd).trans (elsewhere d hd)
  · exact treads_giveUp hbegun elsewhere _

/-- The reply to the registration. -/
theorem treads_registered (hport : k.settings.port = port) {reply : Reply} {x : Transition}
    (hreq : k.fabric.requests link.id = Question.requests [.registration])
    (hx : x.Answers link .registration reply) :
    Treads port (h ++ [x]) k (some link) (registered k link reply) := by
  unfold registered
  split
  · exact treads_giveUp (hreq ▸ Question.prefix_registration) (fun d _ => rfl) _
  · rename_i hack
    have hreply : reply = .ready ∨ reply = .void := by
      cases reply with
      | ready => exact .inl rfl
      | void => exact .inr rfl
      | rows _ | rejected _ _ => cases hack
    have hshown : (Milestone.registered reply).Shows link port x := hx
    have hp : Passed link port (h ++ [x]) [.registered reply] := (Passed.nil h).shown hshown
    exact treads_afterSchema hport (SchemaRefresh.trail_start k.isShutDown hreq hreply hp)
      (SchemaRefresh.staysOn_start _ _ _ _).elsewhere

/-- A new connection, on which nothing has been sent. -/
theorem treads_register {f : Fabric} (same : ∀ d, f.requests d = k.fabric.requests d)
    (fresh : k.fabric.requests link.id = [])
    (new : k.fabric.connections.size ≤ link.id ∧ link.id < f.connections.size) :
    Treads port h k none (register { k with fabric := f } link) := by
  unfold register
  split
  · have hsame : ∀ d, (f.close link.id).requests d = k.fabric.requests d := fun d =>
      (Fabric.requests_close f _ d).trans (same d)
    exact ⟨trivial, .of_same hsame⟩
  · have hown : (f.send link.id (.register EventKind.all)).requests link.id =
        Question.requests [.registration] := by
      rw [Fabric.requests_send, same, fresh, if_pos rfl]; rfl
    have helse : ∀ d ≠ link.id,
        (f.send link.id (.register EventKind.all)).requests d = k.fabric.requests d := by
      intro d hd
      rw [Fabric.requests_send, if_neg hd.symm, List.append_nil, same]
    exact ⟨hown, .of_one (hown.symm ▸ Question.prefix_registration) helse (.inr new)⟩

/-- A step after which nothing has been sent and no connection is in use. -/
theorem treads_idle {used : Option Link} {o : Control × Progress BringUp Result}
    (hsame : ∀ d, o.1.fabric.requests d = k.fabric.requests d)
    (trail : Trail port h o.1.fabric o.2) : Treads port h k used o :=
  ⟨trail, .of_same hsame⟩

/-- **One step of a bring-up carries its trail on.** -/
theorem treads_resume {target : Address} {b : BringUp} {signal : Signal}
    {o : Control × Progress BringUp Result} {x : Transition}
    (hr : b.resume k target signal = some o) (t : Trail port h k.fabric (.running b))
    (blank : k.Blank port) (d : x.Drives b.held? (b.need target) signal k.fabric o.1.fabric) :
    Treads port (h ++ [x]) k b.uses? o := by
  unfold resume at hr
  split at hr
  · cases hr
    exact treads_register (Fabric.requests_congr (k.fabric.acts_accept target))
      (blank.unsent _ (Nat.le_refl _)) ⟨Nat.le_refl _, by simp⟩
  · cases hr; exact treads_idle (fun d => rfl) trivial
  · cases hr; exact treads_idle (fun d => rfl) trivial
  · cases hr; exact treads_idle (fun d => rfl) trivial
  · cases hr
    exact treads_registered blank.constant t ⟨_, _, List.mem_singleton.mpr rfl, d.serves _ rfl⟩
  · cases hr
    exact treads_giveUp (t ▸ Question.prefix_registration) (fun d _ => rfl) _
  · cases hr
    exact treads_giveUp (t ▸ Question.prefix_registration) (fun d _ => rfl) _
  · obtain ⟨y, hy, rfl⟩ := Option.map_eq_some_iff.mp hr
    have ht := SchemaRefresh.trail_resume hy t (d.within (store_afterSchema k _ y))
    exact treads_afterSchema blank.constant ht fun c hc =>
      (SchemaRefresh.staysOn_resume hy).elsewhere c (t.1 ▸ hc)
  · obtain ⟨y, hy, rfl⟩ := Option.map_eq_some_iff.mp hr
    have ht := TopologyRefresh.trail_resume hy t (d.within (store_afterTopology k _ y))
    exact treads_afterTopology ht fun c hc =>
      (TopologyRefresh.staysOn_resume hy).elsewhere c (t.1 ▸ hc)
  · cases hr; exact treads_idle (fun d => rfl) trivial
  · cases hr; exact treads_idle (fun d => rfl) trivial
  · cases hr

end BringUp

end ControlChannel
