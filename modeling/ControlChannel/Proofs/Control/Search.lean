import ControlChannel.Control.Round
import ControlChannel.Proofs.Custody.Passing
import ControlChannel.Proofs.Refreshes

/-! # What the search for a connection leaves alone

A bring-up, and the round that goes through the candidates, change nothing of the control
connection but the fabric and, when a candidate fails, its events (`Advances`). They answer for the
one connection that they hold; they ask a connection to close only when they have no use for it any
more; they start no opening once the control connection is shut down, and only then they come back
cancelled. -/

namespace ControlChannel

/-- The connection that work holds at the position it has reached, or comes back with. -/
def Progress.link? {σ : Type} (at? : σ → Option Link) :
    Progress σ (Except Error (Awaited Link)) → Option Link
  | .running s => at? s
  | .done (.ok (.ready link)) => some link
  | .done _ => none

theorem Progress.link?_done {σ : Type} (r : Except Error (Awaited Link)) (f g : σ → Option Link) :
    (Progress.done r).link? f = (Progress.done r).link? g := by
  rcases r with e | a
  · rfl
  · cases a <;> rfl

/-- Whether an event tells of something that went wrong. -/
def Event.isFailure : Event → Bool
  | .connectionFailed .. | .reconnectionScheduled _ | .unexpectedError _ => true
  | .connected _ | .closed => false

/-- Nothing has changed but the fabric and the events. -/
structure Control.Keeps (k l : Control) : Prop where
  settings : l.settings = k.settings
  slot : l.slot = k.slot
  active : l.active = k.active
  phase : l.phase = k.phase

namespace Control.Keeps

theorem refl (k : Control) : Keeps k k := ⟨rfl, rfl, rfl, rfl⟩

theorem fabric (k : Control) (f : Fabric) : Keeps k { k with fabric := f } := ⟨rfl, rfl, rfl, rfl⟩

theorem trans {k l m : Control} (h : Keeps k l) (h' : Keeps l m) : Keeps k m :=
  ⟨h'.settings.trans h.settings, h'.slot.trans h.slot, h'.active.trans h.active,
    h'.phase.trans h.phase⟩

theorem isShutDown {k l : Control} (h : Keeps k l) : l.isShutDown = k.isShutDown := by
  rw [Control.isShutDown, h.slot]; rfl

end Control.Keeps

namespace BringUp

/-- The connection that a bring-up has a use for. -/
def uses? : BringUp → Option Link
  | .opening _ | .closing .. => none
  | .registering link | .schema link _ | .topology link _ => some link

/-- A bring-up that is over because of a shutdown, or about to be. -/
def GivenUp : Progress BringUp Result → Prop
  | .running (.closing _ none) | .done (.ok .cancelled) => True
  | _ => False

/-- Work on a connection that has been opened. -/
structure Works (k : Control) (link : Link) (o : Control × Progress BringUp Result) : Prop where
  keeps : k.Keeps o.1
  events : o.1.events = k.events
  connections : o.1.fabric.connections = k.fabric.connections
  openings : o.1.fabric.openings = k.fabric.openings
  held : o.2.link? held? = some link
  closings : (o.2.link? uses? = some link ∧ o.1.fabric.closings = k.fabric.closings) ∨
    (o.2.link? uses? = none ∧ o.1.fabric.closings = link.id :: k.fabric.closings)
  givenUp : GivenUp o.2 → k.isShutDown = true

theorem Works.of_quiet {k : Control} {f : Fabric} {link : Link}
    {o : Control × Progress BringUp Result} (q : Quiet k.fabric f)
    (w : Works { k with fabric := f } link o) : Works k link o := by
  refine ⟨(Control.Keeps.fabric k f).trans w.keeps, w.events, w.connections.trans q.connections,
    w.openings.trans q.openings, w.held, ?_, w.givenUp⟩
  rcases w.closings with ⟨hu, hc⟩ | ⟨hu, hc⟩
  · exact .inl ⟨hu, hc.trans q.closings⟩
  · exact .inr ⟨hu, hc.trans (congrArg _ q.closings)⟩

theorem works_giveUp (k : Control) (link : Link) (error : Option Error)
    (h : error = none → k.isShutDown = true) : Works k link (giveUp k link error) := by
  refine ⟨.fabric k _, rfl, rfl, Fabric.openings_close _ _, rfl,
    .inr ⟨rfl, Fabric.closings_close _ _⟩, ?_⟩
  intro hg
  cases error with
  | none => exact h rfl
  | some e => exact hg.elim

theorem works_register (k : Control) (link : Link) : Works k link (register k link) := by
  unfold register
  split
  · rename_i h; exact works_giveUp k link none fun _ => h
  · exact ⟨.fabric k _, rfl, rfl, Fabric.openings_send _ _ _, rfl,
      .inl ⟨rfl, Fabric.closings_send _ _ _⟩, False.elim⟩

theorem works_afterTopology (k : Control) (link : Link)
    {o : Fabric × Progress TopologyRefresh TopologyRefresh.Result} (q : Quiet k.fabric o.1)
    (h : o.2 = .done (.ok .cancelled) → k.isShutDown = true) :
    Works k link (afterTopology k link o) := by
  unfold afterTopology
  split
  · exact ⟨.fabric k _, rfl, q.connections, q.openings, rfl, .inl ⟨rfl, q.closings⟩, False.elim⟩
  · exact ⟨.fabric k _, rfl, q.connections, q.openings, rfl, .inl ⟨rfl, q.closings⟩, False.elim⟩
  · refine Works.of_quiet q ?_
    exact works_giveUp _ link none fun _ => h rfl
  · refine Works.of_quiet q ?_
    exact works_giveUp _ link _ fun he => by cases he

theorem works_afterSchema (k : Control) (link : Link)
    {o : Fabric × Progress SchemaRefresh SchemaRefresh.Result} (q : Quiet k.fabric o.1)
    (h : o.2 = .done (.ok .cancelled) → k.isShutDown = true) :
    Works k link (afterSchema k link o) := by
  unfold afterSchema
  split
  · exact ⟨.fabric k _, rfl, q.connections, q.openings, rfl, .inl ⟨rfl, q.closings⟩, False.elim⟩
  · rename_i fabric _
    have qt := (TopologyRefresh.staysOn_start fabric k.isShutDown link k.settings.port).quiet
    refine works_afterTopology k link ⟨qt.connections.trans q.connections,
      qt.openings.trans q.openings, qt.closings.trans q.closings⟩ ?_
    exact TopologyRefresh.cancelled_of_start
  · refine Works.of_quiet q ?_
    exact works_giveUp _ link none fun _ => h rfl
  · refine Works.of_quiet q ?_
    exact works_giveUp _ link _ fun he => by cases he

theorem works_registered (k : Control) (link : Link) (reply : Reply) :
    Works k link (registered k link reply) := by
  unfold registered
  split
  · exact works_giveUp k link _ fun he => by cases he
  · exact works_afterSchema k link (SchemaRefresh.staysOn_start _ _ _ _).quiet
      SchemaRefresh.cancelled_of_start

/-! ## One step -/

/-- A step of the search for a connection, by someone who held `held` and had a use for `used`. -/
structure Advances (k : Control) (held used : Option Link)
    (o : Control × Progress BringUp Result) : Prop where
  keeps : k.Keeps o.1
  events : ∃ es, o.1.events = es ++ k.events ∧ ∀ e ∈ es, e.isFailure = true
  openings : k.isShutDown = true → o.1.fabric.openings = k.fabric.openings
  custody : Passes k.fabric o.1.fabric (Link.ids held) (Link.ids (o.2.link? held?))
  closings : ∀ c ∈ o.1.fabric.closings, c ∈ k.fabric.closings ∨
    (c ∈ Link.ids (o.2.link? held?) ∧ c ∉ Link.ids (o.2.link? uses?))
  asked : ∀ c ∈ k.fabric.closings, c ∈ o.1.fabric.closings
  discards : ∀ c ∈ Link.ids (o.2.link? held?), c ∈ Link.ids (o.2.link? uses?) ∨
    c ∈ o.1.fabric.closings
  uses : ∀ c ∈ Link.ids (o.2.link? uses?), c ∈ Link.ids used ∨ k.fabric.connections.size ≤ c
  givenUp : GivenUp o.2 → k.isShutDown = true

theorem Works.closings_mem {k : Control} {link : Link} {o : Control × Progress BringUp Result}
    (w : Works k link o) : ∀ c ∈ o.1.fabric.closings, c ∈ k.fabric.closings ∨
      (c ∈ Link.ids (o.2.link? held?) ∧ c ∉ Link.ids (o.2.link? uses?)) := by
  intro c hc
  rcases w.closings with ⟨_, h⟩ | ⟨hu, h⟩
  · exact .inl (h ▸ hc)
  · rw [h] at hc
    rcases List.mem_cons.mp hc with rfl | hc
    · exact .inr ⟨by simp [w.held], by simp [hu]⟩
    · exact .inl hc

theorem Works.asked {k : Control} {link : Link} {o : Control × Progress BringUp Result}
    (w : Works k link o) : ∀ c ∈ k.fabric.closings, c ∈ o.1.fabric.closings := by
  intro c hc
  rcases w.closings with ⟨_, h⟩ | ⟨_, h⟩
  · exact h ▸ hc
  · exact h ▸ List.mem_cons_of_mem _ hc

theorem Works.discards {k : Control} {link : Link} {o : Control × Progress BringUp Result}
    (w : Works k link o) : ∀ c ∈ Link.ids (o.2.link? held?), c ∈ Link.ids (o.2.link? uses?) ∨
      c ∈ o.1.fabric.closings := by
  intro c hc
  rw [w.held] at hc
  rcases w.closings with ⟨hu, _⟩ | ⟨_, h⟩
  · exact .inl (hu ▸ hc)
  · rw [Link.ids_some, List.mem_singleton] at hc
    rw [h, hc]
    exact .inr List.mem_cons_self

theorem Works.uses_mem {k : Control} {link : Link} {o : Control × Progress BringUp Result}
    (w : Works k link o) : ∀ c ∈ Link.ids (o.2.link? uses?), c = link.id := by
  intro c hc
  rcases w.closings with ⟨hu, _⟩ | ⟨hu, _⟩
  · simpa [hu] using hc
  · simp [hu] at hc

theorem Works.advances {k : Control} {link : Link} {o : Control × Progress BringUp Result}
    (w : Works k link o) : Advances k (some link) (some link) o where
  keeps := w.keeps
  events := ⟨[], w.events, List.forall_mem_nil _⟩
  openings _ := w.openings
  custody := by
    rw [w.held]
    exact Passes.of_connections w.connections _
  closings := w.closings_mem
  asked := w.asked
  discards := w.discards
  uses c hc := .inl (List.mem_singleton.mpr (w.uses_mem c hc))
  givenUp := w.givenUp

/-- A connection has been opened. -/
theorem Works.advances_accept {k : Control} {target : Address}
    {o : Control × Progress BringUp Result}
    (w : Works { k with fabric := (k.fabric.accept target).1 } (k.fabric.accept target).2 o) :
    Advances k none none o where
  keeps := (Control.Keeps.fabric k _).trans w.keeps
  events := ⟨[], w.events, List.forall_mem_nil _⟩
  openings _ := w.openings
  custody := by
    rw [w.held]
    exact (Passes.accept k.fabric target).trans (Passes.of_connections w.connections _)
  closings := w.closings_mem
  asked := w.asked
  discards := w.discards
  uses c hc := .inr (Nat.le_of_eq (w.uses_mem c hc).symm)
  givenUp := w.givenUp

/-- The bring-up is over without a connection; the one that it held, if any, is closed. -/
theorem advances_over {k : Control} {f : Fabric} {held : Option Link} {r : Result}
    (custody : Passes k.fabric f (Link.ids held) []) (acts : f.acts = k.fabric.acts)
    (hr : (Progress.done r).link? held? = none) (h : GivenUp (.done r) → k.isShutDown = true) :
    Advances k held none ({ k with fabric := f }, .done r) where
  keeps := .fabric k f
  events := ⟨[], rfl, List.forall_mem_nil _⟩
  openings _ := Fabric.openings_congr acts
  custody := by
    rw [hr]
    exact custody
  closings c hc := .inl (Fabric.closings_congr acts ▸ hc)
  asked c hc := Fabric.closings_congr acts ▸ hc
  discards := by
    rw [hr]
    exact List.forall_mem_nil _
  uses := by
    rw [Progress.link?_done r uses? held?, hr]
    exact List.forall_mem_nil _
  givenUp := h

/-- The bring-up did nothing on the way. -/
theorem advances_fail (k : Control) (r : Result) (hr : (Progress.done r).link? held? = none)
    (h : GivenUp (.done r) → k.isShutDown = true) : Advances k none none (k, .done r) :=
  advances_over (Passes.of_connections rfl _) rfl hr h

/-- The connection that was given up is closed. -/
theorem advances_closed (k : Control) (link : Link) (r : Result)
    (hr : (Progress.done r).link? held? = none) (h : GivenUp (.done r) → k.isShutDown = true) :
    Advances k (some link) none ({ k with fabric := k.fabric.lose link.id }, .done r) :=
  advances_over (Passes.lose k.fabric link.id) rfl hr h

theorem advances_resume {k : Control} {target : Address} {b : BringUp} {signal : Signal}
    {o : Control × Progress BringUp Result} (h : b.resume k target signal = some o)
    (hs : signal = .cancelled → k.isShutDown = true)
    (hb : GivenUp (.running b) → k.isShutDown = true) : Advances k b.held? b.uses? o := by
  unfold resume at h
  split at h
  · cases h; exact (works_register _ _).advances_accept
  · cases h; exact advances_fail k _ rfl False.elim
  · cases h; exact advances_fail k _ rfl False.elim
  · cases h; exact advances_fail k _ rfl fun _ => hs rfl
  · cases h; exact (works_registered k _ _).advances
  · cases h; exact (works_giveUp k _ _ fun he => by cases he).advances
  · cases h; exact (works_giveUp k _ _ fun _ => hs rfl).advances
  · obtain ⟨x, hx, rfl⟩ := Option.map_eq_some_iff.mp h
    exact (works_afterSchema k _ (SchemaRefresh.staysOn_resume hx).quiet fun hc =>
      hs (SchemaRefresh.cancelled_of_resume hx hc)).advances
  · obtain ⟨x, hx, rfl⟩ := Option.map_eq_some_iff.mp h
    exact (works_afterTopology k _ (TopologyRefresh.staysOn_resume hx).quiet fun hc =>
      hs (TopologyRefresh.cancelled_of_resume hx hc)).advances
  · cases h; exact advances_closed k _ _ rfl False.elim
  · cases h; exact advances_closed k _ _ rfl fun _ => hb trivial
  · cases h

end BringUp

/-! ## Rounds -/

namespace Round

/-- Where the bring-up of a round stands. -/
def bringUpOf : Progress Round Result → Progress BringUp BringUp.Result := Progress.map bringUp

open BringUp (Advances)

/-- The round is over, or the next candidate is about to be connected. -/
theorem next_cases (k : Control) (failures : Failures) (rest : List Address) :
    (∃ r, next k failures rest = (k, .done r) ∧ (Progress.done r).link? BringUp.held? = none ∧
      (BringUp.GivenUp (.done r) → k.isShutDown = true)) ∨
    (k.isShutDown = false ∧ ∃ target rest', next k failures rest =
      ((BringUp.start k target).1,
        .running ⟨target, rest', failures, (BringUp.start k target).2⟩)) := by
  cases rest with
  | nil => exact .inl ⟨_, rfl, rfl, False.elim⟩
  | cons target rest =>
    by_cases h : k.isShutDown = true
    · exact .inl ⟨_, if_pos h, rfl, fun _ => h⟩
    · exact .inr ⟨Bool.eq_false_iff.mpr h, target, rest, if_neg h⟩

theorem advances_next (k : Control) (failures : Failures) (rest : List Address) :
    Advances k none none ((next k failures rest).1, bringUpOf (next k failures rest).2) := by
  rcases next_cases k failures rest with ⟨r, hn, hr, hg⟩ | ⟨hlive, target, rest', hn⟩
  · rw [hn]
    exact BringUp.advances_fail k r hr hg
  · rw [hn]
    have hc : (BringUp.start k target).1.fabric.closings = k.fabric.closings :=
      Fabric.closings_opening _ _
    exact
      { keeps := .fabric k _
        events := ⟨[], rfl, List.forall_mem_nil _⟩
        openings := by
          intro hs
          rw [hlive] at hs; cases hs
        custody := Passes.of_connections (by rfl) []
        closings := fun c hm => .inl (hc ▸ hm)
        asked := fun c hm => hc ▸ hm
        discards := List.forall_mem_nil _
        uses := List.forall_mem_nil _
        givenUp := False.elim }

theorem advances_start (k : Control) :
    Advances k none none ((start k).1, bringUpOf (start k).2) := by
  have h := advances_next { k with fabric := k.fabric.takePlan.2 } ∅ k.fabric.takePlan.1
  have hp : Passes k.fabric k.fabric.takePlan.2 [] [] :=
    Passes.of_connections (by rfl) _
  exact ⟨(Control.Keeps.fabric k _).trans h.keeps, h.events, h.openings, hp.trans h.custody,
    h.closings, h.asked, h.discards, h.uses, h.givenUp⟩

/-- A candidate has failed and the round turns to the next one. -/
theorem advances_fault {k l : Control} {held used : Option Link} {e : Error}
    (a : Advances k held used (l, .done (.error e))) (target : Address) (failures : Failures)
    (rest : List Address) :
    let o := next (l.publish (.connectionFailed target e.reason)) failures rest
    Advances k held used (o.1, bringUpOf o.2) := by
  intro o
  have hn := advances_next (l.publish (.connectionFailed target e.reason)) failures rest
  have hl : k.Keeps (l.publish (.connectionFailed target e.reason)) :=
    ⟨a.keeps.settings, a.keeps.slot, a.keeps.active, a.keeps.phase⟩
  have hshut : l.isShutDown = k.isShutDown := a.keeps.isShutDown
  exact
    { keeps := hl.trans hn.keeps
      events := by
        obtain ⟨es, he, hes⟩ := a.events
        obtain ⟨fs, hf, hfs⟩ := hn.events
        refine ⟨fs ++ .connectionFailed target e.reason :: es, ?_, ?_⟩
        · rw [List.append_assoc, List.cons_append, ← he]
          exact hf
        · intro x hx
          rcases List.mem_append.mp hx with hx | hx
          · exact hfs x hx
          · rcases List.mem_cons.mp hx with rfl | hx
            · rfl
            · exact hes x hx
      openings := fun hs => (hn.openings (hshut.trans hs)).trans (a.openings hs)
      custody := a.custody.trans hn.custody
      closings := by
        intro c hc
        rcases hn.closings c hc with hc | hc
        · exact (a.closings c hc).imp_right fun hc => absurd hc.1 List.not_mem_nil
        · exact .inr hc
      asked := fun c hc => hn.asked c (a.asked c hc)
      discards := hn.discards
      uses := by
        intro c hc
        rcases hn.uses c hc with hc | hc
        · cases hc
        · exact .inr (Nat.le_trans a.custody.grows hc)
      givenUp := fun hg => hshut.symm.trans (hn.givenUp hg) }

theorem advances_afterBringUp {k : Control} {held used : Option Link} (r : Round)
    {o : Control × Progress BringUp BringUp.Result} (a : Advances k held used o) :
    Advances k held used ((r.afterBringUp o).1, bringUpOf (r.afterBringUp o).2) := by
  unfold afterBringUp
  split
  · exact a
  · exact a
  · split
    · exact advances_fault a _ _ _
    · exact a

theorem advances_resume {k : Control} {r : Round} {signal : Signal}
    {o : Control × Progress Round Result} (h : r.resume k signal = some o)
    (hs : signal = .cancelled → k.isShutDown = true)
    (hb : BringUp.GivenUp (.running r.bringUp) → k.isShutDown = true) :
    Advances k r.bringUp.held? r.bringUp.uses? (o.1, bringUpOf o.2) := by
  obtain ⟨x, hx, rfl⟩ := Option.map_eq_some_iff.mp h
  exact advances_afterBringUp r (BringUp.advances_resume hx hs hb)

end Round

end ControlChannel
