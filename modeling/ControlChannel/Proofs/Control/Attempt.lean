import ControlChannel.Control.Attempt
import ControlChannel.Proofs.Control.Search

/-! # What an attempt does

An attempt searches for a connection and installs it. Of the control connection's own state it
changes the active connection and the phase, both at the installation and neither after a shutdown
(`Attempt.Advances`). The connection that it replaces stays in its hands until it is closed. -/

namespace ControlChannel

namespace Attempt

/-- The connection that an attempt has a use for. -/
def uses? : Attempt → Option Link
  | .round r => r.bringUp.uses?
  | .fresh | .installing _ => none

/-- The connection that an attempt holds at the position it has reached. -/
def heldBy : Progress Attempt Result → Option Link
  | .running a => a.held?
  | .done _ => none

def usedBy : Progress Attempt Result → Option Link
  | .running a => a.uses?
  | .done _ => none

/-- The attempt has not brought a connection up, so far. -/
def Searching : Progress Attempt Result → Prop
  | .running (.installing _) | .done (.ok (.ready _)) => False
  | _ => True

/-- An attempt that is over because of a shutdown, or about to be. -/
def GivenUp : Progress Attempt Result → Prop
  | .running (.round r) => BringUp.GivenUp (.running r.bringUp)
  | .done (.ok .cancelled) => True
  | _ => False

def isInstalling : Attempt → Bool
  | .installing _ => true
  | .fresh | .round _ => false

/-- A step of an attempt. -/
structure Advances (k : Control) (a : Attempt) (o : Control × Progress Attempt Result) : Prop where
  settings : o.1.settings = k.settings
  slot : o.1.slot = k.slot
  events : ∃ es, o.1.events = es ++ k.events ∧
    ∀ e ∈ es, e.isFailure = true ∨ (k.isShutDown = false ∧ ∃ address, e = .connected address)
  openings : k.isShutDown = true → o.1.fabric.openings = k.fabric.openings
  custody : Passes k.fabric o.1.fabric (Link.ids k.active ++ Link.ids a.held?)
    (Link.ids o.1.active ++ Link.ids (heldBy o.2))
  closings : ∀ c ∈ o.1.fabric.closings, c ∈ k.fabric.closings ∨
    (c ∈ Link.ids (heldBy o.2) ∧ c ∉ Link.ids (usedBy o.2))
  asked : ∀ c ∈ k.fabric.closings, c ∈ o.1.fabric.closings
  discards : ∀ c ∈ Link.ids (heldBy o.2), c ∈ Link.ids (usedBy o.2) ∨ c ∈ o.1.fabric.closings
  uses : ∀ c ∈ Link.ids (usedBy o.2), c ∈ Link.ids a.uses? ∨ k.fabric.connections.size ≤ c
  actives : ∀ c ∈ Link.ids o.1.active,
    c ∈ Link.ids k.active ++ Link.ids a.uses? ∨ k.fabric.connections.size ≤ c
  installs : (o.1.active = k.active ∧ o.1.phase = k.phase ∧
      (Searching o.2 ∨ k.isShutDown = true ∨ a.isInstalling = true)) ∨
    (o.1.active.isSome = true ∧ o.1.phase = k.phase.shift .connected ∧
      ¬ Searching o.2 ∧ k.isShutDown = false)
  givenUp : GivenUp o.2 → k.isShutDown = true

/-! ## Installations -/

theorem fabric_swap (k : Control) (link : Link) : (Install.swap k link).fabric = k.fabric :=
  Control.fabric_shift _ _

theorem slot_swap (k : Control) (link : Link) : (Install.swap k link).slot = k.slot :=
  Control.slot_shift _ _

theorem active_swap (k : Control) (link : Link) : (Install.swap k link).active = some link :=
  Control.active_shift _ _

theorem phase_swap (k : Control) (link : Link) :
    (Install.swap k link).phase = k.phase.shift .connected :=
  Control.phase_shift _ _

theorem settings_shift (k : Control) (p : Phase) : (k.shift p).settings = k.settings := by
  unfold Control.shift
  split <;> rfl

theorem events_swap (k : Control) (link : Link) :
    (Install.swap k link).events = .connected link.address :: k.events :=
  congrArg _ (Control.events_shift _ _)

/-- Custody in an installation: the new connection goes into the slot, or is closed, and the one
in the slot stays there or is closed. -/
theorem custody_start (k : Control) (link : Link) :
    Passes k.fabric (afterInstall (Install.start k link)).1.fabric
      (Link.ids k.active ++ [link.id])
      (Link.ids (afterInstall (Install.start k link)).1.active ++
        Link.ids (heldBy (afterInstall (Install.start k link)).2)) := by
  unfold Install.start
  split
  · exact Passes.of_connections (by rfl) _
  · split
    · rename_i previous hp
      rw [hp]
      split
      · rename_i hc
        have hd : Passes k.fabric k.fabric ([link.id] ++ [previous.id]) [link.id] :=
          Passes.drop hc _
        simp only [afterInstall, fabric_swap, active_swap, heldBy, Link.ids_some, Link.ids_none,
          List.append_nil]
        exact hd.perm (List.Perm.swap _ _ _) (List.Perm.refl _)
      · simp only [afterInstall, Install.close, fabric_swap, active_swap, heldBy, held?,
          Link.ids_some]
        exact (Passes.of_connections (by rfl) _).perm (List.Perm.refl _) (List.Perm.swap _ _ _)
    · rename_i hn
      rw [hn]
      simp only [afterInstall, fabric_swap, active_swap, heldBy, Link.ids_some, Link.ids_none,
        List.append_nil, List.nil_append]
      exact Passes.of_connections rfl _

/-- Custody from the search to the installation. -/
theorem custody_found {k l : Control} {held used : Option Link} {link : Link}
    (s : BringUp.Advances k held used (l, .done (.ok (.ready link)))) :
    Passes k.fabric l.fabric (Link.ids k.active ++ Link.ids held)
      (Link.ids l.active ++ [link.id]) := by
  rw [s.keeps.active]
  exact (s.custody.frame (Link.ids k.active)).perm List.perm_append_comm List.perm_append_comm

theorem closings_found {k l : Control} {held used : Option Link} {link : Link}
    (s : BringUp.Advances k held used (l, .done (.ok (.ready link)))) :
    ∀ c ∈ l.fabric.closings, c ∈ k.fabric.closings :=
  fun c hc => (s.closings c hc).elim id fun h => absurd h.1 h.2

/-- The connection comes too late and is closed. -/
theorem advances_discard {k l : Control} {a : Attempt} {link : Link}
    (s : BringUp.Advances k a.held? a.uses? (l, .done (.ok (.ready link))))
    (hk : k.isShutDown = true) : Advances k a (afterInstall (Install.close l link false)) := by
  obtain ⟨es, he, hes⟩ := s.events
  have hc : (afterInstall (Install.close l link false)).1.fabric.closings =
      link.id :: l.fabric.closings := Fabric.closings_close _ _
  exact
    { settings := s.keeps.settings
      slot := s.keeps.slot
      events := ⟨es, he, fun e h => .inl (hes e h)⟩
      openings := fun _ => (Fabric.openings_close _ _).trans (s.openings hk)
      custody := (custody_found s).trans (Passes.of_connections (by rfl) _)
      closings := by
        intro c hm
        rcases List.mem_cons.mp (hc ▸ hm) with rfl | hm
        · exact .inr ⟨List.mem_singleton.mpr rfl, List.not_mem_nil⟩
        · exact .inl (closings_found s c hm)
      asked := fun c hm => hc ▸ List.mem_cons_of_mem _ (s.asked c hm)
      discards := fun c hm => .inr (hc ▸ List.mem_singleton.mp hm ▸ List.mem_cons_self)
      uses := List.forall_mem_nil _
      actives := by
        rw [← s.keeps.active]
        exact fun c hc => .inl (List.mem_append_left _ hc)
      installs := .inl ⟨s.keeps.active, s.keeps.phase, .inr (.inl hk)⟩
      givenUp := False.elim }

/-- The connection is installed, whether or not another one is to be closed for it. -/
theorem advances_swap {k l : Control} {a : Attempt} {link : Link}
    (s : BringUp.Advances k a.held? a.uses? (l, .done (.ok (.ready link))))
    (hk : k.isShutDown = false) {o : Control × Progress Attempt Result}
    (keeps : (Install.swap l link).Keeps o.1)
    (events : o.1.events = (Install.swap l link).events)
    (custody : Passes l.fabric o.1.fabric (Link.ids l.active ++ [link.id])
      (Link.ids o.1.active ++ Link.ids (heldBy o.2)))
    (closings : o.1.fabric.closings = Link.ids (heldBy o.2) ++ l.fabric.closings)
    (used : usedBy o.2 = none) (found : ¬ Searching o.2) (going : ¬ GivenUp o.2) :
    Advances k a o := by
  obtain ⟨es, he, hes⟩ := s.events
  exact
    { settings := by
        rw [keeps.settings, Install.swap, Control.publish, settings_shift]
        exact s.keeps.settings
      slot := by
        rw [keeps.slot, slot_swap]
        exact s.keeps.slot
      events := by
        refine ⟨.connected link.address :: es, ?_, fun e h => ?_⟩
        · rw [events, events_swap]
          exact congrArg _ he
        · rcases List.mem_cons.mp h with rfl | h
          · exact .inr ⟨hk, _, rfl⟩
          · exact .inl (hes e h)
      openings := by
        intro h
        rw [hk] at h; cases h
      custody := (custody_found s).trans custody
      closings := by
        intro c hc
        rw [used]
        rcases List.mem_append.mp (closings ▸ hc) with hc | hc
        · exact .inr ⟨hc, List.not_mem_nil⟩
        · exact .inl (closings_found s c hc)
      asked := fun c hc => closings ▸ List.mem_append_right _ (s.asked c hc)
      discards := fun c hc => .inr (closings ▸ List.mem_append_left _ hc)
      uses := by
        rw [used]
        exact List.forall_mem_nil _
      actives := by
        rw [keeps.active, active_swap]
        exact fun c hc => (s.uses c hc).imp_left (List.mem_append_right _)
      installs := by
        refine .inr ⟨?_, ?_, found, hk⟩
        · rw [keeps.active, active_swap]; rfl
        · rw [keeps.phase, phase_swap, s.keeps.phase]
      givenUp := fun h => absurd h going }

/-- What happens when a round has brought a connection up. -/
theorem advances_start {k l : Control} {a : Attempt} {link : Link}
    (s : BringUp.Advances k a.held? a.uses? (l, .done (.ok (.ready link)))) :
    Advances k a (afterInstall (Install.start l link)) := by
  have hshut : l.isShutDown = k.isShutDown := s.keeps.isShutDown
  have hswap : (Install.swap l link).fabric.closings = l.fabric.closings :=
    congrArg Fabric.closings (fabric_swap l link)
  have hc := custody_start l link
  unfold Install.start at hc ⊢
  split
  · rename_i hs
    exact advances_discard s (hshut.symm.trans hs)
  · rename_i hs
    have hk : k.isShutDown = false := hshut.symm.trans (Bool.eq_false_iff.mpr hs)
    rw [if_neg hs] at hc
    split
    · rename_i previous hp
      simp only [hp] at hc
      split
      · rename_i hcl
        rw [if_pos hcl] at hc
        exact advances_swap s hk (.refl _) rfl (hp ▸ hc) hswap rfl id id
      · rename_i hcl
        rw [if_neg hcl] at hc
        have hcs : ((Install.swap l link).fabric.close previous.id).closings =
            previous.id :: l.fabric.closings :=
          (Fabric.closings_close _ _).trans (congrArg _ hswap)
        exact advances_swap s hk (.fabric _ _) rfl (hp ▸ hc) hcs rfl id id
    · rename_i hp
      simp only [hp] at hc
      exact advances_swap s hk (.refl _) rfl (hp ▸ hc) hswap rfl id id

/-! ## One step -/

/-- An attempt that has not begun holds nothing. -/
theorem advances_fresh (k : Control) : Advances k .fresh (k, .running .fresh) where
  settings := rfl
  slot := rfl
  events := ⟨[], rfl, List.forall_mem_nil _⟩
  openings _ := rfl
  custody := Passes.of_connections rfl _
  closings _ hc := .inl hc
  asked _ hc := hc
  discards := List.forall_mem_nil _
  uses := List.forall_mem_nil _
  actives _ hc := .inl (List.mem_append_left _ hc)
  installs := .inl ⟨rfl, rfl, .inl trivial⟩
  givenUp := False.elim

/-- The connection that an installation waited for is closed. -/
theorem advances_lose (k : Control) (i : Install) : Advances k (.installing i)
    ({ k with fabric := k.fabric.lose i.closing.id }, .done (.ok (.ready i.kept))) where
  settings := rfl
  slot := rfl
  events := ⟨[], rfl, List.forall_mem_nil _⟩
  openings _ := rfl
  custody := ((Passes.lose k.fabric i.closing.id).frame (Link.ids k.active)).perm
    List.perm_append_comm List.perm_append_comm
  closings _ hc := .inl hc
  asked _ hc := hc
  discards := List.forall_mem_nil _
  uses := List.forall_mem_nil _
  actives _ hc := .inl (List.mem_append_left _ hc)
  installs := .inl ⟨rfl, rfl, .inr (.inr rfl)⟩
  givenUp := False.elim

/-- What a search that goes on, or comes to nothing, does. -/
theorem advances_search {k : Control} {a : Attempt} {x : Control × Progress BringUp BringUp.Result}
    (s : BringUp.Advances k a.held? a.uses? x) {o : Control × Progress Attempt Result}
    (hk : o.1 = x.1) (hh : heldBy o.2 = x.2.link? BringUp.held?)
    (hu : usedBy o.2 = x.2.link? BringUp.uses?) (hs : Searching o.2)
    (hg : GivenUp o.2 → BringUp.GivenUp x.2) : Advances k a o := by
  obtain ⟨es, he, hes⟩ := s.events
  exact
    { settings := by rw [hk]; exact s.keeps.settings
      slot := by rw [hk]; exact s.keeps.slot
      events := ⟨es, hk ▸ he, fun e h => .inl (hes e h)⟩
      openings := by rw [hk]; exact s.openings
      custody := by
        rw [hk, hh, s.keeps.active]
        exact (s.custody.frame (Link.ids k.active)).perm List.perm_append_comm
          List.perm_append_comm
      closings := by rw [hk, hh, hu]; exact s.closings
      asked := by rw [hk]; exact s.asked
      discards := by rw [hk, hh, hu]; exact s.discards
      uses := by rw [hu]; exact s.uses
      actives := by
        rw [hk, s.keeps.active]
        exact fun c hc => .inl (List.mem_append_left _ hc)
      installs := by
        refine .inl ⟨?_, ?_, .inl hs⟩
        · rw [hk]; exact s.keeps.active
        · rw [hk]; exact s.keeps.phase
      givenUp := fun h => s.givenUp (hg h) }

theorem advances_afterRound {k : Control} {a : Attempt} {x : Control × Progress Round Round.Result}
    (s : BringUp.Advances k a.held? a.uses? (x.1, Round.bringUpOf x.2)) :
    Advances k a (afterRound x) := by
  unfold afterRound
  split
  · exact advances_search s rfl rfl rfl trivial id
  · exact advances_start s
  · exact advances_search s rfl rfl rfl trivial id
  · exact advances_search s rfl rfl rfl trivial False.elim

theorem advances_resume {k : Control} {a : Attempt} {signal : Signal}
    {o : Control × Progress Attempt Result} (h : a.resume k signal = some o)
    (hs : signal = .cancelled → k.isShutDown = true)
    (ha : GivenUp (.running a) → k.isShutDown = true) : Advances k a o := by
  unfold resume at h
  split at h
  · cases h; exact advances_afterRound (Round.advances_start k)
  · cases h
  · obtain ⟨x, hx, rfl⟩ := Option.map_eq_some_iff.mp h
    exact advances_afterRound (Round.advances_resume hx hs ha)
  · rename_i i
    obtain ⟨x, hx, rfl⟩ := Option.map_eq_some_iff.mp h
    unfold Install.resume at hx
    split at hx
    · cases hx
      exact advances_lose k i
    · cases hx

end Attempt

end ControlChannel
