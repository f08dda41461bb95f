import ControlChannel.Proofs.Readiness.Trail

/-! # The trail of an attempt

A round and an installation send nothing (`Fabric.Mute`), so that the trail of a bring-up is the
trail of the attempt around it, and what an attempt puts into the slot has been brought up. Main
statement: every step of an attempt carries its trail on (`Attempt.treads_resume`). -/

namespace ControlChannel

/-- Work that sends nothing and leaves the store alone. -/
structure Fabric.Mute (f g : Fabric) : Prop where
  store : g.store = f.store
  size : g.connections.size = f.connections.size
  requests : ∀ d, g.requests d = f.requests d

namespace Fabric.Mute

variable {f g : Fabric}

theorem refl (f : Fabric) : Mute f f := ⟨rfl, rfl, fun _ => rfl⟩

theorem close (f : Fabric) (c : ConnectionId) : Mute f (f.close c) :=
  ⟨rfl, rfl, fun d => requests_close f c d⟩

variable {e : Fabric} {due free : List ConnectionId}

theorem before (m : Mute e f) (s : f.Sends g due free) : e.Sends g due free := by
  refine ⟨fun d hd hb => s.begun d hd (m.requests d ▸ hb), fun d => ?_⟩
  rw [← m.requests, ← m.size]
  exact s.frame d

theorem blank {k l : Control} {port : UInt16} (m : Mute k.fabric l.fabric)
    (settings : l.settings = k.settings) (b : k.Blank port) : l.Blank port := by
  refine ⟨settings ▸ b.constant, fun d hd => ?_⟩
  rw [m.requests]
  exact b.unsent d (m.size ▸ hd)

theorem after (m : Mute f g) (s : e.Sends f due free) : e.Sends g due free := by
  refine ⟨fun d hd hb => ?_, fun d => ?_⟩
  · rw [m.requests]
    exact s.begun d hd hb
  · rw [m.requests, m.size]
    exact s.frame d

end Fabric.Mute

/-! ## Rounds -/

namespace Round

variable {port : UInt16} {h : List Transition} {k : Control}

theorem mute_next (k : Control) (failures : Failures) (rest : List Address) :
    k.fabric.Mute (next k failures rest).1.fabric := by
  rcases next_cases k failures rest with ⟨r, hn, _⟩ | ⟨_, target, rest', hn⟩
  · rw [hn]
    exact .refl _
  · rw [hn]
    exact ⟨rfl, rfl, fun d => Fabric.requests_opening _ _ d⟩

/-- A new candidate has no connection yet. -/
theorem trail_next (k : Control) (failures : Failures) (rest : List Address) (f : Fabric) :
    BringUp.Trail port h f (bringUpOf (next k failures rest).2) := by
  rcases next_cases k failures rest with ⟨r, hn, hr, _⟩ | ⟨_, target, rest', hn⟩
  · rw [hn]
    rcases r with e | (link | _)
    · trivial
    · cases hr
    · trivial
  · rw [hn]
    trivial

theorem treads_start (k : Control) :
    BringUp.Treads port h k none ((start k).1, bringUpOf (start k).2) := by
  have m := mute_next { k with fabric := k.fabric.takePlan.2 } ∅ k.fabric.takePlan.1
  exact ⟨trail_next _ _ _ _, .of_same m.requests⟩

theorem mute_afterBringUp (r : Round) (o : Control × Progress BringUp BringUp.Result) :
    o.1.fabric.Mute (r.afterBringUp o).1.fabric := by
  unfold afterBringUp
  split
  · exact .refl _
  · exact .refl _
  · rename_i l e
    split
    · exact mute_next (l.publish (.connectionFailed r.target e.reason)) _ _
    · exact .refl _

theorem treads_afterBringUp (r : Round) {used : Option Link}
    {o : Control × Progress BringUp BringUp.Result} (t : BringUp.Treads port h k used o) :
    BringUp.Treads port h k used ((r.afterBringUp o).1, bringUpOf (r.afterBringUp o).2) := by
  refine ⟨?_, (mute_afterBringUp r o).after t.sends⟩
  have ht := t.trail
  unfold afterBringUp
  split
  · exact ht
  · exact ht
  · split
    · exact trail_next _ _ _ _
    · trivial

theorem treads_resume {r : Round} {signal : Signal} {o : Control × Progress Round Result}
    {x : Transition} (hr : r.resume k signal = some o)
    (t : BringUp.Trail port h k.fabric (.running r.bringUp)) (blank : k.Blank port)
    (d : x.Drives r.bringUp.held? r.need signal k.fabric o.1.fabric) :
    BringUp.Treads port (h ++ [x]) k r.bringUp.uses? (o.1, bringUpOf o.2) := by
  obtain ⟨y, hy, rfl⟩ := Option.map_eq_some_iff.mp hr
  have m := mute_afterBringUp r y
  exact treads_afterBringUp r (BringUp.treads_resume hy t blank (d.within m.store))

end Round

/-! ## Attempts -/

namespace Attempt

/-- What has happened when an attempt has reached a position. -/
def Trail (port : UInt16) (h : List Transition) (f : Fabric) : Attempt → Prop
  | .round r => BringUp.Trail port h f (.running r.bringUp)
  | .fresh | .installing _ => True

/-- A connection that comes into the slot has just been brought up. -/
def Enters (port : UInt16) (h : List Transition) (k l : Control) : Prop :=
  ∀ link, l.active = some link → k.active = some link ∨
    (BroughtUp link port h ∧ l.fabric.requests link.id = Request.bringUp)

/-- A step of an attempt that had a use for `used`. -/
structure Treads (port : UInt16) (h : List Transition) (k : Control) (used : Option Link)
    (o : Control × Progress Attempt Result) : Prop where
  trail : ∀ a, o.2 = .running a → a.Trail port h o.1.fabric
  sends : k.fabric.Sends o.1.fabric (Link.ids used) []
  enters : Enters port h k o.1

variable {port : UInt16} {h : List Transition} {k : Control}

theorem Enters.of_active {l : Control} (he : l.active = k.active) : Enters port h k l :=
  fun _ hl => .inl (he ▸ hl)

theorem mute_start (k : Control) (link : Link) :
    k.fabric.Mute (afterInstall (Install.start k link)).1.fabric := by
  have hs : k.fabric.Mute (Install.swap k link).fabric := (fabric_swap k link).symm ▸ .refl _
  unfold Install.start
  split
  · exact .close _ _
  · split
    · split
      · exact hs
      · exact ⟨hs.store, hs.size, fun d => (Fabric.requests_close _ _ d).trans (hs.requests d)⟩
    · exact hs

theorem mute_afterRound (x : Control × Progress Round Round.Result) :
    x.1.fabric.Mute (afterRound x).1.fabric := by
  unfold afterRound
  split
  · exact .refl _
  · exact mute_start _ _
  · exact .refl _
  · exact .refl _

/-- What comes back from the search is installed, unless it comes too late. -/
theorem treads_afterRound {used : Option Link} {x : Control × Progress Round Round.Result}
    (t : BringUp.Treads port h k used (x.1, Round.bringUpOf x.2))
    (hactive : x.1.active = k.active) : Treads port h k used (afterRound x) := by
  have m := mute_afterRound x
  refine ⟨fun a ha => ?_, m.after t.sends, ?_⟩
  · rcases x with ⟨l, r | (e | (link | _))⟩
    · cases ha
      exact t.trail
    · cases ha
    · -- an installation has no trail
      cases a with
      | fresh | installing i => trivial
      | round r =>
        change (afterInstall (Install.start l link)).2 = _ at ha
        generalize Install.start l link = y at ha
        rcases y with ⟨_, i | kept⟩ <;> cases ha
    · cases ha
  · rcases x with ⟨l, r | (e | (link | _))⟩
    · exact .of_active hactive
    · exact .of_active hactive
    · intro new hnew
      have hin : (Install.start l link).1.active = some new := by
        rw [← hnew, afterRound]
        generalize Install.start l link = y
        rcases y with ⟨_, i | kept⟩ <;> rfl
      rw [Install.active_start] at hin
      split at hin
      · exact .inl (hactive ▸ hin)
      · obtain rfl := Option.some.inj hin
        obtain ⟨hreq, hup⟩ : l.fabric.requests link.id = Request.bringUp ∧
          BroughtUp link port h := t.trail
        exact .inr ⟨hup, (m.requests _).trans hreq⟩
    · exact .of_active hactive

theorem treads_start (k : Control) : Treads port h k none (afterRound (Round.start k)) :=
  treads_afterRound (Round.treads_start k) (Round.advances_start k).keeps.active

theorem treads_resume {a : Attempt} {signal : Signal} {o : Control × Progress Attempt Result}
    {x : Transition} (hr : a.resume k signal = some o)
    (hs : a ≠ .fresh → signal = .cancelled → k.isShutDown = true)
    (hg : GivenUp (.running a) → k.isShutDown = true)
    (t : a.Trail port h k.fabric) (blank : k.Blank port)
    (d : x.Drives a.held? a.need signal k.fabric o.1.fabric) :
    Treads port (h ++ [x]) k a.uses? o := by
  cases a with
  | fresh =>
    cases signal with
    | go => cases hr; exact treads_start k
    | _ => cases hr
  | round r =>
    obtain ⟨y, hy, rfl⟩ := Option.map_eq_some_iff.mp hr
    have adv := Round.advances_resume hy (hs fun e => by cases e) hg
    have ht := Round.treads_resume hy t blank (d.within (mute_afterRound y).store)
    exact treads_afterRound ht adv.keeps.active
  | installing i =>
    obtain ⟨y, hy, rfl⟩ := Option.map_eq_some_iff.mp hr
    cases signal with
    | closed =>
      cases hy
      exact ⟨fun a ha => (by cases ha), .of_same fun d => rfl, .of_active rfl⟩
    | _ => cases hy

end Attempt

end ControlChannel
