import ControlChannel.Proofs.Membership.Reconciling

/-! # Topology refreshes converge within bounds

Refreshes that work on one store, each on a list of the known hosts that may be out of date, can
undo each other's changes, but only where they disagree. An address that every refresh has found is
removed by none of them, so it stays with its record once it is known, and whoever has compared
adds it; an address that no refresh has found is added by none, and whoever has compared removes
it. Main statement: `Reconciling.refreshes_converge`. -/

namespace ControlChannel

namespace TopologyRefresh

variable {f g : Fabric} {adds removes : List Address} {a : Address}

/-- A known host that is not to be removed keeps its record. -/
theorem Effect.retains (e : Effect f adds removes g) (stays : a ∉ removes) {host : Host}
    (known : f.store.host? a = some host) : g.store.host? a = some host := by
  cases e with
  | none => exact known
  | @added b _ =>
    rw [Fabric.store_addHost, Store.host?_addHost]
    split
    · rename_i hab
      subst hab
      rw [Store.addHost_known known]
    · exact known
  | @removed b next =>
    have hab : b ≠ a := fun e => stays (e ▸ next)
    rw [Fabric.store_removeHost, Store.host?_removeHost, if_neg hab]
    exact known

/-- A host that is not to be added is known only if it was. -/
theorem Effect.brings (e : Effect f adds removes g) (absent : a ∉ adds)
    (known : (g.store.host? a).isSome) : (f.store.host? a).isSome := by
  cases e with
  | none => exact known
  | @added b next =>
    have hab : b ≠ a := fun e => absent (e ▸ next)
    rwa [Fabric.store_addHost, Store.host?_addHost, if_neg hab] at known
  | @removed b _ =>
    rw [Fabric.store_removeHost, Store.host?_removeHost] at known
    split at known
    · cases known
    · exact known

variable {connected : Address} {port : UInt16} {stage : TopologyStage} {signal : Signal}
variable {p : Progress TopologyStage Result}

theorem mem_known (keyed : f.store.Keyed) (a : Address) :
    a ∈ (Std.ExtTreeSet.ofList f.store.addresses : Topology.Addresses) ↔
      (f.store.host? a).isSome := by
  rw [← Store.mem_addresses keyed]
  simp

/-- A refresh that has found an address, and is applying what it found, has yet to add it while it
is unknown. -/
theorem Moves.gains (m : Moves f connected port stage signal (g, p)) (keyed : f.store.Keyed)
    (listed : ∀ hosts, stage = .listing hosts → a ∈ hosts) (stays : a ∉ stage.removals)
    (before : stage.isApplying = true → (f.store.host? a).isSome ∨ a ∈ stage.additions)
    (applies : Applies p) : (g.store.host? a).isSome ∨ a ∈ additions p := by
  have hkept : (f.store.host? a).isSome → (g.store.host? a).isSome := by
    intro known
    obtain ⟨host, hhost⟩ := Option.isSome_iff_exists.mp known
    exact Option.isSome_of_eq_some (m.effect.retains stays hhost)
  cases m with
  | fails | stops => exact applies.elim
  | hears =>
    unfold heard at applies
    split at applies
    · exact applies.elim
    · cases applies
  | @compares hosts diff compared =>
    by_cases hknown : (f.store.host? a).isSome
    · exact .inl hknown
    · refine .inr ?_
      rw [additions_nextAddition, compared]
      refine Std.ExtTreeSet.mem_toList.mpr (Topology.Diff.mem_toAdd.mpr ⟨listed hosts rfl, ?_⟩)
      exact fun h => hknown ((mem_known keyed a).mp h)
  | @adds diff b rest =>
    rcases before rfl with hknown | hmem
    · exact .inl (hkept hknown)
    · rcases List.mem_cons.mp hmem with rfl | hrest
      · refine .inl ?_
        rw [Fabric.store_addHost, Store.host?_addHost, if_pos rfl]
        rfl
      · refine .inr ?_
        rwa [additions_nextAddition]
  | finds | misses | removes =>
    rcases before rfl with hknown | hmem
    · exact .inl (hkept hknown)
    · cases hmem

/-- A refresh that has not found an address, and is applying what it found, has yet to remove it
while it is known. -/
theorem Moves.loses (m : Moves f connected port stage signal (g, p)) (keyed : f.store.Keyed)
    (unlisted : ∀ hosts, stage = .listing hosts → a ∉ hosts) (absent : a ∉ stage.additions)
    (before : stage.isApplying = true → (f.store.host? a).isSome → a ∈ stage.removals)
    (applies : Applies p) (known : (g.store.host? a).isSome) : a ∈ removals p := by
  have hknown : (f.store.host? a).isSome := m.effect.brings absent known
  cases m with
  | fails | stops => exact applies.elim
  | hears =>
    unfold heard at applies
    split at applies
    · exact applies.elim
    · cases applies
  | @compares hosts diff compared =>
    rw [removals_nextAddition, compared]
    exact Std.ExtTreeSet.mem_toList.mpr
      (Topology.Diff.mem_toRemove.mpr ⟨(mem_known keyed a).mpr hknown, unlisted hosts rfl⟩)
  | adds =>
    rw [removals_nextAddition]
    exact before rfl hknown
  | @finds diff b rest host found =>
    show a ∈ host.address :: rest
    rw [keyed b host found]
    exact before rfl hknown
  | @misses diff b rest unknown =>
    rw [removals_nextRemoval]
    rcases List.mem_cons.mp (before rfl hknown) with rfl | hrest
    · rw [unknown] at hknown
      cases hknown
    · exact hrest
  | @removes diff host rest =>
    rw [removals_nextRemoval]
    rcases List.mem_cons.mp (before rfl hknown) with rfl | hrest
    · rw [Fabric.store_removeHost, Store.host?_removeHost, if_pos rfl] at known
      cases known
    · exact hrest

end TopologyRefresh

namespace Reconciliation

variable {u u' : Reconciliation} {f g : Fabric} {signal : Signal} {a : Address}

theorem applies_of_mem_additions {p : Progress TopologyStage TopologyRefresh.Result}
    (h : a ∈ TopologyRefresh.additions p) : TopologyRefresh.Applies p := by
  rcases p with stage | _
  · cases stage with
    | adding => rfl
    | asking | listing | finding | removing => cases h
  · cases h

theorem applies_of_mem_removals {p : Progress TopologyStage TopologyRefresh.Result}
    (h : a ∈ TopologyRefresh.removals p) : TopologyRefresh.Applies p := by
  rcases p with stage | _
  · cases stage with
    | adding | finding | removing => rfl
    | asking | listing => cases h
  · cases h

theorem Tracked.not_mem_removals (h : u.Tracked)
    (found : ∀ hosts, u.found? = some hosts → a ∈ hosts) : a ∉ u.removals := by
  intro ha
  obtain ⟨hosts, hf, _, hremove⟩ := Stands.applying h (applies_of_mem_removals ha)
  exact hremove a ha (found hosts hf)

theorem Tracked.not_mem_additions (h : u.Tracked)
    (missed : ∀ hosts, u.found? = some hosts → a ∉ hosts) : a ∉ u.additions := by
  intro ha
  obtain ⟨hosts, hf, hadd, _⟩ := Stands.applying h (applies_of_mem_additions ha)
  exact missed hosts hf (hadd a ha)

theorem Tracked.listing (h : u.Tracked) {hosts : Topology.Addresses}
    (e : u.stage = .running (.listing hosts)) : u.found? = some hosts := by
  unfold Tracked at h
  rwa [e] at h

theorem effect_of_resume (h : u.resume f signal = some (g, u')) :
    TopologyRefresh.Effect f u.additions u.removals g := by
  obtain ⟨stage, hstage, _, _, _, m⟩ := moves_of_resume h
  rw [additions, removals, hstage]
  exact m.effect

theorem gains_of_resume (h : u.resume f signal = some (g, u')) (keyed : f.store.Keyed)
    (tracked : u.Tracked) (found : ∀ hosts, u.found? = some hosts → a ∈ hosts)
    (before : u.Applies → (f.store.host? a).isSome ∨ a ∈ u.additions) (applies : u'.Applies) :
    (g.store.host? a).isSome ∨ a ∈ u'.additions := by
  have hstays := tracked.not_mem_removals found
  obtain ⟨stage, hstage, _, _, _, m⟩ := moves_of_resume h
  rw [removals, hstage] at hstays
  rw [Applies, additions, hstage] at before
  exact m.gains keyed (fun hosts e => found hosts (tracked.listing (e ▸ hstage))) hstays before
    applies

theorem loses_of_resume (h : u.resume f signal = some (g, u')) (keyed : f.store.Keyed)
    (tracked : u.Tracked) (missed : ∀ hosts, u.found? = some hosts → a ∉ hosts)
    (before : u.Applies → (f.store.host? a).isSome → a ∈ u.removals) (applies : u'.Applies)
    (known : (g.store.host? a).isSome) : a ∈ u'.removals := by
  have habsent := tracked.not_mem_additions missed
  obtain ⟨stage, hstage, _, _, _, m⟩ := moves_of_resume h
  rw [additions, hstage] at habsent
  rw [Applies, removals, hstage] at before
  exact m.loses keyed (fun hosts e => missed hosts (tracked.listing (e ▸ hstage))) habsent before
    applies known

end Reconciliation

namespace Reconciling

variable {s t : Reconciling} {action : Action} {a : Address}

/-- All that has been found so far is like this. -/
def Every (s : Reconciling) (P : Topology.Addresses → Prop) : Prop :=
  ∀ u ∈ s.refreshes, ∀ hosts, u.found? = some hosts → P hosts

/-- What can happen while nobody else changes the list of hosts: one refresh goes on, or the list
stays as it is and no refresh begins to apply what it found. -/
theorem step_alone (alone : action.isForeign = false) (h : s.step action = some t) :
    (t.fabric.store.hosts = s.fabric.store.hosts ∧ (∀ u ∈ s.refreshes, u ∈ t.refreshes) ∧
      ∀ u ∈ t.refreshes, u.Applies → u ∈ s.refreshes) ∨
    ∃ i signal u g u', s.refreshes[i]? = some u ∧ u.resume s.fabric signal = some (g, u') ∧
      t = ⟨g, s.refreshes.set i u'⟩ := by
  cases action with
  | start cancelled link port =>
    cases h
    refine .inl ⟨?_, fun u hu => List.mem_append_left _ hu, fun u hu happlies => ?_⟩
    · cases cancelled <;> rfl
    · rcases List.mem_append.mp hu with hu | hu
      · exact hu
      · rw [List.mem_singleton.mp hu] at happlies
        cases cancelled <;> cases happlies
  | signal i signal =>
    obtain ⟨u, g, u', hstep⟩ := step_signal h
    exact .inr ⟨i, signal, u, g, u', hstep⟩
  | add | remove => cases alone
  | register | drop | seed | plan | outside =>
    cases h
    exact .inl ⟨rfl, fun _ hu => hu, fun _ hu _ => hu⟩

theorem mem_set_of_mem {α : Type} {l : List α} {i : Nat} {x : α} (hi : l[i]? = some x) (y : α)
    {z : α} (hz : z ∈ l) : z = x ∨ z ∈ l.set i y := by
  obtain ⟨j, hj⟩ := List.mem_iff_getElem?.mp hz
  by_cases hij : i = j
  · subst hij
    exact .inl (Option.some.inj (hj.symm.trans hi))
  · exact .inr (List.mem_iff_getElem?.mpr ⟨j, by rw [List.getElem?_set_ne hij, hj]⟩)

/-- What is like this in the end was so before. -/
theorem Every.of_step {P : Topology.Addresses → Prop} (h : s.step action = some t)
    (ht : t.Every P) (alone : action.isForeign = false) : s.Every P := by
  intro v hv hosts hf
  rcases step_alone alone h with ⟨_, hstay, _⟩ | ⟨i, signal, u, g, u', hi, hr, rfl⟩
  · exact ht v (hstay v hv) hosts hf
  · rcases mem_set_of_mem hi u' hv with rfl | hv
    · have hlt : i < s.refreshes.length := (List.getElem?_eq_some_iff.mp hi).1
      exact ht u' (List.mem_set hlt u') hosts (Reconciliation.found?_mono hr hf)
    · exact ht v hv hosts hf

/-- What becomes of one address, from a fabric on which no refresh has begun. -/
structure Bounded (start : Fabric) (a : Address) (s : Reconciling) : Prop where
  sound : s.Sound
  kept : s.Every (a ∈ ·) → ∀ host, start.store.host? a = some host →
    s.fabric.store.host? a = some host
  gained : s.Every (a ∈ ·) → ∀ u ∈ s.refreshes, u.Applies →
    (s.fabric.store.host? a).isSome ∨ a ∈ u.additions
  lost : s.Every (a ∉ ·) → ∀ u ∈ s.refreshes, u.Applies →
    (s.fabric.store.host? a).isSome → a ∈ u.removals

theorem bounded_begin {f : Fabric} (keyed : f.store.Keyed) (a : Address) :
    Bounded f a ⟨f, []⟩ where
  sound := ⟨keyed, List.forall_mem_nil _⟩
  kept _ _ known := known
  gained _ := List.forall_mem_nil _
  lost _ := List.forall_mem_nil _

/-- A step that leaves the list of hosts as it is. -/
theorem Bounded.same {f : Fabric} (b : Bounded f a s) (sound : t.Sound)
    (back : ∀ P, t.Every P → s.Every P) (same : t.fabric.store.hosts = s.fabric.store.hosts)
    (applying : ∀ u ∈ t.refreshes, u.Applies → u ∈ s.refreshes) : Bounded f a t := by
  have hsame : t.fabric.store.host? a = s.fabric.store.host? a := by
    rw [Store.host?, Store.host?, same]
  refine ⟨sound, fun hall => ?_, fun hall u hu happlies => ?_, fun hall u hu happlies => ?_⟩
  · rw [hsame]
    exact b.kept (back _ hall)
  · rw [hsame]
    exact b.gained (back _ hall) u (applying u hu happlies) happlies
  · rw [hsame]
    exact b.lost (back _ hall) u (applying u hu happlies) happlies

theorem Bounded.step {f : Fabric} (alone : action.isForeign = false)
    (h : s.step action = some t) (b : Bounded f a s) : Bounded f a t := by
  have hsound : t.Sound := b.sound.step h
  have hback : ∀ P, t.Every P → s.Every P := fun P ht => ht.of_step h alone
  rcases step_alone alone h with ⟨hsame, _, happlying⟩ | ⟨i, signal, u, g, u', hi, hr, rfl⟩
  · exact b.same hsound hback hsame happlying
  have hu : u ∈ s.refreshes := List.mem_of_getElem? hi
  have htracked : u.Tracked := b.sound.tracked u hu
  have heffect := Reconciliation.effect_of_resume hr
  refine ⟨hsound, fun ht host known => ?_, fun ht v hv happlies => ?_,
    fun ht v hv happlies known => ?_⟩
  · have hfound := hback _ ht
    exact heffect.retains (htracked.not_mem_removals (hfound u hu)) (b.kept hfound host known)
  · have hfound := hback _ ht
    rcases List.mem_or_eq_of_mem_set hv with hv | rfl
    · refine (b.gained hfound v hv happlies).imp_left fun known => ?_
      obtain ⟨host, hhost⟩ := Option.isSome_iff_exists.mp known
      exact Option.isSome_of_eq_some
        (heffect.retains (htracked.not_mem_removals (hfound u hu)) hhost)
    · exact Reconciliation.gains_of_resume hr b.sound.keyed htracked (hfound u hu)
        (b.gained hfound u hu) happlies
  · have hmissed := hback _ ht
    rcases List.mem_or_eq_of_mem_set hv with hv | rfl
    · exact b.lost hmissed v hv happlies
        (heffect.brings (htracked.not_mem_additions (hmissed u hu)) known)
    · exact Reconciliation.loses_of_resume hr b.sound.keyed htracked (hmissed u hu)
        (b.lost hmissed u hu) happlies known

theorem bounded_of_run {f : Fabric} (keyed : f.store.Keyed) {actions : List Action}
    (alone : ∀ x ∈ actions, x.isForeign = false) (h : run ⟨f, []⟩ actions = some s)
    (a : Address) : Bounded f a s :=
  run_induction (fun hx hstep b => b.step (alone _ hx) hstep) h (bounded_begin keyed a)

theorem Every.of_run {P : Topology.Addresses → Prop} {actions : List Action}
    (alone : ∀ x ∈ actions, x.isForeign = false) (h : s.run actions = some t) (ht : t.Every P) :
    s.Every P := by
  induction actions generalizing s with
  | nil => cases h; exact ht
  | cons action rest ih =>
    obtain ⟨m, hm, h⟩ := Option.bind_eq_some_iff.mp h
    exact (ih (fun x hx => alone x (List.mem_cons_of_mem _ hx)) h).of_step hm
      (alone action List.mem_cons_self)

/-- A refresh that has succeeded has applied all it found, and nothing of it is left to do. -/
theorem Reconciliation.of_ready {u : Reconciliation} {diff : Topology.Diff}
    (h : u.stage = .done (.ok (.ready diff))) :
    u.Applies ∧ u.additions = [] ∧ u.removals = [] := by
  rw [Reconciliation.Applies, Reconciliation.additions, Reconciliation.removals, h]
  exact ⟨trivial, rfl, rfl⟩

/-- After a refresh has succeeded, an address that every refresh has found is known. -/
theorem Bounded.known_of_ready {f : Fabric} {a : Address} (b : Bounded f a s)
    {w : Reconciliation} (hw : w ∈ s.refreshes) {diff : Topology.Diff}
    (ready : w.stage = .done (.ok (.ready diff))) (found : s.Every (a ∈ ·)) :
    a ∈ s.fabric.store.addresses := by
  obtain ⟨happlies, hadditions, _⟩ := Reconciliation.of_ready ready
  refine (Store.mem_addresses b.sound.keyed a).mpr ?_
  rcases b.gained found w hw happlies with known | hmem
  · exact known
  · rw [hadditions] at hmem
    cases hmem

/-- After a refresh has succeeded, an address that no refresh has found is not known. -/
theorem Bounded.unknown_of_ready {f : Fabric} {a : Address} (b : Bounded f a s)
    {w : Reconciliation} (hw : w ∈ s.refreshes) {diff : Topology.Diff}
    (ready : w.stage = .done (.ok (.ready diff))) (missed : s.Every (a ∉ ·)) :
    a ∉ s.fabric.store.addresses := by
  obtain ⟨happlies, _, hremovals⟩ := Reconciliation.of_ready ready
  intro ha
  have hmem := b.lost missed w hw happlies ((Store.mem_addresses b.sound.keyed a).mp ha)
  rw [hremovals] at hmem
  cases hmem

/-- **Refreshes of one store, in any number and their steps in any order, that have all succeeded
while nobody else changed the list of hosts: what every one of them found is known, what none of
them found is not, and a host that was known at the start and that all of them found has had its
record throughout. After a single refresh the known hosts are those it found.** -/
theorem refreshes_converge {f : Fabric} (keyed : f.store.Keyed) {actions : List Action}
    (alone : ∀ x ∈ actions, x.isForeign = false) (h : run ⟨f, []⟩ actions = some s)
    (started : s.refreshes ≠ [])
    (ready : ∀ u ∈ s.refreshes, ∃ diff, u.stage = .done (.ok (.ready diff))) :
    (∀ u ∈ s.refreshes, ∃ hosts, u.found? = some hosts) ∧
    (∀ a, (∀ u ∈ s.refreshes, u.Finds a) → a ∈ s.fabric.store.addresses) ∧
    (∀ a ∈ s.fabric.store.addresses, ∃ u ∈ s.refreshes, u.Finds a) ∧
    (∀ a host, f.store.host? a = some host → (∀ u ∈ s.refreshes, u.Finds a) →
      ∀ before after m, actions = before ++ after → run ⟨f, []⟩ before = some m →
        m.fabric.store.host? a = some host) ∧
    ∀ u, s.refreshes = [u] → ∀ a, a ∈ s.fabric.store.addresses ↔ u.Finds a := by
  have hbounded := bounded_of_run keyed alone h
  have hfound : ∀ u ∈ s.refreshes, ∃ hosts, u.found? = some hosts := fun u hu => by
    obtain ⟨diff, hdiff⟩ := ready u hu
    obtain ⟨hosts, hf, _⟩ := Reconciliation.Stands.applying
      ((hbounded default).sound.tracked u hu) (Reconciliation.of_ready hdiff).1
    exact ⟨hosts, hf⟩
  have hevery : ∀ a, (∀ u ∈ s.refreshes, u.Finds a) → s.Every (a ∈ ·) := by
    intro a hall u hu hosts hf
    obtain ⟨hosts', hf', ha⟩ := hall u hu
    cases hf.symm.trans hf'
    exact ha
  obtain ⟨w, hw⟩ := List.exists_mem_of_ne_nil _ started
  obtain ⟨diff, hready⟩ := ready w hw
  have hgained : ∀ a, (∀ u ∈ s.refreshes, u.Finds a) → a ∈ s.fabric.store.addresses :=
    fun a hall => (hbounded a).known_of_ready hw hready (hevery a hall)
  have hlost : ∀ a ∈ s.fabric.store.addresses, ∃ u ∈ s.refreshes, u.Finds a := by
    intro a ha
    refine Classical.byContradiction fun hnobody => ?_
    have hnone : s.Every (a ∉ ·) := fun u hu hosts hf hmem => hnobody ⟨u, hu, hosts, hf, hmem⟩
    exact (hbounded a).unknown_of_ready hw hready hnone ha
  refine ⟨hfound, hgained, hlost, ?_, fun u hone a => ?_⟩
  · intro a host known hall before after m hsplit hbefore
    subst hsplit
    rw [run_append, hbefore] at h
    have hlater : ∀ x ∈ after, x.isForeign = false := fun x hx =>
      alone x (List.mem_append_right _ hx)
    have hsooner : ∀ x ∈ before, x.isForeign = false := fun x hx =>
      alone x (List.mem_append_left _ hx)
    exact (bounded_of_run keyed hsooner hbefore a).kept
      ((hevery a hall).of_run hlater h) host known
  · constructor
    · intro ha
      obtain ⟨v, hv, hfinds⟩ := hlost a ha
      rw [hone] at hv
      rwa [← List.mem_singleton.mp hv]
    · intro hfinds
      refine hgained a ?_
      rw [hone]
      exact List.forall_mem_singleton.mpr hfinds

/-! A refresh over the first node finds the first and the third, one over the second node finds the
second and the first; the latter removes what the former has added, and the other way round. -/

/-- The node with this number. -/
def node (n : UInt8) : Address := .v4 ⟨10, 0, 0, n⟩ 9042

/-- The answer that names these nodes. -/
def peers (nodes : List UInt8) : Signal :=
  .answered .peers (.ok (.rows (.ofRagged ["peer"] (nodes.map fun n => [some [10, 0, 0, n]]))))

/-- A fabric on which the first two nodes are known. -/
def twoKnown : Fabric := { store := .ofContactPoints [node 1, node 2], balancing := .roundRobin {} }

def crossed : List Action := [
    .start false ⟨0, node 1⟩ 9042, .start false ⟨1, node 2⟩ 9042,
    .signal 0 (peers [3]), .signal 1 (peers [1]), .signal 0 .go, .signal 0 .go,
    .signal 1 .go, .signal 1 .go, .signal 1 .go, .signal 0 .go, .signal 0 .go]

/-- Whether a refresh has done all it found to be done. -/
def hasSucceeded : Progress TopologyStage TopologyRefresh.Result → Bool
  | .done (.ok (.ready _)) => true
  | _ => false

theorem exists_diff {p : Progress TopologyStage TopologyRefresh.Result}
    (h : hasSucceeded p = true) : ∃ diff, p = .done (.ok (.ready diff)) := by
  unfold hasSucceeded at h
  split at h
  · exact ⟨_, rfl⟩
  · cases h

theorem refreshes_converge_crossed : ∃ s, run ⟨twoKnown, []⟩ crossed = some s ∧
    s.refreshes.length = 2 ∧ s.fabric.store.addresses = [node 1] ∧
    ∀ a ∈ s.fabric.store.addresses, ∃ u ∈ s.refreshes, u.Finds a := by
  have hrun : (run ⟨twoKnown, []⟩ crossed).any (fun s => s.refreshes.length = 2 ∧
      s.fabric.store.addresses = [node 1] ∧
      s.refreshes.all fun u => hasSucceeded u.stage) = true := by
    decide +kernel
  obtain ⟨s, hs, hdone⟩ := (Option.any_eq_true _ _).mp hrun
  obtain ⟨htwo, hknown, hready⟩ := of_decide_eq_true hdone
  have hkeyed : twoKnown.store.Keyed := Store.keyed_ofContactPoints _
  have halone : ∀ x ∈ crossed, x.isForeign = false := by decide +kernel
  obtain ⟨_, _, hfound, _⟩ := refreshes_converge hkeyed halone hs
    (List.ne_nil_of_length_eq_add_one htwo) fun u hu =>
      exists_diff (List.all_eq_true.mp hready u hu)
  exact ⟨s, hs, htwo, hknown, hfound⟩

end Reconciling

end ControlChannel
