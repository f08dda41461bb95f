import ControlChannel.Proofs.Membership.Notices

/-! # Listeners see the list of hosts exactly

Whatever refreshes and others do to the list of hosts, every step of it is either no change or one
change that everybody who is registered is told of (`Reconciling.step_cases`). What a listener has
heard since it was registered is therefore the history of the list since then
(`history_of_run`), and the round-robin policy, which follows what it hears, lists the known hosts
once it was told of those that were there (`Seeding`). Main statement:
`Reconciling.listeners_follow`. -/

namespace ControlChannel

namespace Store

theorem mem_hosts {s : Store} (h : s.Keyed) (a : Address) : a ∈ s.addresses ↔ a ∈ s.hosts := by
  rw [mem_addresses h, host?, Std.ExtTreeMap.isSome_getElem?_iff_mem]

theorem nodup_addresses {s : Store} (h : s.Keyed) : s.addresses.Nodup := by
  rw [addresses, allHosts, List.map_map, List.Nodup, List.pairwise_map]
  refine (Std.ExtTreeMap.distinct_keys_toList (t := s.hosts)).imp_of_mem ?_
  intro x y hx hy hne e
  have hkey : ∀ z ∈ s.hosts.toList, z.2.address = z.1 := fun z hz =>
    h z.1 z.2 (Std.ExtTreeMap.mem_toList_iff_getElem?_eq_some.mp hz)
  have hxy : x.1 = y.1 := by rw [← hkey x hx, ← hkey y hy]; exact e
  exact hne (hxy ▸ Std.ReflCmp.compare_self)

theorem AllUp.filter_allHosts {s : Store} (h : s.AllUp) :
    s.allHosts.filter (·.up) = s.allHosts := by
  refine List.filter_eq_self.mpr fun host hhost => ?_
  obtain ⟨⟨a, _⟩, hmem, rfl⟩ := List.mem_map.mp hhost
  exact h a _ (Std.ExtTreeMap.mem_toList_iff_getElem?_eq_some.mp hmem)

end Store

namespace RoundRobin

variable {r : RoundRobin}

theorem nodup_follow (h : r.live.Nodup) (c : Change) : (r.follow c).live.Nodup := by
  cases c with
  | joined host => exact nodup_join h host.address
  | left host => exact nodup_leave h host.address

theorem mem_follow (r : RoundRobin) (c : Change) (a : Address) :
    a ∈ (r.follow c).live ↔ if c.address = a then c.joins = true else a ∈ r.live := by
  cases c with
  | joined host =>
    rw [follow, mem_join]
    simp only [Change.address, Change.host, Change.joins]
    grind
  | left host =>
    rw [follow, mem_leave]
    simp only [Change.address, Change.host, Change.joins]
    grind

theorem nodup_joins (addresses : List Address) (h : r.live.Nodup) :
    (addresses.foldl join r).live.Nodup := by
  induction addresses generalizing r with
  | nil => exact h
  | cons a addresses ih => exact ih (nodup_join h a)

theorem mem_joins (addresses : List Address) (r : RoundRobin) (a : Address) :
    a ∈ (addresses.foldl join r).live ↔ a ∈ r.live ∨ a ∈ addresses := by
  induction addresses generalizing r with
  | nil => simp
  | cons b addresses ih => rw [List.foldl_cons, ih, mem_join, List.mem_cons, or_assoc]

/-- Told of the hosts at the start, the policy takes in those that are up. -/
theorem start_eq (r : RoundRobin) (hosts : List Host) :
    (Balancing.roundRobin r).start hosts =
      .roundRobin (((hosts.filter (·.up)).map (·.address)).foldl join r) := by
  have hfold : ∀ (hosts : List Host) (r : RoundRobin),
      hosts.foldl (fun b h => b.join h.address) (.roundRobin r) =
        Balancing.roundRobin ((hosts.map (·.address)).foldl join r) := by
    intro hosts
    induction hosts with
    | nil => exact fun _ => rfl
    | cons host hosts ih => exact fun r => ih (r.join host.address)
  exact hfold _ r

end RoundRobin

theorem Fabric.heardBy_append {f g : Fabric} {c : Change}
    (h : g.heard = f.heard ++ f.store.recorders.map (·, c)) (name : String) :
    g.heardBy name =
      f.heardBy name ++ List.replicate (f.store.listeners.count (.recorder name)) c := by
  rw [heardBy, h, List.filterMap_append, ← heardBy]
  congr 1
  rw [Store.recorders]
  induction f.store.listeners with
  | nil => rfl
  | cons l ls ih =>
    cases l with
    | balancing | silent _ =>
      rw [List.filterMap_cons_none rfl, List.count_cons_of_ne (fun e => by cases e)]
      exact ih
    | recorder other =>
      by_cases hother : other = name
      · simpa [Listener.recorder?, hother, List.replicate_succ] using ih
      · simpa [Listener.recorder?, hother] using ih

namespace Reconciling

/-- Who listens after this was done. -/
def Action.listeners (listeners : List Listener) : Action → List Listener
  | .register l => listeners ++ [l]
  | .drop l => listeners.filter (· != l)
  | _ => listeners

/-- The policy after this was done, if the list of hosts has not changed. -/
def Action.balancing (f : Fabric) : Action → Balancing
  | .seed => f.balancing.start f.store.allHosts
  | .plan => f.balancing.plan.2
  | _ => f.balancing

/-- Nothing happens to the list of hosts, and nobody hears anything. -/
structure Calm (action : Action) (f g : Fabric) : Prop where
  hosts : g.store.hosts = f.store.hosts
  heard : g.heard = f.heard
  balancing : g.balancing = action.balancing f

variable {s t : Reconciling} {action : Action}

/-- One step does nothing to the list of hosts, or it is one change that is announced. -/
theorem step_cases (keyed : s.fabric.store.Keyed) (h : s.step action = some t) :
    t.fabric.store.listeners = action.listeners s.fabric.store.listeners ∧
      (Calm action s.fabric t.fabric ∨
        (action ≠ .seed ∧ ∃ c, s.fabric.Announces t.fabric c)) := by
  have hchange : ∀ g : Fabric, action.listeners s.fabric.store.listeners =
      s.fabric.store.listeners → action.balancing s.fabric = s.fabric.balancing →
      action ≠ .seed → (g = s.fabric ∨ ∃ c, s.fabric.Announces g c) →
      g.store.listeners = action.listeners s.fabric.store.listeners ∧
      (Calm action s.fabric g ∨ (action ≠ .seed ∧ ∃ c, s.fabric.Announces g c)) := by
    rintro g hlisteners hbalancing hseed (rfl | ⟨c, hc⟩)
    · exact ⟨hlisteners.symm, .inl ⟨rfl, rfl, hbalancing.symm⟩⟩
    · exact ⟨hc.listeners.trans hlisteners.symm, .inr ⟨hseed, c, hc⟩⟩
  cases action with
  | start cancelled link port =>
    cases h
    cases cancelled with
    | true => exact ⟨rfl, .inl ⟨rfl, rfl, rfl⟩⟩
    | false => exact ⟨rfl, .inl ⟨rfl, (s.fabric.heard_note _).trans (List.append_nil _), rfl⟩⟩
  | signal i signal =>
    obtain ⟨u, g, u', _, hr, rfl⟩ := step_signal h
    obtain ⟨stage, _, _, _, _, m⟩ := Reconciliation.moves_of_resume hr
    refine hchange g rfl rfl (fun e => by cases e) ?_
    cases m.effect with
    | none => exact .inl rfl
    | added _ => exact s.fabric.announces_addHost _
    | removed _ => exact Fabric.announces_removeHost keyed _
  | add a =>
    cases h
    exact hchange _ rfl rfl (fun e => by cases e) (s.fabric.announces_addHost a)
  | remove a =>
    cases h
    exact hchange _ rfl rfl (fun e => by cases e) (Fabric.announces_removeHost keyed a)
  | register | drop | seed | plan | outside => cases h; exact ⟨rfl, .inl ⟨rfl, rfl, rfl⟩⟩

/-! ## What is heard -/

/-- Who is registered stays registered as often, unless it is registered anew or dropped. -/
theorem Action.count_listeners {action : Action} {l : Listener} {listeners : List Listener}
    (fresh : action ≠ .register l) (alive : listeners.count l ≠ 0 → action ≠ .drop l) :
    (action.listeners listeners).count l = listeners.count l := by
  cases action with
  | register other =>
    have hne : other ≠ l := fun e => fresh (e ▸ rfl)
    simp [Action.listeners, hne]
  | drop other =>
    by_cases he : other = l
    · subst he
      have hzero : listeners.count other = 0 := by
        by_contra hne
        exact alive hne rfl
      rw [Action.listeners, hzero, List.count_eq_zero]
      simp
    · rw [Action.listeners, List.count_filter]
      simp [Ne.symm he]
  | start | signal | add | remove | seed | plan | outside => rfl

/-- A recorder that is registered `n` times hears of every change `n` times. -/
theorem history_of_run {name : String} {during : List Action} {n : Nat}
    (keyed : s.fabric.store.Keyed)
    (registered : s.fabric.store.listeners.count (.recorder name) = n)
    (fresh : ∀ x ∈ during, x ≠ .register (.recorder name))
    (alive : n ≠ 0 → ∀ x ∈ during, x ≠ .drop (.recorder name)) (h : s.run during = some t) :
    ∃ changes, Change.History s.fabric.store.hosts changes t.fabric.store.hosts ∧
      t.fabric.heardBy name = s.fabric.heardBy name ++ changes.flatMap (List.replicate n) := by
  induction during generalizing s with
  | nil =>
    cases h
    exact ⟨[], .nil, (List.append_nil _).symm⟩
  | cons action rest ih =>
    obtain ⟨m, hm, h⟩ := Option.bind_eq_some_iff.mp h
    obtain ⟨hlisteners, hcase⟩ := step_cases keyed hm
    have hcount : m.fabric.store.listeners.count (.recorder name) = n := by
      rw [hlisteners, Action.count_listeners (fresh action List.mem_cons_self), registered]
      exact fun hne => alive (registered ▸ hne) action List.mem_cons_self
    obtain ⟨changes, hhistory, hheard⟩ := ih (keyed_of_step hm keyed) hcount
      (fun x hx => fresh x (List.mem_cons_of_mem _ hx))
      (fun hn x hx => alive hn x (List.mem_cons_of_mem _ hx)) h
    rcases hcase with hcalm | ⟨_, c, hc⟩
    · rw [hcalm.hosts] at hhistory
      rw [Fabric.heardBy_congr hcalm.heard] at hheard
      exact ⟨changes, hhistory, hheard⟩
    · refine ⟨c :: changes, .cons hc.happens hhistory, ?_⟩
      rw [hheard, Fabric.heardBy_append hc.heard, registered, List.append_assoc]
      rfl

/-! ## What the policy lists -/

/-- The policy is registered and lists known hosts only; once it was told of those that were there,
it lists all of them. -/
structure Seeding (seeded : Prop) (s : Reconciling) : Prop where
  keyed : s.fabric.store.Keyed
  up : s.fabric.store.AllUp
  registered : .balancing ∈ s.fabric.store.listeners
  lists : ∃ r, s.fabric.balancing = .roundRobin r ∧ r.live.Nodup ∧
    (∀ a ∈ r.live, a ∈ s.fabric.store.hosts) ∧
    (seeded → ∀ a ∈ s.fabric.store.hosts, a ∈ r.live)

variable {seeded : Prop}

theorem Seeding.mono {later : Prop} (hs : s.Seeding seeded) (h : later → seeded) :
    s.Seeding later := by
  obtain ⟨r, hr, hnodup, hlisted, hall⟩ := hs.lists
  exact ⟨hs.keyed, hs.up, hs.registered, r, hr, hnodup, hlisted, fun hp => hall (h hp)⟩

theorem Seeding.step (hs : s.Seeding seeded) (alive : action ≠ .drop .balancing)
    (h : s.step action = some t) : t.Seeding (seeded ∨ action = .seed) := by
  obtain ⟨hlisteners, hcase⟩ := step_cases hs.keyed h
  obtain ⟨r, hr, hnodup, hlisted, hall⟩ := hs.lists
  have hregistered : .balancing ∈ t.fabric.store.listeners := by
    rw [hlisteners]
    cases action with
    | register l => exact List.mem_append_left _ hs.registered
    | drop l =>
      have hne : Listener.balancing ≠ l := fun e => alive (e ▸ rfl)
      exact List.mem_filter.mpr ⟨hs.registered, by simpa using hne⟩
    | start | signal | add | remove | seed | plan | outside => exact hs.registered
  refine ⟨keyed_of_step h hs.keyed, allUp_of_step h hs.up, hregistered, ?_⟩
  rcases hcase with hcalm | ⟨hseed, c, hc⟩
  · rw [hcalm.hosts, hcalm.balancing]
    cases action with
    | seed =>
      have hmem := fun a => RoundRobin.mem_joins s.fabric.store.addresses r a
      refine ⟨_, ?_, RoundRobin.nodup_joins s.fabric.store.addresses hnodup, fun a ha => ?_,
        fun _ a ha => ?_⟩
      · rw [Action.balancing, hr, RoundRobin.start_eq, hs.up.filter_allHosts]
        rfl
      · rcases (hmem a).mp ha with ha | ha
        · exact hlisted a ha
        · exact (Store.mem_hosts hs.keyed a).mp ha
      · exact (hmem a).mpr (.inr ((Store.mem_hosts hs.keyed a).mpr ha))
    | plan =>
      refine ⟨r.plan.2, ?_, ?_, ?_, fun hp => ?_⟩
      · rw [Action.balancing, hr]
        rfl
      · rwa [r.live_plan]
      · rwa [r.live_plan]
      · rw [r.live_plan]
        exact hall (hp.resolve_right fun e => by cases e)
    | start | signal | add | remove | register | drop | outside =>
      exact ⟨r, hr, hnodup, hlisted, fun hp => hall (hp.resolve_right fun e => by cases e)⟩
  · refine ⟨r.follow c, ?_, RoundRobin.nodup_follow hnodup c, fun a => ?_, fun hp a => ?_⟩
    · rw [hc.balancing r hr, if_pos hs.registered]
    · rw [RoundRobin.mem_follow, hc.happens.mem_iff]
      split
      · exact id
      · exact hlisted a
    · rw [RoundRobin.mem_follow, hc.happens.mem_iff]
      split
      · exact id
      · exact hall (hp.resolve_right hseed) a

theorem Seeding.run {during : List Action} (hs : s.Seeding seeded)
    (alive : ∀ x ∈ during, x ≠ .drop .balancing) (h : s.run during = some t) :
    t.Seeding (seeded ∨ .seed ∈ during) := by
  induction during generalizing s seeded with
  | nil =>
    cases h
    exact hs.mono fun hp => hp.resolve_right List.not_mem_nil
  | cons action rest ih =>
    obtain ⟨m, hm, h⟩ := Option.bind_eq_some_iff.mp h
    refine (ih (hs.step (alive action List.mem_cons_self) hm)
      (fun x hx => alive x (List.mem_cons_of_mem _ hx)) h).mono fun hp => ?_
    rcases hp with hp | hmem
    · exact .inl (.inl hp)
    · rcases List.mem_cons.mp hmem with hmem | hmem
      · exact .inl (.inr hmem.symm)
      · exact .inr hmem

/-- A plan of a policy that was told of all hosts lists each of them once. -/
theorem Seeding.plan_perm (hs : s.Seeding seeded) (h : seeded) :
    s.fabric.takePlan.1.Perm s.fabric.store.addresses := by
  obtain ⟨r, hr, hnodup, hlisted, hall⟩ := hs.lists
  have hplan : s.fabric.takePlan.1 = r.plan.1 := by rw [Fabric.takePlan, hr]; rfl
  rw [hplan]
  refine r.plan_perm.trans ?_
  refine (List.perm_ext_iff_of_nodup hnodup (Store.nodup_addresses hs.keyed)).mpr fun a => ?_
  rw [Store.mem_hosts hs.keyed]
  exact ⟨hlisted a, hall h a⟩

/-- **A recorder that is registered once and kept has heard, since then, the history of the list of
hosts: its notices turn the list as it was into the list as it is, for each address joining and
leaving in turn, with the records that the store put in or took out. In each step there is no change
and no notice, or one change that every recorder is told of, in the order of registration. A
recorder that was dropped hears nothing more. A round-robin policy that is registered and was told
of the hosts, all of them up, plans with every known host and with no other.** -/
theorem listeners_follow (keyed : s.fabric.store.Keyed) :
    (∀ name during t, .recorder name ∉ s.fabric.store.listeners →
      (∀ x ∈ during, x ≠ .register (.recorder name) ∧ x ≠ .drop (.recorder name)) →
      s.run (.register (.recorder name) :: during) = some t →
      ∃ changes, t.fabric.heardBy name = s.fabric.heardBy name ++ changes ∧
        Change.History s.fabric.store.hosts changes t.fabric.store.hosts ∧
        changes.foldl Change.apply s.fabric.store.hosts = t.fabric.store.hosts ∧
        ∀ a, (Change.turns s.fabric.store.hosts a changes).IsChain (· ≠ ·)) ∧
    (∀ action t, s.step action = some t →
      (t.fabric.store.hosts = s.fabric.store.hosts ∧ t.fabric.heard = s.fabric.heard) ∨
      ∃ c, Change.Happens s.fabric.store.hosts c t.fabric.store.hosts ∧
        t.fabric.heard = s.fabric.heard ++ s.fabric.store.recorders.map (·, c)) ∧
    (∀ name during t, (∀ x ∈ during, x ≠ .register (.recorder name)) →
      s.run (.drop (.recorder name) :: during) = some t →
      t.fabric.heardBy name = s.fabric.heardBy name) ∧
    ∀ r during t, s.fabric.balancing = .roundRobin r → r.live.Nodup →
      (∀ a ∈ r.live, a ∈ s.fabric.store.addresses) → s.fabric.store.AllUp →
      (∀ x ∈ during, x ≠ .drop .balancing) →
      (.seed ∈ during ∨ ∀ a ∈ s.fabric.store.addresses, a ∈ r.live) →
      s.run (.register .balancing :: during) = some t →
      t.fabric.takePlan.1.Perm t.fabric.store.addresses := by
  refine ⟨?_, ?_, ?_, ?_⟩
  · intro name during t hfresh halive h
    obtain ⟨m, hm, h⟩ := Option.bind_eq_some_iff.mp h
    cases hm
    have honce : (s.fabric.store.listeners ++ [Listener.recorder name]).count
        (.recorder name) = 1 := by
      rw [List.count_append, List.count_eq_zero.mpr hfresh, List.count_singleton_self]
    obtain ⟨changes, hhistory, hheard⟩ := history_of_run
      (s := s.withStore (s.fabric.store.register (.recorder name))) keyed honce
      (fun x hx => (halive x hx).1) (fun _ x hx => (halive x hx).2) h
    have heach : changes.flatMap (List.replicate 1) = changes := List.flatMap_singleton' _
    rw [heach] at hheard
    exact ⟨changes, hheard, hhistory, hhistory.foldl_eq, hhistory.alternates⟩
  · intro action t h
    obtain ⟨_, hcalm | ⟨_, c, hc⟩⟩ := step_cases keyed h
    · exact .inl ⟨hcalm.hosts, hcalm.heard⟩
    · exact .inr ⟨c, hc.happens, hc.heard⟩
  · intro name during t hfresh h
    obtain ⟨m, hm, h⟩ := Option.bind_eq_some_iff.mp h
    cases hm
    have hnever : (s.fabric.store.listeners.filter (· != Listener.recorder name)).count
        (.recorder name) = 0 := by
      rw [List.count_eq_zero]
      simp
    obtain ⟨changes, _, hheard⟩ := history_of_run
      (s := s.withStore (s.fabric.store.drop (.recorder name))) keyed hnever hfresh
      (fun hne => absurd rfl hne) h
    have hnone : changes.flatMap (List.replicate 0) = [] := by simp
    rwa [hnone, List.append_nil] at hheard
  · intro r during t hr hnodup hlisted hup halive hseeded h
    obtain ⟨m, hm, h⟩ := Option.bind_eq_some_iff.mp h
    cases hm
    have hs : (s.withStore (s.fabric.store.register .balancing)).Seeding
        (∀ a ∈ s.fabric.store.addresses, a ∈ r.live) := by
      refine ⟨keyed, hup, List.mem_append_right _ (List.mem_singleton_self _), r, hr, hnodup,
        fun a ha => (Store.mem_hosts keyed a).mp (hlisted a ha), fun hall a ha => ?_⟩
      exact hall a ((Store.mem_hosts keyed a).mpr ha)
    exact (hs.run halive h).plan_perm hseeded.symm

/-! One host joins, leaves and comes back, another joins twice; a refresh is cancelled at once. -/

def unheard : Fabric := { balancing := .roundRobin {} }

def busy : List Action :=
  let first : Address := .v4 ⟨10, 0, 0, 1⟩ 9042
  let second : Address := .v4 ⟨10, 0, 0, 2⟩ 9042
  [.seed, .add first, .start true ⟨0, first⟩ 9042, .remove first, .add first, .add second,
    .add second]

theorem listeners_follow_busy :
    (∃ t changes, run ⟨unheard, []⟩ (.register (.recorder "log") :: busy) = some t ∧
      t.fabric.heardBy "log" = changes ∧ changes.length = 4 ∧
      changes.foldl Change.apply ∅ = t.fabric.store.hosts) ∧
    ∃ t, run ⟨unheard, []⟩ (.register .balancing :: busy) = some t ∧
      t.fabric.takePlan.1.length = 2 ∧ t.fabric.takePlan.1.Perm t.fabric.store.addresses := by
  have hkeyed : unheard.store.Keyed := Store.keyed_ofContactPoints []
  have hup : unheard.store.AllUp := fun a host h => by cases h
  obtain ⟨hheard, _, _, hplan⟩ := listeners_follow (s := ⟨unheard, []⟩) hkeyed
  constructor
  · have hrun : (run ⟨unheard, []⟩ (.register (.recorder "log") :: busy)).any
        (fun t => (t.fabric.heardBy "log").length = 4) = true := by decide +kernel
    obtain ⟨t, ht, hfour⟩ := (Option.any_eq_true _ _).mp hrun
    obtain ⟨changes, hchanges, _, hfold, _⟩ := hheard "log" busy t (by decide)
      (by simp [busy]) ht
    have hbefore : unheard.heardBy "log" = [] := rfl
    rw [hbefore, List.nil_append] at hchanges
    exact ⟨t, changes, ht, hchanges, hchanges ▸ of_decide_eq_true hfour, hfold⟩
  · have hrun : (run ⟨unheard, []⟩ (.register .balancing :: busy)).any
        (fun t => t.fabric.takePlan.1.length = 2) = true := by decide +kernel
    obtain ⟨t, ht, htwo⟩ := (Option.any_eq_true _ _).mp hrun
    exact ⟨t, ht, of_decide_eq_true htwo, hplan {} busy t rfl List.nodup_nil
      (List.forall_mem_nil _) hup (by simp [busy]) (.inl List.mem_cons_self) ht⟩

end Reconciling

end ControlChannel
