import ControlChannel.Proofs.Membership.Notices

/-! # Several changes of the host list in a row

Hosts are added one after another, or removed, and the listeners are told of each change
(`Fabric.Tells` says what that does to the fabric as a whole, what the recorders hear and what the
policy becomes). Main statement: what applying a whole difference comes to, for the list of hosts
(`isSome_reconcile`, `host?_reconcile_of_known`), for the listeners (`tells_reconcile`) and for a
round-robin policy (`follow_reconciled`). -/

namespace ControlChannel

theorem Store.recordOf_eq {s : Store} {a : Address} {host : Host} (h : s.host? a = some host) :
    s.recordOf a = host := by
  rw [recordOf, h, Option.getD_some]

theorem Store.recordOf_congr {s t : Store} {a : Address} (same : t.host? a = s.host? a)
    (known : (s.host? a).isSome) : t.recordOf a = s.recordOf a := by
  obtain ⟨host, hhost⟩ := Option.isSome_iff_exists.mp known
  rw [recordOf_eq hhost, recordOf_eq (same.trans hhost)]

theorem Store.Keyed.address_recordOf {s : Store} (keyed : s.Keyed) (a : Address) :
    (s.recordOf a).address = a := by
  cases hhost : s.host? a with
  | none => rw [recordOf, hhost, Option.getD_none]
  | some host => rw [recordOf_eq hhost, keyed a host hhost]

namespace RoundRobin

variable {addresses : List Address}

theorem foldl_join (nodup : addresses.Nodup) (r : RoundRobin) :
    addresses.foldl join r = { r with live := r.live ++ addresses.filter (· ∉ r.live) } := by
  induction addresses generalizing r with
  | nil => simp
  | cons a rest ih =>
    obtain ⟨hfresh, hrest⟩ := List.nodup_cons.mp nodup
    rw [List.foldl_cons, ih hrest, join]
    by_cases ha : a ∈ r.live
    · rw [if_pos ha, List.filter_cons_of_neg (by simpa using ha)]
    · have hsame : (rest.filter fun b => b ∉ r.live ++ [a]) = rest.filter fun b => b ∉ r.live := by
        refine List.filter_congr fun b hb => ?_
        have hne : b ≠ a := fun e => hfresh (e ▸ hb)
        simp [hne]
      rw [if_neg ha, List.filter_cons_of_pos (by simpa using ha)]
      simp only [hsame, List.append_assoc, List.singleton_append]

theorem foldl_leave (r : RoundRobin) :
    addresses.foldl leave r = { r with live := r.live.filter (· ∉ addresses) } := by
  induction addresses generalizing r with
  | nil => simp
  | cons a rest ih =>
    rw [List.foldl_cons, ih, leave, List.filter_filter]
    refine congrArg (RoundRobin.mk · r.turn) (List.filter_congr fun b _ => ?_)
    by_cases hb : b = a <;> simp [hb]

end RoundRobin

namespace Topology

theorem rank_lt_toList (hosts : Addresses) :
    hosts.toList.Pairwise (·.rank < ·.rank) := by
  have hordered : hosts.toList.Pairwise fun a b => compare a b = .lt :=
    Std.ExtTreeSet.ordered_toList
  exact hordered.imp fun h => Nat.compare_eq_lt.mp h

theorem nodup_toList (hosts : Addresses) : hosts.toList.Nodup := by
  refine (rank_lt_toList hosts).imp fun {a b} h e => ?_
  subst e
  exact Nat.lt_irrefl _ h

end Topology

/-! ## Telling the listeners -/

namespace Fabric

variable {f g h : Fabric} {changes more : List Change} {a b : Address} {host : Host}
variable {addresses : List Address}

/-- These changes were told to the listeners, one after another, and apart from the store nothing
else happened. Every recorder has heard of each change after what was heard before, in the order of
registration, and a policy that is registered has followed the changes. -/
structure Tells (f : Fabric) (changes : List Change) (g : Fabric) : Prop where
  fabric : g = (changes.flatMap f.store.tellAll).foldl deliver { f with store := g.store }
  listeners : g.store.listeners = f.store.listeners
  heard : g.heard = f.heard ++ changes.flatMap fun c => f.store.recorders.map (·, c)
  balancing : g.balancing = if .balancing ∈ f.store.listeners then
    changes.foldl Balancing.follow f.balancing else f.balancing

theorem heard_foldl_tellAll (s : Store) (changes : List Change) (f : Fabric) :
    ((changes.flatMap s.tellAll).foldl deliver f).heard =
      f.heard ++ changes.flatMap fun c => s.recorders.map (·, c) := by
  induction changes generalizing f with
  | nil => exact (List.append_nil _).symm
  | cons c rest ih =>
    rw [List.flatMap_cons, List.foldl_append, ih, Store.tellAll, heard_tell, List.append_assoc]
    rfl

theorem balancing_foldl_tellAll (s : Store) (changes : List Change) (f : Fabric) :
    ((changes.flatMap s.tellAll).foldl deliver f).balancing = if .balancing ∈ s.listeners then
      changes.foldl Balancing.follow f.balancing else f.balancing := by
  induction changes generalizing f with
  | nil => exact (ite_self _).symm
  | cons c rest ih =>
    rw [List.flatMap_cons, List.foldl_append, ih, Store.tellAll, balancing_tell, List.foldl_cons]
    split <;> rfl

theorem tells_of_delivered
    (delivered : g = (changes.flatMap f.store.tellAll).foldl deliver { f with store := g.store })
    (listeners : g.store.listeners = f.store.listeners) : f.Tells changes g where
  fabric := delivered
  listeners := listeners
  heard := (congrArg heard delivered).trans (heard_foldl_tellAll _ _ _)
  balancing := (congrArg Fabric.balancing delivered).trans (balancing_foldl_tellAll _ _ _)

theorem withStore_deliver (f : Fabric) (n : Notice) (store : Store) :
    { f.deliver n with store } = { f with store }.deliver n := by
  obtain ⟨l, c⟩ := n
  cases l with
  | balancing => cases c <;> rfl
  | recorder | silent => rfl

theorem withStore_foldl_deliver (notices : List Notice) (f : Fabric) (store : Store) :
    { notices.foldl deliver f with store } = notices.foldl deliver { f with store } := by
  induction notices generalizing f with
  | nil => rfl
  | cons n ns ih => rw [List.foldl_cons, ih, withStore_deliver, List.foldl_cons]

theorem tells_nothing (f : Fabric) : f.Tells [] f := tells_of_delivered rfl rfl

theorem Tells.trans (hf : f.Tells changes g) (hg : g.Tells more h) :
    f.Tells (changes ++ more) h := by
  have hsame : g.store.tellAll = f.store.tellAll := by
    funext c
    rw [Store.tellAll, hf.listeners, ← Store.tellAll]
  have hfirst : { g with store := h.store } =
      (changes.flatMap f.store.tellAll).foldl deliver { f with store := h.store } :=
    (congrArg (fun x : Fabric => { x with store := h.store }) hf.fabric).trans
      (withStore_foldl_deliver _ _ _)
  refine tells_of_delivered ?_ (hg.listeners.trans hf.listeners)
  rw [List.flatMap_append, List.foldl_append, ← hfirst, ← hsame]
  exact hg.fabric

theorem tells_addHost (unknown : f.store.host? a = none) :
    f.Tells [.joined (f.store.addHost a).host] (f.addHost a) := by
  refine tells_of_delivered ?_ ?_
  · rw [store_addHost, List.flatMap_singleton]
    have hnotices := f.store.notices_addHost a
    rw [unknown, Option.isSome_none, if_neg Bool.false_ne_true] at hnotices
    rw [← hnotices]
    rfl
  · rw [store_addHost, Store.addHost, unknown]
    rfl

theorem tells_removeHost (known : f.store.host? a = some host) :
    f.Tells [.left host] (f.removeHost a) := by
  refine tells_of_delivered ?_ ?_
  · rw [store_removeHost, List.flatMap_singleton, removeHost, Store.removeHost, known]
  · rw [store_removeHost, Store.removeHost, known]

/-! ## Adding and removing several hosts -/

theorem host?_addHosts_of_notMem (h : a ∉ addresses) :
    (addresses.foldl addHost f).store.host? a = f.store.host? a := by
  induction addresses generalizing f with
  | nil => rfl
  | cons b rest ih =>
    rw [List.mem_cons, not_or] at h
    obtain ⟨hne, hrest⟩ := h
    rw [List.foldl_cons, ih hrest, store_addHost, Store.host?_addHost, if_neg (Ne.symm hne)]

theorem host?_addHosts_of_known (known : f.store.host? a = some host) :
    (addresses.foldl addHost f).store.host? a = some host := by
  induction addresses generalizing f with
  | nil => exact known
  | cons b rest ih =>
    refine ih ?_
    rw [store_addHost, Store.host?_addHost]
    split
    · rename_i hba
      subst hba
      rw [Store.addHost_known known]
    · exact known

theorem isSome_addHosts : ((addresses.foldl addHost f).store.host? a).isSome ↔
    a ∈ addresses ∨ (f.store.host? a).isSome := by
  induction addresses generalizing f with
  | nil => simp
  | cons b rest ih =>
    rw [List.foldl_cons, ih, store_addHost, Store.host?_addHost, List.mem_cons]
    grind

theorem host?_removeHosts : (addresses.foldl removeHost f).store.host? a =
    if a ∈ addresses then none else f.store.host? a := by
  induction addresses generalizing f with
  | nil => rw [if_neg List.not_mem_nil]; rfl
  | cons b rest ih =>
    rw [List.foldl_cons, ih, store_removeHost, Store.host?_removeHost]
    grind

theorem keyed_addHosts (keyed : f.store.Keyed) : (addresses.foldl addHost f).store.Keyed := by
  induction addresses generalizing f with
  | nil => exact keyed
  | cons b rest ih => exact ih (f.store_addHost b ▸ keyed.addHost b)

theorem keyed_removeHosts (keyed : f.store.Keyed) :
    (addresses.foldl removeHost f).store.Keyed := by
  induction addresses generalizing f with
  | nil => exact keyed
  | cons b rest ih => exact ih (f.store_removeHost b ▸ keyed.removeHost b)

theorem tells_addHosts (unknown : ∀ a ∈ addresses, f.store.host? a = none)
    (nodup : addresses.Nodup) :
    f.Tells (addresses.map fun a => .joined ((addresses.foldl addHost f).store.recordOf a))
      (addresses.foldl addHost f) := by
  induction addresses generalizing f with
  | nil => exact f.tells_nothing
  | cons a rest ih =>
    obtain ⟨hfresh, hrest⟩ := List.nodup_cons.mp nodup
    have hunknown : ∀ b ∈ rest, (f.addHost a).store.host? b = none := fun b hb => by
      have hne : a ≠ b := fun e => hfresh (e ▸ hb)
      rw [store_addHost, Store.host?_addHost, if_neg hne]
      exact unknown b (List.mem_cons_of_mem a hb)
    have hrecord : (rest.foldl addHost (f.addHost a)).store.host? a =
        some (f.store.addHost a).host := by
      rw [host?_addHosts_of_notMem hfresh, store_addHost, Store.host?_addHost, if_pos rfl]
    rw [List.map_cons, List.foldl_cons, Store.recordOf_eq hrecord]
    exact (tells_addHost (unknown a List.mem_cons_self)).trans (ih hunknown hrest)

theorem tells_removeHosts (known : ∀ a ∈ addresses, (f.store.host? a).isSome)
    (nodup : addresses.Nodup) :
    f.Tells (addresses.map fun a => .left (f.store.recordOf a))
      (addresses.foldl removeHost f) := by
  induction addresses generalizing f with
  | nil => exact f.tells_nothing
  | cons a rest ih =>
    obtain ⟨hfresh, hrest⟩ := List.nodup_cons.mp nodup
    obtain ⟨host, hhost⟩ := Option.isSome_iff_exists.mp (known a List.mem_cons_self)
    have hsame : ∀ b ∈ rest, (f.removeHost a).store.host? b = f.store.host? b := fun b hb => by
      have hne : a ≠ b := fun e => hfresh (e ▸ hb)
      rw [store_removeHost, Store.host?_removeHost, if_neg hne]
    have hknown : ∀ b ∈ rest, ((f.removeHost a).store.host? b).isSome := fun b hb =>
      (hsame b hb).symm ▸ known b (List.mem_cons_of_mem a hb)
    have hlater : (rest.map fun b => Change.left (f.store.recordOf b)) =
        rest.map fun b => .left ((f.removeHost a).store.recordOf b) :=
      List.map_congr_left fun b hb =>
        congrArg Change.left (Store.recordOf_congr (hsame b hb).symm (hknown b hb))
    rw [List.map_cons, List.foldl_cons, Store.recordOf_eq hhost, hlater]
    exact (tells_removeHost hhost).trans (ih hknown hrest)

/-- All hosts to add are added, and then all hosts to remove are removed. -/
def reconcile (f : Fabric) (diff : Topology.Diff) : Fabric :=
  diff.toRemove.toList.foldl removeHost (diff.toAdd.toList.foldl addHost f)

/-- What there is to tell of a difference between two fabrics: each host added, with the record that
is there now, and then each host removed, with the record that was there before. -/
def differences (before now : Fabric) (diff : Topology.Diff) : List Change :=
  (diff.toAdd.toList.map fun a => .joined (now.store.recordOf a)) ++
    diff.toRemove.toList.map fun a => .left (before.store.recordOf a)

variable {diff : Topology.Diff}

theorem keyed_reconcile (keyed : f.store.Keyed) : (f.reconcile diff).store.Keyed :=
  keyed_removeHosts (keyed_addHosts keyed)

theorem isSome_reconcile : ((f.reconcile diff).store.host? a).isSome ↔
    a ∉ diff.toRemove ∧ (a ∈ diff.toAdd ∨ (f.store.host? a).isSome) := by
  rw [reconcile, host?_removeHosts, ← Std.ExtTreeSet.mem_toList, ← Std.ExtTreeSet.mem_toList]
  split
  · simp [*]
  · rw [isSome_addHosts]
    exact (and_iff_right ‹_›).symm

theorem host?_reconcile_of_known (known : f.store.host? a = some host)
    (stays : a ∉ diff.toRemove) : (f.reconcile diff).store.host? a = some host := by
  rw [reconcile, host?_removeHosts, if_neg fun h => stays (Std.ExtTreeSet.mem_toList.mp h)]
  exact host?_addHosts_of_known known

/-- Everybody hears of each host added and then of each host removed. -/
theorem tells_reconcile (unknown : ∀ a ∈ diff.toAdd, f.store.host? a = none)
    (known : ∀ a ∈ diff.toRemove, (f.store.host? a).isSome) :
    f.Tells (f.differences (f.reconcile diff) diff) (f.reconcile diff) := by
  obtain ⟨added, hadded⟩ : ∃ g, g = diff.toAdd.toList.foldl addHost f := ⟨_, rfl⟩
  have hreconcile : f.reconcile diff = diff.toRemove.toList.foldl removeHost added := by
    rw [hadded, reconcile]
  have hjoined : ∀ a ∈ diff.toAdd.toList,
      (f.reconcile diff).store.recordOf a = added.store.recordOf a := by
    intro a ha
    have hstays : a ∉ diff.toRemove.toList := fun hremove => by
      have hknown := known a (Std.ExtTreeSet.mem_toList.mp hremove)
      rw [unknown a (Std.ExtTreeSet.mem_toList.mp ha)] at hknown
      cases hknown
    refine Store.recordOf_congr ?_ ?_
    · rw [hreconcile, host?_removeHosts, if_neg hstays]
    · rw [hadded, isSome_addHosts]
      exact .inl ha
  have hleft : ∀ a ∈ diff.toRemove.toList, f.store.recordOf a = added.store.recordOf a := by
    intro a ha
    obtain ⟨host, hhost⟩ :=
      Option.isSome_iff_exists.mp (known a (Std.ExtTreeSet.mem_toList.mp ha))
    rw [Store.recordOf_eq hhost, hadded, Store.recordOf_eq (host?_addHosts_of_known hhost)]
  have hadd : f.Tells (diff.toAdd.toList.map fun a => .joined (added.store.recordOf a)) added := by
    rw [hadded]
    exact tells_addHosts (fun a ha => unknown a (Std.ExtTreeSet.mem_toList.mp ha))
      (Topology.nodup_toList _)
  have hremove : added.Tells (diff.toRemove.toList.map fun a => .left (added.store.recordOf a))
      (f.reconcile diff) := by
    rw [hreconcile]
    refine tells_removeHosts (fun a ha => ?_) (Topology.nodup_toList _)
    rw [hadded, isSome_addHosts]
    exact .inr (known a (Std.ExtTreeSet.mem_toList.mp ha))
  rw [differences, List.map_congr_left fun a ha => congrArg Change.joined (hjoined a ha),
    List.map_congr_left fun a ha => congrArg Change.left (hleft a ha)]
  exact hadd.trans hremove

/-- A round-robin policy that is told of a whole difference: the hosts added are live after those
that were, and the hosts removed are not live any more. -/
theorem follow_reconciled (keyed : f.store.Keyed) (keyed' : g.store.Keyed) (r : RoundRobin) :
    (f.differences g diff).foldl Balancing.follow (.roundRobin r) =
      .roundRobin ⟨(r.live ++ diff.toAdd.toList.filter (· ∉ r.live)).filter (· ∉ diff.toRemove),
        r.turn⟩ := by
  have hjoin : ∀ (addresses : List Address) (r : RoundRobin),
      (addresses.map fun a => Change.joined (g.store.recordOf a)).foldl Balancing.follow
        (.roundRobin r) = .roundRobin (addresses.foldl RoundRobin.join r) := by
    intro addresses r
    rw [List.foldl_map]
    refine List.foldl_hom Balancing.roundRobin fun r a => ?_
    rw [Balancing.follow, keyed'.address_recordOf, Balancing.join]
  have hleave : ∀ (addresses : List Address) (r : RoundRobin),
      (addresses.map fun a => Change.left (f.store.recordOf a)).foldl Balancing.follow
        (.roundRobin r) = .roundRobin (addresses.foldl RoundRobin.leave r) := by
    intro addresses r
    rw [List.foldl_map]
    refine List.foldl_hom Balancing.roundRobin fun r a => ?_
    rw [Balancing.follow, keyed.address_recordOf, Balancing.leave]
  rw [differences, List.foldl_append, hjoin, hleave,
    RoundRobin.foldl_join (Topology.nodup_toList _), RoundRobin.foldl_leave]
  simp only [Std.ExtTreeSet.mem_toList]

end Fabric

end ControlChannel
