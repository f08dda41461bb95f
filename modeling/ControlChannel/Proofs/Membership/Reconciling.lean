import ControlChannel.Proofs.Refreshes

/-! # Topology refreshes that work on one store

Any number of topology refreshes work on one fabric, their steps in any order, while others add
and remove hosts and listeners come and go (`Reconciling`). What a refresh does next is read off
its stage: the addresses it has still to add and those it has still to remove. What it has still to
add it has found, and what it has still to remove it has not (`Reconciliation.Tracked`). -/

namespace ControlChannel

namespace Store

variable {s : Store}

/-- What holds of the records, and of a fresh one, holds of them after a host was added. -/
theorem forall_addHost {P : Address → Host → Prop}
    (fresh : ∀ n a, P a { serial := n, address := a })
    (h : ∀ a host, s.host? a = some host → P a host) (a b : Address) (host : Host)
    (hb : (s.addHost a).store.host? b = some host) : P b host := by
  rw [host?_addHost] at hb
  split at hb
  · rename_i hab
    subst hab
    cases hb
    unfold addHost
    split
    · exact h a _ ‹_›
    · exact fresh _ _
  · exact h b host hb

theorem forall_removeHost {P : Address → Host → Prop}
    (h : ∀ a host, s.host? a = some host → P a host) (a b : Address) (host : Host)
    (hb : (s.removeHost a).store.host? b = some host) : P b host := by
  rw [host?_removeHost] at hb
  split at hb
  · cases hb
  · exact h b host hb

/-- Every record stands under its own address. -/
def Keyed (s : Store) : Prop := ∀ a host, s.host? a = some host → host.address = a

/-- Every host is believed reachable. -/
def AllUp (s : Store) : Prop := ∀ a host, s.host? a = some host → host.up = true

theorem Keyed.addHost (h : s.Keyed) (a : Address) : (s.addHost a).store.Keyed :=
  forall_addHost (fun _ _ => rfl) h a

theorem Keyed.removeHost (h : s.Keyed) (a : Address) : (s.removeHost a).store.Keyed :=
  forall_removeHost h a

theorem AllUp.addHost (h : s.AllUp) (a : Address) : (s.addHost a).store.AllUp :=
  forall_addHost (fun _ _ => rfl) h a

theorem AllUp.removeHost (h : s.AllUp) (a : Address) : (s.removeHost a).store.AllUp :=
  forall_removeHost h a

theorem Keyed.seed (h : s.Keyed) (a : Address) : (s.seed a).Keyed := by
  intro b host hb
  rw [host?, Store.seed, Std.ExtTreeMap.getElem?_insert] at hb
  split at hb
  · rename_i hab
    cases hb
    exact Std.LawfulEqCmp.eq_of_compare hab
  · exact h b host hb

theorem Keyed.mark (h : s.Keyed) (a : Address) (up : Bool) : (s.mark a up).Keyed := by
  intro b host hb
  rw [host?, Store.mark, Std.ExtTreeMap.getElem?_modify] at hb
  split at hb
  · rename_i hab
    obtain ⟨old, hold, rfl⟩ := Option.map_eq_some_iff.mp hb
    exact (h a old hold).trans (Std.LawfulEqCmp.eq_of_compare hab)
  · exact h b host hb

theorem keyed_ofContactPoints (points : List Address) : (ofContactPoints points).Keyed := by
  have hall : ∀ (points : List Address) (s : Store),
      s.Keyed → (points.foldl Store.seed s).Keyed := by
    intro points
    induction points with
    | nil => exact fun _ h => h
    | cons a points ih => exact fun s h => ih _ (h.seed a)
  refine hall points {} fun a h ha => ?_
  simp [host?] at ha

theorem mem_addresses (h : s.Keyed) (a : Address) : a ∈ s.addresses ↔ (s.host? a).isSome := by
  simp only [addresses, allHosts, List.mem_map, Option.isSome_iff_exists]
  constructor
  · rintro ⟨host, ⟨⟨b, host'⟩, hb, rfl⟩, rfl⟩
    have hb' : s.host? b = some host' := Std.ExtTreeMap.mem_toList_iff_getElem?_eq_some.mp hb
    exact ⟨host', h b host' hb' ▸ hb'⟩
  · rintro ⟨host, ha⟩
    exact ⟨host, ⟨⟨a, host⟩, Std.ExtTreeMap.mem_toList_iff_getElem?_eq_some.mpr ha, rfl⟩,
      h a host ha⟩

end Store

/-! ## What is left to do -/

namespace TopologyStage

/-- The addresses that are still to be added. -/
def additions : TopologyStage → List Address
  | .adding _ a rest => a :: rest
  | .asking | .listing _ | .finding .. | .removing .. => []

/-- The addresses that are still to be removed. -/
def removals : TopologyStage → List Address
  | .adding diff _ _ => diff.toRemove.toList
  | .finding _ a rest => a :: rest
  | .removing _ host rest => host.address :: rest
  | .asking | .listing _ => []

/-- The hosts that were found have been compared with the known ones. -/
def isApplying : TopologyStage → Bool
  | .asking | .listing _ => false
  | .adding .. | .finding .. | .removing .. => true

end TopologyStage

namespace TopologyRefresh

/-- The addresses that a refresh has still to add. -/
def additions : Progress TopologyStage Result → List Address
  | .running stage => stage.additions
  | .done _ => []

/-- The addresses that a refresh has still to remove. -/
def removals : Progress TopologyStage Result → List Address
  | .running stage => stage.removals
  | .done _ => []

/-- A refresh that is applying what it has found, or has done so. -/
def Applies : Progress TopologyStage Result → Prop
  | .running stage => stage.isApplying = true
  | .done (.ok (.ready _)) => True
  | .done _ => False

variable (diff : Topology.Diff) (rest : List Address)

@[simp] theorem additions_nextRemoval : additions (nextRemoval diff rest) = [] := by
  cases rest <;> rfl

@[simp] theorem removals_nextRemoval : removals (nextRemoval diff rest) = rest := by
  cases rest <;> rfl

theorem applies_nextRemoval : Applies (nextRemoval diff rest) := by
  cases rest <;> trivial

@[simp] theorem additions_nextAddition : additions (nextAddition diff rest) = rest := by
  cases rest with
  | nil => exact additions_nextRemoval diff _
  | cons a rest => rfl

@[simp] theorem removals_nextAddition :
    removals (nextAddition diff rest) = diff.toRemove.toList := by
  cases rest with
  | nil => exact removals_nextRemoval diff _
  | cons a rest => rfl

theorem applies_nextAddition : Applies (nextAddition diff rest) := by
  cases rest with
  | nil => exact applies_nextRemoval diff _
  | cons a rest => trivial

/-- What a refresh does to the fabric in one step: nothing, or it adds or removes a host that is
next. -/
inductive Effect (f : Fabric) (additions removals : List Address) : Fabric → Prop where
  | none : Effect f additions removals f
  | added {a : Address} (next : a ∈ additions) : Effect f additions removals (f.addHost a)
  | removed {a : Address} (next : a ∈ removals) : Effect f additions removals (f.removeHost a)

theorem Moves.effect {f : Fabric} {connected : Address} {port : UInt16} {stage : TopologyStage}
    {signal : Signal} {o : Fabric × Progress TopologyStage Result}
    (m : Moves f connected port stage signal o) : Effect f stage.additions stage.removals o.1 := by
  cases m with
  | fails | hears | stops | compares _ | finds _ | misses _ => exact .none
  | adds => exact .added List.mem_cons_self
  | removes => exact .removed List.mem_cons_self

/-- What adding and removing a host keep, a step keeps. -/
theorem Effect.keeps {P : Store → Prop} {f g : Fabric} {additions removals : List Address}
    (e : Effect f additions removals g) (add : ∀ a, P f.store → P (f.store.addHost a).store)
    (remove : ∀ a, P f.store → P (f.store.removeHost a).store) (h : P f.store) : P g.store := by
  cases e with
  | none => exact h
  | @added a _ => exact f.store_addHost a ▸ add a h
  | @removed a _ => exact f.store_removeHost a ▸ remove a h

/-- The hosts that the answer among these signals names, if there is one that can be read. -/
def found? (connected : Address) (port : UInt16) (heard : List Signal) :
    Option Topology.Addresses :=
  heard.findSome? fun signal => match signal with
    | .answered .peers (.ok reply) => (found connected port reply).toOption
    | _ => none

end TopologyRefresh

/-! ## The refreshes of one store -/

/-- A topology refresh that was started: on which connection, the signals it has taken and how far
it is. -/
structure Reconciliation where
  link : Link
  port : UInt16
  heard : List Signal
  stage : Progress TopologyStage TopologyRefresh.Result

namespace Reconciliation

/-- Starts a refresh, unless it is cancelled already. -/
def start (f : Fabric) (cancelled : Bool) (link : Link) (port : UInt16) :
    Fabric × Reconciliation :=
  let (fabric, progress) := TopologyRefresh.start f cancelled link port
  (fabric, { link, port, heard := if cancelled then [.cancelled] else [],
             stage := progress.map (·.stage) })

/-- Goes on after a signal, unless the refresh is over. -/
def resume (u : Reconciliation) (f : Fabric) (signal : Signal) : Option (Fabric × Reconciliation) :=
  match u.stage with
  | .running stage =>
    (TopologyRefresh.resume f ⟨u.link, u.port, stage⟩ signal).map fun (fabric, progress) =>
      (fabric, { u with heard := u.heard ++ [signal], stage := progress.map (·.stage) })
  | .done _ => none

/-- The hosts that the refresh has found. -/
def found? (u : Reconciliation) : Option Topology.Addresses :=
  TopologyRefresh.found? u.link.address u.port u.heard

/-- The refresh has found a host with this address. -/
def Finds (u : Reconciliation) (a : Address) : Prop := ∃ hosts, u.found? = some hosts ∧ a ∈ hosts

def additions (u : Reconciliation) : List Address := TopologyRefresh.additions u.stage

def removals (u : Reconciliation) : List Address := TopologyRefresh.removals u.stage

def Applies (u : Reconciliation) : Prop := TopologyRefresh.Applies u.stage

/-- One step of a refresh. -/
theorem moves_of_resume {u u' : Reconciliation} {f g : Fabric} {signal : Signal}
    (h : u.resume f signal = some (g, u')) :
    ∃ stage, u.stage = .running stage ∧ u'.heard = u.heard ++ [signal] ∧ u'.link = u.link ∧
      u'.port = u.port ∧
      TopologyRefresh.Moves f u.link.address u.port stage signal (g, u'.stage) := by
  unfold resume at h
  split at h
  · rename_i stage hstage
    obtain ⟨⟨f', progress⟩, hresume, he⟩ := Option.map_eq_some_iff.mp h
    obtain ⟨⟨f'', p⟩, hadvance, ho⟩ := Option.map_eq_some_iff.mp hresume
    cases he
    cases ho
    have hmap :
        (p.map fun stage => (⟨u.link, u.port, stage⟩ : TopologyRefresh)).map (·.stage) = p :=
      by cases p <;> rfl
    refine ⟨stage, hstage, rfl, rfl, rfl, ?_⟩
    rw [hmap]
    exact TopologyRefresh.moves_of_advance hadvance
  · cases h

/-- Where a refresh stands, given the hosts that it has found. -/
def Stands (found : Option Topology.Addresses) :
    Progress TopologyStage TopologyRefresh.Result → Prop
  | .running .asking => found = none
  | .running (.listing hosts) => found = some hosts
  | .done (.error _) | .done (.ok .cancelled) => True
  | p => ∃ hosts, found = some hosts ∧ (∀ a ∈ TopologyRefresh.additions p, a ∈ hosts) ∧
      ∀ a ∈ TopologyRefresh.removals p, a ∉ hosts

/-- A refresh adds what it has found and removes what it has not. -/
def Tracked (u : Reconciliation) : Prop := Stands u.found? u.stage

section
variable {found : Option Topology.Addresses} {hosts : Topology.Addresses}
variable {p : Progress TopologyStage TopologyRefresh.Result}

theorem stands_of_applies (applies : TopologyRefresh.Applies p) (hf : found = some hosts)
    (hadd : ∀ a ∈ TopologyRefresh.additions p, a ∈ hosts)
    (hremove : ∀ a ∈ TopologyRefresh.removals p, a ∉ hosts) : Stands found p := by
  rcases p with stage | e | (_ | _)
  · cases stage with
    | asking | listing _ => cases applies
    | adding | finding | removing => exact ⟨hosts, hf, hadd, hremove⟩
  · exact applies.elim
  · exact ⟨hosts, hf, hadd, hremove⟩
  · exact applies.elim

theorem stands_nextRemoval (diff : Topology.Diff) {rest : List Address} (hf : found = some hosts)
    (hremove : ∀ a ∈ rest, a ∉ hosts) : Stands found (TopologyRefresh.nextRemoval diff rest) := by
  refine stands_of_applies (TopologyRefresh.applies_nextRemoval _ _) hf ?_ ?_
  · rw [TopologyRefresh.additions_nextRemoval]
    exact List.forall_mem_nil _
  · rw [TopologyRefresh.removals_nextRemoval]
    exact hremove

theorem stands_nextAddition {diff : Topology.Diff} {rest : List Address} (hf : found = some hosts)
    (hadd : ∀ a ∈ rest, a ∈ hosts) (hremove : ∀ a ∈ diff.toRemove.toList, a ∉ hosts) :
    Stands found (TopologyRefresh.nextAddition diff rest) := by
  refine stands_of_applies (TopologyRefresh.applies_nextAddition _ _) hf ?_ ?_
  · rw [TopologyRefresh.additions_nextAddition]
    exact hadd
  · rw [TopologyRefresh.removals_nextAddition]
    exact hremove

theorem Stands.applying (h : Stands found p) (applies : TopologyRefresh.Applies p) :
    ∃ hosts, found = some hosts ∧ (∀ a ∈ TopologyRefresh.additions p, a ∈ hosts) ∧
      ∀ a ∈ TopologyRefresh.removals p, a ∉ hosts := by
  rcases p with stage | e | (_ | _)
  · cases stage with
    | asking | listing _ => cases applies
    | adding | finding | removing => exact h
  · exact applies.elim
  · exact h
  · exact applies.elim

end

variable {u u' : Reconciliation} {f g : Fabric} {signal : Signal}

theorem found?_snoc {connected : Address} {port : UInt16} (heard : List Signal) (signal : Signal) :
    TopologyRefresh.found? connected port (heard ++ [signal]) =
      (TopologyRefresh.found? connected port heard).or
        (TopologyRefresh.found? connected port [signal]) := List.findSome?_append

/-- What a refresh has found it has found for good. -/
theorem found?_mono (h : u.resume f signal = some (g, u')) {hosts : Topology.Addresses}
    (hf : u.found? = some hosts) : u'.found? = some hosts := by
  obtain ⟨_, _, hheard, hlink, hport, _⟩ := moves_of_resume h
  have hf' : TopologyRefresh.found? u.link.address u.port u.heard = some hosts := hf
  rw [found?, hheard, hlink, hport, found?_snoc, hf', Option.some_or]

theorem tracked_start (f : Fabric) (cancelled : Bool) (link : Link) (port : UInt16) :
    (start f cancelled link port).2.Tracked := by
  cases cancelled <;> trivial

theorem tracked_resume (keyed : f.store.Keyed) (h : u.resume f signal = some (g, u'))
    (ht : u.Tracked) : u'.Tracked := by
  have hmono : ∀ hosts, u.found? = some hosts → u'.found? = some hosts := fun _ => found?_mono h
  obtain ⟨stage, hstage, hheard, hlink, hport, m⟩ := moves_of_resume h
  unfold Tracked at ht ⊢
  rw [hstage] at ht
  generalize hp : u'.stage = p at m
  cases m with
  | fails | stops => trivial
  | @hears reply =>
    have hnone : u.found? = none := ht
    have hnew : u'.found? = (TopologyRefresh.found u.link.address u.port reply).toOption := by
      have hnone' : TopologyRefresh.found? u.link.address u.port u.heard = none := hnone
      rw [found?, hheard, hlink, hport, found?_snoc, hnone']
      simp [TopologyRefresh.found?]
    unfold TopologyRefresh.heard
    split
    · trivial
    · rename_i hosts hf
      rw [hf] at hnew
      exact hnew
  | @compares hosts diff hdiff =>
    subst hdiff
    refine stands_nextAddition (hmono hosts ht) (fun a ha => ?_) fun a ha => ?_
    · exact (Topology.Diff.mem_toAdd.mp (Std.ExtTreeSet.mem_toList.mp ha)).1
    · exact (Topology.Diff.mem_toRemove.mp (Std.ExtTreeSet.mem_toList.mp ha)).2
  | @adds diff a rest =>
    obtain ⟨hosts, hf, hadd, hremove⟩ := ht
    have hrest : ∀ b ∈ rest, b ∈ hosts := fun b hb => hadd b (List.mem_cons_of_mem _ hb)
    exact stands_nextAddition (hmono hosts hf) hrest hremove
  | @finds diff a rest host hknown =>
    obtain ⟨hosts, hf, _, hremove⟩ := ht
    refine ⟨hosts, hmono hosts hf, List.forall_mem_nil _, ?_⟩
    show ∀ b ∈ host.address :: rest, b ∉ hosts
    rw [keyed a host hknown]
    exact hremove
  | @misses diff a rest hunknown =>
    obtain ⟨hosts, hf, _, hremove⟩ := ht
    exact stands_nextRemoval diff (hmono hosts hf) fun b hb => hremove b (List.mem_cons_of_mem _ hb)
  | @removes diff host rest =>
    obtain ⟨hosts, hf, _, hremove⟩ := ht
    exact stands_nextRemoval diff (hmono hosts hf) fun b hb => hremove b (List.mem_cons_of_mem _ hb)

end Reconciliation

/-- Topology refreshes that work on one fabric. -/
structure Reconciling where
  fabric : Fabric
  /-- In the order of their start. -/
  refreshes : List Reconciliation := []

namespace Reconciling

/-- What can happen next. -/
inductive Action where
  /-- A refresh begins, unless it is cancelled already. -/
  | start (cancelled : Bool) (link : Link) (port : UInt16)
  | signal (refresh : Nat) (signal : Signal)
  /-- Someone else adds a host. -/
  | add (address : Address)
  | remove (address : Address)
  | register (listener : Listener)
  | drop (listener : Listener)
  /-- The policy learns the known hosts. -/
  | seed
  /-- A plan is taken from the policy. -/
  | plan
  /-- Something else is done, which may change the clock, the connections and the schema view. -/
  | outside (fabric : Fabric)

/-- Whether someone else changes the list of hosts. -/
def Action.isForeign : Action → Bool
  | .add _ | .remove _ => true
  | _ => false

def withStore (s : Reconciling) (store : Store) : Reconciling :=
  { s with fabric := { s.fabric with store } }

def withBalancing (s : Reconciling) (balancing : Balancing) : Reconciling :=
  { s with fabric := { s.fabric with balancing } }

def step (s : Reconciling) : Action → Option Reconciling
  | .start cancelled link port =>
    let (fabric, u) := Reconciliation.start s.fabric cancelled link port
    some { fabric, refreshes := s.refreshes ++ [u] }
  | .signal i signal =>
    (s.refreshes[i]?.bind (·.resume s.fabric signal)).map fun (fabric, u) =>
      { fabric, refreshes := s.refreshes.set i u }
  | .add a => some { s with fabric := s.fabric.addHost a }
  | .remove a => some { s with fabric := s.fabric.removeHost a }
  | .register l => some (s.withStore (s.fabric.store.register l))
  | .drop l => some (s.withStore (s.fabric.store.drop l))
  | .seed => some (s.withBalancing (s.fabric.balancing.start s.fabric.store.allHosts))
  | .plan => some { s with fabric := s.fabric.takePlan.2 }
  | .outside fabric =>
    let store := { s.fabric.store with schema := fabric.store.schema }
    some { s with fabric := { s.fabric with
      store, clock := fabric.clock, connections := fabric.connections } }

def run (s : Reconciling) : List Action → Option Reconciling
  | [] => some s
  | action :: rest => (s.step action).bind (·.run rest)

variable {s t : Reconciling} {i : Nat} {signal : Signal} {action : Action}

theorem step_signal (h : s.step (.signal i signal) = some t) :
    ∃ u g u', s.refreshes[i]? = some u ∧ u.resume s.fabric signal = some (g, u') ∧
      t = ⟨g, s.refreshes.set i u'⟩ := by
  obtain ⟨⟨g, u'⟩, hu, rfl⟩ := Option.map_eq_some_iff.mp h
  obtain ⟨u, hi, hu⟩ := Option.bind_eq_some_iff.mp hu
  exact ⟨u, g, u', hi, hu, rfl⟩

theorem run_append (s : Reconciling) (actions rest : List Action) :
    s.run (actions ++ rest) = (s.run actions).bind (·.run rest) := by
  induction actions generalizing s with
  | nil => rfl
  | cons action actions ih =>
    rw [List.cons_append, run, run, Option.bind_assoc]
    exact congrArg _ (funext ih)

/-- What every step keeps, every run keeps. -/
theorem run_induction {P : Reconciling → Prop} {actions : List Action}
    (step : ∀ {s t action}, action ∈ actions → s.step action = some t → P s → P t)
    (h : s.run actions = some t) (hs : P s) : P t := by
  induction actions generalizing s with
  | nil => cases h; exact hs
  | cons action rest ih =>
    obtain ⟨m, hm, h⟩ := Option.bind_eq_some_iff.mp h
    exact ih (fun hmem => step (List.mem_cons_of_mem _ hmem)) h (step List.mem_cons_self hm hs)

/-- What holds of a list of hosts holds after a step, if adding and removing a host keep it. -/
theorem store_of_step {P : Store → Prop} (hosts : ∀ {s t : Store}, t.hosts = s.hosts → P s → P t)
    (add : ∀ {s : Store} a, P s → P (s.addHost a).store)
    (remove : ∀ {s : Store} a, P s → P (s.removeHost a).store)
    (h : s.step action = some t) (hs : P s.fabric.store) : P t.fabric.store := by
  cases action with
  | start cancelled link port =>
    cases h
    cases cancelled <;> exact hs
  | signal i signal =>
    obtain ⟨u, g, u', _, hr, rfl⟩ := step_signal h
    obtain ⟨stage, _, _, _, _, m⟩ := Reconciliation.moves_of_resume hr
    exact m.effect.keeps add remove hs
  | add a => cases h; exact s.fabric.store_addHost a ▸ add a hs
  | remove a => cases h; exact s.fabric.store_removeHost a ▸ remove a hs
  | register | drop | outside =>
    cases h
    refine hosts ?_ hs
    rfl
  | seed | plan => cases h; exact hs

theorem keyed_of_step (h : s.step action = some t) (hs : s.fabric.store.Keyed) :
    t.fabric.store.Keyed :=
  store_of_step (fun e hk a host ha => hk a host (by rwa [Store.host?, e] at ha))
    (fun a hk => hk.addHost a) (fun a hk => hk.removeHost a) h hs

theorem allUp_of_step (h : s.step action = some t) (hs : s.fabric.store.AllUp) :
    t.fabric.store.AllUp :=
  store_of_step (fun e hu a host ha => hu a host (by rwa [Store.host?, e] at ha))
    (fun a hu => hu.addHost a) (fun a hu => hu.removeHost a) h hs

/-- What holds of refreshes on a store whose records stand under their own addresses. -/
structure Sound (s : Reconciling) : Prop where
  keyed : s.fabric.store.Keyed
  tracked : ∀ u ∈ s.refreshes, u.Tracked

theorem Sound.step (hs : s.Sound) (h : s.step action = some t) : t.Sound := by
  refine ⟨keyed_of_step h hs.keyed, ?_⟩
  cases action with
  | start cancelled link port =>
    cases h
    exact List.forall_mem_append.mpr
      ⟨hs.tracked, List.forall_mem_singleton.mpr (Reconciliation.tracked_start _ _ _ _)⟩
  | signal i signal =>
    obtain ⟨u, g, u', hi, hr, rfl⟩ := step_signal h
    intro v hv
    rcases List.mem_or_eq_of_mem_set hv with hv | rfl
    · exact hs.tracked v hv
    · exact Reconciliation.tracked_resume hs.keyed hr (hs.tracked u (List.mem_of_getElem? hi))
  | add | remove | register | drop | seed | plan | outside => cases h; exact hs.tracked

end Reconciling

end ControlChannel
