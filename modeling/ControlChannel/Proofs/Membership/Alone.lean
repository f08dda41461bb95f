import ControlChannel.Proofs.Membership.Convergence
import ControlChannel.Proofs.Membership.Peers
import ControlChannel.Proofs.Membership.Updates

/-! # A topology refresh on its own

Nobody else does anything while a refresh takes its signals (`TopologyRefresh.Completes`). Once it
has an answer it goes to its end in one way only (`completes_unique`): it fails with the store as it
was (`ends_of_heard`), or it adds all that was found and not known and then removes all that was
known and not found (`ends_of_found`). Main statement: `refresh_whole`. -/

namespace ControlChannel

namespace TopologyRefresh

/-! ## Going to the end -/

/-- A refresh goes to its end with these signals, and nobody else does anything. -/
inductive Completes :
    Fabric → Progress TopologyRefresh Result → List Signal → Fabric → Result → Prop
  | done {f : Fabric} {result : Result} : Completes f (.done result) [] f result
  | step {f f' g : Fabric} {r : TopologyRefresh} {p : Progress TopologyRefresh Result}
      {signal : Signal} {rest : List Signal} {result : Result}
      (first : r.resume f signal = some (f', p)) (later : Completes f' p rest g result) :
      Completes f (.running r) (signal :: rest) g result

variable {f f' g g' : Fabric} {link : Link} {port : UInt16} {diff : Topology.Diff}
variable {r : TopologyRefresh} {p : Progress TopologyRefresh Result} {signal : Signal}
variable {signals signals' : List Signal} {result result' : Result}

/-- This stage of a refresh over a connection. -/
def onLink (link : Link) (port : UInt16) (p : Progress TopologyStage Result) :
    Progress TopologyRefresh Result :=
  p.map fun stage => ⟨link, port, stage⟩

/-- The answer is there: what is still to be done waits for nothing. -/
def Informed : Progress TopologyRefresh Result → Prop
  | .running r => r.stage ≠ .asking
  | .done _ => True

theorem informed_nextRemoval (diff : Topology.Diff) (addresses : List Address) :
    Informed (onLink link port (nextRemoval diff addresses)) := by
  cases addresses with
  | nil => trivial
  | cons => exact fun e => by cases e

theorem informed_nextAddition (diff : Topology.Diff) (addresses : List Address) :
    Informed (onLink link port (nextAddition diff addresses)) := by
  cases addresses with
  | nil => exact informed_nextRemoval diff _
  | cons => exact fun e => by cases e

theorem informed_of_resume (h : r.resume f signal = some (f', p)) :
    Informed p ∧ (r.stage ≠ .asking → signal = .go) := by
  obtain ⟨link, port, stage⟩ := r
  obtain ⟨⟨f'', next⟩, hadvance, ho⟩ := Option.map_eq_some_iff.mp h
  cases ho
  cases moves_of_advance hadvance with
  | fails | stops => exact ⟨trivial, fun hne => absurd rfl hne⟩
  | @hears reply =>
    refine ⟨?_, fun hne => absurd rfl hne⟩
    unfold heard
    split
    · trivial
    · exact fun e => by cases e
  | compares | adds => exact ⟨informed_nextAddition _ _, fun _ => rfl⟩
  | finds => exact ⟨fun e => (by cases e), fun _ => rfl⟩
  | misses | removes => exact ⟨informed_nextRemoval _ _, fun _ => rfl⟩

theorem completes_unique (h : Completes f p signals g result)
    (h' : Completes f p signals' g' result') (informed : Informed p) :
    g' = g ∧ result' = result := by
  induction h generalizing signals' g' result' with
  | done =>
    cases h'
    exact ⟨rfl, rfl⟩
  | step first later ih =>
    cases h' with
    | step first' later' =>
      cases (informed_of_resume first).2 informed
      cases (informed_of_resume first').2 informed
      cases first.symm.trans first'
      exact ih later' (informed_of_resume first).1

theorem completes_removals (keyed : f.store.Keyed) (link : Link) (port : UInt16)
    (diff : Topology.Diff) (addresses : List Address) :
    ∃ signals, Completes f (onLink link port (nextRemoval diff addresses)) signals
      (addresses.foldl Fabric.removeHost f) (.ok (.ready diff)) := by
  induction addresses generalizing f with
  | nil => exact ⟨[], .done⟩
  | cons a rest ih =>
    cases hhost : f.store.host? a with
    | none =>
      have hsame : f.removeHost a = f := by
        rw [Fabric.removeHost, Store.removeHost, hhost]
        rfl
      obtain ⟨signals, h⟩ := ih keyed
      have hmiss : resume f ⟨link, port, .finding diff a rest⟩ .go =
          some (f, onLink link port (nextRemoval diff rest)) := by
        simp only [resume, advance, hhost]
        rfl
      rw [List.foldl_cons, hsame]
      exact ⟨_, .step hmiss h⟩
    | some host =>
      have haddress : host.address = a := keyed a host hhost
      obtain ⟨signals, h⟩ := ih (f.store_removeHost a ▸ keyed.removeHost a)
      have hfind : resume f ⟨link, port, .finding diff a rest⟩ .go =
          some (f, .running ⟨link, port, .removing diff host rest⟩) := by
        simp only [resume, advance, hhost]
        rfl
      have hremove : resume f ⟨link, port, .removing diff host rest⟩ .go =
          some (f.removeHost a, onLink link port (nextRemoval diff rest)) := by
        rw [← haddress]
        rfl
      exact ⟨_, .step hfind (.step hremove h)⟩

theorem completes_additions (keyed : f.store.Keyed) (link : Link) (port : UInt16)
    (diff : Topology.Diff) (addresses : List Address) :
    ∃ signals, Completes f (onLink link port (nextAddition diff addresses)) signals
      (diff.toRemove.toList.foldl Fabric.removeHost (addresses.foldl Fabric.addHost f))
      (.ok (.ready diff)) := by
  induction addresses generalizing f with
  | nil => exact completes_removals keyed link port diff _
  | cons a rest ih =>
    obtain ⟨signals, h⟩ := ih (f.store_addHost a ▸ keyed.addHost a)
    have hadd : resume f ⟨link, port, .adding diff a rest⟩ .go =
        some (f.addHost a, onLink link port (nextAddition diff rest)) := rfl
    exact ⟨_, .step hadd h⟩

/-! ## The whole of it -/

/-- A refresh that was not cancelled before it began comes to this end, on its own, when this is
the first it hears. -/
def Ends (f : Fabric) (link : Link) (port : UInt16) (answer : Signal) (g : Fabric)
    (result : Result) : Prop :=
  ∃ rest, Completes (start f false link port).1 (start f false link port).2 (answer :: rest) g
    result

theorem ends_unique {answer : Signal} (h : Ends f link port answer g result)
    (h' : Ends f link port answer g' result') : g' = g ∧ result' = result := by
  obtain ⟨_, h⟩ := h
  obtain ⟨_, h'⟩ := h'
  cases h with
  | step first later =>
    cases h' with
    | step first' later' =>
      cases first.symm.trans first'
      exact completes_unique later later' (informed_of_resume first).1

/-- The node was asked for its peers, and nothing else has changed. -/
def asked (f : Fabric) (link : Link) : Fabric := f.send link.id (.query Topology.selectPeers)

theorem ends_of_heard {reply : Reply} {e : Error}
    (h : found link.address port reply = .error e) :
    Ends f link port (.answered .peers (.ok reply)) (asked f link) (.error e) := by
  have hfirst : resume (asked f link) ⟨link, port, .asking⟩ (.answered .peers (.ok reply)) =
      some (asked f link, .done (.error e)) := by
    simp only [resume, advance, heard, h]
    rfl
  exact ⟨[], .step hfirst .done⟩

/-- Where the hosts that were found can be read, the differences to the known ones are made up. -/
theorem ends_of_found (keyed : f.store.Keyed) {reply : Reply} {hosts : Topology.Addresses}
    (h : found link.address port reply = .ok hosts)
    (compared : diff = .ofSets hosts (Std.ExtTreeSet.ofList f.store.addresses)) :
    Ends f link port (.answered .peers (.ok reply)) ((asked f link).reconcile diff)
      (.ok (.ready diff)) := by
  have hfirst : resume (asked f link) ⟨link, port, .asking⟩ (.answered .peers (.ok reply)) =
      some (asked f link, .running ⟨link, port, .listing hosts⟩) := by
    simp only [resume, advance, heard, h]
    rfl
  have hsecond : resume (asked f link) ⟨link, port, .listing hosts⟩ .go =
      some (asked f link, onLink link port (nextAddition diff diff.toAdd.toList)) := by
    subst compared
    rfl
  have hasked : (asked f link).store.Keyed := keyed
  obtain ⟨rest, hrest⟩ := completes_additions hasked link port diff diff.toAdd.toList
  exact ⟨_, .step hfirst (.step hsecond hrest)⟩

/-- The list of hosts was made the same as what was found, in one go: what is known then, what the
listeners were told and what the recorders have heard and a policy that listens has made of it. -/
structure Reconciled (f : Fabric) (link : Link) (found : Address → Prop) (diff : Topology.Diff)
    (g : Fabric) : Prop where
  keyed : g.store.Keyed
  toAdd : ∀ a, a ∈ diff.toAdd ↔ found a ∧ a ∉ f.store.addresses
  toRemove : ∀ a, a ∈ diff.toRemove ↔ a ∈ f.store.addresses ∧ ¬ found a
  inOrder : diff.toAdd.toList.Pairwise (·.rank < ·.rank) ∧
    diff.toRemove.toList.Pairwise (·.rank < ·.rank)
  known : ∀ a, a ∈ g.store.addresses ↔ found a
  kept : ∀ a host, found a → f.store.host? a = some host → g.store.host? a = some host
  told : (asked f link).Tells (f.differences g diff) g
  heard : g.heard = f.heard ++ (f.differences g diff).flatMap fun c => f.store.recorders.map (·, c)
  policy : .balancing ∈ f.store.listeners → ∀ r, f.balancing = .roundRobin r → g.balancing =
    .roundRobin ⟨(r.live ++ diff.toAdd.toList.filter (· ∉ r.live)).filter (· ∉ diff.toRemove),
      r.turn⟩

theorem reconciled_of_found (keyed : f.store.Keyed) {hosts : Topology.Addresses}
    (compared : diff = .ofSets hosts (Std.ExtTreeSet.ofList f.store.addresses)) :
    Reconciled f link (· ∈ hosts) diff ((asked f link).reconcile diff) := by
  have hadd : ∀ a, a ∈ diff.toAdd ↔ a ∈ hosts ∧ ¬ (f.store.host? a).isSome := fun a => by
    rw [compared, Topology.Diff.mem_toAdd, mem_known keyed]
  have hremove : ∀ a, a ∈ diff.toRemove ↔ (f.store.host? a).isSome ∧ a ∉ hosts := fun a => by
    rw [compared, Topology.Diff.mem_toRemove, mem_known keyed]
  have hkeyed : ((asked f link).reconcile diff).store.Keyed := Fabric.keyed_reconcile keyed
  have hunknown : ∀ a ∈ diff.toAdd, (asked f link).store.host? a = none := fun a ha =>
    Option.not_isSome_iff_eq_none.mp ((hadd a).mp ha).2
  have htold := Fabric.tells_reconcile hunknown fun a ha => ((hremove a).mp ha).1
  have hheard : (asked f link).heard = f.heard :=
    (f.heard_note _).trans (List.append_nil _)
  refine ⟨hkeyed, fun a => ?_, fun a => ?_,
    ⟨Topology.rank_lt_toList _, Topology.rank_lt_toList _⟩, fun a => ?_, fun a host ha hhost => ?_,
    htold, hheard ▸ htold.heard, fun hlistens r hr => ?_⟩
  · rw [hadd, Store.mem_addresses keyed]
  · rw [hremove, Store.mem_addresses keyed]
  · rw [Store.mem_addresses hkeyed, Fabric.isSome_reconcile, hadd, hremove]
    show _ ∧ (_ ∨ (f.store.host? a).isSome) ↔ _
    grind
  · exact Fabric.host?_reconcile_of_known hhost fun h => ((hremove a).mp h).2 ha
  · have hlistens : .balancing ∈ (asked f link).store.listeners := hlistens
    have hr : (asked f link).balancing = .roundRobin r := hr
    rw [htold.balancing, if_pos hlistens, hr]
    exact Fabric.follow_reconciled keyed hkeyed r

/-- A refresh that finds what is known changes nothing. -/
theorem ends_of_known (keyed : f.store.Keyed) {reply : Reply} {hosts : Topology.Addresses}
    (h : found link.address port reply = .ok hosts)
    (known : ∀ a, a ∈ f.store.addresses ↔ a ∈ hosts) :
    ∃ diff : Topology.Diff, diff.isEmpty = true ∧
      Ends f link port (.answered .peers (.ok reply)) (asked f link) (.ok (.ready diff)) := by
  have hends := ends_of_found keyed h rfl
  generalize hdiff : Topology.Diff.ofSets hosts (Std.ExtTreeSet.ofList f.store.addresses) = diff
    at hends
  have hadd : diff.toAdd = ∅ := Std.ExtTreeSet.eq_empty_iff_forall_not_mem.mpr fun a ha => by
    rw [← hdiff, Topology.Diff.mem_toAdd] at ha
    simp [known] at ha
  have hremove : diff.toRemove = ∅ := Std.ExtTreeSet.eq_empty_iff_forall_not_mem.mpr fun a ha => by
    rw [← hdiff, Topology.Diff.mem_toRemove] at ha
    simp [known] at ha
  refine ⟨diff, by simp [Topology.Diff.isEmpty, hadd, hremove], ?_⟩
  rwa [Fabric.reconcile, Std.ExtTreeSet.toList_eq_nil_iff.mpr hadd,
    Std.ExtTreeSet.toList_eq_nil_iff.mpr hremove, List.foldl_nil, List.foldl_nil] at hends

/-- **A refresh that nobody interferes with applies all it has found or nothing. Cancelled before it
begins it does nothing at all. If the request is cancelled or fails, if the reply has no rows, or if
some row says nothing readable of a peer, it ends with that error, for rows with that of the first
such row, and has only asked. Otherwise it succeeds: it adds what was found and not known, removes
what was known and not found, so that the known hosts are those found, of which those that were
known keep their records, and tells the listeners of each host added and then of each host removed,
in the order of addresses: that is what the recorders hear, and what a policy that listens follows.
A second refresh that is answered the same finds no difference and only asks. What it hears first
decides how it ends.** -/
theorem refresh_whole (keyed : f.store.Keyed) (link : Link) (port : UInt16) :
    start f true link port = (f, .done (.ok .cancelled)) ∧
    Ends f link port .cancelled (asked f link) (.ok .cancelled) ∧
    (∀ e, Ends f link port (.answered .peers (.error e)) (asked f link) (.error e)) ∧
    (∀ reply e, reply.resultSet = .error e →
      Ends f link port (.answered .peers (.ok reply)) (asked f link) (.error e)) ∧
    (∀ reply, (∀ peers, reply ≠ .rows peers) → ∃ e, reply.Rowless e ∧
      Ends f link port (.answered .peers (.ok reply)) (asked f link) (.error e)) ∧
    (∀ peers, ¬ peers.Legible → ∃ before row after fault, peers.rows = before ++ row :: after ∧
      (∀ r ∈ before, ∀ fault, ¬ r.PeerFault fault) ∧ row.PeerFault fault ∧
      Ends f link port (.answered .peers (.ok (.rows peers))) (asked f link)
        (.error fault.error)) ∧
    (∀ peers, peers.Legible → ∃ diff g,
      Ends f link port (.answered .peers (.ok (.rows peers))) g (.ok (.ready diff)) ∧
      Reconciled f link (Topology.Found link.address port peers) diff g ∧
      ∃ again : Topology.Diff, again.isEmpty = true ∧
        Ends g link port (.answered .peers (.ok (.rows peers))) (asked g link)
          (.ok (.ready again))) ∧
    ∀ answer g result g' result', Ends f link port answer g result →
      Ends f link port answer g' result' → g' = g ∧ result' = result := by
  have hrefused : ∀ reply e, reply.resultSet = .error e →
      Ends f link port (.answered .peers (.ok reply)) (asked f link) (.error e) := by
    intro reply e h
    refine ends_of_heard ?_
    rw [found, h]
    rfl
  refine ⟨rfl, ⟨[], .step rfl .done⟩, fun e => ⟨[], .step rfl .done⟩, hrefused,
    fun reply hrowless => ?_, fun peers hillegible => ?_, fun peers hlegible => ?_,
    fun _ _ _ _ _ h h' => ends_unique h h'⟩
  · obtain ⟨e, he⟩ := Reply.exists_rowless hrowless
    exact ⟨e, he, hrefused reply e he.resultSet_eq⟩
  · obtain ⟨before, row, after, fault, hsplit, hfirst, hfaulty⟩ :=
      ResultSet.exists_first_fault hillegible
    refine ⟨before, row, after, fault, hsplit, hfirst, hfaulty, ends_of_heard ?_⟩
    have herror : Topology.foundHosts link.address peers port = .error fault :=
      Topology.foundHosts_eq_error hsplit hfirst hfaulty
    simp only [found, Reply.resultSet, bind, Except.bind, herror]
    rfl
  · obtain ⟨hosts, hhosts, hmem⟩ := Topology.exists_foundHosts link.address port hlegible
    have hfound : found link.address port (.rows peers) = .ok hosts := by
      simp only [found, Reply.resultSet, bind, Except.bind, hhosts]
      rfl
    have hsame : (· ∈ hosts) = Topology.Found link.address port peers :=
      funext fun a => propext (hmem a)
    have hends : Ends f link port _ _ _ := ends_of_found keyed hfound rfl
    have hreconciled : Reconciled f link (· ∈ hosts) _ _ := reconciled_of_found keyed rfl
    rw [hsame] at hreconciled
    have hknown : ∀ a, _ ↔ a ∈ hosts := fun a => (hreconciled.known a).trans (hmem a).symm
    exact ⟨_, _, hends, hreconciled, ends_of_known hreconciled.keyed hfound hknown⟩

/-! The first node, believed to be down, and the second are known, and only the second is in the
policy's plans; the first one is asked and names the third and, in another row, nobody. -/

def twoNodes : Fabric where
  store := (((Store.ofContactPoints [Reconciling.node 1, Reconciling.node 2]).mark
    (Reconciling.node 1) false).register .balancing).register (.recorder "r")
  balancing := .roundRobin { live := [Reconciling.node 2] }

def thirdOnly : ResultSet := .ofRagged ["peer"] [[some [10, 0, 0, 3]], [none]]

theorem rows_thirdOnly :
    thirdOnly.rows = [⟨["peer"], [some [10, 0, 0, 3]]⟩, ⟨["peer"], [none]⟩] := by
  decide

theorem legible_thirdOnly : thirdOnly.Legible := by
  intro row hrow fault hfault
  rw [rows_thirdOnly, List.mem_cons, List.mem_singleton] at hrow
  rcases hrow with rfl | rfl
  · cases hfault with
    | absent missing => exact missing (by decide)
    | size given wrong =>
      cases given
      exact wrong.1 rfl
  · cases hfault with
    | absent missing => exact missing (by decide)
    | size given wrong => cases given

theorem not_found_thirdOnly :
    ¬ Topology.Found (Reconciling.node 1) 9042 thirdOnly (Reconciling.node 2) := by
  rintro (h | ⟨row, hrow, ip, hnames, ha⟩)
  · cases h
  · rw [rows_thirdOnly, List.mem_cons, List.mem_singleton] at hrow
    cases ip with
    | v4 ip =>
      cases ha
      rcases hrow with rfl | rfl <;> cases hnames
    | v6 ip => cases ha

theorem refresh_whole_thirdOnly : twoNodes.store.Keyed ∧ thirdOnly.Legible ∧
    ∃ diff g, Ends twoNodes ⟨0, Reconciling.node 1⟩ 9042
        (.answered .peers (.ok (.rows thirdOnly))) g (.ok (.ready diff)) ∧
      Reconciling.node 3 ∈ diff.toAdd ∧
      g.store.host? (Reconciling.node 1) = some ⟨0, Reconciling.node 1, false⟩ ∧
      ∃ r : RoundRobin, g.balancing = .roundRobin r ∧ Reconciling.node 3 ∈ r.live ∧
        Reconciling.node 2 ∉ r.live := by
  have hkeyed : twoNodes.store.Keyed := (Store.keyed_ofContactPoints _).mark _ _
  obtain ⟨_, _, _, _, _, _, hwhole, _⟩ := refresh_whole hkeyed ⟨0, Reconciling.node 1⟩ 9042
  obtain ⟨diff, g, hends, hreconciled, _⟩ := hwhole thirdOnly legible_thirdOnly
  have hthird : Topology.Found (Reconciling.node 1) 9042 thirdOnly (Reconciling.node 3) :=
    .inr ⟨⟨["peer"], [some [10, 0, 0, 3]]⟩, by decide, .v4 ⟨10, 0, 0, 3⟩, rfl, rfl⟩
  have hunknown : Reconciling.node 3 ∉ twoNodes.store.addresses := by decide +kernel
  have hdown : twoNodes.store.host? (Reconciling.node 1) =
      some ⟨0, Reconciling.node 1, false⟩ := by decide +kernel
  have hgone : Reconciling.node 2 ∈ diff.toRemove := (hreconciled.toRemove _).mpr
    ⟨by decide +kernel, not_found_thirdOnly⟩
  have hadded : Reconciling.node 3 ∈ diff.toAdd := (hreconciled.toAdd _).mpr ⟨hthird, hunknown⟩
  have hstays : Reconciling.node 3 ∉ diff.toRemove := fun h =>
    ((hreconciled.toRemove _).mp h).2 hthird
  have hne : Reconciling.node 3 ≠ Reconciling.node 2 := by decide
  refine ⟨hkeyed, legible_thirdOnly, diff, g, hends, hadded, hreconciled.kept _ _ (.inl rfl) hdown,
    _, hreconciled.policy (by decide) _ rfl, ?_, ?_⟩
  · simp [hadded, hstays, hne]
  · simp [hgone]

end TopologyRefresh

end ControlChannel
