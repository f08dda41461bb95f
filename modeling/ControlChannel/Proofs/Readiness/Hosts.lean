import ControlChannel.Proofs.Readiness.History

/-! # The trail of a topology refresh

While a bring-up refreshes the host list, it goes through the hosts to add and those to remove one
by one; the milestones passed so far follow from the host at which it is
(`TopologyStage.Trail`). -/

namespace ControlChannel

namespace Milestone

/-- The hosts found are compared with the known ones, and some of them are added. -/
def additions (hosts : Topology.Addresses) (diff : Topology.Diff) (added : List Address) :
    List Milestone :=
  .found hosts :: .compared hosts diff :: added.map .added

theorem additions_snoc (hosts : Topology.Addresses) (diff : Topology.Diff) (added : List Address)
    (a : Address) :
    additions hosts diff (added ++ [a]) = additions hosts diff added ++ [.added a] := by
  simp [additions]

theorem applied_nil (hosts : Topology.Addresses) (diff : Topology.Diff) :
    applied hosts diff [] = additions hosts diff diff.toAdd.toList := by
  simp [applied, additions, removals]

theorem applied_snoc (hosts : Topology.Addresses) (diff : Topology.Diff)
    (seen : List (Address × Option Host)) (a : Address) (host : Option Host) :
    applied hosts diff (seen ++ [(a, host)]) =
      applied hosts diff seen ++ .sought a host :: host.toList.map .removed := by
  simp [applied, removals]

end Milestone

/-- What has happened at a stage of a topology refresh that began after some milestones. -/
def TopologyStage.Trail (link : Link) (port : UInt16) (schema : List Milestone)
    (h : List Transition) : TopologyStage → Prop
  | .asking => Passed link port h schema
  | .listing hosts => Passed link port h (schema ++ [.found hosts])
  | .adding diff a rest => ∃ hosts added, added ++ a :: rest = diff.toAdd.toList ∧
      Passed link port h (schema ++ Milestone.additions hosts diff added)
  | .finding diff a rest => ∃ hosts seen, seen.map (·.1) ++ a :: rest = diff.toRemove.toList ∧
      Passed link port h (schema ++ Milestone.applied hosts diff seen)
  | .removing diff host rest => ∃ hosts seen a,
      seen.map (·.1) ++ a :: rest = diff.toRemove.toList ∧
      Passed link port h (schema ++ Milestone.applied hosts diff seen ++ [.sought a (some host)])

theorem TopologyStage.Trail.skip {link : Link} {port : UInt16} {schema : List Milestone}
    {h : List Transition} {stage : TopologyStage} (t : stage.Trail link port schema h)
    (x : Transition) : stage.Trail link port schema (h ++ [x]) := by
  cases stage with
  | asking | listing hosts => exact Passed.skip x t
  | adding diff a rest =>
    obtain ⟨hosts, added, hl, hp⟩ := t
    exact ⟨hosts, added, hl, hp.skip x⟩
  | finding diff a rest =>
    obtain ⟨hosts, seen, hl, hp⟩ := t
    exact ⟨hosts, seen, hl, hp.skip x⟩
  | removing diff host rest =>
    obtain ⟨hosts, seen, b, hl, hp⟩ := t
    exact ⟨hosts, seen, b, hl, hp.skip x⟩

namespace TopologyRefresh

/-- What has happened when a refresh has reached a stage, or its end. -/
def Reached (link : Link) (port : UInt16) (schema : List Milestone) (h : List Transition) :
    Progress TopologyStage Result → Prop
  | .running stage => stage.Trail link port schema h
  | .done (.ok (.ready _)) => BroughtUp link port h
  | .done _ => True

variable {link : Link} {port : UInt16} {schema : List Milestone} {h : List Transition}

theorem reached_nextRemoval (learnt : SchemaLearnt schema) {hosts : Topology.Addresses}
    {diff : Topology.Diff} {seen : List (Address × Option Host)} {rest : List Address}
    (hl : seen.map (·.1) ++ rest = diff.toRemove.toList)
    (hp : Passed link port h (schema ++ Milestone.applied hosts diff seen)) :
    Reached link port schema h (nextRemoval diff rest) := by
  cases rest with
  | nil => exact .intro learnt ((List.append_nil _).symm.trans hl) hp
  | cons a rest => exact ⟨hosts, seen, hl, hp⟩

theorem reached_nextAddition (learnt : SchemaLearnt schema) {hosts : Topology.Addresses}
    {diff : Topology.Diff} {added rest : List Address} (hl : added ++ rest = diff.toAdd.toList)
    (hp : Passed link port h (schema ++ Milestone.additions hosts diff added)) :
    Reached link port schema h (nextAddition diff rest) := by
  cases rest with
  | nil =>
    rw [List.append_nil] at hl
    rw [hl, ← Milestone.applied_nil] at hp
    exact reached_nextRemoval learnt (List.nil_append _) hp
  | cons a rest => exact ⟨hosts, added, hl, hp⟩

theorem map_snoc {seen : List (Address × Option Host)} {a : Address} {rest l : List Address}
    (hl : seen.map (·.1) ++ a :: rest = l) (host : Option Host) :
    (seen ++ [(a, host)]).map (·.1) ++ rest = l := by
  rw [List.map_append, List.append_assoc]
  exact hl

/-- The reply about peers. -/
theorem reached_heard {x : Transition} {reply : Reply} (hp : Passed link port h schema)
    (hx : x.Answers link .peers reply) :
    Reached link port schema (h ++ [x]) (heard link.address port reply) := by
  unfold heard
  split
  · trivial
  · rename_i hosts hf
    cases reply with
    | rows rows =>
      change Except.mapError _ (Topology.foundHosts link.address rows port) = _ at hf
      cases hh : Topology.foundHosts link.address rows port with
      | error e => rw [hh] at hf; cases hf
      | ok _ =>
        rw [hh] at hf
        cases hf
        have hshown : (Milestone.found hosts).Shows link port x :=
          ⟨rows, hx, hh, Topology.mem_foundHosts hh⟩
        exact hp.shown hshown
    | ready | void | rejected _ _ => cases hf

/-- One step of the refresh, whose connection answers from `link`. -/
theorem reached_advance (learnt : SchemaLearnt schema) {f : Fabric} {stage : TopologyStage}
    {signal : Signal} {o : Fabric × Progress TopologyStage Result} {x : Transition}
    (hr : advance f link.address port stage signal = some o)
    (t : stage.Trail link port schema h)
    (d : x.Drives (some link) (⟨link, port, stage⟩ : TopologyRefresh).need signal f o.1) :
    Reached link port schema (h ++ [x]) o.2 := by
  have hx := d.serves link rfl
  cases moves_of_advance hr with
  | fails | stops => trivial
  | hears => exact reached_heard t ⟨_, _, List.mem_singleton.mpr rfl, hx⟩
  | @compares hosts diff hdiff =>
    have hshown : (Milestone.compared hosts diff).Shows link port x := by
      refine ⟨hx, d.before ▸ hdiff, fun a => ?_⟩
      rw [d.before, hdiff, Topology.Diff.mem_toAdd, Topology.Diff.mem_toRemove]
      simp
    have hs := Passed.shown t hshown
    rw [List.append_assoc] at hs
    exact reached_nextAddition learnt (List.nil_append _) hs
  | @adds diff a rest =>
    obtain ⟨hosts, added, hl, hp⟩ := t
    have hshown : (Milestone.added a).Shows link port x := by
      unfold Milestone.Shows
      rw [d.after, d.before, f.store_addHost]
      exact ⟨hx, rfl, f.store.gains_addHost a⟩
    have hl' : (added ++ [a]) ++ rest = diff.toAdd.toList := (List.append_assoc _ _ _).trans hl
    have hs := hp.shown hshown
    rw [List.append_assoc, ← Milestone.additions_snoc] at hs
    exact reached_nextAddition learnt hl' hs
  | @finds diff a rest host hknown =>
    obtain ⟨hosts, seen, hl, hp⟩ := t
    have hshown : (Milestone.sought a (some host)).Shows link port x := ⟨hx, d.before ▸ hknown⟩
    exact ⟨hosts, seen, a, hl, hp.shown hshown⟩
  | @misses diff a rest hunknown =>
    obtain ⟨hosts, seen, hl, hp⟩ := t
    have hshown : (Milestone.sought a none).Shows link port x := ⟨hx, d.before ▸ hunknown⟩
    have hs := hp.shown hshown
    have happlied := Milestone.applied_snoc hosts diff seen a none
    rw [List.append_assoc, show [Milestone.sought a none] = .sought a none ::
      (none : Option Host).toList.map .removed from rfl, ← happlied] at hs
    exact reached_nextRemoval learnt (map_snoc hl none) hs
  | @removes diff host rest =>
    obtain ⟨hosts, seen, a, hl, hp⟩ := t
    have hshown : (Milestone.removed host).Shows link port x := by
      unfold Milestone.Shows
      rw [d.after, d.before, f.store_removeHost]
      exact ⟨hx, rfl, f.store.loses_removeHost host.address⟩
    have hs := hp.shown hshown
    have happlied := Milestone.applied_snoc hosts diff seen a (some host)
    rw [List.append_assoc, List.append_assoc, show [Milestone.sought a (some host)] ++
      [.removed host] = .sought a (some host) :: (some host).toList.map .removed from rfl,
      ← happlied] at hs
    exact reached_nextRemoval learnt (map_snoc hl (some host)) hs

end TopologyRefresh

end ControlChannel
