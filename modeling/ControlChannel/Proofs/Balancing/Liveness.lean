import ControlChannel.Rehearsal.Rotation
import Mathlib.Data.List.Induction

/-! # Live hosts and what a policy was told of them

A round-robin policy is told of one host after another that it is live or live no more, at the start
only of those whose records are up (`Rehearsal.Rotation.history`). Its live list reflects this
(`RoundRobin.Reflects`): an address is in it if the last event about the address says so, and stands
behind those that became live earlier. Main statement: `Rehearsal.Rotation.reflects_run`. -/

namespace ControlChannel

/-- What a policy is told of one host. -/
inductive HostEvent where
  | joined (address : Address)
  | left (address : Address)
  deriving DecidableEq, Repr

namespace HostEvent

def address : HostEvent → Address
  | .joined a | .left a => a

/-- What a round-robin policy makes of the event. -/
def apply (r : RoundRobin) : HostEvent → RoundRobin
  | .joined a => r.join a
  | .left a => r.leave a

/-- The last event about an address. -/
def last? (events : List HostEvent) (a : Address) : Option HostEvent :=
  (events.filter (·.address = a)).getLast?

/-- The address became live with this event for the last time: it was not live before, and has not
left since. -/
def MadeLive (events : List HostEvent) (n : Nat) (a : Address) : Prop :=
  events[n]? = some (.joined a) ∧ last? (events.take n) a ≠ some (.joined a) ∧
    .left a ∉ events.drop (n + 1)

variable {events : List HostEvent} {e : HostEvent} {a : Address} {m n : Nat}

theorem last?_append (events : List HostEvent) (e : HostEvent) (a : Address) :
    last? (events ++ [e]) a = if e.address = a then some e else last? events a := by
  unfold last?
  split <;> simp [List.filter_append, *]

/-- An address that has not left since it joined is live. -/
theorem last?_of_joined (hjoined : events[n]? = some (.joined a))
    (hstayed : .left a ∉ events.drop (n + 1)) : last? events a = some (.joined a) := by
  obtain ⟨hlt, hget⟩ := List.getElem?_eq_some_iff.mp hjoined
  have hsplit : events = events.take n ++ .joined a :: events.drop (n + 1) := by
    rw [← hget, List.getElem_cons_drop, List.take_append_drop]
  have hcons : (joined a :: events.drop (n + 1)).filter (·.address = a) =
      .joined a :: (events.drop (n + 1)).filter (·.address = a) :=
    List.filter_cons_of_pos (decide_eq_true rfl)
  have hlast : ∀ e ∈ .joined a :: (events.drop (n + 1)).filter (·.address = a), e = .joined a := by
    rintro e (_ | ⟨_, he⟩)
    · rfl
    · obtain ⟨hmem, haddress⟩ := List.mem_filter.mp he
      obtain rfl : e.address = a := of_decide_eq_true haddress
      cases e with
      | joined a => rfl
      | left a => exact absurd hmem hstayed
  rw [last?, hsplit, List.filter_append, hcons, List.getLast?_append,
    List.getLast?_eq_some_getLast (List.cons_ne_nil _ _), Option.some_or,
    hlast _ (List.getLast_mem _)]

namespace MadeLive

theorem lt (h : MadeLive events n a) : n < events.length :=
  (List.getElem?_eq_some_iff.mp h.1).1

theorem le (hm : MadeLive events m a) (hn : MadeLive events n a) : n ≤ m := by
  refine Nat.le_of_not_lt fun hlt => hn.2.1 ?_
  have hjoined : (events.take n)[m]? = some (.joined a) := by
    rw [List.getElem?_take_of_lt hlt]
    exact hm.1
  refine last?_of_joined hjoined fun hmem => hm.2.2 ?_
  rw [List.drop_take] at hmem
  exact List.mem_of_mem_take hmem

theorem unique (hm : MadeLive events m a) (hn : MadeLive events n a) : m = n :=
  Nat.le_antisymm (hn.le hm) (hm.le hn)

/-- Nothing but a departure of the address itself undoes it. -/
theorem append (h : MadeLive events n a) (he : e ≠ .left a) : MadeLive (events ++ [e]) n a := by
  have hlt := h.lt
  refine ⟨by rw [List.getElem?_append_left hlt]; exact h.1,
    by rw [List.take_append_of_le_length (Nat.le_of_lt hlt)]; exact h.2.1, ?_⟩
  rw [List.drop_append_of_le_length hlt, List.mem_append, List.mem_singleton, not_or]
  exact ⟨h.2.2, Ne.symm he⟩

end MadeLive

theorem madeLive_append (h : last? events a ≠ some (.joined a)) :
    MadeLive (events ++ [.joined a]) events.length a :=
  ⟨by simp, by simpa using h, by simp⟩

end HostEvent

namespace RoundRobin

open HostEvent

/-- The live list is what the events amount to. -/
structure Reflects (r : RoundRobin) (events : List HostEvent) : Prop where
  nodup : r.live.Nodup
  mem_iff : ∀ a, a ∈ r.live ↔ last? events a = some (.joined a)
  ordered : ∃ moment : Address → Nat, (∀ a ∈ r.live, MadeLive events (moment a) a) ∧
    r.live.Pairwise fun a b => moment a < moment b

variable {r : RoundRobin} {events : List HostEvent}

theorem reflects_nil (turn : UInt64) : Reflects { turn } [] where
  nodup := .nil
  mem_iff a := by simp [last?]
  ordered := ⟨fun _ => 0, by simp, .nil⟩

namespace Reflects

theorem join (h : r.Reflects events) (a : Address) :
    (r.join a).Reflects (events ++ [.joined a]) where
  nodup := nodup_join h.nodup a
  mem_iff b := by
    rw [mem_join, h.mem_iff, last?_append]
    grind [address]
  ordered := by
    obtain ⟨moment, hmade, hordered⟩ := h.ordered
    have hkept : ∀ b ∈ r.live, MadeLive (events ++ [.joined a]) (moment b) b := fun b hb =>
      (hmade b hb).append (by simp)
    unfold RoundRobin.join
    split
    · exact ⟨moment, hkept, hordered⟩
    · -- The newcomer is last, behind all earlier moments.
      rename_i ha
      have hne : ∀ b ∈ r.live, b ≠ a := fun b hb e => ha (e ▸ hb)
      refine ⟨Function.update moment a events.length, ?_, ?_⟩
      · intro b hb
        rcases List.mem_append.mp hb with hb | hb
        · rw [Function.update_of_ne (hne b hb)]
          exact hkept b hb
        · obtain rfl := List.mem_singleton.mp hb
          rw [Function.update_self]
          exact madeLive_append (mt (h.mem_iff b).mpr ha)
      · refine List.pairwise_append.mpr ⟨?_, List.pairwise_singleton _ _, ?_⟩
        · refine hordered.imp_of_mem fun {b c} hb hc hlt => ?_
          rwa [Function.update_of_ne (hne b hb), Function.update_of_ne (hne c hc)]
        · intro b hb c hc
          obtain rfl := List.mem_singleton.mp hc
          rw [Function.update_of_ne (hne b hb), Function.update_self]
          exact (hmade b hb).lt

theorem leave (h : r.Reflects events) (a : Address) :
    (r.leave a).Reflects (events ++ [.left a]) where
  nodup := nodup_leave h.nodup a
  mem_iff b := by
    rw [mem_leave, h.mem_iff, last?_append]
    grind [address]
  ordered := by
    obtain ⟨moment, hmade, hordered⟩ := h.ordered
    refine ⟨moment, fun b hb => ?_, hordered.filter _⟩
    obtain ⟨hlive, hne⟩ := (mem_leave r a b).mp hb
    exact (hmade b hlive).append (by simpa using Ne.symm hne)

theorem foldl_apply (h : r.Reflects events) (more : List HostEvent) :
    (more.foldl apply r).Reflects (events ++ more) := by
  induction more generalizing r events with
  | nil => simpa using h
  | cons e more ih =>
    have hnext : (apply r e).Reflects (events ++ [e]) := by
      cases e with
      | joined a => exact h.join a
      | left a => exact h.leave a
    have hrest := ih hnext
    rwa [List.append_assoc] at hrest

/-- Only the live list matters. -/
theorem of_live {s : RoundRobin} (h : r.Reflects events) (hlive : s.live = r.live) :
    s.Reflects events where
  nodup := hlive ▸ h.nodup
  mem_iff := hlive ▸ h.mem_iff
  ordered := hlive ▸ h.ordered

theorem exists_madeLive (h : r.Reflects events) {a : Address} (ha : a ∈ r.live) :
    ∃! n, MadeLive events n a := by
  obtain ⟨moment, hmade, _⟩ := h.ordered
  exact ⟨moment a, hmade a ha, fun n hn => hn.unique (hmade a ha)⟩

theorem pairwise (h : r.Reflects events) : r.live.Pairwise fun a b =>
    ∀ m n, MadeLive events m a → MadeLive events n b → m < n := by
  obtain ⟨moment, hmade, hordered⟩ := h.ordered
  refine hordered.imp_of_mem fun ha hb hlt m n hm hn => ?_
  rwa [hm.unique (hmade _ ha), hn.unique (hmade _ hb)]

end Reflects

end RoundRobin

namespace Rehearsal

/-- What a step writes on the record of an address. -/
def RotationStep.sets? (a : Address) : RotationStep → Option Bool
  | .mark hosts up => if a ∈ hosts then some up else none
  | _ => none

namespace Rotation

/-- Whether the record of an address is up after these steps; it is at first. -/
def recordUp (past : List RotationStep) (a : Address) : Bool :=
  ((past.filterMap (RotationStep.sets? a)).getLast?).getD true

/-- What a step after others tells the policy. -/
def told (past : List RotationStep) : RotationStep → List HostEvent
  | .start hosts => (hosts.filter (recordUp past)).map .joined
  | .join hosts => hosts.map .joined
  | .leave hosts => hosts.map .left
  | .mark _ _ | .plan | .openPlan | .next _ => []

/-- What steps that come after others tell the policy. -/
def toldSince (past : List RotationStep) : List RotationStep → List HostEvent
  | [] => []
  | step :: rest => told past step ++ toldSince (past ++ [step]) rest

/-- Everything that the policy is told. -/
def history (steps : List RotationStep) : List HostEvent := toldSince [] steps

/-- What these steps in a row leave behind. -/
def run (r : Rotation) (steps : List RotationStep) : Rotation :=
  steps.foldl (fun r step => (r.perform step).1) r

variable {r : Rotation} {steps past : List RotationStep} {step : RotationStep} {a : Address}

theorem run_append (r : Rotation) (steps : List RotationStep) (step : RotationStep) :
    r.run (steps ++ [step]) = ((r.run steps).perform step).1 := by
  simp [run]

theorem recordUp_append (past : List RotationStep) (step : RotationStep) (a : Address) :
    recordUp (past ++ [step]) a = (step.sets? a).getD (recordUp past a) := by
  unfold recordUp
  cases h : step.sets? a <;> simp [List.filterMap_append, h]

theorem toldSince_append (past steps : List RotationStep) (step : RotationStep) :
    toldSince past (steps ++ [step]) = toldSince past steps ++ told (past ++ steps) step := by
  induction steps generalizing past with
  | nil => simp [toldSince]
  | cons first rest ih => simp [toldSince, ih]

theorem history_append (steps : List RotationStep) (step : RotationStep) :
    history (steps ++ [step]) = history steps ++ told steps step :=
  toldSince_append [] steps step

/-- Marking changes the records that are named and nothing else. -/
structure Marks (r : Rotation) (hosts : List Address) (up : Bool) (s : Rotation) : Prop where
  policy : s.policy = r.policy
  plans : s.plans = r.plans
  down : ∀ a, a ∈ s.down ↔ if a ∈ hosts then up = false else a ∈ r.down

theorem marks_one (r : Rotation) (a : Address) (up : Bool) :
    r.Marks [a] up (r.markOne a up).1 := by
  unfold markOne
  cases up with
  | true => exact ⟨rfl, rfl, fun b => by by_cases hb : b = a <;> simp [hb]⟩
  | false =>
    by_cases ha : a ∈ r.down <;> refine ⟨by simp [ha], by simp [ha], fun b => ?_⟩ <;>
      by_cases hb : b = a <;> simp [ha, hb]

theorem marks_all (r : Rotation) (hosts : List Address) (up : Bool) :
    r.Marks hosts up (r.markAll up hosts).1 := by
  induction hosts generalizing r with
  | nil => exact ⟨rfl, rfl, by simp [markAll]⟩
  | cons a hosts ih =>
    have hone := marks_one r a up
    have hall := ih (r.markOne a up).1
    refine ⟨hall.policy.trans hone.policy, hall.plans.trans hone.plans, fun b => ?_⟩
    refine (hall.down b).trans ?_
    rw [hone.down]
    grind

theorem perform_next (r : Rotation) (n : Nat) :
    (r.perform (.next n)).1.policy = r.policy ∧ (r.perform (.next n)).1.down = r.down := by
  unfold perform
  dsimp only
  split <;> exact ⟨rfl, rfl⟩

/-- The policy is told of the hosts, and the records are as they were set last. -/
theorem perform_spec (hdown : ∀ a, a ∈ r.down ↔ recordUp past a = false) (step : RotationStep) :
    (r.perform step).1.policy.live = ((told past step).foldl HostEvent.apply r.policy).live ∧
      ∀ a, a ∈ (r.perform step).1.down ↔ recordUp (past ++ [step]) a = false := by
  have hnext : ∀ a, recordUp (past ++ [step]) a = false ↔
      (step.sets? a).getD (recordUp past a) = false := fun a => by
    rw [recordUp_append]
  cases step with
  | start hosts =>
    have hup : hosts.filter (fun a => !r.down.contains a) = hosts.filter (recordUp past) := by
      refine List.filter_congr fun a _ => ?_
      have hrecord := hdown a
      cases hup : recordUp past a <;> simp_all
    refine ⟨?_, fun a => (hdown a).trans (hnext a).symm⟩
    simp only [perform, told, hup, List.foldl_map]
    rfl
  | join hosts | leave hosts =>
    refine ⟨?_, fun a => (hdown a).trans (hnext a).symm⟩
    simp only [perform, told, List.foldl_map]
    rfl
  | mark hosts up =>
    have hmarks := r.marks_all hosts up
    refine ⟨congrArg RoundRobin.live hmarks.policy, fun a => ?_⟩
    refine (hmarks.down a).trans ?_
    rw [hnext, RotationStep.sets?, hdown]
    split <;> rfl
  | plan | openPlan =>
    exact ⟨r.policy.live_plan, fun a => (hdown a).trans (hnext a).symm⟩
  | next n =>
    obtain ⟨hpolicy, hrecords⟩ := perform_next r n
    exact ⟨congrArg RoundRobin.live hpolicy, fun a => hrecords ▸ (hdown a).trans (hnext a).symm⟩

/-- After every run the live list is what the policy was told. -/
theorem reflects_run (turn : UInt64) (steps : List RotationStep) :
    (run { policy := { turn } } steps).policy.Reflects (history steps) ∧
      ∀ a, a ∈ (run { policy := { turn } } steps).down ↔ recordUp steps a = false := by
  induction steps using List.reverseRecOn with
  | nil => exact ⟨RoundRobin.reflects_nil turn, by simp [run, recordUp]⟩
  | append_singleton steps step ih =>
    obtain ⟨hreflects, hdown⟩ := ih
    obtain ⟨hlive, hrecords⟩ := perform_spec hdown step
    rw [run_append, history_append]
    exact ⟨(hreflects.foldl_apply _).of_live hlive, hrecords⟩

end Rotation

end Rehearsal

end ControlChannel
