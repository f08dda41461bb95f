import ControlChannel.Proofs.Balancing.Liveness
import Mathlib.Data.List.Rotate
import Mathlib.Data.Nat.ModEq

/-! # Plans of the round-robin policy

A plan is a rotation of the live list at the moment it is made (`RoundRobin.plan_eq`). One that is
kept gives out its addresses one by one, whatever becomes of the policy
(`Rehearsal.Rotation.answers_eq`). From one plan to the next the start moves on by one place
(`Rehearsal.Rotation.made_rotate`). Main statement: `Rehearsal.Rotation.plans_fair`. -/

namespace ControlChannel

namespace RoundRobin

theorem plan_eq (r : RoundRobin) : r.plan.1 = r.live.rotate r.turn.toNat := by
  unfold plan
  split
  · rename_i hnone
    rw [hnone, List.rotate_nil]
  · exact List.rotate_eq_drop_append_take_mod.symm

theorem turn_plan (r : RoundRobin) :
    r.plan.2.turn = if r.live = [] then r.turn else r.turn + 1 := by
  unfold plan
  split <;> rfl

theorem turn_foldl_join (r : RoundRobin) (hosts : List Address) :
    (hosts.foldl join r).turn = r.turn := by
  induction hosts generalizing r with
  | nil => rfl
  | cons a hosts ih =>
    refine (ih (r.join a)).trans ?_
    unfold join
    split <;> rfl

theorem turn_foldl_leave (r : RoundRobin) (hosts : List Address) :
    (hosts.foldl leave r).turn = r.turn := by
  induction hosts generalizing r with
  | nil => rfl
  | cons a hosts ih => exact ih (r.leave a)

end RoundRobin

namespace Rehearsal

def RotationStep.makesPlan : RotationStep → Bool
  | .plan | .openPlan => true
  | _ => false

/-- A plan and the hosts that were live when it was made. -/
structure MadePlan where
  live : List Address
  plan : List Address
  deriving DecidableEq, Repr

namespace Rotation

/-- The plans that are made on the way, in order. -/
def made (r : Rotation) : List RotationStep → List MadePlan
  | [] => []
  | step :: rest =>
    if step.makesPlan then ⟨r.policy.live, r.policy.plan.1⟩ :: made (r.perform step).1 rest
    else made (r.perform step).1 rest

/-- What is answered on the way when the next address of a kept plan is asked for. -/
def answers (n : Nat) (r : Rotation) : List RotationStep → List RotationResult
  | [] => []
  | step :: rest =>
    if step = .next n then (r.perform step).2 :: answers n (r.perform step).1 rest
    else answers n (r.perform step).1 rest

variable {r : Rotation} {steps : List RotationStep} {step : RotationStep} {n : Nat}
  {p : List Address}

/-! ## Kept plans -/

theorem perform_next_kept (h : r.plans[n]? = some p) :
    (r.perform (.next n)).2 = .host p.head? ∧
      (r.perform (.next n)).1.plans[n]? = some p.tail := by
  obtain ⟨hlt, -⟩ := List.getElem?_eq_some_iff.mp h
  simp only [perform, h]
  cases p with
  | nil => exact ⟨rfl, h⟩
  | cons a p => exact ⟨rfl, List.getElem?_set_self hlt⟩

theorem plans_perform (h : r.plans[n]? = some p) (hstep : step ≠ .next n) :
    (r.perform step).1.plans[n]? = some p := by
  cases step with
  | start | join | leave | plan => exact h
  | mark hosts up => exact (congrArg (·[n]?) (r.marks_all hosts up).plans).trans h
  | openPlan =>
    exact (List.getElem?_append_left (List.getElem?_eq_some_iff.mp h).1).trans h
  | next m =>
    have hne : m ≠ n := fun e => hstep (e ▸ rfl)
    unfold perform
    dsimp only
    split
    · exact (List.getElem?_set_ne hne).trans h
    · exact h

/-- A kept plan is worked off in its order and then stays empty. -/
theorem answers_eq (h : r.plans[n]? = some p) (steps : List RotationStep) :
    answers n r steps = (List.range (steps.count (.next n))).map fun i => .host p[i]? := by
  induction steps generalizing r p with
  | nil => rfl
  | cons step rest ih =>
    by_cases hstep : step = .next n
    · subst hstep
      obtain ⟨hanswer, hkept⟩ := perform_next_kept h
      rw [answers, if_pos rfl, hanswer, ih hkept, List.count_cons_self, List.range_succ_eq_map,
        List.map_cons, List.map_map, List.head?_eq_getElem?]
      simp [Function.comp_def]
    · rw [answers, if_neg hstep, ih (plans_perform h hstep), List.count_cons_of_ne hstep]

/-! ## Plans in a row -/

theorem turn_perform (r : Rotation) (step : RotationStep) :
    (r.perform step).1.policy.turn =
      if step.makesPlan ∧ r.policy.live ≠ [] then r.policy.turn + 1 else r.policy.turn := by
  cases step with
  | start hosts => exact r.policy.turn_foldl_join _
  | join hosts => exact r.policy.turn_foldl_join hosts
  | leave hosts => exact r.policy.turn_foldl_leave hosts
  | mark hosts up => exact congrArg RoundRobin.turn (r.marks_all hosts up).policy
  | plan | openPlan =>
    refine r.policy.turn_plan.trans ?_
    by_cases hlive : r.policy.live = [] <;> simp [RotationStep.makesPlan, hlive]
  | next n => exact congrArg RoundRobin.turn (perform_next r n).1

/-- Every plan that is not empty starts one place after the one before, as far as there are words
to count them. -/
theorem made_rotate
    (hturn : r.policy.turn.toNat + steps.countP RotationStep.makesPlan < 0x10000000000000000)
    {m : MadePlan} {i : Nat} (hm : ((made r steps).filter (·.live ≠ []))[i]? = some m) :
    m.plan = m.live.rotate (r.policy.turn.toNat + i) := by
  induction steps generalizing r i with
  | nil => cases hm
  | cons step rest ih =>
    have hnext := turn_perform r step
    by_cases hmakes : step.makesPlan = true
    · rw [List.countP_cons_of_pos hmakes] at hturn
      rw [made, if_pos hmakes] at hm
      by_cases hlive : r.policy.live = []
      · rw [if_neg (by simp [hlive])] at hnext
        rw [List.filter_cons_of_neg (by simp [hlive])] at hm
        rw [← hnext] at hturn ⊢
        exact ih (by omega) hm
      · rw [if_pos ⟨hmakes, hlive⟩] at hnext
        rw [List.filter_cons_of_pos (by simp [hlive])] at hm
        have hone : (r.perform step).1.policy.turn.toNat = r.policy.turn.toNat + 1 := by
          rw [hnext, UInt64.toNat_add]
          exact Nat.mod_eq_of_lt (by simp; omega)
        cases i with
        | zero =>
          obtain rfl := Option.some.inj hm
          exact r.policy.plan_eq
        | succ i =>
          have hrest := ih (by omega) hm
          rw [hrest, hone]
          congr 1
          omega
    · rw [List.countP_cons_of_neg hmakes] at hturn
      rw [made, if_neg hmakes] at hm
      rw [if_neg (by simp [hmakes])] at hnext
      rw [← hnext] at hturn ⊢
      exact ih hturn hm

theorem exists_of_mem_made {m : MadePlan} (hm : m ∈ made r steps) :
    ∃ before, m.live = (r.run before).policy.live := by
  induction steps generalizing r with
  | nil => cases hm
  | cons step rest ih =>
    rw [made] at hm
    split at hm
    · rcases List.mem_cons.mp hm with rfl | hm
      · exact ⟨[], rfl⟩
      · obtain ⟨before, hbefore⟩ := ih hm
        exact ⟨step :: before, hbefore⟩
    · obtain ⟨before, hbefore⟩ := ih hm
      exact ⟨step :: before, hbefore⟩

/-- Plans in a row over the same hosts. -/
theorem window_rotate
    (hturn : r.policy.turn.toNat + steps.countP RotationStep.makesPlan < 0x10000000000000000)
    {before window after : List MadePlan} (hmade : made r steps = before ++ window ++ after)
    {live : List Address} (hlive : ∀ m ∈ window, m.live = live) (hne : live ≠ []) :
    ∃ n, ∀ i m, window[i]? = some m → m.plan = live.rotate (n + i) := by
  have hwindow : window.filter (·.live ≠ []) = window :=
    List.filter_eq_self.mpr fun m hm => by simpa [hlive m hm] using hne
  refine ⟨r.policy.turn.toNat + (before.filter (·.live ≠ [])).length, fun i m hm => ?_⟩
  have hi := (List.getElem?_eq_some_iff.mp hm).1
  have hplan := made_rotate hturn (m := m) (i := (before.filter (·.live ≠ [])).length + i) <| by
    rw [hmade, List.filter_append, List.filter_append, hwindow, List.append_assoc,
      List.getElem?_append_right (Nat.le_add_right _ _), Nat.add_sub_cancel_left,
      List.getElem?_append_left hi, hm]
  rw [hplan, hlive m (List.mem_of_getElem? hm), Nat.add_assoc]

/-- As many plans in a row as there are hosts start at different ones. -/
theorem nodup_heads {window : List MadePlan} {live : List Address} (hnodup : live.Nodup)
    (hplan : ∀ i m, window[i]? = some m → m.plan = live.rotate (n + i))
    (hlength : window.length ≤ live.length) : (window.map (·.plan.head?)).Nodup := by
  have hhead : ∀ i (hi : i < window.length),
      window[i].plan.head? = live[(n + i) % live.length]? := by
    intro i hi
    have hpos : 0 < live.length := by omega
    rw [hplan i _ (List.getElem?_eq_getElem hi), ← List.rotate_mod,
      List.head?_rotate (Nat.mod_lt _ hpos)]
  refine List.pairwise_map.mpr (List.pairwise_iff_getElem.mpr fun i j hi hj hlt heq => ?_)
  rw [hhead i hi, hhead j hj] at heq
  have hmod : (n + i) % live.length = (n + j) % live.length :=
    (List.getElem?_inj (Nat.mod_lt _ (by omega)) hnodup).mp heq
  have hsame : i = j :=
    (Nat.ModEq.add_left_cancel' n hmod).eq_of_lt_of_lt (by omega) (by omega)
  omega

/-- **Whatever the policy is told and asked, in any order, from any turn in the lower half of the
words on and over fewer plans than that: no host is live twice; a host is live exactly if the last
event about it says that it joined; the hosts stand in the order in which they became live. A plan
names every live host once, as a rotation of the live list; one that is kept gives out the same
addresses one by one, and then none, whatever comes next. Of plans that follow one another over the
same hosts each starts one place after the one before, and as many as there are hosts start at
different ones.** -/
theorem plans_fair (turn : UInt64) (steps : List RotationStep)
    (hturn : turn.toNat < 0x8000000000000000)
    (hplans : steps.countP RotationStep.makesPlan < 0x8000000000000000) :
    let start : Rotation := { policy := { turn } }
    let r := start.run steps
    let live := r.policy.live
    let plan := r.policy.plan.1
    (live.Nodup ∧ (∀ a, a ∈ live ↔ HostEvent.last? (history steps) a = some (.joined a)) ∧
      (∀ a ∈ live, ∃! n, HostEvent.MadeLive (history steps) n a) ∧
      live.Pairwise fun a b => ∀ m n, HostEvent.MadeLive (history steps) m a →
        HostEvent.MadeLive (history steps) n b → m < n) ∧
    (plan.Nodup ∧ (∀ a, a ∈ plan ↔ a ∈ live) ∧ (∃ n, plan = live.rotate n) ∧
      (r.perform .plan).2 = .plan plan ∧
      ∃ n, (r.perform .openPlan).2 = .number n ∧ ∀ later,
        answers n (r.perform .openPlan).1 later =
          (List.range (later.count (.next n))).map fun i => .host plan[i]?) ∧
    ∀ before window after hosts, start.made steps = before ++ window ++ after →
      (∀ m ∈ window, m.live = hosts) → hosts ≠ [] →
      (∃ n, ∀ i m, window[i]? = some m → m.plan = hosts.rotate (n + i)) ∧
      (window.length ≤ hosts.length → (window.map (·.plan.head?)).Nodup) := by
  intro start r live plan
  have hreflects := (reflects_run turn steps).1
  have hplan : plan = live.rotate r.policy.turn.toNat := r.policy.plan_eq
  have hkept : (r.perform .openPlan).1.plans[r.plans.length]? = some plan :=
    List.getElem?_concat_length
  refine ⟨⟨hreflects.nodup, hreflects.mem_iff, fun a => hreflects.exists_madeLive,
    hreflects.pairwise⟩, ⟨?_, fun a => ?_, ⟨_, hplan⟩, rfl, r.plans.length, rfl, answers_eq hkept⟩,
    fun before window after hosts hmade hlive hne => ?_⟩
  · rw [hplan, List.nodup_rotate]
    exact hreflects.nodup
  · rw [hplan, List.mem_rotate]
  · have hcount : start.policy.turn.toNat + steps.countP RotationStep.makesPlan <
        0x10000000000000000 := Nat.add_lt_add hturn hplans
    obtain ⟨n, hwindow⟩ := window_rotate hcount hmade hlive hne
    refine ⟨⟨n, hwindow⟩, fun hlength => ?_⟩
    cases hw : window with
    | nil => exact .nil
    | cons m rest =>
      -- The hosts were the live ones at some moment, so none is among them twice.
      have hm : m ∈ window := hw ▸ List.mem_cons_self
      obtain ⟨earlier, hearlier⟩ := exists_of_mem_made (r := start) (m := m) (by
        rw [hmade]
        exact List.mem_append_left _ (List.mem_append_right _ hm))
      have hnodup : hosts.Nodup := by
        rw [← hlive m hm, hearlier]
        exact (reflects_run turn earlier).1.nodup
      rw [← hw]
      exact nodup_heads hnodup hwindow hlength

/-- A host that is down at the start joins later, another one leaves and comes back behind it; the
plan that is kept at the end still names the host that leaves after it was made. -/
theorem plans_fair_rejoined :
    let a := .v4 ⟨10, 0, 0, 1⟩ 9042
    let b := .v4 ⟨10, 0, 0, 2⟩ 9042
    let c := .v4 ⟨10, 0, 0, 3⟩ 9042
    let start : Rotation := { policy := { turn := 0x7fffffffffffffff } }
    let steps : List RotationStep := [.mark [c] false, .start [a, b, c], .mark [c] true,
      .leave [a], .join [c, a], .openPlan, .plan, .plan]
    (start.run steps).policy.live = [b, c, a] ∧
    ((start.made steps).map (·.plan.head?)).Nodup ∧
    answers 1 ((start.run steps).perform .openPlan).1 [.next 1, .leave [b, a], .next 1, .next 1,
      .next 1] = [.host (some c), .host (some a), .host (some b), .host none] := by
  intro a b c start steps
  obtain ⟨-, ⟨-, -, -, -, n, hn, hkept⟩, hwindow⟩ :=
    plans_fair 0x7fffffffffffffff steps (by decide) (by decide)
  refine ⟨by decide, ?_, ?_⟩
  · exact (hwindow [] (start.made steps) [] [b, c, a] (by simp [start]) (by decide)
      (by decide)).2 (by decide)
  · obtain rfl : 1 = n := RotationResult.number.inj hn
    exact (hkept _).trans (by decide)

end Rotation

end Rehearsal

end ControlChannel
