import ControlChannel.Host
import Std.Data.ExtTreeSet

/-!
Policies that order the candidates of a round. A policy hears of hosts that become live or cease
to be, and a plan lists the live ones at the moment it is made. The round-robin policy starts each
plan one place after the one before; the ordered policy lists addresses in their order. Main
statements: a round-robin plan is a rotation of the live hosts (`RoundRobin.plan_perm`), which
never holds an address twice (`nodup_join`, `nodup_leave`).
-/

namespace ControlChannel

/-- Live addresses in the order in which they became live, and whose turn it is. -/
structure RoundRobin where
  live : List Address := []
  turn : UInt64 := 0
  deriving DecidableEq, Repr

namespace RoundRobin

/-- The address is live from now on. -/
def join (r : RoundRobin) (a : Address) : RoundRobin :=
  if a ∈ r.live then r else { r with live := r.live ++ [a] }

/-- The address is live no more. -/
def leave (r : RoundRobin) (a : Address) : RoundRobin :=
  { r with live := r.live.filter (· != a) }

/-- The list from place `n` on, followed by what stood before. -/
def rotate (n : Nat) (l : List Address) : List Address := l.drop n ++ l.take n

/-- Every live address once, starting at the turn, and the policy for the next plan. -/
def plan (r : RoundRobin) : List Address × RoundRobin :=
  if r.live = [] then ([], r)
  else (rotate (r.turn.toNat % r.live.length) r.live, { r with turn := r.turn + 1 })

theorem plan_perm (r : RoundRobin) : r.plan.1.Perm r.live := by
  unfold plan
  split
  · simp_all
  · exact List.perm_append_comm.trans (by rw [List.take_append_drop])

theorem live_plan (r : RoundRobin) : r.plan.2.live = r.live := by
  unfold plan
  split <;> rfl

theorem nodup_join {r : RoundRobin} (h : r.live.Nodup) (a : Address) : (r.join a).live.Nodup := by
  unfold join
  split
  · exact h
  · rename_i ha
    simp only [List.nodup_append, h, List.nodup_cons, List.not_mem_nil, not_false_eq_true,
      List.nodup_nil, List.mem_singleton, true_and, and_self]
    rintro b hb _ rfl rfl
    exact ha hb

theorem nodup_leave {r : RoundRobin} (h : r.live.Nodup) (a : Address) :
    (r.leave a).live.Nodup := h.filter _

theorem mem_join (r : RoundRobin) (a b : Address) :
    b ∈ (r.join a).live ↔ b ∈ r.live ∨ b = a := by
  unfold join
  split
  · rename_i ha
    constructor
    · exact .inl
    · rintro (h | rfl)
      · exact h
      · exact ha
  · simp

theorem mem_leave (r : RoundRobin) (a b : Address) :
    b ∈ (r.leave a).live ↔ b ∈ r.live ∧ b ≠ a := by
  simp [leave]

end RoundRobin

/-- A policy with what it knows. -/
inductive Balancing where
  | roundRobin (state : RoundRobin)
  /-- Every host it was told of, in the order of addresses. -/
  | ordered (hosts : Std.ExtTreeSet Address)

namespace Balancing

def join (b : Balancing) (a : Address) : Balancing :=
  match b with
  | .roundRobin r => .roundRobin (r.join a)
  | .ordered hosts => .ordered (hosts.insert a)

def leave (b : Balancing) (a : Address) : Balancing :=
  match b with
  | .roundRobin r => .roundRobin (r.leave a)
  | .ordered hosts => .ordered (hosts.erase a)

/-- Whether the policy takes a host in at the start: round robin takes those that are up. -/
def admits (b : Balancing) (h : Host) : Bool :=
  match b with
  | .roundRobin _ => h.up
  | .ordered _ => true

/-- Tells the policy of the hosts known at the start. -/
def start (b : Balancing) (hosts : List Host) : Balancing :=
  (hosts.filter b.admits).foldl (fun b h => b.join h.address) b

/-- The candidates of a new round, in order. -/
def plan (b : Balancing) : List Address × Balancing :=
  match b with
  | .roundRobin r => (r.plan.1, .roundRobin r.plan.2)
  | .ordered hosts => (hosts.toList, b)

end Balancing

end ControlChannel
