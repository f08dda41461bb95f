import Std.Data.ExtTreeMap

/-!
Node addresses: an internet address and a port, for version 6 also a scope. Addresses are equal
only when all parts are, so a version 6 address that embeds a version 4 one differs from it.
Main statements: the rank of an address determines it (`Address.rank_injective`), and addresses
compare by rank, which puts version 4 first and then goes by octets, port and scope.
-/

namespace ControlChannel

structure Ipv4 where
  a : UInt8
  b : UInt8
  c : UInt8
  d : UInt8
  deriving DecidableEq, Repr, Inhabited

/-- Eight groups of sixteen bits. -/
structure Ipv6 where
  g0 : UInt16
  g1 : UInt16
  g2 : UInt16
  g3 : UInt16
  g4 : UInt16
  g5 : UInt16
  g6 : UInt16
  g7 : UInt16
  deriving DecidableEq, Repr, Inhabited

inductive Ip where
  | v4 (ip : Ipv4)
  | v6 (ip : Ipv6)
  deriving DecidableEq, Repr, Inhabited

/-- Where a node listens. -/
inductive Address where
  | v4 (ip : Ipv4) (port : UInt16)
  | v6 (ip : Ipv6) (port : UInt16) (scope : UInt32)
  deriving DecidableEq, Repr, Inhabited

namespace Ipv4

def octets (ip : Ipv4) : List UInt8 := [ip.a, ip.b, ip.c, ip.d]

/-- The octets read as one number, the first one highest. -/
def value (ip : Ipv4) : Nat :=
  ((ip.a.toNat * 0x100 + ip.b.toNat) * 0x100 + ip.c.toNat) * 0x100 + ip.d.toNat

def loopback : Ipv4 := ⟨127, 0, 0, 1⟩

theorem value_injective {x y : Ipv4} (h : x.value = y.value) : x = y := by
  cases x; cases y
  simp only [value] at h
  rename_i a b c d a' b' c' d'
  have := a.toNat_lt; have := b.toNat_lt; have := c.toNat_lt; have := d.toNat_lt
  have := a'.toNat_lt; have := b'.toNat_lt; have := c'.toNat_lt; have := d'.toNat_lt
  simp only [mk.injEq, ← UInt8.toNat_inj]
  omega

theorem value_lt (x : Ipv4) : x.value < 0x100000000 := by
  have := x.a.toNat_lt; have := x.b.toNat_lt; have := x.c.toNat_lt; have := x.d.toNat_lt
  simp only [value]; omega

end Ipv4

namespace Ipv6

def groups (ip : Ipv6) : List UInt16 :=
  [ip.g0, ip.g1, ip.g2, ip.g3, ip.g4, ip.g5, ip.g6, ip.g7]

/-- The address of eight groups. -/
def ofGroups? : List UInt16 → Option Ipv6
  | [g0, g1, g2, g3, g4, g5, g6, g7] => some ⟨g0, g1, g2, g3, g4, g5, g6, g7⟩
  | _ => none

/-- The groups read as one number, the first one highest. -/
def value (ip : Ipv6) : Nat :=
  ip.groups.foldl (fun n g => n * 0x10000 + g.toNat) 0

/-- The version 4 address that a mapped address embeds: five zero groups, one of ones, then its
octets. -/
def mapped? (ip : Ipv6) : Option Ipv4 :=
  if ip.groups.take 6 = [0, 0, 0, 0, 0, 0xffff] then
    some ⟨(ip.g6.toNat / 0x100).toUInt8, ip.g6.toNat.toUInt8,
      (ip.g7.toNat / 0x100).toUInt8, ip.g7.toNat.toUInt8⟩
  else none

@[simp] theorem ofGroups?_groups (ip : Ipv6) : ofGroups? ip.groups = some ip := rfl

theorem value_injective {x y : Ipv6} (h : x.value = y.value) : x = y := by
  cases x; cases y
  simp only [value, groups, List.foldl_cons, List.foldl_nil] at h
  rename_i a b c d e f i j a' b' c' d' e' f' i' j'
  have := a.toNat_lt; have := b.toNat_lt; have := c.toNat_lt; have := d.toNat_lt
  have := e.toNat_lt; have := f.toNat_lt; have := i.toNat_lt; have := j.toNat_lt
  have := a'.toNat_lt; have := b'.toNat_lt; have := c'.toNat_lt; have := d'.toNat_lt
  have := e'.toNat_lt; have := f'.toNat_lt; have := i'.toNat_lt; have := j'.toNat_lt
  simp only [mk.injEq, ← UInt16.toNat_inj]
  omega

end Ipv6

namespace Address

/-- The address of `ip` on `port`, in no particular scope. -/
def ofIp (ip : Ip) (port : UInt16) : Address :=
  match ip with
  | .v4 ip => .v4 ip port
  | .v6 ip => .v6 ip port 0

def ip : Address → Ip
  | .v4 ip _ => .v4 ip
  | .v6 ip _ _ => .v6 ip

def port : Address → UInt16
  | .v4 _ port => port
  | .v6 _ port _ => port

/-- The place of an address in the order of all addresses. -/
def rank : Address → Nat
  | .v4 ip port => ip.value * 0x10000 + port.toNat
  | .v6 ip port scope =>
    0x1000000000000 + ((ip.value * 0x10000 + port.toNat) * 0x100000000 + scope.toNat)

theorem rank_injective {x y : Address} (h : x.rank = y.rank) : x = y := by
  cases x with
  | v4 i p =>
    cases y with
    | v4 i' p' =>
      simp only [rank] at h
      have := p.toNat_lt; have := p'.toNat_lt
      have hi : i = i' := Ipv4.value_injective (by omega)
      have hp : p = p' := UInt16.toNat_inj.1 (by omega)
      rw [hi, hp]
    | v6 i' p' s' =>
      simp only [rank] at h
      have := p.toNat_lt; have := i.value_lt
      omega
  | v6 i p s =>
    cases y with
    | v4 i' p' =>
      simp only [rank] at h
      have := p'.toNat_lt; have := i'.value_lt
      omega
    | v6 i' p' s' =>
      simp only [rank] at h
      have := p.toNat_lt; have := p'.toNat_lt
      have := s.toNat_lt; have := s'.toNat_lt
      have hi : i = i' := Ipv6.value_injective (by omega)
      have hp : p = p' := UInt16.toNat_inj.1 (by omega)
      have hs : s = s' := UInt32.toNat_inj.1 (by omega)
      rw [hi, hp, hs]

instance : Ord Address := ⟨fun a b => compare a.rank b.rank⟩

theorem compare_def (a b : Address) : compare a b = compare a.rank b.rank := rfl

instance : Std.TransOrd Address where
  eq_swap := by
    intro a b
    simp only [compare_def]
    exact Std.OrientedCmp.eq_swap
  isLE_trans := by
    intro a b c
    simp only [compare_def]
    exact Std.TransCmp.isLE_trans

instance : Std.LawfulEqOrd Address where
  compare_self := by
    intro a
    simp only [compare_def]
    exact Std.ReflCmp.compare_self
  eq_of_compare := by
    intro a b h
    exact rank_injective (Nat.compare_eq_eq.1 h)

end Address

end ControlChannel
