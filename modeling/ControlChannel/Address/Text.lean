import ControlChannel.Address
import ControlChannel.Text.Number

/-!
The text of an address. Version 4: four decimal octets with points. Version 6: hexadecimal groups
without leading zeros, the longest run of two or more zero groups (the first of equal ones) left
out between two colons; a mapped address shows its version 4 part. A port follows after a colon;
a version 6 address with a port stands in brackets, with its scope, unless zero, after a percent
sign.
-/

namespace ControlChannel

open Text

namespace Ipv4

def chars (ip : Ipv4) : List Char :=
  decimal ip.a.toNat ++ '.' :: decimal ip.b.toNat ++ '.' :: decimal ip.c.toNat
    ++ '.' :: decimal ip.d.toNat

end Ipv4

namespace Ipv6

/-- How many zero groups the list starts with. -/
def zeroRun (groups : List UInt16) : Nat := (groups.takeWhile (· == 0)).length

/-- Start and length of the longest run of zero groups, the first one among equals. -/
def longestZeroRun : List UInt16 → Nat × Nat
  | [] => (0, 0)
  | g :: rest =>
    let here := zeroRun (g :: rest)
    let later := longestZeroRun rest
    if later.2 ≤ here then (0, here) else (later.1 + 1, later.2)

/-- Hexadecimal groups with colons between them. -/
def groupChars (groups : List UInt16) : List Char :=
  [':'].intercalate (groups.map fun g => hex g.toNat)

def chars (ip : Ipv6) : List Char :=
  match ip.mapped? with
  | some v4 => "::ffff:".toList ++ v4.chars
  | none =>
    let (start, length) := longestZeroRun ip.groups
    if 2 ≤ length then
      groupChars (ip.groups.take start) ++ "::".toList
        ++ groupChars (ip.groups.drop (start + length))
    else groupChars ip.groups

end Ipv6

namespace Ip

def chars : Ip → List Char
  | .v4 ip => ip.chars
  | .v6 ip => ip.chars

def text (ip : Ip) : String := String.ofList ip.chars

end Ip

namespace Address

/-- The scope as it stands in brackets: nothing when it is zero. -/
def scopeChars (scope : UInt32) : List Char :=
  if scope = 0 then [] else '%' :: decimal scope.toNat

def chars : Address → List Char
  | .v4 ip port => ip.chars ++ ':' :: decimal port.toNat
  | .v6 ip port scope =>
    '[' :: ip.chars ++ scopeChars scope ++ ']' :: ':' :: decimal port.toNat

def text (a : Address) : String := String.ofList a.chars

instance : ToString Address := ⟨text⟩

example : (Address.v6 ⟨0xfe80, 0, 0, 1, 0, 0, 0, 1⟩ 9042 3).text = "[fe80:0:0:1::1%3]:9042" := by
  decide +kernel
example : (Address.v6 ⟨0, 0, 0, 0, 0, 0xffff, 0x0a00, 1⟩ 1 0).text = "[::ffff:10.0.0.1]:1" := by
  decide +kernel
example : (Ip.v6 ⟨1, 0, 0, 2, 3, 0, 0, 4⟩).text = "1::2:3:0:0:4" := by decide +kernel

end Address

end ControlChannel
