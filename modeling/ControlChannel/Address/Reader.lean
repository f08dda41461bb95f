import ControlChannel.Address
import ControlChannel.Text.Number

/-!
Reading addresses. A version 4 octet has one to three digits and no leading zero; a version 6
group has one to four hexadecimal digits, two colons stand for at least one zero group, and the
last two groups may be written as a version 4 address. A port and a scope are decimal, leading
zeros allowed; a scope is read only inside brackets. Nothing may stand around an address. Main
content: `Address.parse?` and `Ip.parse?`.
-/

namespace ControlChannel

open Text

/-- Reads from the front of a text; a failure takes nothing. -/
abbrev CharReader := StateT (List Char) Option

namespace CharReader

/-- Exactly this character. -/
def char (c : Char) : CharReader Unit := fun s =>
  match s with
  | [] => none
  | d :: rest => if d = c then some ((), rest) else none

def number (rule : NumberRule) : CharReader Nat := rule.read

/-- The reader's value, if it reads the whole text. -/
def whole? {α : Type} (r : CharReader α) (s : List Char) : Option α :=
  match r s with
  | some (a, []) => some a
  | _ => none

end CharReader

open CharReader

def octetRule : NumberRule := { digits := some 3, leadingZero := false, below := UInt8.size }
def groupRule : NumberRule := { base := 16, digits := some 4, below := UInt16.size }
def portRule : NumberRule := { below := UInt16.size }
def scopeRule : NumberRule := { below := UInt32.size }

def Ipv4.reader : CharReader Ipv4 := do
  let a ← number octetRule
  char '.'
  let b ← number octetRule
  char '.'
  let c ← number octetRule
  char '.'
  let d ← number octetRule
  return ⟨a.toUInt8, b.toUInt8, c.toUInt8, d.toUInt8⟩

/-- The two groups that a version 4 address fills. -/
def Ipv4.asGroups (ip : Ipv4) : List UInt16 :=
  [(ip.a.toNat * 0x100 + ip.b.toNat).toUInt16, (ip.c.toNat * 0x100 + ip.d.toNat).toUInt16]

namespace Ipv6

/-- A colon before every group but the first, then the group. -/
def separated {α : Type} (first : Bool) (r : CharReader α) : CharReader α := do
  if !first then char ':'
  r

/-- Groups with colons between them, as many as there are but at most `slots`, and whether the
last two were written as a version 4 address, which needs two slots. -/
def readGroups : (slots : Nat) → (first : Bool) → List Char → (List UInt16 × Bool) × List Char
  | 0, _, s => (([], false), s)
  | slots + 1, first, s =>
    let embedded := if slots = 0 then none else separated first Ipv4.reader s
    match embedded with
    | some (ip, rest) => ((ip.asGroups, true), rest)
    | none =>
      match separated first (number groupRule) s with
      | some (g, rest) =>
        let ((groups, v4), rest) := readGroups slots false rest
        ((g.toUInt16 :: groups, v4), rest)
      | none => (([], false), s)

def reader : CharReader Ipv6 := fun s =>
  let ((head, headV4), rest) := readGroups 8 true s
  if head.length = 8 then (ofGroups? head).map (·, rest)
  else if headV4 then none
  else match rest with
    | ':' :: ':' :: rest =>
      let ((tail, _), rest) := readGroups (8 - (head.length + 1)) true rest
      let zeros := List.replicate (8 - head.length - tail.length) 0
      (ofGroups? (head ++ zeros ++ tail)).map (·, rest)
    | _ => none

end Ipv6

namespace Ip

/-- The internet address that is the whole text. -/
def parse? (s : List Char) : Option Ip :=
  match whole? Ipv4.reader s with
  | some ip => some (.v4 ip)
  | none => (whole? Ipv6.reader s).map .v6

end Ip

namespace Address

def readerV4 : CharReader Address := do
  let ip ← Ipv4.reader
  char ':'
  let port ← number portRule
  return .v4 ip port.toUInt16

/-- The scope after a percent sign, zero when there is none. -/
def readScope : CharReader UInt32 := fun s =>
  match (do char '%'; number scopeRule : CharReader Nat) s with
  | some (scope, rest) => some (scope.toUInt32, rest)
  | none => some (0, s)

def readerV6 : CharReader Address := do
  char '['
  let ip ← Ipv6.reader
  let scope ← readScope
  char ']'
  char ':'
  let port ← number portRule
  return .v6 ip port.toUInt16 scope

/-- The address that is the whole text. -/
def parse? (s : List Char) : Option Address :=
  match whole? readerV4 s with
  | some a => some a
  | none => whole? readerV6 s

end Address

end ControlChannel
