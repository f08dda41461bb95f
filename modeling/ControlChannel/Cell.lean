import ControlChannel.Address
import ControlChannel.Text.Utf8

/-!
The values that a result cell can hold, as bytes: text in UTF-8, a truth value in one byte, a
signed number in four bytes and an internet address in four or sixteen, both with the highest
byte first. Main statements: each decoder takes back what its encoder writes, for numbers
(`decodeInt_encodeInt`), truth values and addresses.
-/

namespace ControlChannel

abbrev Bytes := List UInt8

/-- Why the bytes of a cell are not a value of the asked type. -/
inductive CellFault where
  | text (fault : Text.Utf8.Fault)
  | boolSize (size : Nat)
  | intSize (size : Nat)
  | inetSize (size : Nat)
  deriving DecidableEq, Repr

def CellFault.message : CellFault → String
  | .text fault => s!"invalid UTF-8 in text value: {fault.message}"
  | .boolSize size => s!"boolean value must be 1 byte, got {size}"
  | .intSize size => s!"int value must be 4 bytes, got {size}"
  | .inetSize size => s!"inet value must be 4 or 16 bytes, got {size}"

namespace Cell

def encodeText (s : String) : Bytes := Text.Utf8.encode s

def decodeText (raw : Bytes) : Except CellFault String :=
  (Text.Utf8.decode raw).mapError .text

def encodeBool (b : Bool) : Bytes := [if b then 1 else 0]

/-- Any byte but zero is true. -/
def decodeBool : Bytes → Except CellFault Bool
  | [b] => .ok (b != 0)
  | raw => .error (.boolSize raw.length)

/-- The four bytes of a word, highest first. -/
def wordBytes (w : UInt32) : Bytes :=
  [(w.toNat / 0x1000000).toUInt8, (w.toNat / 0x10000).toUInt8, (w.toNat / 0x100).toUInt8,
    w.toNat.toUInt8]

/-- The word of four bytes, highest first. -/
def wordOf (a b c d : UInt8) : UInt32 :=
  (((a.toNat * 0x100 + b.toNat) * 0x100 + c.toNat) * 0x100 + d.toNat).toUInt32

def encodeInt (n : Int32) : Bytes := wordBytes n.toUInt32

def decodeInt : Bytes → Except CellFault Int32
  | [a, b, c, d] => .ok (wordOf a b c d).toInt32
  | raw => .error (.intSize raw.length)

/-- The two bytes of a group, the higher first. -/
def groupBytes (g : UInt16) : Bytes := [(g.toNat / 0x100).toUInt8, g.toNat.toUInt8]

/-- The group of two bytes, the higher first. -/
def groupOf (a b : UInt8) : UInt16 := (a.toNat * 0x100 + b.toNat).toUInt16

def encodeInet : Ip → Bytes
  | .v4 ip => ip.octets
  | .v6 ip => ip.groups.flatMap groupBytes

def decodeInet : Bytes → Except CellFault Ip
  | [a, b, c, d] => .ok (.v4 ⟨a, b, c, d⟩)
  | [a0, b0, a1, b1, a2, b2, a3, b3, a4, b4, a5, b5, a6, b6, a7, b7] =>
    .ok (.v6 ⟨groupOf a0 b0, groupOf a1 b1, groupOf a2 b2, groupOf a3 b3,
      groupOf a4 b4, groupOf a5 b5, groupOf a6 b6, groupOf a7 b7⟩)
  | raw => .error (.inetSize raw.length)

theorem decodeBool_encodeBool (b : Bool) : decodeBool (encodeBool b) = .ok b := by
  cases b <;> rfl

theorem decodeInt_wordBytes (w : UInt32) : decodeInt (wordBytes w) = .ok w.toInt32 := by
  have := w.toNat_lt
  have h : ∀ n : Nat, n.toUInt8.toNat = n % 0x100 := fun _ => rfl
  have hw : wordOf (w.toNat / 0x1000000).toUInt8 (w.toNat / 0x10000).toUInt8
      (w.toNat / 0x100).toUInt8 w.toNat.toUInt8 = w := by
    apply UInt32.toNat_inj.1
    simp only [wordOf, h]
    show _ % 0x100000000 = _
    omega
  simp only [wordBytes, decodeInt, hw]

theorem decodeInt_encodeInt (n : Int32) : decodeInt (encodeInt n) = .ok n := by
  simp [encodeInt, decodeInt_wordBytes]

theorem groupOf_bytes (g : UInt16) :
    groupOf (g.toNat / 0x100).toUInt8 g.toNat.toUInt8 = g := by
  have := g.toNat_lt
  have h : ∀ n : Nat, n.toUInt8.toNat = n % 0x100 := fun _ => rfl
  apply UInt16.toNat_inj.1
  simp only [groupOf, h]
  show _ % 0x10000 = _
  omega

theorem decodeInet_encodeInet (ip : Ip) : decodeInet (encodeInet ip) = .ok ip := by
  cases ip with
  | v4 ip => rfl
  | v6 ip =>
    simp only [encodeInet, Ipv6.groups, groupBytes, List.flatMap_cons, List.flatMap_nil,
      List.cons_append, List.nil_append, decodeInet, groupOf_bytes]

end Cell

end ControlChannel
