import ControlChannel.Proofs.Membership.Peers
import ControlChannel.Proofs.Values.Utf8

/-! # Cells both ways

Which bytes a decoder takes and what it makes of them. Texts, numbers and internet addresses are
lossless: each value is written in one way, and what is read writes back to the same bytes
(`Cell.Lossless`). A truth value is read from any single byte. Main statement:
`Cell.values_faithful`, all four kinds of values. -/

namespace ControlChannel.Cell

/-! ## Numbers -/

theorem wordBytes_wordOf (a b c d : UInt8) : wordBytes (wordOf a b c d) = [a, b, c, d] := by
  have ha := a.toNat_lt
  have hb := b.toNat_lt
  have hc := c.toNat_lt
  have hd := d.toNat_lt
  have hword : (wordOf a b c d).toNat =
      ((a.toNat * 0x100 + b.toNat) * 0x100 + c.toNat) * 0x100 + d.toNat := by
    show _ % 0x100000000 = _
    omega
  have hbyte : ∀ {n : Nat} {x : UInt8}, n % 0x100 = x.toNat → n.toUInt8 = x := fun h =>
    UInt8.toNat_inj.mp h
  rw [wordBytes, hword]
  simp only [List.cons.injEq, and_true]
  exact ⟨hbyte (by omega), hbyte (by omega), hbyte (by omega), hbyte (by omega)⟩

/-- Bytes are read as a number exactly if they are its four bytes. -/
theorem decodeInt_eq_ok {raw : Bytes} {n : Int32} : decodeInt raw = .ok n ↔ raw = encodeInt n := by
  refine ⟨fun h => ?_, fun h => h ▸ decodeInt_encodeInt n⟩
  unfold decodeInt at h
  split at h
  · cases h
    rw [encodeInt, UInt32.toUInt32_toInt32, wordBytes_wordOf]
  · cases h

/-! ## Texts -/

theorem decodeText_eq_ok {raw : Bytes} {s : String} :
    decodeText raw = .ok s ↔ raw = encodeText s :=
  mapError_eq_ok.trans Text.Utf8.decode_eq_ok

theorem decodeText_iff (raw : Bytes) : (∃ s, decodeText raw = .ok s) ↔ Text.Utf8.WellFormed raw :=
  (exists_congr fun _ => mapError_eq_ok).trans Text.Utf8.decodes_iff_wellFormed

/-! ## Internet addresses -/

theorem length_encodeInet_v6 (ip : Ipv6) : (encodeInet (.v6 ip)).length = 16 := rfl

theorem decodeInet_iff (raw : Bytes) :
    (∃ ip, decodeInet raw = .ok ip) ↔ raw.length = 4 ∨ raw.length = 16 := by
  constructor
  · rintro ⟨ip, h⟩
    rw [decodeInet_eq_ok.mp h]
    cases ip with
    | v4 ip => exact .inl rfl
    | v6 ip => exact .inr (length_encodeInet_v6 ip)
  · intro h
    cases hraw : decodeInet raw with
    | ok ip => exact ⟨ip, rfl⟩
    | error fault =>
      have hsize := (decodeInet_eq_error.mp hraw).1
      omega

/-! ## Values and bytes -/

section
variable {α : Type}

/-- The value of a cell, or the error that is reported for it. -/
def reported (decode : Bytes → Except CellFault α) (raw : Bytes) : Except Error α :=
  (decode raw).mapError fun fault => (RowFault.cell fault).error

/-- Every value is read from its bytes, and of all bytes those of a certain form are read; the
others are an error of the protocol. -/
structure Faithful (encode : α → Bytes) (decode : Bytes → Except CellFault α)
    (form : Bytes → Prop) : Prop where
  reads (a : α) : reported decode (encode a) = .ok a
  accepts (raw : Bytes) : (∃ a, reported decode raw = .ok a) ↔ form raw
  refuses (raw : Bytes) : ¬ form raw → ∃ message, reported decode raw = .error (.protocol message)

/-- Moreover what is read writes back to the same bytes, so that no other bytes are read as the
same value. -/
structure Lossless (encode : α → Bytes) (decode : Bytes → Except CellFault α)
    (form : Bytes → Prop) : Prop extends Faithful encode decode form where
  rewrites (raw : Bytes) (a : α) : reported decode raw = .ok a → encode a = raw
  distinct (raw raw' : Bytes) (a : α) :
    reported decode raw = .ok a → reported decode raw' = .ok a → raw = raw'

variable {encode : α → Bytes} {decode : Bytes → Except CellFault α} {form : Bytes → Prop}

theorem reported_eq_ok {raw : Bytes} {a : α} :
    reported decode raw = .ok a ↔ decode raw = .ok a := mapError_eq_ok

theorem faithful_of_iff (hreads : ∀ a, decode (encode a) = .ok a)
    (haccepts : ∀ raw, (∃ a, decode raw = .ok a) ↔ form raw) : Faithful encode decode form where
  reads a := reported_eq_ok.mpr (hreads a)
  accepts raw := (exists_congr fun _ => reported_eq_ok).trans (haccepts raw)
  refuses raw hform := by
    cases h : decode raw with
    | ok a => exact absurd ((haccepts raw).mp ⟨a, h⟩) hform
    | error fault => exact ⟨fault.message, by rw [reported, h]; rfl⟩

theorem lossless_of_iff (hok : ∀ raw a, decode raw = .ok a ↔ raw = encode a)
    (haccepts : ∀ raw, (∃ a, decode raw = .ok a) ↔ form raw) : Lossless encode decode form where
  toFaithful := faithful_of_iff (fun a => (hok _ a).mpr rfl) haccepts
  rewrites raw a h := ((hok raw a).mp (reported_eq_ok.mp h)).symm
  distinct raw raw' a h h' := by
    rw [(hok raw a).mp (reported_eq_ok.mp h), (hok raw' a).mp (reported_eq_ok.mp h')]

end

/-- Cells hold their values faithfully. Texts, numbers and internet addresses are lossless: any
bytes in UTF-8 are one text, any four bytes one number, any four or sixteen bytes one address, and
no two of them the same; an address of version 6 takes sixteen bytes and stays one, even if it
embeds one of version 4. A truth value is read from any one byte. All other bytes are errors of the
protocol. -/
theorem values_faithful :
    Lossless encodeText decodeText Text.Utf8.WellFormed ∧
    (∀ raw : Bytes, Text.Utf8.WellFormed raw ↔ raw.toByteArray.IsValidUTF8) ∧
    Lossless encodeInt decodeInt (·.length = 4) ∧
    Lossless encodeInet decodeInet (fun raw => raw.length = 4 ∨ raw.length = 16) ∧
    (∀ raw ip, decodeInet raw = .ok (.v4 ip) → raw.length = 4) ∧
    (∀ raw ip, decodeInet raw = .ok (.v6 ip) → raw.length = 16) ∧
    Faithful encodeBool decodeBool (·.length = 1) := by
  refine ⟨lossless_of_iff (fun _ _ => decodeText_eq_ok) decodeText_iff,
    fun _ => Text.Utf8.wellFormed_iff_isValidUTF8,
    lossless_of_iff (fun _ _ => decodeInt_eq_ok) decodeInt_iff,
    lossless_of_iff (fun _ _ => decodeInet_eq_ok) decodeInet_iff, fun raw ip h => ?_,
    fun raw ip h => ?_, faithful_of_iff decodeBool_encodeBool decodeBool_iff⟩
  · rw [decodeInet_eq_ok.mp h]
    rfl
  · rw [decodeInet_eq_ok.mp h, length_encodeInet_v6]

/-- A mapped address takes sixteen bytes and stays one of version 6. -/
theorem values_faithful_mapped :
    let mapped : Ip := .v6 ⟨0, 0, 0, 0, 0, 0xffff, 0x0a00, 0x0001⟩
    decodeInet (encodeInet mapped) = .ok mapped ∧ (encodeInet mapped).length = 16 := by
  intro mapped
  obtain ⟨-, -, -, hinet, -, hlength, -⟩ := values_faithful
  have hread : decodeInet (encodeInet mapped) = .ok mapped := reported_eq_ok.mp (hinet.reads mapped)
  exact ⟨hread, hlength _ _ hread⟩

/-- A surrogate is no character. -/
example : decodeText [0xed, 0xa0, 0x80] = .error (.text (.invalid 0 1)) := rfl

end ControlChannel.Cell
