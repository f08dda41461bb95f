import ControlChannel.Text.Utf8
import ControlChannel.Proofs.Schema.Decoding

/-! # Which bytes are UTF-8

A character stands in one of nine kinds of sequences, told apart by the range of each byte
(`Sequence`): none is overlong, none encodes a surrogate and none goes beyond the last code point.
Bytes are UTF-8 if they are such sequences one after the other (`WellFormed`). Main statements:
what decodes is the encoding of the result and of nothing else (`decode_eq_ok`), and bytes decode
exactly if they are well-formed (`decodes_iff_wellFormed`). -/

namespace ControlChannel.Text.Utf8

/-! ## Sequences -/

/-- A byte after the first one, in its full range. -/
def Tail (b : UInt8) : Prop := 0x80 ≤ b ∧ b ≤ 0xbf

/-- The bytes of one character. -/
inductive Sequence : List UInt8 → Prop where
  | ascii {a : UInt8} : a ≤ 0x7f → Sequence [a]
  | two {a b : UInt8} : 0xc2 ≤ a ∧ a ≤ 0xdf → Tail b → Sequence [a, b]
  /-- A smaller second byte would be an overlong form. -/
  | e0 {b c : UInt8} : 0xa0 ≤ b ∧ b ≤ 0xbf → Tail c → Sequence [0xe0, b, c]
  | e1ToEc {a b c : UInt8} : 0xe1 ≤ a ∧ a ≤ 0xec → Tail b → Tail c → Sequence [a, b, c]
  /-- A larger second byte would be a surrogate. -/
  | ed {b c : UInt8} : 0x80 ≤ b ∧ b ≤ 0x9f → Tail c → Sequence [0xed, b, c]
  | eeToEf {a b c : UInt8} : 0xee ≤ a ∧ a ≤ 0xef → Tail b → Tail c → Sequence [a, b, c]
  /-- A smaller second byte would be an overlong form. -/
  | f0 {b c d : UInt8} : 0x90 ≤ b ∧ b ≤ 0xbf → Tail c → Tail d → Sequence [0xf0, b, c, d]
  | f1ToF3 {a b c d : UInt8} : 0xf1 ≤ a ∧ a ≤ 0xf3 → Tail b → Tail c → Tail d →
      Sequence [a, b, c, d]
  /-- A larger second byte would be beyond the last code point. -/
  | f4 {b c d : UInt8} : 0x80 ≤ b ∧ b ≤ 0x8f → Tail c → Tail d → Sequence [0xf4, b, c, d]

/-- Sequences one after the other. -/
inductive WellFormed : List UInt8 → Prop where
  | nil : WellFormed []
  | append {s rest : List UInt8} : Sequence s → WellFormed rest → WellFormed (s ++ rest)

theorem ofNat_mem {n : Nat} {low high : UInt8} (h : low.toNat ≤ n ∧ n ≤ high.toNat) :
    low ≤ UInt8.ofNat n ∧ UInt8.ofNat n ≤ high := by
  have hlt : n < 0x100 := Nat.lt_of_le_of_lt h.2 high.toNat_lt
  simpa only [UInt8.le_iff_toNat_le, UInt8.toNat_ofNat_of_lt' hlt] using h

theorem tail_ofNat (n : Nat) : Tail (UInt8.ofNat (n % 0x40 + 0x80)) :=
  ofNat_mem (by simp only [UInt8.reduceToNat]; omega)

theorem sequence_three {v : Nat} (hlow : 0x7ff < v) (hhigh : v ≤ 0xffff)
    (hvalid : v < 0xd800 ∨ 0xdfff < v) :
    Sequence [UInt8.ofNat (v / 4096 % 0x10 + 0xe0), UInt8.ofNat (v / 64 % 0x40 + 0x80),
      UInt8.ofNat (v % 0x40 + 0x80)] := by
  obtain hlead | hlead | hlead | hlead : v / 4096 = 0 ∨ v / 4096 = 0xd ∨
      (1 ≤ v / 4096 ∧ v / 4096 ≤ 0xc) ∨ (0xe ≤ v / 4096 ∧ v / 4096 ≤ 0xf) := by omega
  · rw [hlead]
    exact .e0 (ofNat_mem (by simp only [UInt8.reduceToNat]; omega)) (tail_ofNat v)
  · rw [hlead]
    exact .ed (ofNat_mem (by simp only [UInt8.reduceToNat]; omega)) (tail_ofNat v)
  · exact .e1ToEc (ofNat_mem (by simp only [UInt8.reduceToNat]; omega)) (tail_ofNat _)
      (tail_ofNat v)
  · exact .eeToEf (ofNat_mem (by simp only [UInt8.reduceToNat]; omega)) (tail_ofNat _)
      (tail_ofNat v)

theorem sequence_four {v : Nat} (hlow : 0xffff < v) (hhigh : v < 0x110000) :
    Sequence [UInt8.ofNat (v / 262144 % 0x08 + 0xf0), UInt8.ofNat (v / 4096 % 0x40 + 0x80),
      UInt8.ofNat (v / 64 % 0x40 + 0x80), UInt8.ofNat (v % 0x40 + 0x80)] := by
  obtain hlead | hlead | hlead : v / 262144 = 0 ∨ v / 262144 = 4 ∨
      (1 ≤ v / 262144 ∧ v / 262144 ≤ 3) := by omega
  · rw [hlead]
    exact .f0 (ofNat_mem (by simp only [UInt8.reduceToNat]; omega)) (tail_ofNat _) (tail_ofNat v)
  · rw [hlead]
    exact .f4 (ofNat_mem (by simp only [UInt8.reduceToNat]; omega)) (tail_ofNat _) (tail_ofNat v)
  · exact .f1ToF3 (ofNat_mem (by simp only [UInt8.reduceToNat]; omega)) (tail_ofNat _)
      (tail_ofNat _) (tail_ofNat v)

/-- A character is written as one sequence. -/
theorem sequence_encodeChar (c : Char) : Sequence (String.utf8EncodeChar c) := by
  have hvalid := c.valid
  simp only [UInt32.isValidChar, Nat.isValidChar] at hvalid
  unfold String.utf8EncodeChar
  generalize c.val.toNat = v at hvalid
  dsimp only
  split
  · exact .ascii (@ofNat_mem v 0 _ ⟨Nat.zero_le v, ‹_›⟩).2
  split
  · exact .two (ofNat_mem (by simp only [UInt8.reduceToNat]; omega)) (tail_ofNat v)
  split
  · exact sequence_three (by omega) (by omega) (by omega)
  · exact sequence_four (by omega) (by omega)

theorem wellFormed_encode (s : String) : WellFormed (encode s) := by
  unfold encode
  induction s.toList with
  | nil => exact .nil
  | cons c cs ih => exact .append (sequence_encodeChar c) ih

/-! ## What decodes -/

/-- What a first byte fixes: its own bits, how many bytes follow and the range of the next one. -/
inductive Leads (a : UInt8) : Lead → Prop where
  | two {bits : Nat} {low high : UInt8} : a.toNat = bits + 0xc0 → 2 ≤ bits ∧ bits < 0x20 →
      0x80 ≤ low.toNat ∧ high.toNat ≤ 0xbf → Leads a ⟨bits, 1, low, high⟩
  | three {bits : Nat} {low high : UInt8} : a.toNat = bits + 0xe0 → bits < 0x10 →
      0x80 ≤ low.toNat ∧ high.toNat ≤ 0xbf → (bits = 0 → 0xa0 ≤ low.toNat) →
      (bits = 0xd → high.toNat ≤ 0x9f) → Leads a ⟨bits, 2, low, high⟩
  | four {bits : Nat} {low high : UInt8} : a.toNat = bits + 0xf0 → bits ≤ 4 →
      0x80 ≤ low.toNat ∧ high.toNat ≤ 0xbf → (bits = 0 → 0x90 ≤ low.toNat) →
      (bits = 4 → high.toNat ≤ 0x8f) → Leads a ⟨bits, 3, low, high⟩

theorem leads_of_lead? {a : UInt8} {lead : Lead} (h : lead? a = some lead) : Leads a lead := by
  unfold lead? at h
  simp only [UInt8.le_iff_toNat_le, ← UInt8.toNat_inj, UInt8.reduceToNat] at h
  split at h
  · obtain rfl := Option.some.inj h
    exact .two (by omega) (by omega) (by decide)
  split at h
  · obtain rfl := Option.some.inj h
    exact .three (by omega) (by omega) (by decide) (by decide) (by decide)
  split at h
  · obtain rfl := Option.some.inj h
    exact .three (by omega) (by omega) (by decide) (by decide) (by decide)
  split at h
  · obtain rfl := Option.some.inj h
    exact .three (by omega) (by omega) (by decide) (by omega) (by omega)
  split at h
  · obtain rfl := Option.some.inj h
    exact .four (by omega) (by omega) (by decide) (by decide) (by decide)
  split at h
  · obtain rfl := Option.some.inj h
    exact .four (by omega) (by omega) (by decide) (by omega) (by omega)
  split at h
  · obtain rfl := Option.some.inj h
    exact .four (by omega) (by omega) (by decide) (by decide) (by decide)
  · cases h

theorem Leads.not_ascii {a : UInt8} {lead : Lead} (h : Leads a lead) : ¬ a < 0x80 := by
  simp only [UInt8.lt_iff_toNat_lt, UInt8.reduceToNat]
  cases h <;> omega

theorem isTail_iff {b : UInt8} : isTail b = true ↔ Tail b := by
  simp [isTail, Tail]

theorem val_ofNat {n : Nat} (h : n.isValidChar) : (Char.ofNat n).val.toNat = n := by
  rw [Char.ofNat, dif_pos h]
  rfl

theorem encodeChar_ascii {a : UInt8} (h : a < 0x80) :
    String.utf8EncodeChar (Char.ofNat a.toNat) = [a] := by
  have hlt : a.toNat < 0x80 := h
  rw [String.utf8EncodeChar, val_ofNat (.inl (by omega)), if_pos (by omega), UInt8.ofNat_toNat]

namespace Leads

variable {a b c d : UInt8} {lead : Lead}

theorem encodeChar_two (h : Leads a lead) (htails : lead.tails = 1)
    (hb : lead.low ≤ b ∧ b ≤ lead.high) :
    String.utf8EncodeChar (Char.ofNat (extend lead.bits b)) = [a, b] := by
  cases h with
  | three | four => cases htails
  | @two bits low high hlead hbits hrange =>
    simp only [UInt8.le_iff_toNat_le] at hb
    show String.utf8EncodeChar (Char.ofNat (extend bits b)) = _
    have hval : extend bits b = bits * 64 + (b.toNat - 0x80) := rfl
    rw [String.utf8EncodeChar, val_ofNat (.inl (by omega)), if_neg (by omega), if_pos (by omega)]
    simp only [List.cons.injEq, and_true, ← UInt8.toNat_inj, UInt8.toNat_ofNat']
    omega

theorem encodeChar_three (h : Leads a lead) (htails : lead.tails = 2)
    (hb : lead.low ≤ b ∧ b ≤ lead.high) (hc : Tail c) :
    String.utf8EncodeChar (Char.ofNat (extend (extend lead.bits b) c)) = [a, b, c] := by
  cases h with
  | two | four => cases htails
  | @three bits low high hlead hbits hrange hoverlong hsurrogate =>
    simp only [Tail, UInt8.le_iff_toNat_le, UInt8.reduceToNat] at hb hc
    show String.utf8EncodeChar (Char.ofNat (extend (extend bits b) c)) = _
    have hval : extend (extend bits b) c =
      (bits * 64 + (b.toNat - 0x80)) * 64 + (c.toNat - 0x80) := rfl
    rw [String.utf8EncodeChar, val_ofNat (by rw [Nat.isValidChar]; omega), if_neg (by omega),
      if_neg (by omega), if_pos (by omega)]
    simp only [List.cons.injEq, and_true, ← UInt8.toNat_inj, UInt8.toNat_ofNat']
    omega

theorem encodeChar_four (h : Leads a lead) (htwo : lead.tails ≠ 1) (hthree : lead.tails ≠ 2)
    (hb : lead.low ≤ b ∧ b ≤ lead.high) (hc : Tail c) (hd : Tail d) :
    String.utf8EncodeChar (Char.ofNat (extend (extend (extend lead.bits b) c) d)) =
      [a, b, c, d] := by
  cases h with
  | two => exact absurd rfl htwo
  | three => exact absurd rfl hthree
  | @four bits low high hlead hbits hrange hoverlong hbeyond =>
    simp only [Tail, UInt8.le_iff_toNat_le, UInt8.reduceToNat] at hb hc hd
    show String.utf8EncodeChar (Char.ofNat (extend (extend (extend bits b) c) d)) = _
    have hval : extend (extend (extend bits b) c) d =
      ((bits * 64 + (b.toNat - 0x80)) * 64 + (c.toNat - 0x80)) * 64 + (d.toNat - 0x80) := rfl
    rw [String.utf8EncodeChar, val_ofNat (by rw [Nat.isValidChar]; omega), if_neg (by omega),
      if_neg (by omega), if_neg (by omega)]
    simp only [List.cons.injEq, and_true, ← UInt8.toNat_inj, UInt8.toNat_ofNat']
    omega

end Leads

/-- The characters that are read are those whose encodings the bytes are. -/
theorem flatMap_of_decodeFrom {start : Nat} {bytes : List UInt8} {cs : List Char}
    (h : decodeFrom start bytes = .ok cs) : cs.flatMap String.utf8EncodeChar = bytes := by
  fun_induction decodeFrom start bytes generalizing cs with
  | case1 =>
    cases h
    rfl
  | case2 start a rest ha ih =>
    obtain ⟨cs', hcs', heq⟩ := bind_eq_ok.mp h
    cases heq
    rw [List.flatMap_cons, ih hcs', encodeChar_ascii ha]
    rfl
  | case6 start a _ lead hlead b rest hb htails ih =>
    obtain ⟨cs', hcs', heq⟩ := bind_eq_ok.mp h
    cases heq
    rw [List.flatMap_cons, ih hcs',
      (leads_of_lead? hlead).encodeChar_two htails (by simpa using hb)]
    rfl
  | case9 start a _ lead hlead b hb _ c rest hc htails ih =>
    obtain ⟨cs', hcs', heq⟩ := bind_eq_ok.mp h
    cases heq
    rw [List.flatMap_cons, ih hcs',
      (leads_of_lead? hlead).encodeChar_three htails (by simpa using hb)
        (isTail_iff.mp (by simpa using hc))]
    rfl
  | case12 start a _ lead hlead b hb htwo c hc hthree d rest hd ih =>
    obtain ⟨cs', hcs', heq⟩ := bind_eq_ok.mp h
    cases heq
    rw [List.flatMap_cons, ih hcs',
      (leads_of_lead? hlead).encodeChar_four htwo hthree (by simpa using hb)
        (isTail_iff.mp (by simpa using hc)) (isTail_iff.mp (by simpa using hd))]
    rfl
  | case3 | case4 | case5 | case7 | case8 | case10 | case11 => cases h

/-! ## What is well-formed decodes -/

section
variable {a b c d : UInt8} {lead : Lead} (start : Nat) (rest : List UInt8)

theorem decodeFrom_ascii (h : a ≤ 0x7f) : ∃ x,
    decodeFrom start (a :: rest) = (x :: ·) <$> decodeFrom (start + 1) rest := by
  have hascii : a < 0x80 := by
    simp only [UInt8.le_iff_toNat_le, UInt8.lt_iff_toNat_lt, UInt8.reduceToNat] at h ⊢
    omega
  rw [decodeFrom, if_pos hascii]
  exact ⟨_, rfl⟩

theorem decodeFrom_two (h : lead? a = some lead) (htails : lead.tails = 1)
    (hb : lead.low ≤ b ∧ b ≤ lead.high) : ∃ x,
    decodeFrom start (a :: b :: rest) = (x :: ·) <$> decodeFrom (start + 2) rest := by
  rw [decodeFrom, if_neg (leads_of_lead? h).not_ascii]
  simp only [h]
  rw [if_neg (by simpa using hb), if_pos htails]
  exact ⟨_, rfl⟩

theorem decodeFrom_three (h : lead? a = some lead) (htails : lead.tails = 2)
    (hb : lead.low ≤ b ∧ b ≤ lead.high) (hc : Tail c) : ∃ x,
    decodeFrom start (a :: b :: c :: rest) = (x :: ·) <$> decodeFrom (start + 3) rest := by
  rw [decodeFrom, if_neg (leads_of_lead? h).not_ascii]
  simp only [h]
  rw [if_neg (by simpa using hb), if_neg (by omega), if_neg (by simpa using isTail_iff.mpr hc),
    if_pos htails]
  exact ⟨_, rfl⟩

theorem decodeFrom_four (h : lead? a = some lead) (htails : lead.tails = 3)
    (hb : lead.low ≤ b ∧ b ≤ lead.high) (hc : Tail c) (hd : Tail d) : ∃ x,
    decodeFrom start (a :: b :: c :: d :: rest) = (x :: ·) <$> decodeFrom (start + 4) rest := by
  rw [decodeFrom, if_neg (leads_of_lead? h).not_ascii]
  simp only [h]
  rw [if_neg (by simpa using hb), if_neg (by omega), if_neg (by simpa using isTail_iff.mpr hc),
    if_neg (by omega), if_neg (by simpa using isTail_iff.mpr hd)]
  exact ⟨_, rfl⟩

theorem lead?_two (h : 0xc2 ≤ a ∧ a ≤ 0xdf) : lead? a = some ⟨a.toNat - 0xc0, 1, 0x80, 0xbf⟩ := by
  rw [lead?, if_pos h]

theorem lead?_three (h : (0xe1 ≤ a ∧ a ≤ 0xec) ∨ (0xee ≤ a ∧ a ≤ 0xef)) :
    lead? a = some ⟨a.toNat - 0xe0, 2, 0x80, 0xbf⟩ := by
  have hother : ¬ (0xc2 ≤ a ∧ a ≤ 0xdf) ∧ a ≠ 0xe0 ∧ a ≠ 0xed ∧ (0xe1 ≤ a ∧ a ≤ 0xef) := by
    simp only [UInt8.le_iff_toNat_le, ne_eq, ← UInt8.toNat_inj, UInt8.reduceToNat] at h ⊢
    omega
  rw [lead?, if_neg hother.1, if_neg hother.2.1, if_neg hother.2.2.1, if_pos hother.2.2.2]

theorem lead?_four (h : 0xf1 ≤ a ∧ a ≤ 0xf3) :
    lead? a = some ⟨a.toNat - 0xf0, 3, 0x80, 0xbf⟩ := by
  have hother : ¬ (0xc2 ≤ a ∧ a ≤ 0xdf) ∧ a ≠ 0xe0 ∧ a ≠ 0xed ∧ ¬ (0xe1 ≤ a ∧ a ≤ 0xef) ∧
      a ≠ 0xf0 := by
    simp only [UInt8.le_iff_toNat_le, ne_eq, ← UInt8.toNat_inj, UInt8.reduceToNat] at h ⊢
    omega
  rw [lead?, if_neg hother.1, if_neg hother.2.1, if_neg hother.2.2.1, if_neg hother.2.2.2.1,
    if_neg hother.2.2.2.2, if_pos h]

/-- A sequence at the front is read as one character. -/
theorem decodeFrom_sequence {s : List UInt8} (h : Sequence s) : ∃ x,
    decodeFrom start (s ++ rest) = (x :: ·) <$> decodeFrom (start + s.length) rest := by
  cases h with
  | ascii ha => exact decodeFrom_ascii start rest ha
  | two ha hb => exact decodeFrom_two start rest (lead?_two ha) rfl hb
  | e0 hb hc => exact decodeFrom_three start rest rfl rfl hb hc
  | e1ToEc ha hb hc => exact decodeFrom_three start rest (lead?_three (.inl ha)) rfl hb hc
  | ed hb hc => exact decodeFrom_three start rest rfl rfl hb hc
  | eeToEf ha hb hc => exact decodeFrom_three start rest (lead?_three (.inr ha)) rfl hb hc
  | f0 hb hc hd => exact decodeFrom_four start rest rfl rfl hb hc hd
  | f1ToF3 ha hb hc hd => exact decodeFrom_four start rest (lead?_four ha) rfl hb hc hd
  | f4 hb hc hd => exact decodeFrom_four start rest rfl rfl hb hc hd

end

theorem decodeFrom_wellFormed {bytes : List UInt8} (h : WellFormed bytes) (start : Nat) :
    ∃ cs, decodeFrom start bytes = .ok cs := by
  induction h generalizing start with
  | nil => exact ⟨[], rfl⟩
  | @append s rest hs _ ih =>
    obtain ⟨x, hx⟩ := decodeFrom_sequence start rest hs
    obtain ⟨cs, hcs⟩ := ih (start + s.length)
    exact ⟨x :: cs, by rw [hx, hcs]; rfl⟩

/-! ## Both ways -/

theorem toByteArray_encode (s : String) : (encode s).toByteArray = s.toByteArray := by
  rw [encode, ← List.utf8Encode, String.utf8Encode_toList]

theorem encode_injective {s t : String} (h : encode s = encode t) : s = t :=
  String.toByteArray_inj.mp (by rw [← toByteArray_encode, h, toByteArray_encode])

theorem encode_of_decode {bytes : List UInt8} {s : String} (h : decode bytes = .ok s) :
    encode s = bytes := by
  unfold decode at h
  cases hcs : decodeFrom 0 bytes with
  | error fault =>
    rw [hcs] at h
    cases h
  | ok cs =>
    rw [hcs] at h
    cases h
    rw [encode, String.toList_ofList, flatMap_of_decodeFrom hcs]

theorem decodes_of_wellFormed {bytes : List UInt8} (h : WellFormed bytes) :
    ∃ s, decode bytes = .ok s := by
  obtain ⟨cs, hcs⟩ := decodeFrom_wellFormed h 0
  exact ⟨String.ofList cs, by rw [decode, hcs]; rfl⟩

/-- Bytes decode to a text exactly if they are its encoding. -/
theorem decode_eq_ok {bytes : List UInt8} {s : String} :
    decode bytes = .ok s ↔ bytes = encode s := by
  refine ⟨fun h => (encode_of_decode h).symm, ?_⟩
  rintro rfl
  obtain ⟨t, ht⟩ := decodes_of_wellFormed (wellFormed_encode s)
  rw [ht, encode_injective (encode_of_decode ht)]

theorem decodes_iff_wellFormed {bytes : List UInt8} :
    (∃ s, decode bytes = .ok s) ↔ WellFormed bytes :=
  ⟨fun ⟨s, h⟩ => decode_eq_ok.mp h ▸ wellFormed_encode s, decodes_of_wellFormed⟩

/-- The bytes of well-formed sequences are those that some list of characters encodes to. -/
theorem wellFormed_iff_isValidUTF8 {bytes : List UInt8} :
    WellFormed bytes ↔ bytes.toByteArray.IsValidUTF8 := by
  rw [← decodes_iff_wellFormed]
  constructor
  · rintro ⟨s, h⟩
    rw [decode_eq_ok.mp h, toByteArray_encode]
    exact s.isValidUTF8
  · intro h
    refine ⟨⟨bytes.toByteArray, h⟩, decode_eq_ok.mpr (List.toByteArray_inj.mp ?_)⟩
    exact (toByteArray_encode ⟨bytes.toByteArray, h⟩).symm

end ControlChannel.Text.Utf8
