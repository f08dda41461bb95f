import ControlChannel.Address.Reader
import ControlChannel.Address.Text
import ControlChannel.Cell
import ControlChannel.Proofs.Settings.Numerals

/-! # Addresses read as they were written

Every internet address is read from its text (`Ip.parse?_chars`) and every address with a port from
its own (`Address.parse?_chars`): whichever run of zero groups is left out, the groups on its two
sides and the zeros in between are those of the address. No text is read as both
(`Ip.parse?_of_address`). -/

namespace ControlChannel

open Text

/-! ## Readers in a row -/

namespace CharReader

section
variable {α β : Type} {r : CharReader α} {f : α → CharReader β} {s rest : List Char} {a : α}

theorem bind_of_some (h : r s = some (a, rest)) : (r >>= f) s = f a rest := by
  simp [bind, StateT.bind, h]

theorem bind_of_none (h : r s = none) : (r >>= f) s = none := by
  simp [bind, StateT.bind, h]

theorem bind_eq_some {b : β} : (r >>= f) s = some (b, rest) ↔
    ∃ a s', r s = some (a, s') ∧ f a s' = some (b, rest) := by
  simp [bind, StateT.bind, Option.bind_eq_some_iff]

theorem pure_eq (a : α) (s : List Char) : (pure a : CharReader α) s = some (a, s) := rfl

theorem whole?_of_some (h : r s = some (a, [])) : whole? r s = some a := by
  rw [whole?, h]

theorem whole?_of_none (h : r s = none) : whole? r s = none := by
  rw [whole?, h]

theorem whole?_eq_some : whole? r s = some a ↔ r s = some (a, []) := by
  unfold whole?
  split <;> simp_all

end

theorem char_cons (c : Char) (rest : List Char) : char c (c :: rest) = some ((), rest) := by
  simp [char]

theorem char_of_ne {c : Char} {s : List Char} (h : s.head? ≠ some c) : char c s = none := by
  cases s with
  | nil => rfl
  | cons d s => simpa [char] using h

theorem number_toDigits {rule : NumberRule} {n : Nat} (h : rule.Allows n) {rest : List Char}
    (hrest : Breaks rule.base rest) :
    number rule (Nat.toDigits rule.base n ++ rest) = some (n, rest) :=
  NumberRule.read_toDigits h hrest

end CharReader

open CharReader

/-! ## Version 4 -/

theorem octetRule_allows (n : UInt8) : octetRule.Allows n.toNat where
  base := by decide
  digits k hk := by
    cases hk
    exact (Nat.length_toDigits_le_iff (by decide) (by decide)).mpr
      (Nat.lt_trans n.toNat_lt (by decide))
  below := n.toNat_lt

namespace Ipv4

theorem reader_chars (ip : Ipv4) {rest : List Char} (hrest : Breaks 10 rest) :
    reader (ip.chars ++ rest) = some (ip, rest) := by
  have hoctet : ∀ (n : UInt8) {rest}, Breaks 10 rest →
      number octetRule (decimal n.toNat ++ rest) = some (n.toNat, rest) :=
    fun n _ hrest => number_toDigits (octetRule_allows n) hrest
  have hpoint : ∀ rest, Breaks 10 ('.' :: rest) := fun _ => breaks_cons.mpr (by decide)
  simp only [chars, List.append_assoc, List.cons_append]
  unfold reader
  rw [bind_of_some (hoctet _ (hpoint _)), bind_of_some (char_cons _ _),
    bind_of_some (hoctet _ (hpoint _)), bind_of_some (char_cons _ _),
    bind_of_some (hoctet _ (hpoint _)), bind_of_some (char_cons _ _),
    bind_of_some (hoctet _ hrest)]
  simp [pure_eq]

/-- The first run of digits must be followed by a point. -/
theorem reader_of_no_point {s : List Char} (h : (s.dropWhile (isDigit 10)).head? ≠ some '.') :
    reader s = none := by
  unfold reader
  cases hread : number octetRule s with
  | none => exact bind_of_none hread
  | some found =>
    obtain ⟨n, rest⟩ := found
    have hrest : rest = s.dropWhile (isDigit 10) := NumberRule.rest_of_read hread
    rw [bind_of_some hread, bind_of_none (char_of_ne (hrest ▸ h))]

end Ipv4

/-! ## Groups -/

theorem isDigit_sixteen {c : Char} (h : isDigit 10 c = true) : isDigit 16 c = true := by
  unfold isDigit digit? at h ⊢
  by_cases hdecimal : '0' ≤ c ∧ c ≤ '9'
  · simp only [hdecimal, and_self, if_true, Option.isSome_ite] at h ⊢
    omega
  · -- Letters count from ten on.
    simp only [hdecimal, if_false, Option.isSome_ite] at h
    split at h
    · omega
    · split at h <;> omega

/-- Nothing follows that could belong to a group or to an embedded version 4 address. -/
def Ends (rest : List Char) : Prop := ∀ c ∈ rest.head?, isDigit 16 c = false ∧ c ≠ '.'

theorem ends_cons {c : Char} {rest : List Char} :
    Ends (c :: rest) ↔ isDigit 16 c = false ∧ c ≠ '.' := by
  simp [Ends]

theorem Ends.breaks {rest : List Char} (h : Ends rest) : Breaks 16 rest := fun c hc => (h c hc).1

theorem Ends.breaks_ten {rest : List Char} (h : Ends rest) : Breaks 10 rest := fun c hc => by
  cases hdigit : isDigit 10 c with
  | false => rfl
  | true => exact absurd (isDigit_sixteen hdigit) (by simp [(h c hc).1])

/-- A version 4 address does not start with a group. -/
theorem Ipv4.reader_of_ends {digits rest : List Char} (hdigits : ∀ c ∈ digits, isDigit 16 c = true)
    (hrest : Ends rest) : Ipv4.reader (digits ++ rest) = none := by
  refine reader_of_no_point ?_
  induction digits with
  | nil =>
    cases rest with
    | nil => simp
    | cons c rest =>
      have hten : isDigit 10 c = false := breaks_cons.mp hrest.breaks_ten
      simpa [hten] using (ends_cons.mp hrest).2
  | cons c digits ih =>
    have hc := hdigits c List.mem_cons_self
    rw [List.cons_append, List.dropWhile_cons]
    split
    · exact ih fun d hd => hdigits d (List.mem_cons_of_mem c hd)
    · intro h
      obtain rfl := Option.some.inj h
      revert hc
      decide

namespace Ipv6

/-- What stands before a group. -/
def separator (first : Bool) : List Char := if first then [] else [':']

theorem separated_separator {α : Type} (first : Bool) (r : CharReader α) (s : List Char) :
    separated first r (separator first ++ s) = r s := by
  cases first with
  | true => rfl
  | false => exact bind_of_some (char_cons ':' s)

/-- The groups as they are written, from the first one or from a later one on. -/
def written (first : Bool) : List UInt16 → List Char
  | [] => []
  | g :: gs => separator first ++ (hex g.toNat ++ written false gs)

theorem groupChars_eq (gs : List UInt16) : groupChars gs = written true gs := by
  have hlater : ∀ (g : UInt16) (gs : List UInt16),
      groupChars (g :: gs) = hex g.toNat ++ written false gs := by
    intro g gs
    induction gs generalizing g with
    | nil => simp [groupChars, written]
    | cons g' gs ih =>
      have hrest := ih g'
      rw [groupChars, List.map_cons] at hrest ⊢
      rw [List.map_cons, List.intercalate_cons_cons, hrest, List.append_assoc]
      rfl
  cases gs with
  | nil => rfl
  | cons g gs => exact hlater g gs

theorem groupRule_allows (g : UInt16) : groupRule.Allows g.toNat where
  base := by decide
  digits k hk := by
    cases hk
    exact (Nat.length_toDigits_le_iff (by decide) (by decide)).mpr g.toNat_lt
  below := g.toNat_lt

theorem isDigit_of_mem_hex {n : Nat} {c : Char} (h : c ∈ hex n) : isDigit 16 c = true :=
  isDigit_of_mem_toDigits (by decide) (by decide) h

/-- One group is read, and then the others. -/
theorem readGroups_group (slots : Nat) (first : Bool) (g : UInt16) {rest : List Char}
    (hrest : Ends rest) :
    readGroups (slots + 1) first (separator first ++ (hex g.toNat ++ rest)) =
      ((g :: (readGroups slots false rest).1.1, (readGroups slots false rest).1.2),
        (readGroups slots false rest).2) := by
  have hembedded : Ipv4.reader (hex g.toNat ++ rest) = none :=
    Ipv4.reader_of_ends (fun _ hc => isDigit_of_mem_hex hc) hrest
  have hgroup : number groupRule (hex g.toNat ++ rest) = some (g.toNat, rest) :=
    number_toDigits (groupRule_allows g) hrest.breaks
  have hvalue : g.toNat.toUInt16 = g := UInt16.ofNat_toNat
  rw [readGroups]
  simp only [separated_separator, hembedded, hgroup, ite_self, hvalue]

/-- Reading stops where no further group follows. -/
theorem readGroups_end (slots : Nat) (first : Bool) {rest : List Char} (hrest : Ends rest)
    (hcolon : ∀ r, rest = ':' :: r → Ends r) :
    readGroups slots first rest = (([], false), rest) := by
  cases slots with
  | zero => rfl
  | succ slots =>
    have hnone : ∀ {α : Type} (r : CharReader α), (∀ s, Ends s → r s = none) →
        separated first r rest = none := by
      intro α r hr
      cases first with
      | true => exact hr rest hrest
      | false =>
        cases rest with
        | nil => exact bind_of_none rfl
        | cons c rest =>
          by_cases hc : c = ':'
          · subst hc
            exact (bind_of_some (char_cons ':' rest)).trans (hr rest (hcolon rest rfl))
          · exact bind_of_none (char_of_ne (by simpa using hc))
    have hembedded : ∀ s, Ends s → Ipv4.reader s = none := fun s hs =>
      @Ipv4.reader_of_ends [] s (fun _ hc => by cases hc) hs
    rw [readGroups, hnone Ipv4.reader hembedded,
      hnone (number groupRule) fun s hs => NumberRule.read_of_breaks hs.breaks]
    simp

theorem readGroups_written {gs : List UInt16} {slots : Nat} (hlength : gs.length ≤ slots)
    (first : Bool) {rest : List Char} (hrest : Ends rest)
    (hcolon : ∀ r, rest = ':' :: r → Ends r) :
    readGroups slots first (written first gs ++ rest) = ((gs, false), rest) := by
  induction gs generalizing slots first with
  | nil => exact readGroups_end slots first hrest hcolon
  | cons g gs ih =>
    obtain ⟨slots, rfl⟩ : ∃ n, slots = n + 1 := ⟨slots - 1, by simp at hlength; omega⟩
    have hnext : Ends (written false gs ++ rest) := by
      cases gs with
      | nil => exact hrest
      | cons => exact ends_cons.mpr (by decide)
    rw [written, List.append_assoc, List.append_assoc, readGroups_group slots first g hnext,
      ih (by simpa using hlength)]

/-! ## Version 6 -/

/-- Nothing follows that could belong to a version 6 address. -/
def Closes (rest : List Char) : Prop := Ends rest ∧ rest.head? ≠ some ':'

theorem Closes.no_colon {rest : List Char} (h : Closes rest) (r : List Char) :
    rest = ':' :: r → Ends r := by
  rintro rfl
  exact absurd rfl h.2

/-- The zero groups that are left out, with the groups before and after them, are all groups. -/
theorem longestZeroRun_spec (gs : List UInt16) :
    (longestZeroRun gs).1 + (longestZeroRun gs).2 ≤ gs.length ∧
    gs.take (longestZeroRun gs).1 ++ List.replicate (longestZeroRun gs).2 0 ++
      gs.drop ((longestZeroRun gs).1 + (longestZeroRun gs).2) = gs := by
  induction gs with
  | nil => exact ⟨Nat.le_refl 0, rfl⟩
  | cons g gs ih =>
    rw [longestZeroRun]
    split
    · have hrun : (g :: gs).takeWhile (· == 0) = List.replicate (zeroRun (g :: gs)) 0 :=
        List.eq_replicate_iff.mpr
          ⟨rfl, fun x hx => by simpa using List.all_eq_true.mp List.all_takeWhile x hx⟩
      have hstart := List.takeWhile_prefix (l := g :: gs) (· == 0)
      have hwhole : (g :: gs).takeWhile (· == 0) ++ (g :: gs).drop (zeroRun (g :: gs)) = g :: gs :=
        List.prefix_iff_eq_append.mp hstart
      refine ⟨?_, ?_⟩
      · rw [Nat.zero_add]
        exact hstart.length_le
      · rw [Nat.zero_add, List.take_zero, List.nil_append, ← hrun, hwhole]
    · obtain ⟨hlength, hall⟩ := ih
      refine ⟨by simp only [List.length_cons]; omega, ?_⟩
      rw [List.take_succ_cons, Nat.add_right_comm, List.drop_succ_cons, List.cons_append,
        List.cons_append, hall]

theorem ofGroups?_mapped {ip : Ipv6} {v4 : Ipv4} (h : ip.mapped? = some v4) :
    ofGroups? (List.replicate 5 0 ++ 0xffff :: v4.asGroups) = some ip := by
  obtain ⟨g0, g1, g2, g3, g4, g5, g6, g7⟩ := ip
  unfold mapped? at h
  split at h
  · rename_i hlead
    obtain rfl := Option.some.inj h
    have hgroup : ∀ g : UInt16, ((g.toNat / 0x100).toUInt8.toNat * 0x100 +
        g.toNat.toUInt8.toNat).toUInt16 = g := Cell.groupOf_bytes
    simp only [groups, List.take_succ_cons, List.take_zero, List.cons.injEq, and_true] at hlead
    obtain ⟨rfl, rfl, rfl, rfl, rfl, rfl⟩ := hlead
    simp only [Ipv4.asGroups, hgroup]
    rfl
  · cases h

/-- An embedded version 4 address is read as the last two groups. -/
theorem readGroups_embedded (slots : Nat) (v4 : Ipv4) {rest : List Char} (hrest : Breaks 10 rest) :
    readGroups (slots + 2) false (':' :: (v4.chars ++ rest)) = ((v4.asGroups, true), rest) := by
  have hread : separated false Ipv4.reader (':' :: (v4.chars ++ rest)) = some (v4, rest) :=
    (bind_of_some (char_cons ':' _)).trans (v4.reader_chars hrest)
  rw [readGroups]
  simp only [hread, Nat.add_one_ne_zero, if_false]

theorem reader_mapped {ip : Ipv6} {v4 : Ipv4} (h : ip.mapped? = some v4) {rest : List Char}
    (hrest : Closes rest) : reader (ip.chars ++ rest) = some (ip, rest) := by
  have hcolon : ∀ s, Ends (':' :: s) := fun s => ends_cons.mpr (by decide)
  have hchars : ip.chars ++ rest = ':' :: ':' ::
      (separator true ++ (hex (0xffff : UInt16).toNat ++ ':' :: (v4.chars ++ rest))) := by
    rw [chars, h]
    rfl
  have hhead := readGroups_end 8 true (hcolon (':' ::
      (separator true ++ (hex (0xffff : UInt16).toNat ++ ':' :: (v4.chars ++ rest)))))
      fun r hr => by
    cases hr
    exact hcolon _
  have htail := readGroups_group 6 true 0xffff (hcolon (v4.chars ++ rest))
  rw [readGroups_embedded 4 v4 hrest.1.breaks_ten] at htail
  rw [reader, hchars, hhead]
  dsimp only
  rw [if_neg (by decide), if_neg (by decide)]
  simp only [List.length_nil, htail]
  have hgroups : ofGroups? ([] ++ List.replicate (8 - 0 - (0xffff :: v4.asGroups).length) 0 ++
      0xffff :: v4.asGroups) = some ip := ofGroups?_mapped h
  rw [hgroups]
  rfl

theorem reader_plain (ip : Ipv6) {rest : List Char} (hrest : Closes rest) :
    reader (groupChars ip.groups ++ rest) = some (ip, rest) := by
  have hread : readGroups 8 true (written true ip.groups ++ rest) = ((ip.groups, false), rest) :=
    readGroups_written (by simp [groups]) true hrest.1 hrest.no_colon
  rw [reader, groupChars_eq, hread]
  rfl

/-- The groups on the two sides of two colons are read, with zeros in between. -/
theorem reader_compressed {ip : Ipv6} {before after : List UInt16} {n : Nat} (hn : 2 ≤ n)
    (h : before ++ List.replicate n 0 ++ after = ip.groups) {rest : List Char}
    (hrest : Closes rest) :
    reader (groupChars before ++ "::".toList ++ groupChars after ++ rest) = some (ip, rest) := by
  have hlength : before.length + n + after.length = 8 := by
    have hgroups : ip.groups.length = 8 := rfl
    rw [← h] at hgroups
    simpa [Nat.add_assoc] using hgroups
  have hcolon : ∀ s, Ends (':' :: s) := fun s => ends_cons.mpr (by decide)
  have hhead : readGroups 8 true (written true before ++ ':' :: ':' ::
      (written true after ++ rest)) =
        ((before, false), ':' :: ':' :: (written true after ++ rest)) :=
    readGroups_written (by omega) true (hcolon _) fun r hr => by
      cases hr
      exact hcolon _
  have htail : readGroups (8 - (before.length + 1)) true (written true after ++ rest) =
      ((after, false), rest) :=
    readGroups_written (by omega) true hrest.1 hrest.no_colon
  have hchars : groupChars before ++ "::".toList ++ groupChars after ++ rest =
      written true before ++ ':' :: ':' :: (written true after ++ rest) := by
    simp [groupChars_eq]
  have hzeros : 8 - before.length - after.length = n := by omega
  rw [reader, hchars, hhead]
  dsimp only
  rw [if_neg (by omega), if_neg (by decide)]
  simp only [htail]
  rw [hzeros, h, ofGroups?_groups]
  rfl

theorem reader_chars (ip : Ipv6) {rest : List Char} (hrest : Closes rest) :
    reader (ip.chars ++ rest) = some (ip, rest) := by
  cases hmapped : ip.mapped? with
  | some v4 => exact reader_mapped hmapped hrest
  | none =>
    rw [chars, hmapped]
    dsimp only
    split
    · exact reader_compressed ‹_› (longestZeroRun_spec ip.groups).2 hrest
    · exact reader_plain ip hrest

/-- A text that starts as a version 4 address is none of version 6. -/
theorem reader_of_v4 {s rest : List Char} {ip : Ipv4} (h : Ipv4.reader s = some (ip, rest)) :
    reader s = none := by
  have hread : readGroups 8 true s = ((ip.asGroups, true), rest) := by
    have hembedded : separated true Ipv4.reader s = some (ip, rest) := h
    rw [readGroups]
    simp only [hembedded, Nat.succ_ne_zero, if_false]
  rw [reader, hread]
  rfl

/-- A bracket starts no version 6 address. -/
theorem reader_bracket (s : List Char) : reader ('[' :: s) = none := by
  have hread := readGroups_end 8 true (ends_cons.mpr (by decide) : Ends ('[' :: s))
    fun r hr => by cases hr
  rw [reader, hread]
  rfl

end Ipv6

theorem Ipv4.reader_bracket (s : List Char) : reader ('[' :: s) = none :=
  reader_of_no_point (by simp [show isDigit 10 '[' = false from rfl])

/-! ## Whole texts -/

theorem Ipv6.closes_nil : Closes [] := ⟨fun _ h => (by cases h), by simp⟩

theorem Ip.parse?_chars (ip : Ip) : parse? ip.chars = some ip := by
  cases ip with
  | v4 ip =>
    have hread : Ipv4.reader ip.chars = some (ip, []) := by
      simpa using ip.reader_chars (breaks_nil 10)
    rw [chars, parse?, whole?_of_some hread]
  | v6 ip =>
    have hread : Ipv6.reader ip.chars = some (ip, []) := by
      simpa using ip.reader_chars Ipv6.closes_nil
    have hv4 : Ipv4.reader ip.chars = none := by
      cases h : Ipv4.reader ip.chars with
      | none => rfl
      | some found => rw [Ipv6.reader_of_v4 h] at hread; cases hread
    rw [chars, parse?, whole?_of_none hv4, whole?_of_some hread]
    rfl

theorem portRule_allows (port : UInt16) : portRule.Allows port.toNat where
  base := by decide
  digits k hk := by cases hk
  below := port.toNat_lt

theorem scopeRule_allows (scope : UInt32) : scopeRule.Allows scope.toNat where
  base := by decide
  digits k hk := by cases hk
  below := scope.toNat_lt

namespace Address

theorem number_port (port : UInt16) :
    number portRule (decimal port.toNat) = some (port.toNat, []) := by
  have hread := number_toDigits (portRule_allows port) (breaks_nil 10)
  rwa [List.append_nil] at hread

theorem readScope_chars (scope : UInt32) (rest : List Char) :
    readScope (scopeChars scope ++ ']' :: rest) = some (scope, ']' :: rest) := by
  unfold scopeChars
  by_cases hzero : scope = 0
  · subst hzero
    rw [if_pos rfl, List.nil_append, readScope, bind_of_none (char_of_ne (by simp))]
  · have hnumber : number scopeRule (decimal scope.toNat ++ ']' :: rest) =
        some (scope.toNat, ']' :: rest) :=
      number_toDigits (scopeRule_allows scope) (breaks_cons.mpr (by decide))
    have hvalue : scope.toNat.toUInt32 = scope := UInt32.ofNat_toNat
    rw [if_neg hzero, List.cons_append, readScope, bind_of_some (char_cons _ _), hnumber]
    simp only [hvalue]

theorem readerV4_chars (ip : Ipv4) (port : UInt16) :
    readerV4 (v4 ip port).chars = some (v4 ip port, []) := by
  unfold readerV4
  rw [chars, bind_of_some (ip.reader_chars (breaks_cons.mpr (by decide))),
    bind_of_some (char_cons _ _), bind_of_some (number_port port)]
  simp [pure_eq]

theorem readerV6_chars (ip : Ipv6) (port : UInt16) (scope : UInt32) :
    readerV6 (v6 ip port scope).chars = some (v6 ip port scope, []) := by
  have hcloses : ∀ rest, Ipv6.Closes (scopeChars scope ++ ']' :: rest) := by
    intro rest
    unfold scopeChars
    split
    · exact ⟨ends_cons.mpr (by decide), by simp⟩
    · exact ⟨ends_cons.mpr (by decide), by simp⟩
  unfold readerV6
  simp only [chars, List.append_assoc, List.cons_append]
  rw [bind_of_some (char_cons _ _), bind_of_some (ip.reader_chars (hcloses _)),
    bind_of_some (readScope_chars scope _), bind_of_some (char_cons _ _),
    bind_of_some (char_cons _ _), bind_of_some (number_port port)]
  simp [pure_eq]

theorem parse?_chars (a : Address) : parse? a.chars = some a := by
  cases a with
  | v4 ip port => rw [parse?, whole?_of_some (readerV4_chars ip port)]
  | v6 ip port scope =>
    have hv4 : readerV4 (v6 ip port scope).chars = none := bind_of_none (Ipv4.reader_bracket _)
    rw [parse?, whole?_of_none hv4, whole?_of_some (readerV6_chars ip port scope)]

end Address

/-- What is an address with a port is no internet address. -/
theorem Ip.parse?_of_address {s : List Char} {a : Address} (h : Address.parse? s = some a) :
    parse? s = none := by
  unfold Address.parse? at h
  split at h
  · -- Here the version 4 address ends at a colon.
    rename_i hv4
    obtain ⟨ip, rest, hip, hport⟩ := bind_eq_some.mp (whole?_eq_some.mp hv4)
    obtain ⟨_, rest', hcolon, -⟩ := bind_eq_some.mp hport
    have hwhole : whole? Ipv4.reader s = none := by
      cases rest with
      | nil => cases hcolon
      | cons c rest => rw [whole?, hip]
    rw [parse?, hwhole, whole?_of_none (Ipv6.reader_of_v4 hip)]
    rfl
  · obtain ⟨_, rest, hbracket, -⟩ := bind_eq_some.mp (whole?_eq_some.mp h)
    obtain ⟨s, rfl⟩ : ∃ r, s = '[' :: r := by
      cases s with
      | nil => cases hbracket
      | cons c s =>
        by_cases hc : c = '['
        · exact ⟨s, hc ▸ rfl⟩
        · simp [char, hc] at hbracket
    rw [parse?, whole?_of_none (Ipv4.reader_bracket s), whole?_of_none (Ipv6.reader_bracket s)]
    rfl

end ControlChannel
