import ControlChannel.Proofs.Settings.Addresses
import ControlChannel.Proofs.Settings.Drafts

/-! # Settings read as they were written

Nothing that is written for an address or a number is a blank or a comma, so the blanks around it
fall away (`Spaced.trimChars_text`) and a list of contact points comes apart at its commas
(`Environment.contactPoints_written`). Main statement: `ClientConfig.read_as_written`. -/

namespace ControlChannel

open Text

/-! ## Blanks and commas -/

namespace Text

/-- Without a blank or a comma. -/
def Plain (s : List Char) : Prop := ∀ c ∈ s, isBlank c = false ∧ c ≠ ','

theorem plain_nil : Plain [] := fun _ hc => by cases hc

theorem plain_cons {c : Char} {s : List Char} :
    Plain (c :: s) ↔ (isBlank c = false ∧ c ≠ ',') ∧ Plain s :=
  List.forall_mem_cons

theorem plain_append {s t : List Char} : Plain (s ++ t) ↔ Plain s ∧ Plain t :=
  List.forall_mem_append

theorem plain_of_all {s : List Char} (h : s.all (fun c => !isBlank c && c != ',') = true) :
    Plain s := fun c hc => by simpa using List.all_eq_true.mp h c hc

theorem Plain.reverse {s : List Char} (h : Plain s) : Plain s.reverse :=
  fun c hc => h c (List.mem_reverse.mp hc)

theorem Plain.no_comma {s : List Char} (h : Plain s) : ',' ∉ s := fun hc => (h ',' hc).2 rfl

theorem not_isBlank_of_range {c : Char} (hlow : 0x20 < c.toNat) (hhigh : c.toNat < 0x85) :
    isBlank c = false := by
  simp only [isBlank, blankRanges, List.any_cons, List.any_nil, Bool.or_eq_false_iff,
    Bool.and_eq_false_iff, decide_eq_false_iff_not, and_true]
  omega

theorem range_of_isDigit {c : Char} (h : isDigit 16 c = true) :
    0x30 ≤ c.toNat ∧ c.toNat ≤ 0x7a := by
  have hle : ∀ a b : Char, a ≤ b ↔ a.toNat ≤ b.toNat := fun _ _ => Iff.rfl
  unfold isDigit digit? at h
  simp only [hle, Char.reduceToNat] at h
  grind

theorem plain_of_isDigit {s : List Char} (h : ∀ c ∈ s, isDigit 16 c = true) : Plain s := by
  intro c hc
  obtain ⟨hlow, hhigh⟩ := range_of_isDigit (h c hc)
  refine ⟨not_isBlank_of_range (by omega) (by omega), ?_⟩
  rintro rfl
  revert hlow
  decide

theorem plain_hex (n : Nat) : Plain (hex n) :=
  plain_of_isDigit fun _ hc => isDigit_of_mem_toDigits (by decide) (by decide) hc

theorem plain_decimal (n : Nat) : Plain (decimal n) :=
  plain_of_isDigit fun _ hc =>
    isDigit_sixteen (isDigit_of_mem_toDigits (by decide) (by decide) hc)

theorem dropWhile_of_plain {s : List Char} (h : Plain s) : s.dropWhile isBlank = s := by
  cases s with
  | nil => rfl
  | cons c s => simp [(plain_cons.mp h).1.1]

theorem pieces_intercalate {separator : Char} {parts : List (List Char)} (hne : parts ≠ [])
    (h : ∀ p ∈ parts, separator ∉ p) :
    pieces separator ([separator].intercalate parts) = parts := by
  induction parts with
  | nil => exact absurd rfl hne
  | cons p parts ih =>
    have hp := h p List.mem_cons_self
    cases parts with
    | nil =>
      rw [List.intercalate_singleton]
      exact pieces_of_not_mem hp
    | cons q parts =>
      rw [List.intercalate_cons_cons, List.append_assoc, List.singleton_append, pieces_append hp,
        ih (List.cons_ne_nil q parts) fun r hr => h r (List.mem_cons_of_mem p hr)]

end Text

/-- A value with the blanks that are written around it. -/
structure Spaced (α : Type) where
  value : α
  before : List Char := []
  after : List Char := []
  blank : (before ++ after).all isBlank = true := by decide

namespace Spaced

variable {α : Type} {chars : α → List Char}

def text (chars : α → List Char) (w : Spaced α) : List Char :=
  w.before ++ chars w.value ++ w.after

theorem isBlank_of_mem (w : Spaced α) :
    (∀ c ∈ w.before, isBlank c = true) ∧ ∀ c ∈ w.after, isBlank c = true :=
  List.forall_mem_append.mp (List.all_eq_true.mp w.blank)

theorem trimChars_text (w : Spaced α) (hplain : Plain (chars w.value)) (hne : chars w.value ≠ []) :
    trimChars (w.text chars) = chars w.value := by
  obtain ⟨hbefore, hafter⟩ := w.isBlank_of_mem
  have hstart : trimStart (w.text chars) = chars w.value ++ w.after := by
    rw [trimStart, text, List.append_assoc, List.dropWhile_append_of_pos hbefore,
      List.dropWhile_append, dropWhile_of_plain hplain, if_neg (by simpa using hne)]
  have hend : trimEnd (chars w.value ++ w.after) = chars w.value := by
    rw [trimEnd, List.reverse_append,
      List.dropWhile_append_of_pos fun c hc => hafter c (List.mem_reverse.mp hc),
      dropWhile_of_plain hplain.reverse, List.reverse_reverse]
  rw [trimChars, hstart, hend]

theorem no_comma (w : Spaced α) (hplain : Plain (chars w.value)) : ',' ∉ w.text chars := by
  obtain ⟨hbefore, hafter⟩ := w.isBlank_of_mem
  have hcomma : isBlank ',' ≠ true := by decide
  simp only [text, List.mem_append, not_or]
  exact ⟨⟨fun hc => hcomma (hbefore _ hc), hplain.no_comma⟩, fun hc => hcomma (hafter _ hc)⟩

end Spaced

/-! ## Addresses -/

theorem Ipv4.plain_chars (ip : Ipv4) : Plain ip.chars := by
  have hlater : ∀ n, Plain ('.' :: decimal n) := fun n =>
    plain_cons.mpr ⟨by decide, plain_decimal n⟩
  simp only [chars, plain_append, plain_decimal, hlater, and_self]

theorem Ipv6.plain_written (first : Bool) (gs : List UInt16) : Plain (written first gs) := by
  induction gs generalizing first with
  | nil => exact plain_nil
  | cons g gs ih =>
    have hseparator : Plain (separator first) := by
      cases first with
      | true => exact plain_nil
      | false => exact plain_cons.mpr ⟨by decide, plain_nil⟩
    exact plain_append.mpr ⟨hseparator, plain_append.mpr ⟨plain_hex _, ih false⟩⟩

theorem Ipv6.plain_chars (ip : Ipv6) : Plain ip.chars := by
  have hgroups : ∀ gs, Plain (groupChars gs) := fun gs => groupChars_eq gs ▸ plain_written true gs
  have hcolons : Plain "::".toList := plain_of_all (by decide)
  have hmapped : Plain "::ffff:".toList := plain_of_all (by decide)
  unfold chars
  split
  · exact plain_append.mpr ⟨hmapped, Ipv4.plain_chars _⟩
  · dsimp only
    split
    · exact plain_append.mpr ⟨plain_append.mpr ⟨hgroups _, hcolons⟩, hgroups _⟩
    · exact hgroups _

theorem Ip.plain_chars (ip : Ip) : Plain ip.chars := by
  cases ip with
  | v4 ip => exact ip.plain_chars
  | v6 ip => exact ip.plain_chars

theorem Address.plain_chars (a : Address) : Plain a.chars := by
  cases a with
  | v4 ip port =>
    exact plain_append.mpr
      ⟨ip.plain_chars, plain_cons.mpr ⟨by decide, plain_decimal _⟩⟩
  | v6 ip port scope =>
    have hscope : Plain (scopeChars scope) := by
      unfold scopeChars
      split
      · exact plain_nil
      · exact plain_cons.mpr ⟨by decide, plain_decimal _⟩
    have hip : Plain ('[' :: ip.chars) := plain_cons.mpr ⟨by decide, ip.plain_chars⟩
    have hport : Plain (']' :: ':' :: decimal port.toNat) :=
      plain_cons.mpr ⟨by decide, plain_cons.mpr ⟨by decide, plain_decimal _⟩⟩
    exact plain_append.mpr ⟨plain_append.mpr ⟨hip, hscope⟩, hport⟩

/-- An address with a port, or an internet address without one. -/
inductive ContactPoint where
  | socket (address : Address)
  | host (ip : Ip)
  deriving DecidableEq, Repr

namespace ContactPoint

def chars : ContactPoint → List Char
  | .socket a => a.chars
  | .host ip => ip.chars

/-- The address, on the given port where none is written. -/
def address (port : UInt16) : ContactPoint → Address
  | .socket a => a
  | .host ip => .ofIp ip port

theorem plain_chars (p : ContactPoint) : Plain p.chars := by
  cases p with
  | socket a => exact a.plain_chars
  | host ip => exact ip.plain_chars

theorem denoted?_chars (port : UInt16) (p : ContactPoint) :
    DeclaredConfig.denoted? port p.chars = some (p.address port) := by
  cases p with
  | socket a => exact DeclaredConfig.denoted?_of_parse a.parse?_chars
  | host ip =>
    have hparse : Ip.parse? (host ip).chars = some ip := ip.parse?_chars
    cases hsocket : Address.parse? (host ip).chars with
    | some a => rw [Ip.parse?_of_address hsocket] at hparse; cases hparse
    | none =>
      rw [DeclaredConfig.denoted?, hsocket, hparse]
      rfl

theorem chars_ne_nil (p : ContactPoint) : p.chars ≠ [] := by
  intro h
  have hdenoted := denoted?_chars 0 p
  rw [h] at hdenoted
  cases hdenoted

theorem contactPoint_text (port : UInt16) (p : Spaced ContactPoint) :
    DeclaredConfig.contactPoint port (String.ofList (p.text chars)) =
      .ok (p.value.address port) := by
  unfold DeclaredConfig.contactPoint
  rw [String.toList_ofList, p.trimChars_text p.value.plain_chars p.value.chars_ne_nil,
    denoted?_chars]

end ContactPoint

/-! ## Settings -/

/-- Every setting with the blanks around it. -/
structure WrittenSettings where
  points : List (Spaced ContactPoint)
  port : Spaced UInt16
  timeout : Spaced UInt64
  baseDelay : Spaced UInt64
  maxDelay : Spaced UInt64

namespace WrittenSettings

/-- The texts of the contact points. -/
def pointTexts (w : WrittenSettings) : List (List Char) :=
  w.points.map (Spaced.text ContactPoint.chars)

/-- The variables have the texts of the settings for values. -/
structure In (w : WrittenSettings) (vars : Environment.Variables) : Prop where
  points : vars "CQL_CONTACT_POINTS" = some (String.ofList ([','].intercalate w.pointTexts))
  port : vars "CQL_PORT" = some (String.ofList (w.port.text fun n => decimal n.toNat))
  timeout : vars "CQL_CONNECTION_TIMEOUT_MS" =
    some (String.ofList (w.timeout.text fun n => decimal n.toNat))
  baseDelay : vars "CQL_RECONNECT_BASE_DELAY_MS" =
    some (String.ofList (w.baseDelay.text fun n => decimal n.toNat))
  maxDelay : vars "CQL_RECONNECT_MAX_DELAY_MS" =
    some (String.ofList (w.maxDelay.text fun n => decimal n.toNat))

/-- The entries of a file with the same settings. -/
def declared (w : WrittenSettings) : DeclaredConfig where
  contactPoints := some (w.pointTexts.map String.ofList)
  port := some w.port.value
  network := some { connectionTimeout := some w.timeout.value }
  reconnection := some { baseDelay := some w.baseDelay.value, maxDelay := some w.maxDelay.value }

/-- The settings without the blanks around the contact points. -/
def trimmed (w : WrittenSettings) : WrittenSettings :=
  { w with points := w.points.map fun p => { value := p.value } }

end WrittenSettings

theorem DeclaredConfig.settings_written (w : WrittenSettings) :
    w.declared.settings = .ok [.port w.port.value,
      .contactPoints (w.points.map fun p => p.value.address w.port.value),
      .connectionTimeout (.ofMillis w.timeout.value), .baseDelay (.ofMillis w.baseDelay.value),
      .maxDelay (.ofMillis w.maxDelay.value)] := by
  have hpoints : (w.pointTexts.map String.ofList).mapM (contactPoint w.port.value) =
      .ok (w.points.map fun p => p.value.address w.port.value) := by
    unfold WrittenSettings.pointTexts
    induction w.points with
    | nil => rfl
    | cons p ps ih =>
      rw [List.map_cons, List.map_cons, List.mapM_cons, ContactPoint.contactPoint_text, ih]
      rfl
  unfold settings
  simp only [WrittenSettings.declared, Option.getD_some, Option.mapM_some, hpoints]
  rfl

/-- The configuration of settings that are usable. -/
theorem ClientConfig.declared_written {w : WrittenSettings} (hpoints : w.points ≠ [])
    (hport : w.port.value ≠ 0) (htimeout : 0 < w.timeout.value) (hbase : 0 < w.baseDelay.value)
    (hceiling : w.baseDelay.value ≤ w.maxDelay.value) :
    w.declared.config = .ok ⟨w.points.map fun p => p.value.address w.port.value, w.port.value,
      ⟨.ofMillis w.timeout.value⟩, ⟨.ofMillis w.baseDelay.value, .ofMillis w.maxDelay.value⟩⟩ := by
  have hpositive : ∀ {ms : UInt64}, 0 < ms → Duration.zero < .ofMillis ms := by
    intro ms hms
    exact Nat.mul_pos (UInt64.lt_iff_toNat_lt.mp hms) (by decide)
  have hle : Duration.ofMillis w.baseDelay.value ≤ .ofMillis w.maxDelay.value :=
    Nat.mul_le_mul_right 1000000 (UInt64.le_iff_toNat_le.mp hceiling)
  rw [DeclaredConfig.config, DeclaredConfig.settings_written]
  refine build_eq_ok.mpr ⟨⟨hport, hpositive htimeout, hpositive hbase, hle⟩, ?_⟩
  cases hw : w.points with
  | nil => exact absurd hw hpoints
  | cons p ps => rfl

namespace Environment

variable {vars : Variables}

theorem contactPoints_written {w : WrittenSettings} (h : w.points ≠ []) :
    contactPoints (String.ofList ([','].intercalate w.pointTexts)) =
      w.trimmed.pointTexts.map String.ofList := by
  have hpieces : pieces ',' ([','].intercalate w.pointTexts) = w.pointTexts := by
    refine pieces_intercalate (by simpa [WrittenSettings.pointTexts] using h) fun text htext => ?_
    obtain ⟨p, -, rfl⟩ := List.mem_map.mp htext
    exact p.no_comma p.value.plain_chars
  have htrim : w.pointTexts.map trimChars = w.points.map fun p => p.value.chars := by
    rw [WrittenSettings.pointTexts, List.map_map]
    exact List.map_congr_left fun p _ =>
      p.trimChars_text p.value.plain_chars p.value.chars_ne_nil
  have hfilter : (w.points.map fun p => p.value.chars).filter (· ≠ []) =
      w.points.map fun p => p.value.chars := by
    refine List.filter_eq_self.mpr fun text htext => ?_
    obtain ⟨p, -, rfl⟩ := List.mem_map.mp htext
    simpa using p.value.chars_ne_nil
  have htexts : w.trimmed.pointTexts = w.points.map fun p => p.value.chars := by
    simp [WrittenSettings.pointTexts, WrittenSettings.trimmed, Spaced.text]
  rw [contactPoints, String.toList_ofList, hpieces, htrim, hfilter, htexts]

theorem number?_written {α : Type} (toNat : α → Nat) {w : Spaced α} {name : String}
    {below : Nat} (h : vars name = some (String.ofList (w.text fun a => decimal (toNat a))))
    (hbelow : toNat w.value < below) : number? vars below name = .ok (some (toNat w.value)) := by
  have hne : decimal (toNat w.value) ≠ [] := Nat.toDigits_ne_nil
  have htrim : trimChars (w.text fun a => decimal (toNat a)) = decimal (toNat w.value) :=
    w.trimChars_text (plain_decimal _) hne
  simp only [number?, h, String.toList_ofList, htrim, number?_decimal hbelow]

theorem millis?_written {w : Spaced UInt64} {name : String}
    (h : vars name = some (String.ofList (w.text fun n => decimal n.toNat))) :
    millis? vars name = .ok (some w.value) := by
  have hvalue : w.value.toNat.toUInt64 = w.value := UInt64.ofNat_toNat
  have hnumber : number? vars UInt64.size name = .ok (some w.value.toNat) :=
    number?_written UInt64.toNat h w.value.toNat_lt
  rw [millis?, hnumber]
  simp only [bind, Except.bind, pure, Except.pure, Option.map_some, hvalue]

theorem declared_written {w : WrittenSettings} (hpoints : w.points ≠ []) (h : w.In vars) :
    declared vars = .ok w.trimmed.declared := by
  have hport : number? vars UInt16.size "CQL_PORT" = .ok (some w.port.value.toNat) :=
    number?_written UInt16.toNat h.port w.port.value.toNat_lt
  have hvalue : w.port.value.toNat.toUInt16 = w.port.value := UInt16.ofNat_toNat
  unfold declared
  rw [hport, millis?_written h.timeout, millis?_written h.baseDelay, millis?_written h.maxDelay,
    h.points]
  simp only [bind, Except.bind, pure, Except.pure, Option.map_some, hvalue,
    contactPoints_written hpoints]
  rfl

end Environment

/-- Settings come back from their texts: any contact points but none at all, with or without a
port, a port and times in milliseconds that are usable. The variables may have blanks around every
contact point and every number, the entries of a file around every contact point. What is read as
an address with a port could never be read as one without. -/
theorem ClientConfig.read_as_written (w : WrittenSettings) (hpoints : w.points ≠ [])
    (hport : w.port.value ≠ 0) (htimeout : 0 < w.timeout.value) (hbase : 0 < w.baseDelay.value)
    (hceiling : w.baseDelay.value ≤ w.maxDelay.value) :
    let config : ClientConfig :=
      ⟨w.points.map fun p => p.value.address w.port.value, w.port.value,
        ⟨.ofMillis w.timeout.value⟩, ⟨.ofMillis w.baseDelay.value, .ofMillis w.maxDelay.value⟩⟩
    (∀ vars, w.In vars → Environment.config vars = .ok config) ∧
    w.declared.config = .ok config ∧
    ∀ s, ¬((Address.parse? s).isSome ∧ (Ip.parse? s).isSome) := by
  refine ⟨fun vars h => ?_, declared_written hpoints hport htimeout hbase hceiling, ?_⟩
  · have htrimmed : w.trimmed.points ≠ [] := by simpa [WrittenSettings.trimmed] using hpoints
    have hconfig := declared_written htrimmed hport htimeout hbase hceiling
    rw [Environment.config, Environment.declared_written hpoints h]
    refine hconfig.trans ?_
    simp [WrittenSettings.trimmed]
  · rintro s ⟨hsocket, hip⟩
    obtain ⟨a, ha⟩ := Option.isSome_iff_exists.mp hsocket
    rw [Ip.parse?_of_address ha] at hip
    cases hip

/-- Of two runs of zeros as long as each other the first is left out; a scope stands in brackets; a
mapped address keeps its version 4 part. -/
theorem ClientConfig.read_as_written_zeros :
    let vars : Environment.Variables := fun name => match name with
      | "CQL_CONTACT_POINTS" => some
        " 10.0.0.1,2001:db8::2:0:0:1\u2003,\t[fe80::1%3]:19042,::ffff:192.0.2.7\u3000"
      | "CQL_PORT" => some "9043\n"
      | "CQL_CONNECTION_TIMEOUT_MS" => some "\u0085 18446744073709551615"
      | "CQL_RECONNECT_BASE_DELAY_MS" => some "1"
      | "CQL_RECONNECT_MAX_DELAY_MS" => some "1"
      | _ => none
    Environment.config vars = .ok
      ⟨[.v4 ⟨10, 0, 0, 1⟩ 9043, .v6 ⟨0x2001, 0xdb8, 0, 0, 2, 0, 0, 1⟩ 9043 0,
        .v6 ⟨0xfe80, 0, 0, 0, 0, 0, 0, 1⟩ 19042 3,
        .v6 ⟨0, 0, 0, 0, 0, 0xffff, 0xc000, 0x0207⟩ 9043 0],
      9043, ⟨.ofMillis 0xffffffffffffffff⟩, ⟨.ofMillis 1, .ofMillis 1⟩⟩ := by
  intro vars
  have hread := ClientConfig.read_as_written
    { points := [
        { value := .host (.v4 ⟨10, 0, 0, 1⟩), before := [' '] },
        { value := .host (.v6 ⟨0x2001, 0xdb8, 0, 0, 2, 0, 0, 1⟩), after := ['\u2003'] },
        { value := .socket (.v6 ⟨0xfe80, 0, 0, 0, 0, 0, 0, 1⟩ 19042 3), before := ['\t'] },
        { value := .host (.v6 ⟨0, 0, 0, 0, 0, 0xffff, 0xc000, 0x0207⟩), after := ['\u3000'] }]
      port := { value := 9043, after := ['\n'] }
      timeout := { value := 0xffffffffffffffff, before := ['\u0085', ' '] }
      baseDelay := { value := 1 }
      maxDelay := { value := 1 } }
    (by decide) (by decide) (by decide) (by decide) (by decide)
  exact hread.1 vars {
    points := by decide +kernel
    port := by decide +kernel
    timeout := by decide +kernel
    baseDelay := by decide +kernel
    maxDelay := by decide +kernel }

end ControlChannel
