import ControlChannel.Backoff
import ControlChannel.Config.Fault

/-!
The configuration of a client. Settings are given one after the other into a draft, which keeps
the last value of each; a draft filled up with standard values becomes a configuration if it
passes the checks. Main statements: a draft follows the last setting given (`ofSettings_append`),
and the checks accept exactly the configurations whose values are usable
(`ReconnectionConfig.checked_eq_ok_iff`, `ClientConfig.checked_eq_ok_iff`).
-/

namespace ControlChannel

def defaultPort : UInt16 := 9042
def defaultConnectionTimeout : Duration := .ofMillis 5000
def defaultBaseDelay : Duration := .ofMillis 2000
def defaultMaxDelay : Duration := .ofMillis 300000

/-! ## Reconnection -/

/-- The delays of reconnection: the first one and the one that is never exceeded. -/
structure ReconnectionConfig where
  baseDelay : Duration
  maxDelay : Duration
  deriving DecidableEq, Repr

structure ReconnectionDraft where
  baseDelay : Option Duration := none
  maxDelay : Option Duration := none
  deriving DecidableEq, Repr

/-- The delays of a draft, the standard ones where none is given. -/
def ReconnectionDraft.filled (d : ReconnectionDraft) : ReconnectionConfig where
  baseDelay := d.baseDelay.getD defaultBaseDelay
  maxDelay := d.maxDelay.getD defaultMaxDelay

namespace ReconnectionConfig

def standard : ReconnectionConfig := ⟨defaultBaseDelay, defaultMaxDelay⟩

/-- The first delay is positive and does not exceed the other. -/
def InBounds (c : ReconnectionConfig) : Prop := c.baseDelay ≠ .zero ∧ c.baseDelay ≤ c.maxDelay

/-- The configuration itself, if its delays are usable. -/
def checked (c : ReconnectionConfig) : Except ConfigFault ReconnectionConfig :=
  if c.baseDelay.isZero then .error .baseZero
  else if c.maxDelay < c.baseDelay then .error .baseAboveCeiling
  else .ok c

/-- The configuration of a draft. -/
def build (d : ReconnectionDraft) : Except ConfigFault ReconnectionConfig := d.filled.checked

/-- A draft that starts from a configuration. -/
def draft (c : ReconnectionConfig) : ReconnectionDraft := ⟨some c.baseDelay, some c.maxDelay⟩

/-- The policy with these delays. -/
def backoff (c : ReconnectionConfig) : Backoff := .exponential c.baseDelay c.maxDelay

theorem checked_eq_ok_iff {c c' : ReconnectionConfig} :
    c.checked = .ok c' ↔ c.InBounds ∧ c' = c := by
  simp only [checked, InBounds, Duration.isZero_iff]
  by_cases hz : c.baseDelay = .zero
  · simp [hz]
  · by_cases hlt : c.maxDelay < c.baseDelay
    · have hle : ¬ c.baseDelay ≤ c.maxDelay := fun h => Duration.not_lt.2 h hlt
      simp [hz, hlt, hle]
    · simp [hz, hlt, Duration.not_lt.1 hlt, eq_comm]

@[simp] theorem filled_draft (c : ReconnectionConfig) : c.draft.filled = c := rfl

end ReconnectionConfig

/-- A doubling policy, if its delays are usable. -/
def Backoff.exponential? (base ceiling : Duration) : Except ConfigFault Backoff :=
  (ReconnectionConfig.checked ⟨base, ceiling⟩).map ReconnectionConfig.backoff

/-- The policy that applies when none is chosen. -/
def Backoff.standard : Backoff := ReconnectionConfig.standard.backoff

/-- A policy of one delay, which must be positive. -/
def Backoff.constant? (delay : Duration) : Except ConfigFault Backoff :=
  if delay.isZero then .error .delayZero else .ok (.constant delay)

/-! ## Network -/

structure NetworkConfig where
  connectionTimeout : Duration
  deriving DecidableEq, Repr

namespace NetworkConfig

def standard : NetworkConfig := ⟨defaultConnectionTimeout⟩

/-- The configuration itself, if its timeout is positive. -/
def checked (c : NetworkConfig) : Except ConfigFault NetworkConfig :=
  if c.connectionTimeout.isZero then .error .timeoutZero else .ok c

/-- The configuration with a timeout, the standard one when none is given. -/
def build (timeout : Option Duration) : Except ConfigFault NetworkConfig :=
  checked ⟨timeout.getD defaultConnectionTimeout⟩

theorem checked_eq_ok_iff {c c' : NetworkConfig} :
    c.checked = .ok c' ↔ c.connectionTimeout ≠ .zero ∧ c' = c := by
  simp only [checked, Duration.isZero_iff]
  by_cases hz : c.connectionTimeout = .zero <;> simp [hz, eq_comm]

end NetworkConfig

/-! ## Client -/

structure ClientConfig where
  /-- The nodes to try first, in order. -/
  contactPoints : List Address
  /-- The port on which peers are expected. -/
  port : UInt16
  network : NetworkConfig
  reconnection : ReconnectionConfig
  deriving DecidableEq, Repr

/-- One value given by the user. -/
inductive Setting where
  | addContactPoint (address : Address)
  /-- Replaces the contact points given before. -/
  | contactPoints (addresses : List Address)
  | port (port : UInt16)
  | connectionTimeout (timeout : Duration)
  | baseDelay (delay : Duration)
  | maxDelay (delay : Duration)
  deriving DecidableEq, Repr

structure ConfigDraft where
  contactPoints : List Address := []
  port : Option UInt16 := none
  connectionTimeout : Option Duration := none
  reconnection : ReconnectionDraft := {}
  deriving DecidableEq, Repr

/-- The contact point when none is given: this machine. -/
def localPoint (port : UInt16) : Address := .v4 Ipv4.loopback port

namespace ConfigDraft

def set (d : ConfigDraft) : Setting → ConfigDraft
  | .addContactPoint a => { d with contactPoints := d.contactPoints ++ [a] }
  | .contactPoints as => { d with contactPoints := as }
  | .port p => { d with port := some p }
  | .connectionTimeout t => { d with connectionTimeout := some t }
  | .baseDelay t => { d with reconnection := { d.reconnection with baseDelay := some t } }
  | .maxDelay t => { d with reconnection := { d.reconnection with maxDelay := some t } }

/-- The draft after settings, the last of which wins. -/
def ofSettings (settings : List Setting) : ConfigDraft := settings.foldl set {}

/-- The port that is given, or the standard one. -/
def filledPort (d : ConfigDraft) : UInt16 := d.port.getD defaultPort

/-- The values of a draft, standard ones where none is given. -/
def filled (d : ConfigDraft) : ClientConfig where
  contactPoints := if d.contactPoints.isEmpty then [localPoint d.filledPort] else d.contactPoints
  port := d.filledPort
  network := ⟨d.connectionTimeout.getD defaultConnectionTimeout⟩
  reconnection := d.reconnection.filled

theorem ofSettings_append (settings : List Setting) (s : Setting) :
    ofSettings (settings ++ [s]) = (ofSettings settings).set s := by
  simp [ofSettings, List.foldl_append]

theorem contactPoints_filled (d : ConfigDraft) : d.filled.contactPoints ≠ [] := by
  show (if _ then _ else _) ≠ []
  split
  · simp
  · rename_i h
    exact fun e => h (by simp [e])

end ConfigDraft

namespace ClientConfig

def standard : ClientConfig :=
  ⟨[localPoint defaultPort], defaultPort, .standard, .standard⟩

/-- The port, the timeout and the delays are usable. -/
def InBounds (c : ClientConfig) : Prop :=
  c.port ≠ 0 ∧ c.network.connectionTimeout ≠ .zero ∧ c.reconnection.InBounds

/-- The configuration itself, if its values are usable. -/
def checked (c : ClientConfig) : Except ConfigFault ClientConfig :=
  if c.port = 0 then .error .portZero
  else
    match c.network.checked, c.reconnection.checked with
    | .error fault, _ => .error fault
    | _, .error fault => .error fault
    | .ok _, .ok _ => .ok c

/-- The configuration of a draft. -/
def build (d : ConfigDraft) : Except ConfigFault ClientConfig := d.filled.checked

/-- The configuration of settings given one after the other. -/
def ofSettings (settings : List Setting) : Except ConfigFault ClientConfig :=
  build (.ofSettings settings)

theorem checked_eq_ok_iff {c c' : ClientConfig} : c.checked = .ok c' ↔ c.InBounds ∧ c' = c := by
  unfold checked InBounds
  by_cases hp : c.port = 0
  · simp [hp]
  · simp only [hp, if_false, ne_eq, not_false_eq_true, true_and]
    cases hn : c.network.checked with
    | error fault =>
      have : ¬ c.network.connectionTimeout ≠ .zero := fun h => by
        rw [NetworkConfig.checked_eq_ok_iff.2 ⟨h, rfl⟩] at hn
        cases hn
      simp [this]
    | ok n =>
      have ht := (NetworkConfig.checked_eq_ok_iff.1 hn).1
      cases hr : c.reconnection.checked with
      | error fault =>
        have : ¬ c.reconnection.InBounds := fun h => by
          rw [ReconnectionConfig.checked_eq_ok_iff.2 ⟨h, rfl⟩] at hr
          cases hr
        simp [this]
      | ok r =>
        have hb := (ReconnectionConfig.checked_eq_ok_iff.1 hr).1
        simp [ht, hb, eq_comm]

end ClientConfig

end ControlChannel
