import ControlChannel.Config.Environment
import ControlChannel.Config.File
import ControlChannel.Proofs.Schema.Decoding
import Mathlib.Data.List.Induction

/-! # What settings come to

Of several values of one setting the last is kept, and contact points that are added go behind those
that replaced all earlier ones (`ConfigDraft.ofSettings_eq`). Calls on the builder, with those on
the builders inside it, amount to settings in a row (`BuilderCall.draft_eq`). A configuration has
usable values exactly if there is a way to it (`ClientConfig.obtained_iff`,
`ReconnectionConfig.obtained_iff`). Main statement: `ClientConfig.last_settings_decide`. -/

namespace ControlChannel

/-! ## The last value -/

namespace Setting

def addedPoint? : Setting → Option Address
  | .addContactPoint a => some a
  | _ => none

def points? : Setting → Option (List Address)
  | .contactPoints as => some as
  | _ => none

def port? : Setting → Option UInt16
  | .port p => some p
  | _ => none

def connectionTimeout? : Setting → Option Duration
  | .connectionTimeout t => some t
  | _ => none

def baseDelay? : Setting → Option Duration
  | .baseDelay t => some t
  | _ => none

def maxDelay? : Setting → Option Duration
  | .maxDelay t => some t
  | _ => none

variable {α : Type}

/-- The last value of a kind. -/
def last (value? : Setting → Option α) (settings : List Setting) : Option α :=
  (settings.filterMap value?).getLast?

theorem last_append (value? : Setting → Option α) (settings : List Setting) (s : Setting) :
    last value? (settings ++ [s]) = (value? s).or (last value? settings) := by
  unfold last
  cases h : value? s <;> simp [List.filterMap_append, h]

/-- The settings behind the last one that replaces the contact points; all, if none does. -/
def sinceReplaced (settings : List Setting) : List Setting :=
  (settings.reverse.takeWhile fun s => s.points?.isNone).reverse

theorem sinceReplaced_append (settings : List Setting) (s : Setting) :
    sinceReplaced (settings ++ [s]) =
      if s.points?.isNone then sinceReplaced settings ++ [s] else [] := by
  unfold sinceReplaced
  split <;> simp_all

/-- The contact points that replaced all earlier ones last, and those added since. -/
def points (settings : List Setting) : List Address :=
  (last points? settings).getD [] ++ (sinceReplaced settings).filterMap addedPoint?

end Setting

namespace ConfigDraft

/-- A draft holds the last value of each setting. -/
theorem ofSettings_eq (settings : List Setting) : ofSettings settings = {
    contactPoints := Setting.points settings
    port := Setting.last Setting.port? settings
    connectionTimeout := Setting.last Setting.connectionTimeout? settings
    reconnection := {
      baseDelay := Setting.last Setting.baseDelay? settings
      maxDelay := Setting.last Setting.maxDelay? settings } } := by
  induction settings using List.reverseRecOn with
  | nil => rfl
  | append_singleton settings s ih =>
    rw [ofSettings_append, ih]
    simp only [Setting.last_append, Setting.points, Setting.sinceReplaced_append]
    cases s <;> simp [set, Setting.points?, Setting.port?, Setting.connectionTimeout?,
      Setting.baseDelay?, Setting.maxDelay?, Setting.addedPoint?]

end ConfigDraft

/-! ## Calls on builders -/

/-- A call on the builder of the delays. -/
inductive DelayCall where
  | baseDelay (delay : Duration)
  | maxDelay (delay : Duration)

namespace DelayCall

def apply (d : ReconnectionDraft) : DelayCall → ReconnectionDraft
  | .baseDelay t => { d with baseDelay := some t }
  | .maxDelay t => { d with maxDelay := some t }

def setting : DelayCall → Setting
  | .baseDelay t => .baseDelay t
  | .maxDelay t => .maxDelay t

/-- The draft after calls, from that of a configuration or from an empty one. -/
def draft (calls : List DelayCall) (from? : Option ReconnectionConfig) : ReconnectionDraft :=
  calls.foldl apply ((from?.map ReconnectionConfig.draft).getD {})

end DelayCall

/-- A call on the builder of a client's configuration. Two calls hand over the builder inside it for
calls of its own. -/
inductive BuilderCall where
  | addContactPoint (address : Address)
  | contactPoints (addresses : List Address)
  | port (port : UInt16)
  | connectionTimeout (timeout : Duration)
  | network (timeouts : List Duration)
  | reconnection (calls : List DelayCall)

namespace BuilderCall

def apply (d : ConfigDraft) : BuilderCall → ConfigDraft
  | .addContactPoint a => d.set (.addContactPoint a)
  | .contactPoints as => d.set (.contactPoints as)
  | .port p => d.set (.port p)
  | .connectionTimeout t => d.set (.connectionTimeout t)
  | .network ts =>
    { d with connectionTimeout := ts.foldl (fun _ t => some t) d.connectionTimeout }
  | .reconnection calls => { d with reconnection := calls.foldl DelayCall.apply d.reconnection }

/-- The settings that a call gives, in order. -/
def settings : BuilderCall → List Setting
  | .addContactPoint a => [.addContactPoint a]
  | .contactPoints as => [.contactPoints as]
  | .port p => [.port p]
  | .connectionTimeout t => [.connectionTimeout t]
  | .network ts => ts.map .connectionTimeout
  | .reconnection calls => calls.map DelayCall.setting

def draft (calls : List BuilderCall) : ConfigDraft := calls.foldl apply {}

theorem apply_eq (d : ConfigDraft) (call : BuilderCall) :
    call.apply d = call.settings.foldl ConfigDraft.set d := by
  cases call with
  | network ts =>
    induction ts generalizing d with
    | nil => rfl
    | cons t ts ih => exact ih (d.set (.connectionTimeout t))
  | reconnection calls =>
    induction calls generalizing d with
    | nil => rfl
    | cons call calls ih =>
      have hstep : d.set call.setting = { d with reconnection := call.apply d.reconnection } := by
        cases call <;> rfl
      rw [settings, List.map_cons, List.foldl_cons, hstep]
      exact ih { d with reconnection := call.apply d.reconnection }
  | _ => rfl

theorem draft_eq (calls : List BuilderCall) :
    draft calls = ConfigDraft.ofSettings (calls.flatMap settings) := by
  have happly : apply = fun d call => call.settings.foldl ConfigDraft.set d := by
    funext d call
    exact apply_eq d call
  rw [draft, ConfigDraft.ofSettings, List.foldl_flatMap, happly]

end BuilderCall

/-! ## Usable values -/

theorem Duration.zero_lt_iff {d : Duration} : .zero < d ↔ d ≠ .zero := by
  rw [← not_iff_not, not_not, Duration.not_lt]
  exact ⟨fun h => Duration.ext (Nat.le_zero.mp h), fun h => h ▸ Nat.le_refl _⟩

/-- The delays are positive and in order. -/
def ReconnectionConfig.Usable (c : ReconnectionConfig) : Prop :=
  .zero < c.baseDelay ∧ c.baseDelay ≤ c.maxDelay

/-- There are contact points, the port is not zero, the timeout is positive and the delays are
usable. -/
def ClientConfig.Usable (c : ClientConfig) : Prop :=
  c.contactPoints ≠ [] ∧ c.port ≠ 0 ∧ .zero < c.network.connectionTimeout ∧ c.reconnection.Usable

namespace ReconnectionConfig

theorem usable_iff_inBounds {c : ReconnectionConfig} : c.Usable ↔ c.InBounds :=
  and_congr_left fun _ => Duration.zero_lt_iff

theorem build_eq_ok {d : ReconnectionDraft} {c : ReconnectionConfig} :
    build d = .ok c ↔ d.filled.Usable ∧ c = d.filled := by
  rw [build, checked_eq_ok_iff, usable_iff_inBounds]

theorem usable_of_build {d : ReconnectionDraft} {c : ReconnectionConfig} (h : build d = .ok c) :
    c.Usable := by
  obtain ⟨husable, rfl⟩ := build_eq_ok.mp h
  exact husable

/-- A policy of the same delays is accepted exactly if they are usable. -/
theorem exponential?_eq_ok {c : ReconnectionConfig} :
    Backoff.exponential? c.baseDelay c.maxDelay = .ok c.backoff ↔ c.Usable := by
  rw [usable_iff_inBounds]
  unfold Backoff.exponential?
  constructor
  · intro h
    cases hc : checked ⟨c.baseDelay, c.maxDelay⟩ with
    | error fault =>
      rw [hc] at h
      cases h
    | ok c' => exact (checked_eq_ok_iff.mp hc).1
  · intro h
    rw [checked_eq_ok_iff.mpr ⟨h, rfl⟩]
    rfl

end ReconnectionConfig

namespace ClientConfig

variable {c : ClientConfig}

theorem build_eq_ok {d : ConfigDraft} : build d = .ok c ↔
    (d.filled.port ≠ 0 ∧ .zero < d.filled.network.connectionTimeout ∧
      d.filled.reconnection.Usable) ∧ c = d.filled := by
  rw [build, checked_eq_ok_iff, InBounds, Duration.zero_lt_iff,
    ReconnectionConfig.usable_iff_inBounds]

theorem usable_of_build {d : ConfigDraft} (h : build d = .ok c) : c.Usable := by
  obtain ⟨husable, rfl⟩ := build_eq_ok.mp h
  exact ⟨d.contactPoints_filled, husable⟩

theorem usable_of_declared {d : DeclaredConfig} (h : d.config = .ok c) : c.Usable := by
  obtain ⟨settings, _, hbuild⟩ := bind_eq_ok.mp h
  exact usable_of_build hbuild

theorem usable_of_environment {vars : Environment.Variables} (h : Environment.config vars = .ok c) :
    c.Usable := by
  obtain ⟨declared, _, hdeclared⟩ := bind_eq_ok.mp h
  exact usable_of_declared hdeclared

theorem usable_of_format {read : String → Option DeclaredConfig} {format : FileFormat}
    {content : Option Bytes} (h : format.loadBy read content = .ok c) : c.Usable := by
  unfold FileFormat.loadBy at h
  cases content with
  | none => cases h
  | some bytes =>
    dsimp only at h
    split at h
    · split at h
      · exact usable_of_declared h
      · cases h
    · cases h

theorem usable_of_file {read : FileFormat → String → Option DeclaredConfig} {name : String}
    {content : Option Bytes} (h : ConfigFile.loadBy read name content = .ok c) : c.Usable := by
  obtain ⟨format, _, hformat⟩ := bind_eq_ok.mp h
  exact usable_of_format hformat

theorem usable_standard : standard.Usable := by
  refine ⟨List.cons_ne_nil _ _, by decide, ?_, ?_, ?_⟩ <;> decide

end ClientConfig

/-! ## The ways to a configuration -/

/-- The ways to a configuration of a client; from a file, in whatever way settings are read from its
text. -/
inductive ClientConfig.Obtained (c : ClientConfig) : Prop where
  | standard (same : c = .standard)
  | built (calls : List BuilderCall) (result : build (BuilderCall.draft calls) = .ok c)
  | declared (d : DeclaredConfig) (result : d.config = .ok c)
  | environment (vars : Environment.Variables) (result : Environment.config vars = .ok c)
  | file (read : FileFormat → String → Option DeclaredConfig) (name : String)
      (content : Option Bytes) (result : ConfigFile.loadBy read name content = .ok c)
  /-- From a file of that format, whatever its name. -/
  | format (read : String → Option DeclaredConfig) (format : FileFormat) (content : Option Bytes)
      (result : format.loadBy read content = .ok c)

/-- The ways to a configuration of reconnection. -/
inductive ReconnectionConfig.Obtained : ReconnectionConfig → Prop where
  | standard : Obtained .standard
  | built {c : ReconnectionConfig} (calls : List DelayCall)
      (result : build (DelayCall.draft calls none) = .ok c) : Obtained c
  | rebuilt {earlier c : ReconnectionConfig} (obtained : Obtained earlier) (calls : List DelayCall)
      (result : build (DelayCall.draft calls (some earlier)) = .ok c) : Obtained c
  /-- The part of a client's configuration. -/
  | part {c : ClientConfig} (obtained : c.Obtained) : Obtained c.reconnection

namespace ClientConfig

variable {c : ClientConfig}

theorem usable_of_obtained (h : c.Obtained) : c.Usable := by
  cases h with
  | standard same => exact same ▸ usable_standard
  | built _ result => exact usable_of_build result
  | declared _ result => exact usable_of_declared result
  | environment _ result => exact usable_of_environment result
  | file _ _ _ result => exact usable_of_file result
  | format _ _ _ result => exact usable_of_format result

/-- The calls that give every value of a configuration. -/
def calls (c : ClientConfig) : List BuilderCall :=
  [.contactPoints c.contactPoints, .port c.port, .connectionTimeout c.network.connectionTimeout,
    .reconnection [.baseDelay c.reconnection.baseDelay, .maxDelay c.reconnection.maxDelay]]

theorem filled_draft_calls {c : ClientConfig} (h : c.contactPoints ≠ []) :
    (BuilderCall.draft c.calls).filled = c := by
  obtain ⟨points, port, network, reconnection⟩ := c
  cases points with
  | nil => exact absurd rfl h
  | cons a as => rfl

theorem obtained_iff : c.Obtained ↔ c.Usable := by
  refine ⟨usable_of_obtained, fun h => .built c.calls (build_eq_ok.mpr ?_)⟩
  rw [filled_draft_calls h.1]
  exact ⟨h.2, rfl⟩

end ClientConfig

namespace ReconnectionConfig

theorem usable_of_obtained {c : ReconnectionConfig} (h : c.Obtained) : c.Usable := by
  cases h with
  | standard => exact ClientConfig.usable_standard.2.2.2
  | built _ result => exact usable_of_build result
  | rebuilt _ _ result => exact usable_of_build result
  | part obtained => exact (ClientConfig.usable_of_obtained obtained).2.2.2

theorem obtained_iff {c : ReconnectionConfig} : c.Obtained ↔ c.Usable := by
  refine ⟨usable_of_obtained, fun h => ?_⟩
  exact .built [.baseDelay c.baseDelay, .maxDelay c.maxDelay] (build_eq_ok.mpr ⟨h, rfl⟩)

end ReconnectionConfig

/-! ## The whole -/

/-- The last value of each setting decides what a builder makes of its calls, together with the
contact points that replaced all earlier ones last and those added since. Where nothing is given a
standard value stands. The configuration is made exactly if the port is not zero, the timeout is
positive and the delays are positive and in order; then it has exactly these values, and this
machine for a contact point if there is none. The configurations that there is a way to are those
with usable values, and a policy of their delays would be accepted. -/
theorem ClientConfig.last_settings_decide :
    (∀ calls : List BuilderCall,
      let settings := calls.flatMap BuilderCall.settings
      let points := Setting.points settings
      let port := (Setting.last Setting.port? settings).getD 9042
      let timeout := (Setting.last Setting.connectionTimeout? settings).getD (.ofMillis 5000)
      let base := (Setting.last Setting.baseDelay? settings).getD (.ofMillis 2000)
      let ceiling := (Setting.last Setting.maxDelay? settings).getD (.ofMillis 300000)
      build (BuilderCall.draft calls) = build {
        contactPoints := points
        port := Setting.last Setting.port? settings
        connectionTimeout := Setting.last Setting.connectionTimeout? settings
        reconnection := {
          baseDelay := Setting.last Setting.baseDelay? settings
          maxDelay := Setting.last Setting.maxDelay? settings } } ∧
      ∀ c, build (BuilderCall.draft calls) = .ok c ↔
        (port ≠ 0 ∧ .zero < timeout ∧ .zero < base ∧ base ≤ ceiling) ∧
        c = ⟨if points = [] then [.v4 ⟨127, 0, 0, 1⟩ port] else points, port, ⟨timeout⟩,
          ⟨base, ceiling⟩⟩) ∧
    (∀ c : ClientConfig, c.Obtained ↔ c.Usable) ∧
    ∀ c : ReconnectionConfig, (c.Obtained ↔ c.Usable) ∧
      (c.Obtained → Backoff.exponential? c.baseDelay c.maxDelay = .ok c.backoff) := by
  refine ⟨fun calls => ?_, fun c => obtained_iff,
    fun c => ⟨ReconnectionConfig.obtained_iff, fun h => ?_⟩⟩
  · intro settings points port timeout base ceiling
    have hdraft := (BuilderCall.draft_eq calls).trans (ConfigDraft.ofSettings_eq settings)
    refine ⟨congrArg build hdraft, fun c => ?_⟩
    have hfilled : (BuilderCall.draft calls).filled =
        ⟨if points = [] then [.v4 ⟨127, 0, 0, 1⟩ port] else points, port, ⟨timeout⟩,
          ⟨base, ceiling⟩⟩ := by
      rw [hdraft, ConfigDraft.filled]
      simp only [List.isEmpty_iff]
      rfl
    rw [build_eq_ok, hfilled]
    rfl
  · exact ReconnectionConfig.exponential?_eq_ok.mpr (ReconnectionConfig.usable_of_obtained h)

/-- A first delay above the standard ceiling is refused until a ceiling is given; the contact point
that was added before is replaced by none. -/
theorem ClientConfig.last_settings_decide_ceiling :
    let calls : List BuilderCall := [.addContactPoint (.v4 ⟨10, 0, 0, 1⟩ 9042),
      .network [.zero, .ofMillis 7], .port 0, .contactPoints [],
      .reconnection [.baseDelay (.ofMillis 400000)], .port 19042]
    (∀ c, build (BuilderCall.draft calls) ≠ .ok c) ∧
    build (BuilderCall.draft (calls ++ [.reconnection [.maxDelay (.ofMillis 400000)]])) =
      .ok ⟨[.v4 ⟨127, 0, 0, 1⟩ 19042], 19042, ⟨.ofMillis 7⟩,
        ⟨.ofMillis 400000, .ofMillis 400000⟩⟩ := by
  intro calls
  refine ⟨fun c h => ?_, ?_⟩
  · have hvalues := (((last_settings_decide.1 calls).2 c).mp h).1
    revert hvalues
    decide
  · exact ((last_settings_decide.1 _).2 _).mpr (by decide)

end ControlChannel
