import ControlChannel.Proofs.Schema.Conversation

/-! # Schema refreshes are all or nothing

Any number of schema refreshes work on one store, their steps in any order (`Refreshing`). Main
statement: at every moment the view is what whole rebuilds have made of it, one after the other,
each by a refresh that has had readable rows for every survey of its scope
(`Refreshing.refreshes_atomic`). -/

namespace ControlChannel

/-- A schema refresh that was started: what it covers, the signals it has taken and how far it
is. -/
structure Underway where
  scope : Schema.Scope
  heard : List Signal
  progress : Progress SchemaRefresh SchemaRefresh.Result

/-- What one refresh makes of the view. -/
structure Rebuild where
  /-- The number of the refresh. -/
  refresh : Nat
  scope : Schema.Scope
  survey : Schema.Survey

def Rebuild.apply (view : SchemaView) (b : Rebuild) : SchemaView :=
  Schema.applySurvey view b.scope.keyspace? b.scope.table? b.survey

/-- Schema refreshes that work on one store. -/
structure Refreshing where
  fabric : Fabric
  /-- In the order of their start. -/
  refreshes : List Underway := []
  /-- The rebuilds so far, in the order in which they were applied. -/
  rebuilds : List Rebuild := []

namespace SchemaRefresh

/-- The rebuild that comes next, once there are rows for all surveys and they can be read. -/
def rebuild? (r : SchemaRefresh) (refresh : Nat) : Option Rebuild :=
  match r.stage with
  | .asking _ => none
  | .applying rows => rows.survey?.toOption.map (⟨refresh, r.scope, ·⟩)

theorem store_start (f : Fabric) (cancelled : Bool) (c : ConnectionId) (scope : Schema.Scope) :
    (start f cancelled c scope).1.store = f.store := by
  cases cancelled with
  | true => rfl
  | false => exact store_issue _ _ _ _

/-- A step of a refresh leaves the view alone, or it applies a whole rebuild and ends well. -/
theorem rebuild_cases {f : Fabric} {r : SchemaRefresh} {signal : Signal}
    {o : Fabric × Progress SchemaRefresh Result} (h : r.resume f signal = some o) (i : Nat) :
    (r.rebuild? i = none ∧ o.1.store.schema = f.store.schema ∧ o.2 ≠ .done (.ok (.ready ()))) ∨
      ∃ rows survey, r.stage = .applying rows ∧ rows.survey? = .ok survey ∧ signal = .go ∧
        r.rebuild? i = some ⟨i, r.scope, survey⟩ ∧
        o.1.store.schema = Rebuild.apply f.store.schema ⟨i, r.scope, survey⟩ ∧
        o.2 = .done (.ok (.ready ())) := by
  cases moves_of_resume h with
  | sends _ | fails _ | stops => exact .inl ⟨rfl, rfl, fun e => by cases e⟩
  | @hears c scope s kind reply _ =>
    refine .inl ⟨rfl, rfl, fun e => ?_⟩
    rcases settle_cases c scope (s.set kind (.answered reply)) with ⟨_, hs⟩ | ⟨_, hs⟩ <;>
      exact absurd (hs.symm.trans e) (by rintro ⟨⟩)
  | @applies c scope rows store rebuilt =>
    obtain ⟨survey, hsurvey, rfl⟩ := Store.rebuildSchema_eq_ok.mp rebuilt
    have hrebuild : rebuild? ⟨c, scope, .applying rows⟩ i = some ⟨i, scope, survey⟩ := by
      simp [rebuild?, hsurvey, Except.toOption]
    exact .inr ⟨_, survey, rfl, hsurvey, rfl, hrebuild, rfl, rfl⟩
  | refuses refused =>
    have hfault := Store.rebuildSchema_eq_error.mp refused
    exact .inl ⟨by simp [rebuild?, hfault, Except.toOption], rfl, fun e => by cases e⟩

end SchemaRefresh

namespace Refreshing

/-- What can happen next. -/
inductive Action where
  /-- A refresh begins, unless it is cancelled already. -/
  | start (cancelled : Bool) (connection : ConnectionId) (scope : Schema.Scope)
  | signal (refresh : Nat) (signal : Signal)
  /-- Something else is done, which may change all but the view. -/
  | outside (fabric : Fabric)

def step (s : Refreshing) : Action → Option Refreshing
  | .start cancelled c scope =>
    let (fabric, progress) := SchemaRefresh.start s.fabric cancelled c scope
    let heard := if cancelled then [.cancelled] else []
    some { s with fabric, refreshes := s.refreshes ++ [⟨scope, heard, progress⟩] }
  | .signal i signal =>
    match s.refreshes[i]? with
    | some ⟨scope, heard, .running r⟩ =>
      (r.resume s.fabric signal).map fun (fabric, progress) =>
        { fabric
          refreshes := s.refreshes.set i ⟨scope, heard ++ [signal], progress⟩
          rebuilds := s.rebuilds ++ (r.rebuild? i).toList }
    | _ => none
  | .outside fabric =>
    let store := { fabric.store with schema := s.fabric.store.schema }
    some { s with fabric := { fabric with store } }

def run (s : Refreshing) : List Action → Option Refreshing
  | [] => some s
  | action :: rest => (s.step action).bind (·.run rest)

theorem step_signal {s s' : Refreshing} {i : Nat} {signal : Signal}
    (h : s.step (.signal i signal) = some s') : ∃ scope heard r o,
      s.refreshes[i]? = some ⟨scope, heard, .running r⟩ ∧ r.resume s.fabric signal = some o ∧
      s' = ⟨o.1, s.refreshes.set i ⟨scope, heard ++ [signal], o.2⟩,
        s.rebuilds ++ (r.rebuild? i).toList⟩ := by
  simp only [step] at h
  split at h
  · rename_i scope heard r hr
    obtain ⟨o, ho, rfl⟩ := Option.map_eq_some_iff.mp h
    exact ⟨scope, heard, r, o, hr, ho, rfl⟩
  · cases h

theorem run_append (s : Refreshing) (actions rest : List Action) :
    s.run (actions ++ rest) = (s.run actions).bind (·.run rest) := by
  induction actions generalizing s with
  | nil => rfl
  | cons action actions ih =>
    rw [List.cons_append, run, run, Option.bind_assoc]
    exact congrArg _ (funext ih)

/-- A refresh applies readable rows. -/
theorem step_applying (g : Fabric) (scope : Schema.Scope) {rows : SurveyRows}
    (h : rows.Readable) (heard : List Signal) : ∃ store b,
    step ⟨g, [⟨scope, heard, .running ⟨0, scope, .applying rows⟩⟩], []⟩
        (.signal 0 .go) =
      some ⟨{ g with store := store }, [⟨scope, heard ++ [.go], .done (.ok (.ready ()))⟩], b⟩ := by
  obtain ⟨store, hstore⟩ : ∃ store, g.store.rebuildSchema scope.keyspace? scope.table?
      rows.keyspaces rows.columnFamilies rows.columns = .ok store :=
    ⟨_, Store.rebuildSchema_eq_ok.mpr ⟨_, SurveyRows.survey?_eq h, rfl⟩⟩
  refine ⟨store, (SchemaRefresh.rebuild? ⟨0, scope, .applying rows⟩ 0).toList, ?_⟩
  simp [step, SchemaRefresh.resume, SchemaRefresh.apply, hstore]

/-- The rebuild is by a refresh of its scope that has learnt it and ended well. -/
def Backs (refreshes : List Underway) (b : Rebuild) : Prop :=
  ∃ u : Underway, refreshes[b.refresh]? = some u ∧ u.scope = b.scope ∧
    u.progress = .done (.ok (.ready ())) ∧ SchemaRefresh.Learnt u.scope u.heard b.survey

section
variable {l : List Underway} {b : Rebuild} {i j : Nat} {u new : Underway}

theorem Backs.concat (h : Backs l b) (new : Underway) : Backs (l ++ [new]) b := by
  obtain ⟨u, hu, h⟩ := h
  have hlt := (List.getElem?_eq_some_iff.mp hu).1
  exact ⟨u, (List.getElem?_append_left hlt).trans hu, h⟩

theorem Backs.set (h : Backs l b) (hne : i ≠ b.refresh) (new : Underway) :
    Backs (l.set i new) b := by
  obtain ⟨u, hu, h⟩ := h
  exact ⟨u, (List.getElem?_set_ne hne).trans hu, h⟩

/-- A refresh that still runs has not rebuilt anything. -/
theorem Backs.ne_of_running (h : Backs l b) {r : SchemaRefresh} (hi : l[i]? = some u)
    (hr : u.progress = .running r) : i ≠ b.refresh := by
  rintro rfl
  obtain ⟨u', hu, _, hdone, _⟩ := h
  obtain rfl := Option.some.inj (hi.symm.trans hu)
  rw [hr] at hdone
  cases hdone

theorem getElem?_concat_cases (h : (l ++ [new])[i]? = some u) : l[i]? = some u ∨ u = new := by
  by_cases hi : i < l.length
  · exact .inl (List.getElem?_append_left hi ▸ h)
  · exact .inr (List.mem_singleton.mp (List.mem_of_getElem? (List.getElem?_append_right
      (Nat.le_of_not_lt hi) ▸ h)))

theorem getElem?_set_cases (h : (l.set i new)[j]? = some u) :
    (i = j ∧ u = new) ∨ (i ≠ j ∧ l[j]? = some u) := by
  rw [List.getElem?_set] at h
  split at h
  · split at h
    · exact .inl ⟨‹_›, (Option.some.inj h).symm⟩
    · cases h
  · exact .inr ⟨‹_›, h⟩

end

/-- What holds of refreshes that began with the view `base`. -/
structure Sound (base : SchemaView) (s : Refreshing) : Prop where
  tracked : ∀ (i : Nat) (u : Underway), s.refreshes[i]? = some u →
    SchemaRefresh.Tracked u.scope u.heard u.progress
  view : s.fabric.store.schema = s.rebuilds.foldl Rebuild.apply base
  once : (s.rebuilds.map (·.refresh)).Nodup
  backed : ∀ b ∈ s.rebuilds, Backs s.refreshes b
  applied : ∀ (i : Nat) (u : Underway), s.refreshes[i]? = some u →
    u.progress = .done (.ok (.ready ())) → ∃ b ∈ s.rebuilds, b.refresh = i

namespace Sound

variable {base : SchemaView} {s s' : Refreshing}

theorem initial (f : Fabric) : Sound f.store.schema ⟨f, [], []⟩ where
  tracked i u h := by cases h
  view := rfl
  once := List.nodup_nil
  backed b h := by cases h
  applied i u h := by cases h

/-- A further refresh begins. It goes on, or was cancelled before it began. -/
theorem start (h : Sound base s) {cancelled : Bool} {c : ConnectionId} {scope : Schema.Scope}
    (hs : s.step (.start cancelled c scope) = some s') : Sound base s' := by
  cases hs
  have hstore := SchemaRefresh.store_start s.fabric cancelled c scope
  have hready : (SchemaRefresh.start s.fabric cancelled c scope).2 ≠ .done (.ok (.ready ())) := by
    cases cancelled <;> exact fun e => by cases e
  refine ⟨fun i u hu => ?_, (congrArg Store.schema hstore).trans h.view, h.once,
    fun b hb => (h.backed b hb).concat _, fun i u hu hdone => ?_⟩
  · rcases getElem?_concat_cases hu with hu | rfl
    · exact h.tracked i u hu
    · exact SchemaRefresh.tracked_start _ _ _ _
  · rcases getElem?_concat_cases hu with hu | rfl
    · exact h.applied i u hu hdone
    · exact absurd hdone hready

/-- A refresh takes a signal. -/
theorem signal (h : Sound base s) {i : Nat} {signal : Signal}
    (hs : s.step (.signal i signal) = some s') : Sound base s' := by
  obtain ⟨scope, heard, r, o, hi, ho, rfl⟩ := step_signal hs
  have ht := h.tracked i _ hi
  have htracked : ∀ (j : Nat) (u : Underway),
      (s.refreshes.set i ⟨scope, heard ++ [signal], o.2⟩)[j]? = some u →
        SchemaRefresh.Tracked u.scope u.heard u.progress := by
    intro j u hu
    rcases getElem?_set_cases hu with ⟨_, rfl⟩ | ⟨_, hu⟩
    · exact SchemaRefresh.tracked_resume ho ht
    · exact h.tracked j u hu
  have hne : ∀ b ∈ s.rebuilds, i ≠ b.refresh := fun b hb => (h.backed b hb).ne_of_running hi rfl
  have hbacked := fun b hb => (h.backed b hb).set (hne b hb) ⟨scope, heard ++ [signal], o.2⟩
  rcases SchemaRefresh.rebuild_cases ho i with
    ⟨hnone, hview, hready⟩ | ⟨rows, survey, hstage, hsurvey, rfl, hsome, hview, hready⟩
  · rw [hnone, Option.toList_none, List.append_nil]
    refine ⟨htracked, hview.trans h.view, h.once, hbacked, fun j u hu hdone => ?_⟩
    rcases getElem?_set_cases hu with ⟨_, rfl⟩ | ⟨_, hu⟩
    · exact absurd hdone hready
    · exact h.applied j u hu hdone
  · rw [hsome, Option.toList_some]
    obtain ⟨hscope, hanswered⟩ := ht
    rw [hstage] at hanswered
    have hnew : Backs (s.refreshes.set i ⟨scope, heard ++ [.go], o.2⟩) ⟨i, r.scope, survey⟩ :=
      ⟨_, List.getElem?_set_self (List.getElem?_eq_some_iff.mp hi).1, hscope.symm, hready, rows,
        Replies.Complete.hear hanswered fun _ => rfl, hsurvey⟩
    refine ⟨htracked, ?_, ?_, ?_, fun j u hu hdone => ?_⟩
    · rw [List.foldl_append, ← h.view]
      exact hview
    · rw [List.map_append]
      refine List.nodup_append.mpr
        ⟨h.once, List.nodup_cons.mpr ⟨List.not_mem_nil, List.nodup_nil⟩, ?_⟩
      intro n hn m hm e
      obtain ⟨b, hb, rfl⟩ := List.mem_map.mp hn
      exact hne b hb (List.mem_singleton.mp (e ▸ hm)).symm
    · exact List.forall_mem_append.mpr ⟨hbacked, List.forall_mem_singleton.mpr hnew⟩
    · rcases getElem?_set_cases hu with ⟨rfl, _⟩ | ⟨_, hu⟩
      · exact ⟨_, List.mem_append_right _ List.mem_cons_self, rfl⟩
      · obtain ⟨b, hb, rfl⟩ := h.applied j u hu hdone
        exact ⟨b, List.mem_append_left _ hb, rfl⟩

theorem step (h : Sound base s) {action : Action} (hs : s.step action = some s') :
    Sound base s' := by
  cases action with
  | start => exact h.start hs
  | signal => exact h.signal hs
  | outside fabric => cases hs; exact ⟨h.tracked, h.view, h.once, h.backed, h.applied⟩

theorem run (h : Sound base s) {actions : List Action} (hs : s.run actions = some s') :
    Sound base s' := by
  induction actions generalizing s with
  | nil => cases hs; exact h
  | cons action rest ih =>
    obtain ⟨t, ht, hs⟩ := Option.bind_eq_some_iff.mp hs
    exact ih (h.step ht) hs

/-- A refresh that is alone and has ended well has applied one rebuild. -/
theorem sole (h : Sound base s) {u : Underway} (hu : s.refreshes = [u])
    (hdone : u.progress = .done (.ok (.ready ()))) : ∃ b, s.rebuilds = [b] ∧ b.scope = u.scope ∧
      SchemaRefresh.Learnt u.scope u.heard b.survey := by
  obtain ⟨b, hb, _⟩ := h.applied 0 u (by rw [hu]; rfl) hdone
  have honly : ∀ c ∈ s.rebuilds, c.refresh = 0 ∧ c.scope = u.scope ∧
      SchemaRefresh.Learnt u.scope u.heard c.survey := fun c hc => by
    obtain ⟨u', hu', hscope, _, hlearnt⟩ := h.backed c hc
    obtain ⟨hzero, rfl⟩ : c.refresh = 0 ∧ u = u' := by simpa [hu, List.getElem?_singleton] using hu'
    exact ⟨hzero, hscope.symm, hlearnt⟩
  have honce := h.once
  cases hr : s.rebuilds with
  | nil => rw [hr] at hb; cases hb
  | cons c rest =>
    rw [hr] at honly honce
    obtain ⟨hc, hrest⟩ := List.forall_mem_cons.mp honly
    cases rest with
    | nil => exact ⟨c, rfl, hc.2⟩
    | cons c' rest =>
      have hsame : c'.refresh = c.refresh := (hrest c' List.mem_cons_self).1.trans hc.1.symm
      exact absurd (List.mem_map.mpr ⟨c', List.mem_cons_self, hsame⟩) (List.nodup_cons.mp honce).1

end Sound

/-- A whole rebuild is one step, of one refresh. No other step touches the view. -/
theorem step_cases {s s' : Refreshing} {action : Action} (h : s.step action = some s') :
    (s'.rebuilds = s.rebuilds ∧ s'.fabric.store.schema = s.fabric.store.schema) ∨
      ∃ b : Rebuild, action = .signal b.refresh .go ∧ s'.rebuilds = s.rebuilds ++ [b] ∧
        s'.fabric.store.schema = b.apply s.fabric.store.schema := by
  cases action with
  | start cancelled c scope =>
    cases h
    exact .inl ⟨rfl, congrArg Store.schema (SchemaRefresh.store_start _ cancelled c scope)⟩
  | signal i signal =>
    obtain ⟨scope, heard, r, o, hi, ho, rfl⟩ := step_signal h
    rcases SchemaRefresh.rebuild_cases ho i with
      ⟨hnone, hview, _⟩ | ⟨_, survey, _, _, rfl, hsome, hview, _⟩
    · exact .inl ⟨by simp [hnone], hview⟩
    · exact .inr ⟨⟨i, r.scope, survey⟩, rfl, by simp [hsome], hview⟩
  | outside fabric => cases h; exact .inl ⟨rfl, rfl⟩

/-- Schema refreshes are all or nothing, in any interleaving of any number of them. The view is
what the rebuilds have made of it, in their order. No refresh rebuilds twice, and each rebuild is
by a refresh of its scope that has had rows for every survey, all of them readable, and has ended
well. A refresh that is over has rebuilt exactly if it ended well, and it did exactly if every
survey was answered with readable rows; `Outcome` says how it ended otherwise. A rebuild is one
step. -/
theorem refreshes_atomic {f : Fabric} {actions : List Action} {s : Refreshing}
    (h : run ⟨f, [], []⟩ actions = some s) :
    s.fabric.store.schema = s.rebuilds.foldl Rebuild.apply f.store.schema ∧
    (s.rebuilds.map (·.refresh)).Nodup ∧
    (∀ b ∈ s.rebuilds, ∃ u : Underway, s.refreshes[b.refresh]? = some u ∧ u.scope = b.scope ∧
      u.progress = .done (.ok (.ready ())) ∧ SchemaRefresh.Learnt u.scope u.heard b.survey) ∧
    (∀ (i : Nat) (u : Underway) result, s.refreshes[i]? = some u → u.progress = .done result →
      SchemaRefresh.Outcome u.scope u.heard result ∧
      ((∃ b ∈ s.rebuilds, b.refresh = i) ↔ result = .ok (.ready ())) ∧
      (result = .ok (.ready ()) ↔
        ∃ rows : SurveyRows, rows.Answered u.scope u.heard ∧ rows.Readable)) ∧
    ∀ action s', s.step action = some s' →
      (s'.rebuilds = s.rebuilds ∧ s'.fabric.store.schema = s.fabric.store.schema) ∨
      ∃ b : Rebuild, action = .signal b.refresh .go ∧ s'.rebuilds = s.rebuilds ++ [b] ∧
        s'.fabric.store.schema = b.apply s.fabric.store.schema := by
  have hs := (Sound.initial f).run h
  refine ⟨hs.view, hs.once, hs.backed, fun i u result hu hdone => ?_, fun _ _ => step_cases⟩
  have ht := hs.tracked i u hu
  rw [hdone] at ht
  have houtcome : SchemaRefresh.Outcome u.scope u.heard result := ht
  refine ⟨houtcome, ⟨?_, ?_⟩, houtcome.ready_iff⟩
  · rintro ⟨b, hb, rfl⟩
    obtain ⟨u', hu', _, hready, _⟩ := hs.backed b hb
    obtain rfl := Option.some.inj (hu.symm.trans hu')
    exact Progress.done.inj (hdone.symm.trans hready)
  · rintro rfl
    exact hs.applied i u hu hdone

/-- The whole schema and one keyspace are refreshed at once; the keyspace's columns cannot be
read. -/
def overlapped : List Action :=
  let rows (columns : List String) (cells : List Bytes) : Except Error Reply :=
    .ok (.rows (.ofRagged columns [cells.map some]))
  let name := Cell.encodeText "ks"
  [.start false 0 .all, .start false 0 (.keyspace "ks"), .signal 1 .go, .signal 0 .go,
    .signal 0 (.answered (.survey .keyspaces) (rows ["keyspace_name"] [name])),
    .signal 1 .go, .signal 0 .go,
    .signal 1 (.answered (.survey .columns) (rows ["keyspace_name"] [name])),
    .signal 1 (.answered (.survey .keyspaces) (rows ["keyspace_name"] [name])),
    .signal 0 (.answered (.survey .columns) (.ok (.rows .empty))),
    .signal 0 (.answered (.survey .columnFamilies) (.ok (.rows .empty))),
    .signal 1 (.answered (.survey .columnFamilies) (.ok (.rows .empty))),
    .signal 1 .go, .signal 0 .go]

theorem refreshes_atomic_overlapped : ∃ s b,
    run ⟨{ balancing := .roundRobin {} }, [], []⟩ overlapped = some s ∧ s.rebuilds = [b] ∧
      b.refresh = 0 ∧ s.fabric.store.schema = b.apply ∅ := by
  have hrun : (run ⟨{ balancing := .roundRobin {} }, [], []⟩ overlapped).any
      (fun s => s.rebuilds.map (·.refresh) = [0]) = true := by decide +kernel
  obtain ⟨s, hs, hnumbers⟩ := (Option.any_eq_true _ _).mp hrun
  obtain ⟨b, hb, hnumber⟩ := List.map_eq_singleton_iff.mp (of_decide_eq_true hnumbers)
  obtain ⟨hview, _⟩ := refreshes_atomic hs
  rw [hb] at hview
  exact ⟨s, b, hs, hb, hnumber, hview⟩

end Refreshing

end ControlChannel
