import ControlChannel.Proofs.Control.Steps
import ControlChannel.Proofs.Membership.Peers
import ControlChannel.Proofs.Schema.Contents

/-! # The history of a run

A run is remembered as the list of its steps. What a bring-up has to see on its connection are
milestones (`Milestone`): answers to the questions that were asked on that connection, and the
changes that the answers lead to, each with what it leaves in the store (`Milestone.Shows`). The
steps of a run pass a list of milestones when each of them is shown by a step of its own, in that
order (`Passed`). -/

namespace ControlChannel

/-- One step that was taken. -/
structure Transition where
  before : System
  action : Action
  after : System

/-- A run and its steps, in order. -/
inductive Run (s : System) : List Transition → System → Prop where
  | nil : Run s [] s
  | snoc {h : List Transition} {t u : System} (action : Action) (run : Run s h t)
      (step : t.step action = some u) : Run s (h ++ [⟨t, action, u⟩]) u

theorem Run.reaches {s t : System} {h : List Transition} (r : Run s h t) : s.Reaches t := by
  induction r with
  | nil => exact .refl s
  | snoc action _ step ih => exact ih.step action step

theorem Run.of_reaches {s t : System} (r : s.Reaches t) : ∃ h, Run s h t := by
  induction r with
  | refl => exact ⟨[], .nil⟩
  | step action _ e ih =>
    obtain ⟨h, run⟩ := ih
    exact ⟨_, run.snoc action e⟩

namespace Run

variable {s t : System} {h : List Transition} {x y : Transition}

theorem step_of_mem (run : Run s h t) (hx : x ∈ h) : x.before.step x.action = some x.after := by
  induction run with
  | nil => cases hx
  | snoc action _ step ih =>
    rcases List.mem_append.mp hx with hx | hx
    · exact ih hx
    · obtain rfl := List.mem_singleton.mp hx
      exact step

theorem reaches_of_mem (run : Run s h t) (hx : x ∈ h) : x.after.Reaches t := by
  induction run with
  | nil => cases hx
  | snoc action _ step ih =>
    rcases List.mem_append.mp hx with hx | hx
    · exact (ih hx).step action step
    · obtain rfl := List.mem_singleton.mp hx
      exact .refl _

/-- The run up to one of its steps: the other steps are taken before or from there. -/
theorem upto (run : Run s h t) (hx : x ∈ h) :
    ∃ g ⊆ h, Run s g x.before ∧ ∀ y ∈ h, y ∈ g ∨ x.before.Reaches y.after := by
  induction run with
  | nil => cases hx
  | @snoc h t u action run step ih =>
    rcases List.mem_append.mp hx with hx | hx
    · obtain ⟨g, hsub, hg, hall⟩ := ih hx
      refine ⟨g, List.subset_append_of_subset_left _ hsub, hg, fun y hy => ?_⟩
      rcases List.mem_append.mp hy with hy | hy
      · exact hall y hy
      · obtain rfl := List.mem_singleton.mp hy
        have hthere := (System.Reaches.refl x.before).step x.action (run.step_of_mem hx)
        exact .inr ((hthere.trans (run.reaches_of_mem hx)).step action step)
    · obtain rfl := List.mem_singleton.mp hx
      refine ⟨h, List.subset_append_left _ _, run, fun y hy => ?_⟩
      rcases List.mem_append.mp hy with hy | hy
      · exact .inl hy
      · obtain rfl := List.mem_singleton.mp hy
        exact .inr ((System.Reaches.refl t).step action step)

theorem reaches_before (run : Run s h t) (hx : x ∈ h) : s.Reaches x.before := by
  obtain ⟨g, _, hg, _⟩ := run.upto hx
  exact hg.reaches

/-- Of two steps of a run one comes first. -/
theorem ordered (run : Run s h t) (hx : x ∈ h) (hy : y ∈ h) :
    x = y ∨ x.after.Reaches y.before ∨ y.after.Reaches x.before := by
  induction run with
  | nil => cases hx
  | @snoc h t u action run step ih =>
    rcases List.mem_append.mp hx with hx | hx
    · rcases List.mem_append.mp hy with hy | hy
      · exact ih hx hy
      · obtain rfl := List.mem_singleton.mp hy
        exact .inr (.inl (run.reaches_of_mem hx))
    · obtain rfl := List.mem_singleton.mp hx
      rcases List.mem_append.mp hy with hy | hy
      · exact .inr (.inr (run.reaches_of_mem hy))
      · exact .inl (List.mem_singleton.mp hy).symm

end Run

/-- An action brings a signal to a job. -/
def Action.Brings (action : Action) (job : JobId) (signal : Signal) : Prop :=
  action = .signal job signal ∨ action = .poll job ∧ signal = .cancelled

namespace Transition

/-- A signal reached a task that held `link` and waited for `need`. -/
def Serves (x : Transition) (link : Link) (need : Need) (signal : Signal) : Prop :=
  ∃ job ∈ x.before.jobs, job.task.held? = some link ∧ job.task.need = need ∧
    x.action.Brings job.id signal

/-- The answer to a question that was asked on a connection about everything. -/
def Answers (x : Transition) (link : Link) (question : Question) (reply : Reply) : Prop :=
  ∃ waiting unsent, question ∈ waiting ∧
    x.Serves link (.answers link.id .all waiting unsent) (.answered question (.ok reply))

/-- A task that held `link` took its next step. -/
def Proceeds (x : Transition) (link : Link) : Prop := x.Serves link .step .go

def storeBefore (x : Transition) : Store := x.before.control.fabric.store

def storeAfter (x : Transition) : Store := x.after.control.fabric.store

/-- A signal reached work that held `held` and waited for `need`, and the step took the store of
`f` to that of `g`. -/
structure Drives (x : Transition) (held : Option Link) (need : Need) (signal : Signal)
    (f g : Fabric) : Prop where
  serves : ∀ link, held = some link → x.Serves link need signal
  before : x.storeBefore = f.store
  after : x.storeAfter = g.store

/-- What is done after the work leaves the store alone. -/
theorem Drives.within {x : Transition} {held : Option Link} {need : Need} {signal : Signal}
    {e f g : Fabric} (d : x.Drives held need signal e g) (same : g.store = f.store) :
    x.Drives held need signal e f :=
  ⟨d.serves, d.before, d.after.trans same⟩

end Transition

/-! ## What a step leaves in the store -/

namespace Store

/-- The host is known from now on, with the record that was there if it was known before. -/
structure Gains (s : Store) (a : Address) (t : Store) : Prop where
  known : (t.host? a).isSome
  kept : ∀ host, s.host? a = some host → t.host? a = some host
  others : ∀ b, b ≠ a → t.host? b = s.host? b
  schema : t.schema = s.schema

/-- The host is not known any more. -/
structure Loses (s : Store) (a : Address) (t : Store) : Prop where
  unknown : t.host? a = none
  others : ∀ b, b ≠ a → t.host? b = s.host? b
  schema : t.schema = s.schema

/-- The schema view has the contents that the rows describe, where no key is among them twice, and
the rest of the store is as it was. -/
structure Learns (s : Store) (rows : SurveyRows) (t : Store) : Prop where
  contents : ∀ d : Catalogue, d.rows = rows → d.Distinct → d.Contents t.schema
  others : t = { s with schema := t.schema }

variable {s t : Store}

theorem gains_addHost (s : Store) (a : Address) : s.Gains a (s.addHost a).store where
  known := by rw [host?_addHost, if_pos rfl, Option.isSome_some]
  kept host h := by rw [host?_addHost, if_pos rfl, addHost_known h]
  others b hne := by rw [host?_addHost, if_neg hne.symm]
  schema := s.schema_addHost a

theorem loses_removeHost (s : Store) (a : Address) : s.Loses a (s.removeHost a).store where
  unknown := by rw [host?_removeHost, if_pos rfl]
  others b hne := by rw [host?_removeHost, if_neg hne.symm]
  schema := s.schema_removeHost a

theorem learns_of_rebuildSchema {rows : SurveyRows}
    (h : s.rebuildSchema none none rows.keyspaces rows.columnFamilies rows.columns = .ok t) :
    s.Learns rows t where
  contents d hd distinct := by
    subst hd
    obtain ⟨hreadable, rfl⟩ := Catalogue.rebuild_eq_ok.mp h
    exact Catalogue.contents_view distinct hreadable
  others := by
    obtain ⟨_, _, rfl⟩ := rebuildSchema_eq_ok.mp h
    rfl

end Store

/-! ## Milestones -/

/-- What a bring-up has to see on its connection. -/
inductive Milestone where
  /-- The registration is acknowledged. -/
  | registered (reply : Reply)
  | surveyed (kind : SurveyKind) (reply : Reply)
  /-- The schema view is rebuilt from the rows of all surveys. -/
  | rebuilt (rows : SurveyRows)
  /-- The peers are answered, with rows that name these hosts. -/
  | found (hosts : Topology.Addresses)
  /-- The hosts found are compared with the known ones. -/
  | compared (hosts : Topology.Addresses) (diff : Topology.Diff)
  | added (address : Address)
  /-- A host that was not found is looked up, so as to remove it. -/
  | sought (address : Address) (host : Option Host)
  | removed (host : Host)

/-- A step shows a milestone of the bring-up that holds `link`. -/
def Milestone.Shows (link : Link) (port : UInt16) (x : Transition) : Milestone → Prop
  | .registered reply => x.Answers link .registration reply
  | .surveyed kind reply => x.Answers link (.survey kind) reply
  | .rebuilt rows => x.Proceeds link ∧
      x.storeBefore.rebuildSchema none none rows.keyspaces rows.columnFamilies rows.columns =
        .ok x.storeAfter ∧ x.storeBefore.Learns rows x.storeAfter
  | .found hosts => ∃ rows, x.Answers link .peers (.rows rows) ∧
      Topology.foundHosts link.address rows port = .ok hosts ∧
      ∀ a, a ∈ hosts ↔ Topology.Found link.address port rows a
  | .compared hosts diff => x.Proceeds link ∧
      diff = .ofSets hosts (Std.ExtTreeSet.ofList x.storeBefore.addresses) ∧
      ∀ a, (a ∈ diff.toAdd ↔ a ∈ hosts ∧ a ∉ x.storeBefore.addresses) ∧
        (a ∈ diff.toRemove ↔ a ∈ x.storeBefore.addresses ∧ a ∉ hosts)
  | .added address => x.Proceeds link ∧ x.storeAfter = (x.storeBefore.addHost address).store ∧
      x.storeBefore.Gains address x.storeAfter
  | .sought address host => x.Proceeds link ∧ x.storeBefore.host? address = host
  | .removed host => x.Proceeds link ∧
      x.storeAfter = (x.storeBefore.removeHost host.address).store ∧
      x.storeBefore.Loses host.address x.storeAfter

/-- The steps of a run show some milestones of the bring-up that holds `link`, in this order. -/
inductive Passed (link : Link) (port : UInt16) : List Transition → List Milestone → Prop where
  | nil (h : List Transition) : Passed link port h []
  | skip {h : List Transition} {ms : List Milestone} (x : Transition) (p : Passed link port h ms) :
      Passed link port (h ++ [x]) ms
  | shown {h : List Transition} {ms : List Milestone} {x : Transition} {m : Milestone}
      (p : Passed link port h ms) (s : m.Shows link port x) :
      Passed link port (h ++ [x]) (ms ++ [m])

/-! ## Being brought up -/

/-- The surveys of a whole schema were answered with these rows, in whatever order. -/
def Surveyed (answers : List (SurveyKind × Reply)) (rows : SurveyRows) : Prop :=
  ∃ keyspaces, rows.keyspaces = some keyspaces ∧
    answers.Perm [(.keyspaces, .rows keyspaces), (.columnFamilies, .rows rows.columnFamilies),
      (.columns, .rows rows.columns)]

namespace Milestone

/-- The registration and the answers to surveys. -/
def answered (ack : Reply) (answers : List (SurveyKind × Reply)) : List Milestone :=
  .registered ack :: answers.map fun a => .surveyed a.1 a.2

/-- The removal of hosts, as far as they are still known. -/
def removals (seen : List (Address × Option Host)) : List Milestone :=
  seen.flatMap fun s => .sought s.1 s.2 :: s.2.toList.map .removed

/-- The hosts found are applied to the list of known hosts. -/
def applied (hosts : Topology.Addresses) (diff : Topology.Diff)
    (seen : List (Address × Option Host)) : List Milestone :=
  .found hosts :: .compared hosts diff :: (diff.toAdd.toList.map .added ++ removals seen)

end Milestone

/-- The milestones up to the rebuilt schema. -/
inductive SchemaLearnt : List Milestone → Prop where
  | intro {ack : Reply} {answers : List (SurveyKind × Reply)} {rows : SurveyRows}
      (acknowledged : ack = .ready ∨ ack = .void) (surveyed : Surveyed answers rows) :
      SchemaLearnt (Milestone.answered ack answers ++ [.rebuilt rows])

/-- The connection behind `link` has been brought up: its registration was acknowledged, then all
surveys were answered with rows from which the schema was rebuilt, then the peers were answered
with rows that were applied to the list of hosts. -/
inductive BroughtUp (link : Link) (port : UInt16) (h : List Transition) : Prop where
  | intro {schema : List Milestone} {hosts : Topology.Addresses} {diff : Topology.Diff}
      {seen : List (Address × Option Host)} (learnt : SchemaLearnt schema)
      (complete : seen.map (·.1) = diff.toRemove.toList)
      (passed : Passed link port h (schema ++ Milestone.applied hosts diff seen))

/-- The questions of a bring-up, in the order in which they are asked. -/
def Question.bringUp : List Question :=
  [.registration, .survey .keyspaces, .survey .columnFamilies, .survey .columns, .peers]

/-- What a complete bring-up sends. -/
def Request.bringUp : List Request := Question.bringUp.map (Question.request .all)

end ControlChannel
