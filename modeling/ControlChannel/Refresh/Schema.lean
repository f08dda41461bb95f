import ControlChannel.Fabric
import ControlChannel.Schema.Scope
import ControlChannel.Signal

/-!
A schema refresh over one connection: the surveys of a scope are sent one after the other without
waiting for answers, the first failure ends the refresh, and once all are answered with rows the
store's view is rebuilt in one step. Main statements: nothing but that step touches the store
(`store_resume`), and a refresh that fails or is cancelled leaves the store as it was.
-/

namespace ControlChannel

/-- How far one survey is. -/
inductive SurveyState where
  | unsent
  /-- The scope does not need it. -/
  | skipped
  | waiting
  | answered (reply : Reply)
  deriving DecidableEq

structure Surveys where
  keyspaces : SurveyState
  columnFamilies : SurveyState
  columns : SurveyState
  deriving DecidableEq

namespace Surveys

def ofScope (scope : Schema.Scope) : Surveys where
  keyspaces := if scope.keyspacesSurvey.isSome then .unsent else .skipped
  columnFamilies := .unsent
  columns := .unsent

def get (s : Surveys) : SurveyKind → SurveyState
  | .keyspaces => s.keyspaces
  | .columnFamilies => s.columnFamilies
  | .columns => s.columns

def set (s : Surveys) (kind : SurveyKind) (state : SurveyState) : Surveys :=
  match kind with
  | .keyspaces => { s with keyspaces := state }
  | .columnFamilies => { s with columnFamilies := state }
  | .columns => { s with columns := state }

def order : List SurveyKind := [.keyspaces, .columnFamilies, .columns]

/-- The next survey to send. -/
def unsent? (s : Surveys) : Option SurveyKind :=
  order.find? fun kind => decide (s.get kind = .unsent)

/-- The surveys that wait for an answer. -/
def waiting (s : Surveys) : List SurveyKind :=
  order.filter fun kind => decide (s.get kind = .waiting)

@[simp] theorem get_set (s : Surveys) (kind : SurveyKind) (state : SurveyState) :
    (s.set kind state).get kind = state := by
  cases kind <;> rfl

theorem get_set_ne {s : Surveys} {kind other : SurveyKind} {state : SurveyState}
    (h : kind ≠ other) : (s.set kind state).get other = s.get other := by
  cases kind <;> cases other <;> first | rfl | exact absurd rfl h

end Surveys

/-- The replies to all surveys of a scope. -/
structure Replies where
  keyspaces : Option Reply
  columnFamilies : Reply
  columns : Reply

/-- The rows of all surveys of a scope. -/
structure SurveyRows where
  keyspaces : Option ResultSet
  columnFamilies : ResultSet
  columns : ResultSet

/-- All replies, once there are all. -/
def Surveys.replies? (s : Surveys) : Option Replies :=
  match s.keyspaces, s.columnFamilies, s.columns with
  | .answered k, .answered f, .answered c => some ⟨some k, f, c⟩
  | .skipped, .answered f, .answered c => some ⟨none, f, c⟩
  | _, _, _ => none

/-- The rows of all replies; of several unusable replies the first one counts. -/
def Replies.rows (r : Replies) : Except Error SurveyRows := do
  let keyspaces ← match r.keyspaces with
    | none => pure none
    | some reply => some <$> reply.resultSet
  let columnFamilies ← r.columnFamilies.resultSet
  let columns ← r.columns.resultSet
  return ⟨keyspaces, columnFamilies, columns⟩

inductive SchemaStage where
  | asking (surveys : Surveys)
  /-- The view can be rebuilt. -/
  | applying (rows : SurveyRows)

structure SchemaRefresh where
  connection : ConnectionId
  scope : Schema.Scope
  stage : SchemaStage

namespace SchemaRefresh

abbrev Result := Except Error (Awaited Unit)

def request (scope : Schema.Scope) : SurveyKind → Request
  | .keyspaces => .query (scope.keyspacesSurvey.getD "")
  | .columnFamilies => .query scope.columnFamiliesSurvey
  | .columns => .query scope.columnsSurvey

/-- Sends the next survey, if one is left. -/
def issue (f : Fabric) (c : ConnectionId) (scope : Schema.Scope) (s : Surveys) :
    Fabric × Surveys :=
  match s.unsent? with
  | some kind => (f.send c (request scope kind), s.set kind .waiting)
  | none => (f, s)

/-- Starts a refresh, unless it is cancelled already. -/
def start (f : Fabric) (cancelled : Bool) (c : ConnectionId) (scope : Schema.Scope) :
    Fabric × Progress SchemaRefresh Result :=
  if cancelled then (f, .done (.ok .cancelled))
  else
    let (f, s) := issue f c scope (.ofScope scope)
    (f, .running ⟨c, scope, .asking s⟩)

/-- What the surveys lead to: further waiting, the rebuild or an error. -/
def settle (c : ConnectionId) (scope : Schema.Scope) (s : Surveys) :
    Progress SchemaRefresh Result :=
  match s.replies? with
  | none => .running ⟨c, scope, .asking s⟩
  | some replies =>
    match replies.rows with
    | .error e => .done (.error e)
    | .ok rows => .running ⟨c, scope, .applying rows⟩

/-- Rebuilds the store's view. -/
def apply (f : Fabric) (scope : Schema.Scope) (rows : SurveyRows) : Fabric × Result :=
  match f.store.rebuildSchema scope.keyspace? scope.table? rows.keyspaces rows.columnFamilies
      rows.columns with
  | .ok store => ({ f with store }, .ok (.ready ()))
  | .error fault => (f, .error fault.error)

/-- Goes on after a signal that fits the position. -/
def resume (f : Fabric) (r : SchemaRefresh) (signal : Signal) :
    Option (Fabric × Progress SchemaRefresh Result) :=
  match r.stage, signal with
  | .asking s, .go =>
    if s.unsent?.isSome then
      let (f, s) := issue f r.connection r.scope s
      some (f, .running ⟨r.connection, r.scope, .asking s⟩)
    else none
  | .asking s, .answered (.survey kind) result =>
    if s.get kind = .waiting then
      match result with
      | .error e => some (f, .done (.error e))
      | .ok reply => some (f, settle r.connection r.scope (s.set kind (.answered reply)))
    else none
  | .asking _, .cancelled => some (f, .done (.ok .cancelled))
  | .applying rows, .go =>
    let (f, result) := apply f r.scope rows
    some (f, .done result)
  | _, _ => none

/-- The surveys that wait for an answer, and the next one to send. -/
def waiting (r : SchemaRefresh) : List Question :=
  match r.stage with
  | .asking s => s.waiting.map .survey
  | .applying _ => []

def unsent? (r : SchemaRefresh) : Option Question :=
  match r.stage with
  | .asking s => s.unsent?.map .survey
  | .applying _ => none

theorem store_issue (f : Fabric) (c : ConnectionId) (scope : Schema.Scope) (s : Surveys) :
    (issue f c scope s).1.store = f.store := by
  unfold issue
  split <;> rfl

/-- A refresh that still runs has not touched the store. -/
theorem store_resume {f f' : Fabric} {r r' : SchemaRefresh} {signal : Signal}
    (h : r.resume f signal = some (f', .running r')) : f'.store = f.store := by
  unfold resume at h
  split at h
  · split at h
    · cases h; exact store_issue _ _ _ _
    · cases h
  · split at h
    · split at h
      · cases h
      · simp only [Option.some.injEq, Prod.mk.injEq] at h
        rw [h.1]
    · cases h
  · cases h
  · cases h
  · cases h

end SchemaRefresh

end ControlChannel
