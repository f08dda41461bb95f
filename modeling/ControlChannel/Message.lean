import ControlChannel.ResultSet

/-!
Requests to a node and its replies. A node can be asked to announce events of some kinds, or to
run a statement; it acknowledges, returns rows or rejects. Main content: the texts of requests,
and what a reply is worth as rows (`Reply.resultSet`) or as an acknowledgement
(`Reply.acknowledge`).
-/

namespace ControlChannel

/-- The kinds of events that a node announces. -/
inductive EventKind where
  | topologyChange
  | statusChange
  | schemaChange
  deriving DecidableEq, Repr

namespace EventKind

/-- Every kind, in the order of registration. -/
def all : List EventKind := [.topologyChange, .statusChange, .schemaChange]

def name : EventKind → String
  | .topologyChange => "TOPOLOGY_CHANGE"
  | .statusChange => "STATUS_CHANGE"
  | .schemaChange => "SCHEMA_CHANGE"

def ofName? (name : String) : Option EventKind := all.find? (·.name == name)

@[simp] theorem ofName?_name (kind : EventKind) : ofName? kind.name = some kind := by
  cases kind <;> decide

end EventKind

inductive Request where
  /-- Announce events of these kinds from now on. -/
  | register (events : List EventKind)
  /-- Run a statement. -/
  | query (cql : String)
  deriving DecidableEq, Repr

namespace Request

/-- The statement, if the request runs one. -/
def cql? : Request → Option String
  | .query cql => some cql
  | .register _ => none

def text : Request → String
  | .register events => "REGISTER [" ++ ", ".intercalate (events.map EventKind.name) ++ "]"
  | .query cql => s!"QUERY {cql}"

end Request

inductive Reply where
  | ready
  | void
  | rows (set : ResultSet)
  /-- The node rejected the request. -/
  | rejected (code : Int32) (message : String)
  deriving DecidableEq

namespace Reply

/-- The rows of a reply that must have them. -/
def resultSet : Reply → Except Error ResultSet
  | .rows set => .ok set
  | .rejected code message => .error (.server code message)
  | .ready => .error (.protocol "expected rows, got READY")
  | .void => .error (.protocol "expected rows, got VOID")

/-- Whether the reply acknowledges its request. -/
def acknowledge : Reply → Except Error Unit
  | .ready | .void => .ok ()
  | .rejected code message => .error (.server code message)
  | .rows _ => .error (.protocol "expected acknowledgement, got rows")

end Reply

end ControlChannel
