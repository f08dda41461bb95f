import ControlChannel.Host
import ControlChannel.Schema.View

/-!
The metadata store: the known hosts, the schema view and those who listen to changes of the host
list. A host is added at most once; its record then stays until it is removed. Every change of the
list is told to all listeners in the order of their registration, and nothing else is. Main
statements: `addHost` and `removeHost` through look-ups, and that an address already known causes
no notice.
-/

namespace ControlChannel

/-- Who hears of joining and leaving hosts. -/
inductive Listener where
  /-- The balancing policy of the control connection. -/
  | balancing
  /-- Notes what it hears. -/
  | recorder (name : String)
  /-- Ignores what it hears. -/
  | silent (name : String)
  deriving DecidableEq, Repr

inductive Change where
  | joined (host : Host)
  | left (host : Host)
  deriving DecidableEq, Repr

/-- One listener is told of one change. -/
structure Notice where
  listener : Listener
  change : Change
  deriving DecidableEq, Repr

structure Store where
  hosts : Std.ExtTreeMap Address Host := ∅
  /-- The serial number of the next record. -/
  nextSerial : Nat := 0
  schema : SchemaView := ∅
  /-- In the order of registration. -/
  listeners : List Listener := []

namespace Store

/-- A record for an address, replacing the one stored for it. -/
def seed (s : Store) (a : Address) : Store :=
  { s with
    hosts := s.hosts.insert a { serial := s.nextSerial, address := a }
    nextSerial := s.nextSerial + 1 }

/-- A store that knows the contact points. -/
def ofContactPoints (points : List Address) : Store := points.foldl seed {}

/-- Every known host, in the order of addresses. -/
def allHosts (s : Store) : List Host := s.hosts.toList.map (·.2)

/-- The known addresses, in order. -/
def addresses (s : Store) : List Address := s.allHosts.map (·.address)

def host? (s : Store) (a : Address) : Option Host := s.hosts[a]?

def register (s : Store) (l : Listener) : Store := { s with listeners := s.listeners ++ [l] }

/-- The listener is gone and hears nothing more. -/
def drop (s : Store) (l : Listener) : Store :=
  { s with listeners := s.listeners.filter (· != l) }

def tellAll (s : Store) (change : Change) : List Notice :=
  s.listeners.map fun l => ⟨l, change⟩

/-- What adding a host leads to. -/
structure Added where
  store : Store
  /-- The stored record. -/
  host : Host
  notices : List Notice

/-- Adds a host unless it is known. -/
def addHost (s : Store) (a : Address) : Added :=
  match s.host? a with
  | some host => ⟨s, host, []⟩
  | none =>
    let host : Host := { serial := s.nextSerial, address := a }
    ⟨s.seed a, host, s.tellAll (.joined host)⟩

/-- What removing a host leads to. -/
structure Removed where
  store : Store
  /-- Whether the host was known. -/
  known : Bool
  notices : List Notice

/-- Removes a host if it is known. -/
def removeHost (s : Store) (a : Address) : Removed :=
  match s.host? a with
  | none => ⟨s, false, []⟩
  | some host => ⟨{ s with hosts := s.hosts.erase a }, true, s.tellAll (.left host)⟩

/-- Sets the liveness of a known host's record. -/
def mark (s : Store) (a : Address) (up : Bool) : Store :=
  { s with hosts := s.hosts.modify a (·.mark up) }

/-- The record of a known host, or a fresh one for an unknown address. -/
def recordOf (s : Store) (a : Address) : Host :=
  (s.host? a).getD { serial := s.nextSerial, address := a }

/-- The store with its schema view rebuilt within a scope, if all rows decode. -/
def rebuildSchema (s : Store) (keyspace table : Option String) (keyspaces : Option ResultSet)
    (tables columns : ResultSet) : Except RowFault Store :=
  (Schema.rebuild s.schema keyspace table keyspaces tables columns).map
    fun view => { s with schema := view }

theorem addHost_known {s : Store} {a : Address} {h : Host} (hh : s.host? a = some h) :
    s.addHost a = ⟨s, h, []⟩ := by
  simp [addHost, hh]

theorem host?_addHost (s : Store) (a b : Address) :
    (s.addHost a).store.host? b = if a = b then some (s.addHost a).host else s.host? b := by
  unfold addHost
  split
  · rename_i h hh
    by_cases e : a = b
    · subst e; simp [hh]
    · simp [e]
  · by_cases e : a = b <;> simp [seed, host?, Std.ExtTreeMap.getElem?_insert, e]

theorem host?_removeHost (s : Store) (a b : Address) :
    (s.removeHost a).store.host? b = if a = b then none else s.host? b := by
  unfold removeHost
  split
  · rename_i hh
    by_cases e : a = b
    · subst e; simp [hh]
    · simp [e]
  · by_cases e : a = b <;> simp [host?, Std.ExtTreeMap.getElem?_erase, e]

theorem notices_addHost (s : Store) (a : Address) :
    (s.addHost a).notices =
      if (s.host? a).isSome then [] else s.tellAll (.joined (s.addHost a).host) := by
  unfold addHost
  split <;> simp_all

end Store

end ControlChannel
