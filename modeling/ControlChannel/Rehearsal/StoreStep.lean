import ControlChannel.Fabric

/-!
Steps on the metadata store and what they show: the host list and its records, the schema view and
the listeners.
-/

namespace ControlChannel.Rehearsal

inductive StoreStep where
  | hosts
  | host (address : Address)
  | addHost (address : Address)
  | removeHost (address : Address)
  /-- Sets the liveness of a host. -/
  | mark (address : Address) (up : Bool)
  | rebuild (keyspace table : Option String) (keyspaces : Option ResultSet)
      (columnFamilies columns : ResultSet)
  | keyspaces
  | keyspace (name : String)
  | column (keyspace table column : String)
  | listen (name : String) (silent : Bool)
  | unlisten (name : String)

inductive StoreResult where
  | nothing
  | hosts (hosts : List Host)
  | host (host : Option Host)
  /-- The record for an added host, and whether it was stored before. -/
  | added (host : Host) (known : Bool)
  | flag (b : Bool)
  | rebuilt (result : Except Error Unit)
  | keyspaces (keyspaces : List Keyspace)
  | keyspace (keyspace : Option Keyspace)
  | column (table : Option Table) (column : Option Column)

/-- Whether the listener goes by that name. -/
def isNamed (name : String) : Listener → Bool
  | .balancing => false
  | .recorder n | .silent n => n == name

/-- Takes one step on the store of a fabric. -/
def StoreStep.perform (f : Fabric) : StoreStep → Fabric × StoreResult
  | .hosts => (f, .hosts f.store.allHosts)
  | .host a => (f, .host (f.store.host? a))
  | .addHost a =>
    let host := (f.store.addHost a).host
    (f.addHost a, .added host ((f.store.host? a).any (·.serial == host.serial)))
  | .removeHost a => (f.removeHost a, .flag (f.store.removeHost a).known)
  | .mark a up =>
    ({ f with store := f.store.mark a up }, .flag ((f.store.recordOf a).changes up))
  | .rebuild k t keyspaceRows tableRows columnRows =>
    match f.store.rebuildSchema k t keyspaceRows tableRows columnRows with
    | .ok store => ({ f with store }, .rebuilt (.ok ()))
    | .error fault => (f, .rebuilt (.error fault.error))
  | .keyspaces => (f, .keyspaces (f.store.schema.toList.map (·.2)))
  | .keyspace name => (f, .keyspace f.store.schema[name]?)
  | .column k t c =>
    let table := f.store.schema[k]?.bind fun keyspace => keyspace.tables[t]?
    (f, .column table (table.bind (·.column? c)))
  | .listen name silent =>
    let kept := f.store.listeners.filter fun l => !isNamed name l
    let listener : Listener := if silent then .silent name else .recorder name
    ({ f with store := { f.store with listeners := kept }.register listener }, .nothing)
  | .unlisten name =>
    ({ f with store := { f.store with
        listeners := f.store.listeners.filter fun l => !isNamed name l } },
      .flag (f.store.listeners.any (isNamed name)))

/-- The entries that came after the first `n` ones, in order. -/
def entriesAfter (n : Nat) (f : Fabric) : List Entry := (f.trace.take (f.trace.length - n)).reverse

end ControlChannel.Rehearsal
