import ControlChannel.Balancing
import ControlChannel.Message
import ControlChannel.Store

/-!
What the control connection works on: a clock, the metadata store, the balancing policy, the
connections opened so far and a trace of what was done to them. Connections are numbered in the
order in which they were opened. Main statements: what opening and closing do to the connections
(`connection?_accept`, `isClosed_lose`).
-/

namespace ControlChannel

abbrev ConnectionId := Nat

/-- How a connection is called. -/
def connectionName (c : ConnectionId) : String := s!"conn-{c}"

structure Connection where
  address : Address
  closed : Bool := false
  deriving DecidableEq, Repr

/-- A connection as whoever uses it knows it: its number and its node. -/
structure Link where
  id : ConnectionId
  address : Address
  deriving DecidableEq, Repr

/-- What the trace records. -/
inductive Happening where
  | opening (address : Address)
  | sending (connection : ConnectionId) (request : Request)
  | closing (connection : ConnectionId)
  /-- A recorder was told of a change of the host list. -/
  | heard (recorder : String) (change : Change)
  deriving DecidableEq, Repr

structure Entry where
  /-- Milliseconds on the clock. -/
  time : Nat
  what : Happening
  deriving DecidableEq, Repr

structure Fabric where
  /-- Milliseconds since the start. -/
  clock : Nat := 0
  store : Store := {}
  balancing : Balancing
  connections : Array Connection := #[]
  /-- The latest entry first. -/
  trace : List Entry := []

namespace Fabric

def note (f : Fabric) (what : Happening) : Fabric :=
  { f with trace := ⟨f.clock, what⟩ :: f.trace }

def send (f : Fabric) (c : ConnectionId) (request : Request) : Fabric :=
  f.note (.sending c request)

/-- A connection to `address` that has just been opened. -/
def accept (f : Fabric) (address : Address) : Fabric × Link :=
  ({ f with connections := f.connections.push { address } }, ⟨f.connections.size, address⟩)

def connection? (f : Fabric) (c : ConnectionId) : Option Connection := f.connections[c]?

/-- Whether the connection is closed; one that was never opened counts as closed. -/
def isClosed (f : Fabric) (c : ConnectionId) : Bool :=
  match f.connection? c with
  | some connection => connection.closed
  | none => true

/-- The connection is closed from now on. -/
def lose (f : Fabric) (c : ConnectionId) : Fabric :=
  { f with connections := f.connections.modify c fun k => { k with closed := true } }

/-- Begins to close a connection, open or not; it is closed when that is over, or sooner. -/
def close (f : Fabric) (c : ConnectionId) : Fabric := f.note (.closing c)

/-- The connections that are not closed, in order. -/
def openConnections (f : Fabric) : List ConnectionId :=
  (List.range f.connections.size).filter fun c => !f.isClosed c

/-- The policy follows the host list, a recorder notes the change, a silent listener does
nothing. -/
def deliver (f : Fabric) (notice : Notice) : Fabric :=
  match notice.listener with
  | .balancing =>
    match notice.change with
    | .joined host => { f with balancing := f.balancing.join host.address }
    | .left host => { f with balancing := f.balancing.leave host.address }
  | .recorder name => f.note (.heard name notice.change)
  | .silent _ => f

/-- Adds a host to the store and tells the listeners. -/
def addHost (f : Fabric) (a : Address) : Fabric :=
  let added := f.store.addHost a
  added.notices.foldl deliver { f with store := added.store }

/-- Removes a host from the store and tells the listeners. -/
def removeHost (f : Fabric) (a : Address) : Fabric :=
  let removed := f.store.removeHost a
  removed.notices.foldl deliver { f with store := removed.store }

/-- A plan for a new round. -/
def takePlan (f : Fabric) : List Address × Fabric :=
  (f.balancing.plan.1, { f with balancing := f.balancing.plan.2 })

@[simp] theorem connections_note (f : Fabric) (w : Happening) :
    (f.note w).connections = f.connections := rfl

theorem connection?_accept (f : Fabric) (a : Address) :
    (f.accept a).1.connection? (f.accept a).2.id = some { address := a } := by
  simp [accept, connection?]

theorem connection?_lose (f : Fabric) (c d : ConnectionId) :
    (f.lose c).connection? d =
      (f.connection? d).map fun k => if c = d then { k with closed := true } else k := by
  simp only [lose, connection?, Array.getElem?_modify]
  split <;> simp_all

theorem isClosed_lose (f : Fabric) (c d : ConnectionId) :
    (f.lose c).isClosed d = (decide (c = d) || f.isClosed d) := by
  simp only [isClosed, connection?_lose]
  by_cases h : c = d <;> cases f.connection? d <;> simp_all

theorem connections_deliver (f : Fabric) (n : Notice) :
    (f.deliver n).connections = f.connections := by
  unfold deliver
  repeat' split
  all_goals rfl

theorem store_deliver (f : Fabric) (n : Notice) : (f.deliver n).store = f.store := by
  unfold deliver
  repeat' split
  all_goals rfl

/-- What no notice changes, all of them together do not change. -/
theorem foldl_deliver {α : Type} (g : Fabric → α) (h : ∀ f n, g (f.deliver n) = g f)
    (notices : List Notice) (f : Fabric) : g (notices.foldl deliver f) = g f := by
  induction notices generalizing f with
  | nil => rfl
  | cons n ns ih => rw [List.foldl_cons, ih, h]

theorem connections_addHost (f : Fabric) (a : Address) :
    (f.addHost a).connections = f.connections :=
  foldl_deliver connections connections_deliver _ _

theorem connections_removeHost (f : Fabric) (a : Address) :
    (f.removeHost a).connections = f.connections :=
  foldl_deliver connections connections_deliver _ _

theorem store_addHost (f : Fabric) (a : Address) :
    (f.addHost a).store = (f.store.addHost a).store :=
  foldl_deliver store store_deliver _ _

theorem store_removeHost (f : Fabric) (a : Address) :
    (f.removeHost a).store = (f.store.removeHost a).store :=
  foldl_deliver store store_deliver _ _

end Fabric

end ControlChannel
