import ControlChannel.Fabric

/-! # What a fabric remembers of what was done

The trace records what a control connection does to nodes and connections (its acts) beside what
recorders heard of the host list. The acts give the openings that were started, the requests that
were sent on a connection and the connections that were asked to close. Whatever the environment
does leaves them alone (`Fabric.Untouched`). -/

namespace ControlChannel

/-- Whether a happening is something that the control connection does. -/
def Happening.isAct : Happening → Bool
  | .heard .. => false
  | .opening _ | .sending .. | .closing _ => true

namespace Fabric

/-- What was done to nodes and connections, the latest first. -/
def acts (f : Fabric) : List Happening := (f.trace.map (·.what)).filter Happening.isAct

/-- The nodes to which connections were started, the latest first. -/
def openings (f : Fabric) : List Address :=
  f.acts.filterMap fun act => match act with
    | .opening a => some a
    | _ => none

/-- What was sent on a connection, in order. -/
def requests (f : Fabric) (c : ConnectionId) : List Request :=
  f.acts.reverse.filterMap fun act => match act with
    | .sending d request => if d = c then some request else none
    | _ => none

/-- The connections that were asked to close, the latest first. -/
def closings (f : Fabric) : List ConnectionId :=
  f.acts.filterMap fun act => match act with
    | .closing c => some c
    | _ => none

theorem acts_note (f : Fabric) (w : Happening) :
    (f.note w).acts = if w.isAct then w :: f.acts else f.acts := by
  simp only [acts, note, List.map_cons, List.filter_cons]

@[simp] theorem acts_accept (f : Fabric) (a : Address) : (f.accept a).1.acts = f.acts := rfl

@[simp] theorem acts_send (f : Fabric) (c : ConnectionId) (r : Request) :
    (f.send c r).acts = .sending c r :: f.acts := acts_note f _

@[simp] theorem acts_close (f : Fabric) (c : ConnectionId) :
    (f.close c).acts = .closing c :: f.acts := acts_note f _

theorem acts_deliver (f : Fabric) (n : Notice) : (f.deliver n).acts = f.acts := by
  unfold deliver
  split
  · split <;> rfl
  · rw [acts_note]; rfl
  · rfl

theorem acts_addHost (f : Fabric) (a : Address) : (f.addHost a).acts = f.acts :=
  foldl_deliver acts acts_deliver _ _

theorem acts_removeHost (f : Fabric) (a : Address) : (f.removeHost a).acts = f.acts :=
  foldl_deliver acts acts_deliver _ _

/-! ## Openings, requests and closings, act by act -/

theorem openings_congr {f g : Fabric} (h : f.acts = g.acts) : f.openings = g.openings := by
  rw [openings, openings, h]

@[simp] theorem openings_send (f : Fabric) (c : ConnectionId) (r : Request) :
    (f.send c r).openings = f.openings := by
  rw [openings, acts_send]; rfl

@[simp] theorem openings_close (f : Fabric) (c : ConnectionId) :
    (f.close c).openings = f.openings := by
  rw [openings, acts_close]; rfl

@[simp] theorem openings_opening (f : Fabric) (a : Address) :
    (f.note (.opening a)).openings = a :: f.openings := by
  rw [openings, acts_note]; rfl

theorem requests_congr {f g : Fabric} (h : f.acts = g.acts) (c : ConnectionId) :
    f.requests c = g.requests c := by
  rw [requests, requests, h]

theorem requests_send (f : Fabric) (c d : ConnectionId) (r : Request) :
    (f.send c r).requests d = f.requests d ++ if c = d then [r] else [] := by
  rw [requests, acts_send, List.reverse_cons, List.filterMap_append]
  by_cases h : c = d <;> simp [requests, h]

@[simp] theorem requests_close (f : Fabric) (c d : ConnectionId) :
    (f.close c).requests d = f.requests d := by
  rw [requests, acts_close, List.reverse_cons, List.filterMap_append]
  simp [requests]

@[simp] theorem requests_opening (f : Fabric) (a : Address) (d : ConnectionId) :
    (f.note (.opening a)).requests d = f.requests d := by
  rw [requests, acts_note]
  simp [requests, Happening.isAct]

theorem closings_congr {f g : Fabric} (h : f.acts = g.acts) : f.closings = g.closings := by
  rw [closings, closings, h]

@[simp] theorem closings_close (f : Fabric) (c : ConnectionId) :
    (f.close c).closings = c :: f.closings := by
  rw [closings, acts_close]; rfl

@[simp] theorem closings_send (f : Fabric) (c : ConnectionId) (r : Request) :
    (f.send c r).closings = f.closings := by
  rw [closings, acts_send]; rfl

@[simp] theorem closings_opening (f : Fabric) (a : Address) :
    (f.note (.opening a)).closings = f.closings := by
  rw [closings, acts_note]; rfl

/-! ## What the environment does -/

/-- Nothing was done to nodes or connections, apart from connections that broke down. -/
structure Untouched (f g : Fabric) : Prop where
  acts : g.acts = f.acts
  size : g.connections.size = f.connections.size
  closed : ∀ c, f.isClosed c = true → g.isClosed c = true

theorem Untouched.of_connections {f g : Fabric} (h : g.acts = f.acts)
    (hc : g.connections = f.connections) : Untouched f g := by
  refine ⟨h, by rw [hc], fun c h => ?_⟩
  rw [← h, isClosed, isClosed, connection?, connection?, hc]

theorem untouched_lose (f : Fabric) (c : ConnectionId) : Untouched f (f.lose c) := by
  refine ⟨rfl, by simp [lose], fun d h => ?_⟩
  rw [isClosed_lose, h, Bool.or_true]

theorem untouched_addHost (f : Fabric) (a : Address) : Untouched f (f.addHost a) :=
  .of_connections (acts_addHost f a) (connections_addHost f a)

theorem untouched_removeHost (f : Fabric) (a : Address) : Untouched f (f.removeHost a) :=
  .of_connections (acts_removeHost f a) (connections_removeHost f a)

end Fabric

end ControlChannel
