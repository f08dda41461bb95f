import ControlChannel.Control.Turn
import ControlChannel.Proofs.Control.Attempt

/-! # What one turn of a task does

A turn changes the control connection and leaves at most two tasks behind: the one that had the
turn and one that it starts. What it does is said once (`Turn.Sound`): how the slot's handle and
the connections pass on, that a connection is asked to close only when nobody has a use for it, and
what no turn does after a shutdown. A turn that is not about the end says so in one piece
(`Turn.Goes`). -/

namespace ControlChannel

/-- The tasks that a turn leaves behind. -/
def Turn.tasks (turn : Turn) : List Task := turn.task.toList ++ turn.spawned.toList

namespace Task

/-- A signal can reach a task: only a cancelled wait is told so. -/
def Hears (k : Control) (task : Task) (signal : Signal) : Prop :=
  signal = .cancelled → k.cancels task = true

/-- The attempt that a task makes. -/
def attempt? : Task → Option Attempt
  | .connect a | .background _ a => some a
  | .session _ s => some s.stage.attempt
  | .called _ | .refreshSchema _ | .refreshNodes _ | .shutdown _ => none

/-- The connection that a task has a use for. -/
def uses? (task : Task) : Option Link := task.attempt?.bind (·.uses?)

/-- A task whose attempt is over because of a shutdown, or about to be. -/
def GivenUp (task : Task) : Prop := ∃ a, task.attempt? = some a ∧ Attempt.GivenUp (.running a)

def isShutdown : Task → Bool
  | .shutdown _ => true
  | _ => false

/-- Whether a task owns a handle and has not brought a connection up, so far. -/
def isSeeking (task : Task) : Bool :=
  task.handle?.isSome && !task.attempt?.any (·.isInstalling)

/-- A call or a refresh, which holds nothing. -/
def isIdle : Task → Bool
  | .called _ | .refreshSchema _ | .refreshNodes _ | .connect .fresh => true
  | _ => false

theorem held?_of_attempt {task : Task} {a : Attempt} (h : task.attempt? = some a) :
    task.held? = a.held? := by
  cases task <;> cases h <;> rfl

theorem uses?_of_attempt {task : Task} {a : Attempt} (h : task.attempt? = some a) :
    task.uses? = a.uses? := by
  rw [uses?, h]; rfl

theorem isShutdown_of_attempt {task : Task} {a : Attempt} (h : task.attempt? = some a) :
    task.isShutdown = false := by
  cases task <;> first | rfl | cases h

/-- The connections that tasks hold. -/
def held (ts : List Task) : List ConnectionId := ts.flatMap fun t => Link.ids t.held?

/-- The connections that tasks have a use for. -/
def used (ts : List Task) : List ConnectionId := ts.flatMap fun t => Link.ids t.uses?

/-- The handles that tasks own. -/
def handles (ts : List Task) : List Handle := ts.filterMap (·.handle?)

end Task

/-- How often the end has been published, or is going to be by one of the tasks. -/
def Control.endings (k : Control) (ts : List Task) : Nat :=
  k.events.count .closed + ts.countP Task.isShutdown

/-! ## The slot and the phase -/

theorem Slot.revoked_cancel (s : Slot) : s.cancel.revoked = s.revoked := by
  unfold cancel
  split <;> rfl

theorem Slot.revoked_release (s : Slot) (h : Handle) : (s.release h).revoked = s.revoked := by
  unfold release
  split <;> rfl

theorem Slot.tryOccupy_eq {s t : Slot} {handle : Handle} (h : s.tryOccupy = some (handle, t)) :
    s.holder = none ∧ s.revoked = false ∧ handle = ⟨s.nextId⟩ ∧
      t = { s with holder := some handle, nextId := s.nextId + 1 } := by
  obtain ⟨hh, hr⟩ := s.tryOccupy_isSome_iff.mp (by rw [h]; rfl)
  unfold tryOccupy at h
  split at h
  · cases h
  · cases h
    exact ⟨hh, hr, rfl, rfl⟩

theorem Phase.shift_eq_closed {p q : Phase} (hq : q ≠ .closed) :
    p.shift q = .closed ↔ p = .closed := by
  unfold shift
  split
  · exact Iff.rfl
  · rename_i h
    exact ⟨fun e => absurd e hq, fun e => absurd e h⟩

theorem Phase.reconnecting_of_shift {p q : Phase} (h : p.shift q = .reconnecting) :
    q = .reconnecting := by
  unfold shift at h
  split at h
  · rename_i hc
    rw [hc] at h; cases h
  · exact h

/-! ## Turns -/

namespace Turn

/-- How a turn concerns the slot. -/
inductive OnSlot (k : Control) (task : Task) (turn : Turn) : Prop where
  | kept (slot : turn.control.slot = k.slot)
      (handles : Task.handles turn.tasks = task.handle?.toList)
  | released (h : Handle) (own : task.handle? = some h)
      (slot : turn.control.slot = k.slot.release h) (finished : turn.tasks = [])
  | taken (h : Handle) (own : task.handle? = none)
      (slot : k.slot.tryOccupy = some (h, turn.control.slot))
      (handles : Task.handles turn.tasks = [h])
  | revoked (call : task = .called .shutdown) (live : k.isShutDown = false)
      (slot : turn.control.slot = k.slot.revoke.cancel)
      (handles : Task.handles turn.tasks = [])

/-- How the connections pass on in a turn, and which of them are asked to close. -/
structure HandsOn (k : Control) (task : Task) (turn : Turn) : Prop where
  custody : Passes k.fabric turn.control.fabric (Link.ids k.active ++ Link.ids task.held?)
    (Link.ids turn.control.active ++ Task.held turn.tasks)
  closings : ∀ c ∈ turn.control.fabric.closings, c ∈ k.fabric.closings ∨
    (c ∈ Task.held turn.tasks ∧ c ∉ Task.used turn.tasks)
  asked : ∀ c ∈ k.fabric.closings, c ∈ turn.control.fabric.closings
  discards : ∀ c ∈ Task.held turn.tasks, c ∈ Task.used turn.tasks ∨
    c ∈ turn.control.fabric.closings
  uses : ∀ c ∈ Task.used turn.tasks, c ∈ Link.ids task.uses? ∨ k.fabric.connections.size ≤ c
  actives : ∀ c ∈ Link.ids turn.control.active,
    c ∈ Link.ids k.active ++ Link.ids task.uses? ∨ k.fabric.connections.size ≤ c

/-- Whether a connection is active after a turn. -/
structure Fills (k : Control) (turn : Turn) : Prop where
  filled : k.active.isSome = true → turn.control.active.isSome = true ∨
    turn.control.isShutDown = true
  stays : k.isShutDown = true → turn.control.active = k.active
  emptied : turn.control.isShutDown = true → k.isShutDown = true ∨ turn.control.active = none

/-- What a turn tells of, above all of the end. -/
structure Announces (k : Control) (task : Task) (turn : Turn) : Prop where
  events : ∃ es, turn.control.events = es ++ k.events ∧
    ∀ a, .connected a ∈ es → k.isShutDown = false
  endings : turn.control.endings turn.tasks + k.isShutDown.toNat =
    k.endings [task] + turn.control.isShutDown.toNat
  closed : (k.phase = .closed ↔ .closed ∈ k.events) →
    (turn.control.phase = .closed ↔ .closed ∈ turn.control.events)

/-- What a turn of a task does, and what it leaves alone. -/
structure Sound (k : Control) (task : Task) (turn : Turn) : Prop extends
    HandsOn k task turn, Fills k turn, Announces k task turn where
  settings : turn.control.settings = k.settings
  slot : OnSlot k task turn
  openings : k.isShutDown = true → turn.control.fabric.openings = k.fabric.openings
  seeking : k.isShutDown = false → k.slot.evicted = [] → turn.control.phase = .reconnecting →
    (k.phase = .reconnecting ∧ task.isSeeking = false) ∨ ∃ t ∈ turn.tasks, t.isSeeking = true
  calm : ∀ t ∈ turn.tasks, t.GivenUp → k.isShutDown = true
  finished : turn.result.isSome = true → turn.task = none

/-- Shut down once, shut down for good. -/
theorem Sound.isShutDown {k : Control} {task : Task} {turn : Turn} (s : Sound k task turn)
    (h : k.isShutDown = true) : turn.control.isShutDown = true := by
  rw [Control.isShutDown]
  cases s.slot with
  | kept hs _ => rw [hs]; exact h
  | released handle _ hs _ => rw [hs, Slot.revoked_release]; exact h
  | taken handle _ hs _ =>
    have hr := (k.slot.tryOccupy_isSome_iff.mp (by rw [hs]; rfl)).2
    rw [Control.isShutDown, hr] at h
    cases h
  | revoked _ _ hs _ => rw [hs, Slot.revoked_cancel]; rfl

theorem Sound.live {k : Control} {task : Task} {turn : Turn} (s : Sound k task turn)
    (h : turn.control.isShutDown = false) : k.isShutDown = false := by
  cases hk : k.isShutDown with
  | false => rfl
  | true => rw [s.isShutDown hk] at h; cases h

/-! ## Events -/

/-- What a turn may tell of beside the end: failures, and before a shutdown new connections. -/
def Tells (k : Control) (es : List Event) : Prop :=
  ∀ e ∈ es, e.isFailure = true ∨ (k.isShutDown = false ∧ ∃ address, e = .connected address)

namespace Tells

variable {k : Control} {es fs : List Event}

theorem of_failures (h : ∀ e ∈ es, e.isFailure = true) : Tells k es := fun e he => .inl (h e he)

theorem append (h : Tells k es) (h' : Tells k fs) : Tells k (es ++ fs) := by
  intro e he
  rcases List.mem_append.mp he with he | he
  · exact h e he
  · exact h' e he

theorem connected (h : Tells k es) {a : Address} (ha : .connected a ∈ es) :
    k.isShutDown = false := by
  rcases h _ ha with hf | ⟨hs, _⟩
  · cases hf
  · exact hs

theorem not_closed (h : Tells k es) : .closed ∉ es := by
  intro hc
  rcases h _ hc with hf | ⟨_, _, ha⟩
  · cases hf
  · cases ha

end Tells

/-- A turn that is not about the end, as far as the end is concerned. -/
structure Goes (k : Control) (task : Task) (turn : Turn) : Prop where
  told : ∃ es, turn.control.events = es ++ k.events ∧ Tells k es
  live : turn.control.isShutDown = k.isShutDown
  phase : turn.control.phase = .closed ↔ k.phase = .closed
  before : task.isShutdown = false
  after : ∀ t ∈ turn.tasks, t.isShutdown = false

namespace Goes

variable {k : Control} {task : Task} {turn : Turn}

theorem events (g : Goes k task turn) : ∃ es, turn.control.events = es ++ k.events ∧
    ∀ a, .connected a ∈ es → k.isShutDown = false := by
  obtain ⟨es, he, ht⟩ := g.told
  exact ⟨es, he, fun a ha => ht.connected ha⟩

theorem endings (g : Goes k task turn) :
    turn.control.endings turn.tasks + k.isShutDown.toNat =
      k.endings [task] + turn.control.isShutDown.toNat := by
  obtain ⟨es, he, ht⟩ := g.told
  have hes : es.count .closed = 0 := List.count_eq_zero.mpr ht.not_closed
  have hts : turn.tasks.countP Task.isShutdown = 0 :=
    List.countP_eq_zero.mpr fun t h => by simp [g.after t h]
  have htask : [task].countP Task.isShutdown = 0 := by simp [g.before]
  rw [Control.endings, Control.endings, he, List.count_append, hes, hts, htask, g.live]
  omega

theorem closed (g : Goes k task turn) (h : k.phase = .closed ↔ .closed ∈ k.events) :
    turn.control.phase = .closed ↔ .closed ∈ turn.control.events := by
  obtain ⟨es, he, ht⟩ := g.told
  rw [g.phase, h, he, List.mem_append]
  exact ⟨.inr, fun hc => hc.elim (fun hc => absurd hc ht.not_closed) id⟩

end Goes

end Turn

end ControlChannel
