import ControlChannel.Rehearsal.Future
import ControlChannel.Session
import ControlChannel.Timer
import ControlChannel.Slot

/-!
Scripted reconnection sessions over one slot. Every session has the same script for its attempts
and callbacks, and runs in virtual time. Main content: `Sessions.perform`, which takes one step of
a rehearsal and notes what the sessions do.
-/

namespace ControlChannel.Rehearsal

/-- An attempt of a script. -/
structure ScriptedAttempt (α : Type) where
  /-- Whether the attempt first cancels the slot. -/
  cancelsSlot : Bool := false
  future : Future α

structure SessionScript (α : Type) where
  /-- The last one is repeated. -/
  attempts : List (ScriptedAttempt α)
  /-- The attempt when none is listed. -/
  fallback : ScriptedAttempt α
  /-- What the callback of known failures wants, none without a callback. -/
  known : Option (List Bool) := none
  unknown : Option (List Bool) := none
  /-- How long the success callback takes, if it waits at all. -/
  successTime : Option Nat := none
  /-- Whether there is no success callback. -/
  plainSuccess : Bool := false

/-- What a rehearsal of sessions notes. -/
inductive SessionNote (α : Type) where
  | attempt (runner number : Nat)
  | slotCancelled (runner : Nat) (occupied : Bool)
  | failed (runner : Nat) (failure : Failure) (keep : Bool)
  | success (runner : Nat) (value : α)
  | successDone (runner : Nat)
  | outcome (runner : Nat) (outcome : SessionOutcome)
  | handleCancelled (handle : Handle)

/-- When an attempt ends, if ever, and with what. -/
structure Underway (α : Type) where
  due : Option Nat
  outcome : Except Error α

/-- A session in progress. Its attempt stands at what it comes to, its success at the end of the
callback. -/
structure Runner (α : Type) where
  number : Nat
  handle : Handle
  session : Session (Option (Underway α)) Nat
  /-- How often each part of the script was used. -/
  attempts : Nat := 0
  knownFailures : Nat := 0
  unknownFailures : Nat := 0

structure Sessions (α : Type) where
  clock : Nat := 0
  slot : Slot := {}
  backoff : Backoff
  script : SessionScript α
  runners : List (Runner α) := []
  started : Nat := 0
  /-- The handles that were taken without a session, in order. -/
  kept : List Handle := []
  /-- The handles whose cancellation is awaited. -/
  watched : List Handle := []
  /-- The latest note first. -/
  notes : List (Nat × SessionNote α) := []

inductive SessionStep where
  | start
  | occupy (watch : Bool)
  | resume (kept : Nat)
  | release (kept : Nat)
  | cancel
  | revoke
  | advance (ms : Nat)
  deriving DecidableEq, Repr

inductive SessionStepResult where
  | nothing
  | number (n : Nat)
  | flag (b : Bool)
  deriving DecidableEq, Repr

namespace Sessions

variable {α : Type}

def note (s : Sessions α) (n : SessionNote α) : Sessions α :=
  { s with notes := (s.clock, n) :: s.notes }

def setRunner (s : Sessions α) (r : Runner α) : Sessions α :=
  { s with runners := s.runners.map fun q => if q.number == r.number then r else q }

/-- The session is over and frees the slot. -/
def finish (s : Sessions α) (r : Runner α) (o : SessionOutcome) : Sessions α :=
  { s with
    slot := s.slot.release r.handle
    runners := s.runners.filter (·.number != r.number) }.note (.outcome r.number o)

/-- The session at a new point. -/
def settleAt (s : Sessions α) (r : Runner α) :
    Progress (Session (Option (Underway α)) Nat) SessionOutcome → Sessions α
  | .running session => s.setRunner { r with session }
  | .done o => s.finish r o

/-- Begins the next attempt. -/
def attempt (s : Sessions α) (r : Runner α) : Sessions α :=
  let scripted := (pick s.script.attempts r.attempts).getD s.script.fallback
  let s := s.note (.attempt r.number r.attempts)
  let s := if scripted.cancelsSlot then
      { s with slot := s.slot.cancel }.note (.slotCancelled r.number s.slot.isActive)
    else s
  let underway := scripted.future.outcome.map fun outcome =>
    { due := some (s.clock + scripted.future.delay), outcome : Underway α }
  s.setRunner
    { r with
      attempts := r.attempts + 1
      session := { r.session with stage := .attempting underway } }

/-- The attempt succeeded. -/
def succeed (s : Sessions α) (r : Runner α) (value : α) : Sessions α :=
  if s.script.plainSuccess then s.finish r .reconnected
  else
    let s := s.note (.success r.number value)
    match s.script.successTime with
    | none => s.finish r .reconnected
    | some ms =>
      s.setRunner { r with session := { r.session with stage := .settling (s.clock + ms) } }

/-- What a callback wants after it was called `used` times; without a callback, to go on. -/
def wants (answers : Option (List Bool)) (used : Nat) : Bool :=
  match answers with
  | none => true
  | some list => (pick list used).getD true

/-- The attempt failed. -/
def fail (s : Sessions α) (r : Runner α) (error : Error) : Sessions α :=
  let cancelled := s.slot.isCancelled r.handle
  match Session.failure? r.session.schedule error cancelled with
  | none => s.finish r .cancelled
  | some failure =>
    let (answers, used, r) := match failure.kind with
      | .known => (s.script.known, r.knownFailures, { r with knownFailures := r.knownFailures + 1 })
      | .unknown =>
        (s.script.unknown, r.unknownFailures, { r with unknownFailures := r.unknownFailures + 1 })
    let keep := wants answers used
    let s := if answers.isSome then s.note (.failed r.number failure keep) else s
    s.settleAt r (Session.afterFailure r.session.schedule failure keep s.clock cancelled)

/-- The next turn of a session, if it has one at this instant. -/
def turn? (s : Sessions α) (r : Runner α) : Option (Sessions α) :=
  match r.session.stage with
  | .fresh =>
    some (s.settleAt r (Session.start r.session.schedule s.clock (s.slot.isCancelled r.handle)))
  | .sleeping delay since =>
    if s.slot.isCancelled r.handle then some (s.finish r .cancelled)
    else if Timer.due delay since ≤ s.clock then some (s.attempt r)
    else none
  | .attempting (some underway) =>
    if underway.due.any (· ≤ s.clock) then
      match underway.outcome with
      | .ok value => some (s.succeed r value)
      | .error e => some (s.fail r e)
    else none
  | .attempting none => none
  | .settling due =>
    if due ≤ s.clock then some ((s.note (.successDone r.number)).finish r .reconnected) else none

/-- Notes the watched handles that are cancelled by now. -/
def noteCancelled (s : Sessions α) : Sessions α :=
  let cancelled := s.watched.filter s.slot.isCancelled
  cancelled.foldl (fun s h => s.note (.handleCancelled h))
    { s with watched := s.watched.filter fun h => !s.slot.isCancelled h }

/-- Takes turns until no session has one at this instant, at most `fuel` of them. -/
def settleIn : (fuel : Nat) → Sessions α → Sessions α
  | 0, s => s
  | fuel + 1, s =>
    match s.runners.findSome? s.turn? with
    | some s => settleIn fuel s
    | none => s.noteCancelled

def settle (s : Sessions α) : Sessions α := s.settleIn turnLimit

/-- When a session has something to do, if nothing else happens. -/
def Runner.due? (r : Runner α) : Option Nat :=
  match r.session.stage with
  | .fresh => none
  | .sleeping delay since => some (Timer.due delay since)
  | .attempting underway => underway.bind (·.due)
  | .settling due => some due

def timeline : Timeline (Sessions α) where
  now s := s.clock
  setNow s clock := { s with clock }
  settle := settle
  due? s := (s.runners.filterMap fun r => (Runner.due? r).filter (s.clock < ·)).min?

/-- Starts a session under a handle. -/
def launch (s : Sessions α) (handle : Handle) : SessionStepResult × Sessions α :=
  let runner : Runner α :=
    { number := s.started, handle, session := ⟨s.backoff.schedule, .fresh⟩ }
  (.number s.started, { s with runners := s.runners ++ [runner], started := s.started + 1 })

/-- Takes one step, without what follows from it at this instant. -/
def perform (s : Sessions α) : SessionStep → SessionStepResult × Sessions α
  | .start =>
    match s.slot.tryOccupy with
    | none => (.nothing, s)
    | some (handle, slot) => { s with slot }.launch handle
  | .occupy watch =>
    match s.slot.tryOccupy with
    | none => (.nothing, s)
    | some (handle, slot) =>
      (.number handle.id,
        { s with
          slot
          kept := s.kept ++ [handle]
          watched := if watch then s.watched ++ [handle] else s.watched })
  | .resume kept =>
    match s.kept[kept]? with
    | none => (.nothing, s)
    | some handle => s.launch handle
  | .release kept =>
    match s.kept[kept]? with
    | none => (.nothing, s)
    | some handle => (.flag (s.slot.holds handle), { s with slot := s.slot.release handle })
  | .cancel => (.flag s.slot.isActive, { s with slot := s.slot.cancel })
  | .revoke => (.nothing, { s with slot := s.slot.revoke })
  | .advance ms => (.nothing, timeline.advance (s.clock + ms) s)

end Sessions

end ControlChannel.Rehearsal
