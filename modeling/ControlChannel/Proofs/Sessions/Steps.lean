import ControlChannel.Proofs.Sessions.Turns

/-! # Sessions step by step

Sessions run by small moves in any order: a session has its turn, a step of a rehearsal is taken,
the clock goes on. A callback that cancels the slot is a turn followed by such a step at the same
instant. A prompt run lets no moment pass at which a session could have had its turn. What one move
can be is said once (`Sessions.Step`), and every step of a rehearsal is a run of such moves
(`Sessions.exists_run_perform`). -/

namespace ControlChannel.Rehearsal

variable {α : Type}

namespace Sessions

/-- What can happen next. -/
inductive Move where
  /-- A step of a rehearsal that takes no time. -/
  | act (step : SessionStep)
  /-- The session at this place of the list has its turn. -/
  | turn (place : Nat)
  /-- The watched handles are looked at. -/
  | look
  /-- The clock goes on to this time. -/
  | wait (time : Nat)

/-- No session has anything to do before this time. -/
def awaits (s : Sessions α) (time : Nat) : Bool :=
  s.runners.all fun r => (s.turn? r).isNone && (Runner.due? r).all (time ≤ ·)

def step? (prompt : Bool) (s : Sessions α) : Move → Option (Sessions α)
  | .act (.advance _) => none
  | .act step => some (s.perform step).2
  | .turn place => s.runners[place]?.bind s.turn?
  | .look => some s.noteCancelled
  | .wait time =>
    if s.clock ≤ time ∧ (prompt = true → s.awaits time = true) then some { s with clock := time }
    else none

def run (prompt : Bool) (s : Sessions α) : List Move → Option (Sessions α)
  | [] => some s
  | move :: rest => (s.step? prompt move).bind (·.run prompt rest)

/-- A move at which no session has its turn. -/
structure Aside (s t : Sessions α) : Prop where
  script : t.script = s.script
  backoff : t.backoff = s.backoff
  slot : s.slot.Later t.slot
  trace : ∀ n, t.trace n = s.trace n
  kept : ∀ h ∈ t.kept, h ∈ s.kept ∨ h.id < t.slot.nextId

/-- What one move can be. -/
inductive Step (prompt : Bool) (s t : Sessions α) : Prop where
  | turn {r : Runner α} {said : List (SessionNote α)} {next : Option (Runner α)}
      (mem : r ∈ s.runners) (turn : s.Turn r said next) (turned : s.Turned r said next t)
  | launch (aside : s.Aside t) {handle : Handle}
      (runners : t.runners =
        s.runners ++ [{ number := s.started, handle, session := ⟨s.backoff.schedule, .fresh⟩ }])
      (started : t.started = s.started + 1) (clock : t.clock = s.clock)
      (known : handle ∈ s.kept ∨ handle.id < t.slot.nextId)
  | still (aside : s.Aside t) (runners : t.runners = s.runners) (started : t.started = s.started)
      (clock : t.clock = s.clock ∨
        s.clock ≤ t.clock ∧ (prompt = true → s.awaits t.clock = true))

variable {prompt : Bool} {s t : Sessions α} {move : Move}

/-- A move that notes nothing and keeps no further handle. -/
theorem aside_of (script : t.script = s.script) (backoff : t.backoff = s.backoff)
    (notes : t.notes = s.notes) (kept : t.kept = s.kept) (slot : s.slot.Later t.slot) : s.Aside t :=
  ⟨script, backoff, slot, fun n => by rw [trace, trace, notes], fun _ h => .inl (kept ▸ h)⟩

theorem aside_noteCancelled (s : Sessions α) :
    s.Aside s.noteCancelled ∧ s.noteCancelled.runners = s.runners ∧
      s.noteCancelled.started = s.started ∧ s.noteCancelled.clock = s.clock := by
  unfold noteCancelled
  generalize s.watched.filter s.slot.isCancelled = cancelled
  have hwatched : s.Aside { s with watched := s.watched.filter fun h => !s.slot.isCancelled h } :=
    aside_of rfl rfl rfl rfl s.slot.later_refl
  generalize hw : { s with watched := s.watched.filter fun h => !s.slot.isCancelled h } = w
    at hwatched
  have hfields : w.runners = s.runners ∧ w.started = s.started ∧ w.clock = s.clock := by
    subst hw
    exact ⟨rfl, rfl, rfl⟩
  clear hw
  induction cancelled generalizing w with
  | nil => exact ⟨hwatched, hfields⟩
  | cons h rest ih =>
    refine ih _ ⟨hwatched.script, hwatched.backoff, hwatched.slot, fun n => ?_, hwatched.kept⟩
      hfields
    rw [trace_note, if_neg fun e => (by cases e), List.append_nil]
    exact hwatched.trace n

/-- A move that comes to nothing but a change of the slot. -/
theorem Step.slot {slot : Slot} (later : s.slot.Later slot) : Step prompt s { s with slot } :=
  .still (aside_of rfl rfl rfl rfl later) rfl rfl (.inl rfl)

theorem Step.nothing : Step prompt s s := Step.slot s.slot.later_refl

/-- A handle is kept for later. -/
theorem Step.keep {handle : Handle} {slot : Slot} (h : s.slot.tryOccupy = some (handle, slot))
    (watched : List Handle) :
    Step prompt s { s with slot, kept := s.kept ++ [handle], watched } := by
  refine .still ⟨rfl, rfl, Slot.later_tryOccupy h, fun _ => rfl, fun other hk => ?_⟩ rfl rfl
    (.inl rfl)
  have hk : other ∈ s.kept ++ [handle] := hk
  rcases List.mem_append.mp hk with hk | hk
  · exact .inl hk
  · cases List.mem_singleton.mp hk
    exact .inr (Slot.id_lt_of_tryOccupy h)

/-- A step of a rehearsal that takes no time. -/
theorem perform_cases (step : SessionStep) (instant : ∀ ms, step ≠ .advance ms) :
    Step prompt s (s.perform step).2 := by
  cases step with
  | advance ms => exact absurd rfl (instant ms)
  | start =>
    simp only [perform]
    split
    · exact .nothing
    · rename_i handle slot hoccupied
      exact .launch (aside_of rfl rfl rfl rfl (Slot.later_tryOccupy hoccupied)) rfl rfl rfl
        (.inr (Slot.id_lt_of_tryOccupy hoccupied))
  | occupy watch =>
    simp only [perform]
    split
    · exact .nothing
    · rename_i hoccupied
      exact .keep hoccupied _
  | resume kept =>
    simp only [perform]
    split
    · exact .nothing
    · rename_i hkept
      exact .launch (aside_of rfl rfl rfl rfl s.slot.later_refl) rfl rfl rfl
        (.inl (List.mem_of_getElem? hkept))
  | release kept =>
    simp only [perform]
    split
    · exact .nothing
    · exact .slot (s.slot.later_release _)
  | cancel => exact .slot s.slot.later_cancel
  | revoke => exact .slot s.slot.later_revoke

/-- One move. -/
theorem step_cases (h : s.step? prompt move = some t) : Step prompt s t := by
  cases move with
  | turn place =>
    obtain ⟨r, hr, hturn⟩ := Option.bind_eq_some_iff.mp h
    have hmem : r ∈ s.runners := List.mem_of_getElem? hr
    obtain ⟨said, next, hcase, hturned⟩ := turn_cases hmem hturn
    exact .turn hmem hcase hturned
  | look =>
    cases h
    obtain ⟨haside, hrunners, hstarted, hclock⟩ := s.aside_noteCancelled
    exact .still haside hrunners hstarted (.inl hclock)
  | wait time =>
    simp only [step?] at h
    split at h
    · rename_i hwait
      cases h
      exact .still (aside_of rfl rfl rfl rfl s.slot.later_refl) rfl rfl (.inr hwait)
    · cases h
  | act step =>
    cases step with
    | advance ms => cases h
    | start | occupy | resume | release | cancel | revoke =>
      cases h
      exact perform_cases _ fun ms e => by cases e

/-- What every move keeps, every run keeps. -/
theorem run_induction {P : Sessions α → Prop} (step : ∀ {s t}, Step prompt s t → P s → P t)
    {moves : List Move} (h : s.run prompt moves = some t) (hs : P s) : P t := by
  induction moves generalizing s with
  | nil => cases h; exact hs
  | cons move rest ih =>
    obtain ⟨m, hm, h⟩ := Option.bind_eq_some_iff.mp h
    exact ih h (step (step_cases hm) hs)

theorem run_append (s : Sessions α) (moves rest : List Move) :
    s.run prompt (moves ++ rest) = (s.run prompt moves).bind (·.run prompt rest) := by
  induction moves generalizing s with
  | nil => rfl
  | cons move moves ih =>
    rw [List.cons_append, run, run, Option.bind_assoc]
    exact congrArg _ (funext ih)

/-! ## Rehearsals -/

theorem exists_run_settleIn (fuel : Nat) (s : Sessions α) :
    ∃ moves, s.run false moves = some (settleIn fuel s) := by
  induction fuel generalizing s with
  | zero => exact ⟨[], rfl⟩
  | succ fuel ih =>
    unfold settleIn
    split
    · rename_i t hturn
      obtain ⟨before, r, after, hsplit, hr, _⟩ := List.findSome?_eq_some_iff.mp hturn
      obtain ⟨moves, hmoves⟩ := ih t
      refine ⟨.turn before.length :: moves, ?_⟩
      have hplace : s.runners[before.length]? = some r := by rw [hsplit]; simp
      have hstep : s.step? false (.turn before.length) = some t := by rw [step?, hplace]; exact hr
      rw [run, hstep]
      exact hmoves
    · exact ⟨[.look], rfl⟩

theorem clock_settleIn (fuel : Nat) (s : Sessions α) : (settleIn fuel s).clock = s.clock := by
  induction fuel generalizing s with
  | zero => rfl
  | succ fuel ih =>
    unfold settleIn
    split
    · rename_i t hturn
      obtain ⟨r, hmem, hr⟩ := List.exists_of_findSome?_eq_some hturn
      obtain ⟨_, _, _, hturned⟩ := turn_cases hmem hr
      rw [ih, hturned.clock]
    · exact s.aside_noteCancelled.2.2.2

/-- Runs that follow one another. -/
theorem exists_run_trans {u : Sessions α} (first : ∃ moves, s.run prompt moves = some t)
    (second : ∃ moves, t.run prompt moves = some u) : ∃ moves, s.run prompt moves = some u := by
  obtain ⟨moves, hmoves⟩ := first
  obtain ⟨rest, hrest⟩ := second
  exact ⟨moves ++ rest, by rw [run_append, hmoves]; exact hrest⟩

theorem exists_run_wait {time : Nat} (h : s.clock ≤ time) :
    ∃ moves, s.run false moves = some { s with clock := time } := by
  have hstep : s.step? false (.wait time) = some { s with clock := time } :=
    if_pos ⟨h, fun e => by cases e⟩
  exact ⟨[.wait time], by rw [run, hstep]; rfl⟩

theorem exists_run_advanceFrom (target now : Nat) (s : Sessions α) (hnow : s.clock ≤ now)
    (htarget : now ≤ target) :
    ∃ moves, s.run false moves = some (timeline.advanceFrom target now s) := by
  fun_induction Timeline.advanceFrom timeline target now s with
  | case1 now s w hstops => cases hstops
  | case2 now s w hstops time hdue hwithin ih =>
    have hclock : w.clock = now := clock_settleIn _ _
    have hsettled := exists_run_trans (exists_run_wait hnow) (exists_run_settleIn turnLimit _)
    exact exists_run_trans hsettled (ih (hclock ▸ Nat.le_of_lt hwithin.1) (Nat.le_of_lt hwithin.2))
  | case3 now s w hstops | case4 now s w hstops =>
    have hclock : w.clock = now := clock_settleIn _ _
    have hsettled := exists_run_trans (exists_run_wait hnow) (exists_run_settleIn turnLimit _)
    exact exists_run_trans hsettled (exists_run_wait (Nat.le_trans (Nat.le_of_eq hclock) htarget))

/-- Every step of a rehearsal is a run. -/
theorem exists_run_perform (s : Sessions α) (step : SessionStep) :
    ∃ moves, s.run false moves = some (s.perform step).2 := by
  cases step with
  | advance ms => exact exists_run_advanceFrom _ _ s (Nat.le_refl _) (Nat.le_add_right _ _)
  | start => exact ⟨[.act .start], rfl⟩
  | occupy watch => exact ⟨[.act (.occupy watch)], rfl⟩
  | resume kept => exact ⟨[.act (.resume kept)], rfl⟩
  | release kept => exact ⟨[.act (.release kept)], rfl⟩
  | cancel => exact ⟨[.act .cancel], rfl⟩
  | revoke => exact ⟨[.act .revoke], rfl⟩

end Sessions

end ControlChannel.Rehearsal
