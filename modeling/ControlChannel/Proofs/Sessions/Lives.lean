import ControlChannel.Proofs.Sessions.Steps

/-! # What a session has done

What a session has done so far is its life: the attempts that failed and were reported, one after
the other, and how it stands (`Life`). A life is valid when every attempt began after a sleep of
the delay that is its turn, a sleep that began when the attempt before it failed, and when every
failure was reported with the delay that is slept next (`Life.Valid`). Main statement: every turn
of a session goes on with a valid life and notes what it adds (`Life.grows_of_turn`). -/

namespace ControlChannel

namespace Rehearsal

variable {α : Type}

/-- An attempt that failed and was reported. -/
structure Trial where
  begun : Nat
  ended : Nat
  failure : Failure
  /-- Whether the callback wants to go on. -/
  keep : Bool

/-- How a session has ended. -/
inductive Ending (α : Type) where
  | reconnected (begun ended : Nat) (value : α) (time : Nat)
  | abandoned (time : Nat)
  /-- In a sleep, or after an attempt that began then and failed. -/
  | cancelled (tried : Option Nat) (time : Nat)

/-- How a session stands after the attempts that were reported. -/
inductive Standing (α : Type) where
  | fresh
  | asleep
  | trying (begun : Nat)
  /-- An attempt has succeeded, and the success callback takes its time. -/
  | cheering (begun ended : Nat) (value : α)
  | finished (ending : Ending α)

/-- What a session has done. -/
structure Life (α : Type) where
  /-- When the first sleep began. -/
  start : Nat
  trials : List Trial
  standing : Standing α

/-- When the sleep began that follows these attempts. -/
def asleepSince (start : Nat) (trials : List Trial) : Nat :=
  (trials.getLast?.map (·.ended)).getD start

namespace SessionScript

/-- Whether the success callback takes its time. -/
def waits (script : SessionScript α) : Bool :=
  !script.plainSuccess && script.successTime.isSome

/-- How long the success callback takes. -/
def cheer (script : SessionScript α) : Nat :=
  if script.waits then script.successTime.getD 0 else 0

end SessionScript

/-! ## Valid lives -/

/-- An attempt began when this sleep was over, and if nobody is late at that very moment. -/
structure Slept (prompt : Bool) (delay : Duration) (since begun : Nat) : Prop where
  whole : Timer.due delay since ≤ begun
  prompt : prompt = true → begun = Timer.due delay since

section
variable (script : SessionScript α) (schedule : Schedule) (prompt : Bool)

/-- The attempt with this number began after its sleep, and had come to this when it ended. -/
structure Attempted (k since begun ended : Nat) (outcome : Except Error α) : Prop where
  slept : Slept prompt (schedule.delay k) since begun
  outcome : (script.nth k).future.outcome = some outcome
  lasted : begun + (script.nth k).future.delay ≤ ended
  prompt : prompt = true → ended = begun + (script.nth k).future.delay

/-- Attempts that failed and were reported, each with the next delay and to the callback for such
errors, which answers in the order of its calls. -/
inductive Follows (start : Nat) : List Trial → Prop where
  | nil : Follows start []
  | snoc {before : List Trial} {x : Trial} (earlier : Follows start before)
      (kept : ∀ y ∈ before, y.keep = true)
      (attempted : Attempted script schedule prompt before.length (asleepSince start before)
        x.begun x.ended (.error x.failure.error))
      (delay : x.failure.delay = schedule.delay (before.length + 1))
      (answer : x.keep = Sessions.wants (script.callback x.failure) (before.countP fun y =>
        y.failure.error.isConnectionFault = x.failure.error.isConnectionFault)) :
      Follows start (before ++ [x])

/-- How a session can stand after these attempts. -/
inductive Standing.Valid (start : Nat) (trials : List Trial) : Standing α → Prop where
  | fresh (first : trials = []) : Valid start trials .fresh
  | asleep (kept : ∀ x ∈ trials, x.keep = true) : Valid start trials .asleep
  | trying {begun : Nat} (kept : ∀ x ∈ trials, x.keep = true)
      (slept : Slept prompt (schedule.delay trials.length) (asleepSince start trials) begun) :
      Valid start trials (.trying begun)
  | cheering {begun ended : Nat} {value : α} (kept : ∀ x ∈ trials, x.keep = true)
      (attempted : Attempted script schedule prompt trials.length (asleepSince start trials)
        begun ended (.ok value))
      (waits : script.waits = true) : Valid start trials (.cheering begun ended value)
  | reconnected {begun ended time : Nat} {value : α} (kept : ∀ x ∈ trials, x.keep = true)
      (attempted : Attempted script schedule prompt trials.length (asleepSince start trials)
        begun ended (.ok value))
      (elapsed : ended + script.cheer ≤ time)
      (prompt : prompt = true ∨ script.waits = false → time = ended + script.cheer) :
      Valid start trials (.finished (.reconnected begun ended value time))
  | abandoned {before : List Trial} {x : Trial} (last : trials = before ++ [x])
      (given : x.keep = false) : Valid start trials (.finished (.abandoned x.ended))
  | cancelledAsleep {time : Nat} (kept : ∀ x ∈ trials, x.keep = true) :
      Valid start trials (.finished (.cancelled none time))
  | cancelledTrying {begun time : Nat} {error : Error} (kept : ∀ x ∈ trials, x.keep = true)
      (attempted : Attempted script schedule prompt trials.length (asleepSince start trials)
        begun time (.error error)) :
      Valid start trials (.finished (.cancelled (some begun) time))

structure Life.Valid (l : Life α) : Prop where
  follows : Follows script schedule prompt l.start l.trials
  standing : l.standing.Valid script schedule prompt l.start l.trials

end

/-! ## What is noted -/

section
variable (script : SessionScript α) (n : Nat)

/-- The notes of the attempts that were reported. -/
def trialNotes (trials : List Trial) : List (Nat × SessionNote α) :=
  trials.zipIdx.flatMap fun (x, k) =>
    (x.begun, .attempt n k) :: (script.heard n x.failure x.keep).map (x.ended, ·)

/-- The notes of what follows `k` attempts that were reported. -/
def Standing.notes (k : Nat) : Standing α → List (Nat × SessionNote α)
  | .fresh | .asleep => []
  | .trying begun => [(begun, .attempt n k)]
  | .cheering begun ended value =>
    (begun, .attempt n k) :: (script.cheered n value).map (ended, ·)
  | .finished (.reconnected begun ended value time) =>
    (begun, .attempt n k) :: (script.cheered n value).map (ended, ·) ++
      (if script.waits then [(time, .successDone n)] else []) ++ [(time, .outcome n .reconnected)]
  | .finished (.abandoned time) => [(time, .outcome n .abandoned)]
  | .finished (.cancelled tried time) =>
    (tried.map fun begun => (begun, SessionNote.attempt n k)).toList ++
      [(time, .outcome n .cancelled)]

/-- The notes of a session with this number that has lived so. -/
def Life.notes (l : Life α) : List (Nat × SessionNote α) :=
  trialNotes script n l.trials ++ l.standing.notes script n l.trials.length

theorem trialNotes_snoc (trials : List Trial) (x : Trial) :
    trialNotes script n (trials ++ [x]) = trialNotes script n trials ++
      ((x.begun, .attempt n trials.length) ::
        (script.heard n x.failure x.keep).map (x.ended, ·)) := by
  rw [trialNotes, List.zipIdx_append, List.flatMap_append, ← trialNotes]
  simp

end

namespace Life

def isOver (l : Life α) : Bool :=
  match l.standing with
  | .finished _ => true
  | _ => false

def isCancelled (l : Life α) : Bool :=
  match l.standing with
  | .finished (.cancelled _ _) => true
  | _ => false

/-- Where a session is that has lived so. -/
def session? (script : SessionScript α) (schedule : Schedule) (l : Life α) :
    Option (Session (Option (Underway α)) Nat) :=
  let k := l.trials.length
  match l.standing with
  | .fresh => some ⟨schedule, .fresh⟩
  | .asleep => some ⟨schedule.after (k + 1),
      .sleeping (schedule.delay k) (asleepSince l.start l.trials)⟩
  | .trying begun => some ⟨schedule.after (k + 1), .attempting
      ((script.nth k).future.outcome.map fun outcome =>
        { due := some (begun + (script.nth k).future.delay), outcome })⟩
  | .cheering _ ended _ => some ⟨schedule.after (k + 1), .settling (ended + script.cheer)⟩
  | .finished _ => none

/-- When the session has something to do, if nothing else happens. -/
def due? (script : SessionScript α) (schedule : Schedule) (l : Life α) : Option Nat :=
  let k := l.trials.length
  match l.standing with
  | .asleep => some (Timer.due (schedule.delay k) (asleepSince l.start l.trials))
  | .trying begun => (script.nth k).future.outcome.map fun _ => begun + (script.nth k).future.delay
  | .cheering _ ended _ => some (ended + script.cheer)
  | .fresh | .finished _ => none

theorem isOver_of_due {script : SessionScript α} {schedule : Schedule} (l : Life α) {time : Nat}
    (h : l.due? script schedule = some time) : l.isOver = false := by
  obtain ⟨start, trials, standing⟩ := l
  cases standing with
  | finished => cases h
  | fresh | asleep | trying | cheering => rfl

/-- How many attempts were begun. -/
def attempts (l : Life α) : Nat :=
  match l.standing with
  | .fresh | .asleep | .finished _ => l.trials.length
  | .trying _ | .cheering .. => l.trials.length + 1

/-- A session that has lived so. -/
structure Fits (script : SessionScript α) (schedule : Schedule) (l : Life α) (r : Runner α) :
    Prop where
  session : l.session? script schedule = some r.session
  attempts : r.attempts = l.attempts
  failures : ∀ kind, r.failures kind = l.trials.countP (·.failure.kind = kind)

section
variable {script : SessionScript α} {schedule : Schedule} {l : Life α} {r : Runner α}

/-! A stage of the session tells how it stands. -/

theorem Fits.isOver (h : l.Fits script schedule r) : l.isOver = false := by
  have hs := h.session
  obtain ⟨start, trials, standing⟩ := l
  cases standing with
  | finished => cases hs
  | fresh | asleep | trying | cheering => rfl

theorem Fits.fresh (h : l.Fits script schedule r) (stage : r.session.stage = .fresh) :
    l.standing = .fresh ∧ r.session.schedule = schedule := by
  have hs := h.session
  generalize r.session = session at hs stage ⊢
  obtain ⟨start, trials, standing⟩ := l
  cases standing with
  | fresh => cases hs; exact ⟨rfl, rfl⟩
  | asleep | trying | cheering => cases hs; cases stage
  | finished => cases hs

theorem Fits.sleeping (h : l.Fits script schedule r) {delay : Duration} {since : Nat}
    (stage : r.session.stage = .sleeping delay since) :
    l.standing = .asleep ∧ r.session.schedule = schedule.after (l.trials.length + 1) ∧
      delay = schedule.delay l.trials.length ∧ since = asleepSince l.start l.trials := by
  have hs := h.session
  generalize r.session = session at hs stage ⊢
  obtain ⟨start, trials, standing⟩ := l
  cases standing with
  | asleep => cases hs; cases stage; exact ⟨rfl, rfl, rfl, rfl⟩
  | fresh | trying | cheering => cases hs; cases stage
  | finished => cases hs

theorem Fits.attempting (h : l.Fits script schedule r) {attempt : Underway α}
    (stage : r.session.stage = .attempting (some attempt)) :
    ∃ begun, l.standing = .trying begun ∧
      r.session.schedule = schedule.after (l.trials.length + 1) ∧
      (script.nth l.trials.length).future.outcome = some attempt.outcome ∧
      attempt.due = some (begun + (script.nth l.trials.length).future.delay) := by
  have hs := h.session
  generalize r.session = session at hs stage ⊢
  obtain ⟨start, trials, standing⟩ := l
  cases standing with
  | trying begun =>
    cases hs
    obtain ⟨outcome, houtcome, rfl⟩ := Option.map_eq_some_iff.mp (SessionStage.attempting.inj stage)
    exact ⟨begun, rfl, rfl, houtcome, rfl⟩
  | fresh | asleep | cheering => cases hs; cases stage
  | finished => cases hs

theorem Fits.settling (h : l.Fits script schedule r) {due : Nat}
    (stage : r.session.stage = .settling due) :
    ∃ begun ended value, l.standing = .cheering begun ended value ∧
      due = ended + script.cheer := by
  have hs := h.session
  generalize r.session = session at hs stage ⊢
  obtain ⟨start, trials, standing⟩ := l
  cases standing with
  | cheering begun ended value => cases hs; cases stage; exact ⟨begun, ended, value, rfl, rfl⟩
  | fresh | asleep | trying => cases hs; cases stage
  | finished => cases hs

theorem Fits.due? (h : l.Fits script schedule r) :
    Sessions.Runner.due? r = l.due? script schedule := by
  have hs := h.session
  unfold Sessions.Runner.due?
  generalize r.session = session at hs ⊢
  obtain ⟨start, trials, standing⟩ := l
  cases standing with
  | fresh | asleep | cheering => cases hs; rfl
  | trying begun =>
    cases hs
    rw [Life.due?]
    cases (script.nth trials.length).future.outcome <;> rfl
  | finished => cases hs

/-- A session waits exactly until there is something to do: it goes to sleep at once, and only the
cancellation of a sleep comes before its time. -/
theorem Fits.waits_iff {s : Sessions α} (h : l.Fits s.script schedule r) :
    s.turn? r = none ↔ l.standing ≠ .fresh ∧
      (∀ time, l.due? s.script schedule = some time → s.clock < time) ∧
      (l.standing = .asleep → s.slot.isCancelled r.handle = false) := by
  have hs := h.session
  obtain ⟨start, trials, standing⟩ := l
  obtain ⟨number, handle, session, attempts, known, unknown⟩ := r
  cases standing with
  | fresh =>
    cases hs
    simp [Sessions.turn?]
  | asleep =>
    cases hs
    cases hc : s.slot.isCancelled handle <;> simp [Sessions.turn?, Life.due?, hc]
  | trying begun =>
    cases hs
    cases ho : (s.script.nth trials.length).future.outcome with
    | none => simp [Sessions.turn?, Life.due?, ho]
    | some outcome => cases outcome <;> simp [Sessions.turn?, Life.due?, ho]
  | cheering begun ended value =>
    cases hs
    simp [Sessions.turn?, Life.due?]
  | finished => cases hs

/-- How one turn of a session, with what it notes, goes on with its life. -/
structure Grows (prompt : Bool) (s : Sessions α) (schedule : Schedule) (r : Runner α)
    (said : List (SessionNote α)) (next : Option (Runner α)) (l l' : Life α) : Prop where
  valid : l'.Valid s.script schedule prompt
  notes : l'.notes s.script r.number = l.notes s.script r.number ++ said.map (s.clock, ·)
  goesOn : ∀ q, next = some q → l'.Fits s.script schedule q ∧ q.number = r.number ∧
    q.handle = r.handle
  finished : next = none → l'.isOver = true
  cancelled : l'.isCancelled = true → s.slot.isCancelled r.handle = true
  due : ∀ time, l'.due? s.script schedule = some time → s.clock ≤ time
  begins : l.standing = .fresh → l'.start = s.clock
  began : l.standing ≠ .fresh → l'.start = l.start
  started : l'.standing ≠ .fresh

variable {s : Sessions α} {prompt : Bool} {said : List (SessionNote α)} {next : Option (Runner α)}

theorem Valid.kept (h : l.Valid script schedule prompt) (going : ∀ e, l.standing ≠ .finished e) :
    ∀ x ∈ l.trials, x.keep = true := by
  obtain ⟨start, trials, standing⟩ := l
  cases h.standing with
  | fresh first => intro x hx; cases first; cases hx
  | asleep kept | trying kept | cheering kept => exact kept
  | reconnected | abandoned | cancelledAsleep | cancelledTrying => exact absurd rfl (going _)

theorem asleepSince_snoc (start : Nat) (trials : List Trial) (x : Trial) :
    asleepSince start (trials ++ [x]) = x.ended := by simp [asleepSince]

/-- What is noted up to an attempt that is under way. -/
theorem notes_trying {begun : Nat} (n : Nat) (trying : l.standing = .trying begun) :
    l.notes script n = trialNotes script n l.trials ++ [(begun, .attempt n l.trials.length)] := by
  rw [Life.notes, trying]
  rfl

theorem grows_starts (f : l.Fits s.script schedule r) (v : l.Valid s.script schedule prompt)
    (fresh : r.session.stage = .fresh) :
    ∃ l', l.Grows prompt s schedule r [] (some { r with session :=
      ⟨r.session.schedule.next.2, .sleeping r.session.schedule.next.1 s.clock⟩ }) l' := by
  obtain ⟨start, trials, standing⟩ := l
  obtain ⟨rfl, hschedule⟩ := f.fresh fresh
  have hfirst : trials = [] := by cases v.standing with | fresh first => exact first
  subst hfirst
  refine ⟨⟨s.clock, [], .asleep⟩, ⟨.nil, .asleep (List.forall_mem_nil _)⟩, rfl, ?_, nofun, nofun,
    ?_, fun _ => rfl, fun h => absurd rfl h, nofun⟩
  · rintro q ⟨⟩
    exact ⟨⟨by rw [hschedule]; rfl, f.attempts, f.failures⟩, rfl, rfl⟩
  · rintro time ⟨⟩
    exact Timer.le_due _ _

theorem grows_stops (f : l.Fits s.script schedule r) (v : l.Valid s.script schedule prompt)
    (waits : r.session.stage = .fresh ∨ ∃ delay since, r.session.stage = .sleeping delay since)
    (cancelled : s.slot.isCancelled r.handle = true) :
    ∃ l', l.Grows prompt s schedule r [.outcome r.number .cancelled] none l' := by
  obtain ⟨start, trials, standing⟩ := l
  rcases waits with hfresh | ⟨delay, since, hsleeping⟩
  · obtain ⟨rfl, _⟩ := f.fresh hfresh
    have hfirst : trials = [] := by cases v.standing with | fresh first => exact first
    subst hfirst
    exact ⟨⟨s.clock, [], .finished (.cancelled none s.clock)⟩,
      ⟨.nil, .cancelledAsleep (List.forall_mem_nil _)⟩, rfl, nofun, fun _ => rfl,
      fun _ => cancelled, nofun, fun _ => rfl, fun h => absurd rfl h, nofun⟩
  · obtain ⟨rfl, _⟩ := f.sleeping hsleeping
    refine ⟨⟨start, trials, .finished (.cancelled none s.clock)⟩,
      ⟨v.follows, .cancelledAsleep (v.kept nofun)⟩, ?_, nofun, fun _ => rfl, fun _ => cancelled,
      nofun, nofun, fun _ => rfl, nofun⟩
    simp [Life.notes, Standing.notes]

theorem grows_attempts (f : l.Fits s.script schedule r) (v : l.Valid s.script schedule prompt)
    (prompted : prompt = true → ∀ time, l.due? s.script schedule = some time → s.clock ≤ time)
    {delay : Duration} {since : Nat} (sleeps : r.session.stage = .sleeping delay since)
    (due : Timer.due delay since ≤ s.clock) :
    ∃ l', l.Grows prompt s schedule r [.attempt r.number r.attempts] (some { r with
      attempts := r.attempts + 1
      session := ⟨r.session.schedule, .attempting (s.underway r.attempts)⟩ }) l' := by
  obtain ⟨hstanding, hschedule, rfl, rfl⟩ := f.sleeping sleeps
  have hattempts : r.attempts = l.trials.length := by rw [f.attempts, Life.attempts, hstanding]
  have hkept : ∀ x ∈ l.trials, x.keep = true := v.kept fun e he => by
    rw [hstanding] at he; cases he
  have hdue : l.due? s.script schedule = some
      (Timer.due (schedule.delay l.trials.length) (asleepSince l.start l.trials)) := by
    rw [Life.due?, hstanding]
  refine ⟨⟨l.start, l.trials, .trying s.clock⟩, ⟨v.follows, .trying hkept ⟨due, fun hp => ?_⟩⟩, ?_,
    ?_, nofun, nofun, ?_, ?_, fun _ => rfl, nofun⟩
  · exact Nat.le_antisymm (prompted hp _ hdue) due
  · rw [notes_trying r.number rfl, Life.notes, hstanding, hattempts]
    simp [Standing.notes]
  · rintro q ⟨⟩
    refine ⟨⟨?_, ?_, f.failures⟩, rfl, rfl⟩
    · rw [hschedule, hattempts]
      rfl
    · rw [hattempts]
      rfl
  · intro time htime
    obtain ⟨_, _, rfl⟩ := Option.map_eq_some_iff.mp htime
    exact Nat.le_add_right _ _
  · intro hfresh
    rw [hstanding] at hfresh
    cases hfresh

section
variable {attempt : Underway α} (tries : r.session.stage = .attempting (some attempt))
variable (due : attempt.due.any (· ≤ s.clock) = true)
variable (f : l.Fits s.script schedule r) (v : l.Valid s.script schedule prompt)
variable (prompted : prompt = true → ∀ time, l.due? s.script schedule = some time → s.clock ≤ time)

include tries due f v prompted

/-- The attempt that is under way has come to its end. -/
theorem attempted_of_due : ∃ begun, l.standing = .trying begun ∧
    r.session.schedule = schedule.after (l.trials.length + 1) ∧
    (∀ x ∈ l.trials, x.keep = true) ∧
    Attempted s.script schedule prompt l.trials.length (asleepSince l.start l.trials) begun s.clock
      attempt.outcome := by
  obtain ⟨begun, hstanding, hschedule, hcomes, hdue⟩ := f.attempting tries
  rw [hdue] at due
  have hover : begun + (s.script.nth l.trials.length).future.delay ≤ s.clock :=
    of_decide_eq_true due
  obtain ⟨start, trials, standing⟩ := l
  cases hstanding
  refine ⟨begun, rfl, hschedule, v.kept nofun, ?_, hcomes, hover, fun hp => ?_⟩
  · cases v.standing with
    | trying _ slept => exact slept
  · exact Nat.le_antisymm (prompted hp _ (Option.map_eq_some_iff.mpr ⟨_, hcomes, rfl⟩)) hover

theorem grows_cheers {value : α} {ms : Nat} (succeeds : attempt.outcome = .ok value)
    (waits : s.script.plainSuccess = false ∧ s.script.successTime = some ms) :
    ∃ l', l.Grows prompt s schedule r [.success r.number value] (some { r with session :=
      ⟨r.session.schedule, .settling (s.clock + ms)⟩ }) l' := by
  obtain ⟨begun, hstanding, hschedule, hkept, hattempted⟩ :=
    attempted_of_due tries due f v prompted
  rw [succeeds] at hattempted
  have hwaits : s.script.waits = true := by rw [SessionScript.waits, waits.1, waits.2]; rfl
  have hcheer : s.script.cheer = ms := by rw [SessionScript.cheer, hwaits, waits.2]; rfl
  refine ⟨⟨l.start, l.trials, .cheering begun s.clock value⟩,
    ⟨v.follows, .cheering hkept hattempted hwaits⟩, ?_, ?_, nofun, nofun, ?_, ?_, fun _ => rfl,
    nofun⟩
  · have hcheered : s.script.cheered r.number value = [.success r.number value] := by
      rw [SessionScript.cheered, waits.1]
      rfl
    rw [notes_trying r.number hstanding, Life.notes, Standing.notes, hcheered, List.append_assoc]
    rfl
  · rintro q ⟨⟩
    refine ⟨⟨?_, ?_, f.failures⟩, rfl, rfl⟩
    · rw [hschedule, ← hcheer]
      rfl
    · rw [f.attempts, Life.attempts, hstanding]
      rfl
  · rintro time ⟨⟩
    exact Nat.le_add_right _ _
  · rw [hstanding]
    exact nofun

theorem grows_ends {value : α} (succeeds : attempt.outcome = .ok value)
    (atOnce : s.script.plainSuccess = true ∨ s.script.successTime = none) :
    ∃ l', l.Grows prompt s schedule r
      (s.script.cheered r.number value ++ [.outcome r.number .reconnected]) none l' := by
  obtain ⟨begun, hstanding, _, hkept, hattempted⟩ := attempted_of_due tries due f v prompted
  rw [succeeds] at hattempted
  have hwaits : s.script.waits = false := by
    rw [SessionScript.waits]
    rcases atOnce with h | h <;> simp [h]
  have hcheer : s.clock + s.script.cheer = s.clock := by rw [SessionScript.cheer, hwaits]; rfl
  refine ⟨⟨l.start, l.trials, .finished (.reconnected begun s.clock value s.clock)⟩,
    ⟨v.follows, .reconnected hkept hattempted (Nat.le_of_eq hcheer) fun _ => hcheer.symm⟩, ?_,
    nofun, fun _ => rfl, nofun, nofun, ?_, fun _ => rfl, nofun⟩
  · rw [notes_trying r.number hstanding, Life.notes, Standing.notes, hwaits]
    simp
  · rw [hstanding]
    exact nofun

theorem grows_breaks {error : Error} (fails : attempt.outcome = .error error)
    (cancelled : s.slot.isCancelled r.handle = true) :
    ∃ l', l.Grows prompt s schedule r [.outcome r.number .cancelled] none l' := by
  obtain ⟨begun, hstanding, _, hkept, hattempted⟩ := attempted_of_due tries due f v prompted
  rw [fails] at hattempted
  refine ⟨⟨l.start, l.trials, .finished (.cancelled (some begun) s.clock)⟩,
    ⟨v.follows, .cancelledTrying hkept hattempted⟩, ?_, nofun, fun _ => rfl, fun _ => cancelled,
    nofun, ?_, fun _ => rfl, nofun⟩
  · rw [notes_trying r.number hstanding, Life.notes, Standing.notes]
    simp
  · rw [hstanding]
    exact nofun

/-- A failure that is reported is one more trial. -/
theorem follows_failure {error : Error} (fails : attempt.outcome = .error error) {failure : Failure}
    (reported : failure = ⟨error, r.session.schedule.next.1⟩) {keep : Bool}
    (answer : Sessions.wants (s.script.answers failure.kind) (r.failures failure.kind) = keep) :
    ∃ begun, l.standing = .trying begun ∧
      r.session.schedule = schedule.after (l.trials.length + 1) ∧
      (∀ x ∈ l.trials, x.keep = true) ∧
      Follows s.script schedule prompt l.start (l.trials ++ [⟨begun, s.clock, failure, keep⟩]) := by
  obtain ⟨begun, hstanding, hschedule, hkept, hattempted⟩ :=
    attempted_of_due tries due f v prompted
  rw [fails] at hattempted
  refine ⟨begun, hstanding, hschedule, hkept, .snoc v.follows hkept ?_ ?_ ?_⟩
  · rw [reported]
    exact hattempted
  · rw [reported, hschedule]
    rfl
  · rw [← answer, f.failures, s.script.answers_kind]
    simp only [Failure.kind_eq_iff]

theorem grows_retries {error : Error} (fails : attempt.outcome = .error error) {failure : Failure}
    (reported : failure = ⟨error, r.session.schedule.next.1⟩)
    (keep : Sessions.wants (s.script.answers failure.kind) (r.failures failure.kind) = true) :
    ∃ l', l.Grows prompt s schedule r (s.script.heard r.number failure true)
      (some { r.count failure.kind with session :=
        ⟨r.session.schedule.next.2, .sleeping failure.delay s.clock⟩ }) l' := by
  obtain ⟨begun, hstanding, hschedule, hkept, hfollows⟩ :=
    follows_failure tries due f v prompted fails reported keep
  have hall : ∀ x ∈ l.trials ++ [⟨begun, s.clock, failure, true⟩], x.keep = true :=
    List.forall_mem_append.mpr ⟨hkept, List.forall_mem_singleton.mpr rfl⟩
  refine ⟨⟨l.start, l.trials ++ [⟨begun, s.clock, failure, true⟩], .asleep⟩,
    ⟨hfollows, .asleep hall⟩, ?_, ?_, nofun, nofun, ?_, ?_, fun _ => rfl, nofun⟩
  · rw [notes_trying r.number hstanding, Life.notes, Standing.notes, trialNotes_snoc]
    simp
  · rintro q ⟨⟩
    refine ⟨⟨?_, ?_, fun kind => ?_⟩, r.number_count _, r.handle_count _⟩
    · rw [Life.session?, hschedule, reported, hschedule]
      simp only [asleepSince_snoc, List.length_append, List.length_singleton]
      rfl
    · show (r.count failure.kind).attempts = (l.trials ++ [_]).length
      rw [r.attempts_count, f.attempts, Life.attempts, hstanding, List.length_append]
      rfl
    · show (r.count failure.kind).failures kind = (l.trials ++ [_]).countP _
      rw [r.failures_count, f.failures, List.countP_append, List.countP_singleton]
      simp
  · rintro time ⟨⟩
    simp only [asleepSince_snoc]
    exact Timer.le_due _ _
  · rw [hstanding]
    exact nofun

theorem grows_abandons {error : Error} (fails : attempt.outcome = .error error) {failure : Failure}
    (reported : failure = ⟨error, r.session.schedule.next.1⟩)
    (keep : Sessions.wants (s.script.answers failure.kind) (r.failures failure.kind) = false) :
    ∃ l', l.Grows prompt s schedule r
      (s.script.heard r.number failure false ++ [.outcome r.number .abandoned]) none l' := by
  obtain ⟨begun, hstanding, _, _, hfollows⟩ :=
    follows_failure tries due f v prompted fails reported keep
  refine ⟨⟨l.start, l.trials ++ [⟨begun, s.clock, failure, false⟩], .finished (.abandoned s.clock)⟩,
    ⟨hfollows, .abandoned rfl rfl⟩, ?_, nofun, fun _ => rfl, nofun, nofun, ?_, fun _ => rfl, nofun⟩
  · rw [notes_trying r.number hstanding, Life.notes, Standing.notes, trialNotes_snoc]
    simp
  · rw [hstanding]
    exact nofun

end

theorem grows_settles (f : l.Fits s.script schedule r) (v : l.Valid s.script schedule prompt)
    (prompted : prompt = true → ∀ time, l.due? s.script schedule = some time → s.clock ≤ time)
    {due : Nat} (cheers : r.session.stage = .settling due) (elapsed : due ≤ s.clock) :
    ∃ l', l.Grows prompt s schedule r
      [.successDone r.number, .outcome r.number .reconnected] none l' := by
  obtain ⟨begun, ended, value, hstanding, rfl⟩ := f.settling cheers
  obtain ⟨start, trials, standing⟩ := l
  cases hstanding
  cases v.standing with
  | cheering kept attempted waits =>
    refine ⟨⟨start, trials, .finished (.reconnected begun ended value s.clock)⟩,
      ⟨v.follows, .reconnected kept attempted elapsed fun h => ?_⟩, ?_, nofun, fun _ => rfl, nofun,
      nofun, nofun, fun _ => rfl, nofun⟩
    · rcases h with hp | hwaits
      · exact Nat.le_antisymm (prompted hp _ rfl) elapsed
      · rw [waits] at hwaits
        cases hwaits
    · rw [Life.notes, Life.notes, Standing.notes, Standing.notes, waits]
      simp

/-- Every turn goes on with the life of the session. -/
theorem grows_of_turn (f : l.Fits s.script schedule r) (v : l.Valid s.script schedule prompt)
    (prompted : prompt = true → ∀ time, l.due? s.script schedule = some time → s.clock ≤ time)
    (turn : s.Turn r said next) : ∃ l', l.Grows prompt s schedule r said next l' := by
  cases turn with
  | starts fresh _ => exact grows_starts f v fresh
  | stops waits cancelled => exact grows_stops f v waits cancelled
  | attempts sleeps _ due => exact grows_attempts f v prompted sleeps due
  | cheers tries due succeeds waits => exact grows_cheers tries due f v prompted succeeds waits
  | ends tries due succeeds atOnce => exact grows_ends tries due f v prompted succeeds atOnce
  | breaks tries due fails cancelled => exact grows_breaks tries due f v prompted fails cancelled
  | retries tries due fails _ reported keep =>
    exact grows_retries tries due f v prompted fails reported keep
  | abandons tries due fails _ reported keep =>
    exact grows_abandons tries due f v prompted fails reported keep
  | settles cheers elapsed => exact grows_settles f v prompted cheers elapsed

end

end Life

end Rehearsal

end ControlChannel
