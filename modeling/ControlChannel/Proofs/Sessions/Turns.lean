import ControlChannel.Proofs.Control.Turns
import ControlChannel.Rehearsal.Sessions

/-! # What one turn of a session does

Sessions take turns over one slot, the clock goes on between turns and the slot may be cancelled at
any moment (`Sessions.step?`). What one turn of a session can be is said once (`Sessions.Turn`):
what it notes and how it leaves the session. The rest of the state stays as it is, but for the
slot, where whoever is cancelled stays cancelled and whoever has left does not come back
(`Sessions.Turned`, `Slot.Later`). -/

namespace ControlChannel

namespace Slot

/-- What becomes of a slot: whoever is cancelled stays so, and a handle that was given out and does
not occupy the slot never does again. -/
structure Later (s t : Slot) : Prop where
  nextId : s.nextId ≤ t.nextId
  cancelled : ∀ h, s.isCancelled h = true → t.isCancelled h = true
  vacated : ∀ h : Handle, h.id < s.nextId → s.holds h = false → t.holds h = false

variable {s t u : Slot}

theorem later_refl (s : Slot) : s.Later s := ⟨Nat.le_refl _, fun _ h => h, fun _ _ h => h⟩

theorem Later.trans (h : s.Later t) (h' : t.Later u) : s.Later u where
  nextId := Nat.le_trans h.nextId h'.nextId
  cancelled handle hc := h'.cancelled handle (h.cancelled handle hc)
  vacated handle hid hv :=
    h'.vacated handle (Nat.lt_of_lt_of_le hid h.nextId) (h.vacated handle hid hv)

theorem holds_eq_false {s : Slot} {h : Handle} : s.holds h = false ↔ s.holder ≠ some h := by
  simp [holds]

theorem later_tryOccupy {handle : Handle} (h : s.tryOccupy = some (handle, t)) : s.Later t := by
  obtain ⟨_, _, rfl, rfl⟩ := tryOccupy_eq h
  refine ⟨Nat.le_succ _, fun _ hc => hc, fun other hid _ => ?_⟩
  rw [holds_eq_false]
  rintro ⟨⟩
  exact Nat.lt_irrefl _ hid

/-- A handle that was given out is known from then on. -/
theorem id_lt_of_tryOccupy {handle : Handle} (h : s.tryOccupy = some (handle, t)) :
    handle.id < t.nextId := by
  obtain ⟨_, _, rfl, rfl⟩ := tryOccupy_eq h
  exact Nat.lt_succ_self _

theorem later_release (s : Slot) (h : Handle) : s.Later (s.release h) := by
  unfold release
  split
  · exact ⟨Nat.le_refl _, fun _ hc => hc, fun _ _ _ => rfl⟩
  · exact s.later_refl

theorem later_cancel (s : Slot) : s.Later s.cancel := by
  unfold cancel
  split
  · refine ⟨Nat.le_refl _, fun other hc => ?_, fun _ _ _ => rfl⟩
    simp only [isCancelled, Bool.or_eq_true, List.contains_cons] at hc ⊢
    exact hc.imp_right fun h => .inr h
  · exact s.later_refl

theorem later_revoke (s : Slot) : s.Later s.revoke :=
  ⟨Nat.le_refl _, fun _ _ => Bool.true_or _, fun _ _ h => h⟩

theorem holds_release (s : Slot) (h : Handle) : (s.release h).holds h = false := by
  rw [holds_eq_false, holder_release]
  split
  · exact fun e => by cases e
  · rename_i hh
    exact holds_eq_false.mp (Bool.eq_false_iff.mpr hh)

end Slot

theorem Failure.kind_eq_iff {f g : Failure} :
    f.kind = g.kind ↔ f.error.isConnectionFault = g.error.isConnectionFault := by
  unfold kind
  cases f.error.isConnectionFault <;> cases g.error.isConnectionFault <;> decide

namespace Rehearsal

variable {α : Type}

/-- Which session a note is about, if it tells how the session goes. -/
def SessionNote.runner? : SessionNote α → Option Nat
  | .attempt n _ | .failed n _ _ | .success n _ | .successDone n | .outcome n _ => some n
  | .slotCancelled _ _ | .handleCancelled _ => none

namespace SessionScript

/-- The attempt with this number. -/
def nth (script : SessionScript α) (k : Nat) : ScriptedAttempt α :=
  (pick script.attempts k).getD script.fallback

/-- The answers of the callback for such failures, none without a callback. -/
def answers (script : SessionScript α) : FailureKind → Option (List Bool)
  | .known => script.known
  | .unknown => script.unknown

/-- The answers of the callback that hears of this failure: one for connection faults, another for
all other errors. -/
def callback (script : SessionScript α) (failure : Failure) : Option (List Bool) :=
  if failure.error.isConnectionFault then script.known else script.unknown

theorem answers_kind (script : SessionScript α) (failure : Failure) :
    script.answers failure.kind = script.callback failure := by
  unfold callback Failure.kind
  split <;> rfl

/-- What is noted of a reported failure: the call of the callback, if there is one. -/
def heard (script : SessionScript α) (n : Nat) (failure : Failure) (keep : Bool) :
    List (SessionNote α) :=
  if (script.callback failure).isSome then [.failed n failure keep] else []

/-- What is noted of a success: the call of the callback, if there is one. -/
def cheered (script : SessionScript α) (n : Nat) (value : α) : List (SessionNote α) :=
  if script.plainSuccess then [] else [.success n value]

end SessionScript

namespace Runner

/-- How many failures of a kind were reported. -/
def failures (r : Runner α) : FailureKind → Nat
  | .known => r.knownFailures
  | .unknown => r.unknownFailures

/-- One more failure of a kind is reported. -/
def count (r : Runner α) : FailureKind → Runner α
  | .known => { r with knownFailures := r.knownFailures + 1 }
  | .unknown => { r with unknownFailures := r.unknownFailures + 1 }

theorem number_count (r : Runner α) (kind : FailureKind) : (r.count kind).number = r.number := by
  cases kind <;> rfl

theorem handle_count (r : Runner α) (kind : FailureKind) : (r.count kind).handle = r.handle := by
  cases kind <;> rfl

theorem attempts_count (r : Runner α) (kind : FailureKind) :
    (r.count kind).attempts = r.attempts := by
  cases kind <;> rfl

theorem failures_count (r : Runner α) (kind other : FailureKind) :
    (r.count kind).failures other = r.failures other + if kind = other then 1 else 0 := by
  cases kind <;> cases other <;> rfl

end Runner

namespace Sessions

/-- What the session with this number has done so far, and when. -/
def trace (s : Sessions α) (n : Nat) : List (Nat × SessionNote α) :=
  s.notes.reverse.filter fun x => x.2.runner? = some n

/-- The attempt with this number when it begins now. -/
def underway (s : Sessions α) (k : Nat) : Option (Underway α) :=
  (s.script.nth k).future.outcome.map fun outcome =>
    { due := some (s.clock + (s.script.nth k).future.delay), outcome }

/-! ## One turn -/

/-- What one turn of a session can be: what is noted, and how the session goes on, if it does. -/
inductive Turn (s : Sessions α) (r : Runner α) :
    List (SessionNote α) → Option (Runner α) → Prop where
  | starts (fresh : r.session.stage = .fresh) (live : s.slot.isCancelled r.handle = false) :
      Turn s r [] (some { r with session :=
        ⟨r.session.schedule.next.2, .sleeping r.session.schedule.next.1 s.clock⟩ })
  | stops
      (waits : r.session.stage = .fresh ∨ ∃ delay since, r.session.stage = .sleeping delay since)
      (cancelled : s.slot.isCancelled r.handle = true) :
      Turn s r [.outcome r.number .cancelled] none
  | attempts {delay : Duration} {since : Nat} (sleeps : r.session.stage = .sleeping delay since)
      (live : s.slot.isCancelled r.handle = false) (due : Timer.due delay since ≤ s.clock) :
      Turn s r [.attempt r.number r.attempts] (some { r with
        attempts := r.attempts + 1
        session := ⟨r.session.schedule, .attempting (s.underway r.attempts)⟩ })
  | cheers {attempt : Underway α} {value : α} {ms : Nat}
      (tries : r.session.stage = .attempting (some attempt))
      (due : attempt.due.any (· ≤ s.clock) = true) (succeeds : attempt.outcome = .ok value)
      (waits : s.script.plainSuccess = false ∧ s.script.successTime = some ms) :
      Turn s r [.success r.number value] (some { r with session :=
        ⟨r.session.schedule, .settling (s.clock + ms)⟩ })
  | ends {attempt : Underway α} {value : α}
      (tries : r.session.stage = .attempting (some attempt))
      (due : attempt.due.any (· ≤ s.clock) = true) (succeeds : attempt.outcome = .ok value)
      (atOnce : s.script.plainSuccess = true ∨ s.script.successTime = none) :
      Turn s r (s.script.cheered r.number value ++ [.outcome r.number .reconnected]) none
  | breaks {attempt : Underway α} {error : Error}
      (tries : r.session.stage = .attempting (some attempt))
      (due : attempt.due.any (· ≤ s.clock) = true) (fails : attempt.outcome = .error error)
      (cancelled : s.slot.isCancelled r.handle = true) :
      Turn s r [.outcome r.number .cancelled] none
  | retries {attempt : Underway α} {error : Error} {failure : Failure}
      (tries : r.session.stage = .attempting (some attempt))
      (due : attempt.due.any (· ≤ s.clock) = true) (fails : attempt.outcome = .error error)
      (live : s.slot.isCancelled r.handle = false)
      (reported : failure = ⟨error, r.session.schedule.next.1⟩)
      (keep : wants (s.script.answers failure.kind) (r.failures failure.kind) = true) :
      Turn s r (s.script.heard r.number failure true) (some { r.count failure.kind with session :=
        ⟨r.session.schedule.next.2, .sleeping failure.delay s.clock⟩ })
  | abandons {attempt : Underway α} {error : Error} {failure : Failure}
      (tries : r.session.stage = .attempting (some attempt))
      (due : attempt.due.any (· ≤ s.clock) = true) (fails : attempt.outcome = .error error)
      (live : s.slot.isCancelled r.handle = false)
      (reported : failure = ⟨error, r.session.schedule.next.1⟩)
      (keep : wants (s.script.answers failure.kind) (r.failures failure.kind) = false) :
      Turn s r (s.script.heard r.number failure false ++ [.outcome r.number .abandoned]) none
  | settles {due : Nat} (cheers : r.session.stage = .settling due) (elapsed : due ≤ s.clock) :
      Turn s r [.successDone r.number, .outcome r.number .reconnected] none

/-- What is noted while a session has its turn, before it goes on or ends. -/
structure Says (s : Sessions α) (r : Runner α) (said : List (SessionNote α)) (t : Sessions α) :
    Prop where
  clock : t.clock = s.clock
  script : t.script = s.script
  backoff : t.backoff = s.backoff
  started : t.started = s.started
  kept : t.kept = s.kept
  runners : t.runners = s.runners
  slot : s.slot.Later t.slot
  own : t.trace r.number = s.trace r.number ++ said.map (s.clock, ·)
  others : ∀ n ≠ r.number, t.trace n = s.trace n

/-- How a turn leaves the sessions. -/
structure Turned (s : Sessions α) (r : Runner α) (said : List (SessionNote α))
    (next : Option (Runner α)) (t : Sessions α) : Prop where
  clock : t.clock = s.clock
  script : t.script = s.script
  backoff : t.backoff = s.backoff
  started : t.started = s.started
  kept : t.kept = s.kept
  slot : s.slot.Later t.slot
  own : t.trace r.number = s.trace r.number ++ said.map (s.clock, ·)
  others : ∀ n ≠ r.number, t.trace n = s.trace n
  mem_iff : ∀ q, q ∈ t.runners ↔ (q ∈ s.runners ∧ q.number ≠ r.number) ∨ next = some q
  leaves : next = none → t.slot.holds r.handle = false

variable {s t u : Sessions α} {r q : Runner α} {said : List (SessionNote α)}

theorem trace_note (s : Sessions α) (note : SessionNote α) (n : Nat) :
    (s.note note).trace n =
      s.trace n ++ if note.runner? = some n then [(s.clock, note)] else [] := by
  rw [trace, Sessions.note, List.reverse_cons, List.filter_append, ← trace]
  congr 1
  by_cases h : note.runner? = some n <;> simp [h]

theorem says_nothing (s : Sessions α) (r : Runner α) : s.Says r [] s where
  clock := rfl
  script := rfl
  backoff := rfl
  started := rfl
  kept := rfl
  runners := rfl
  slot := s.slot.later_refl
  own := (List.append_nil _).symm
  others _ _ := rfl

theorem Says.note (h : s.Says r said t) {note : SessionNote α}
    (own : note.runner? = some r.number) :
    s.Says r (said ++ [note]) (t.note note) where
  clock := h.clock
  script := h.script
  backoff := h.backoff
  started := h.started
  kept := h.kept
  runners := h.runners
  slot := h.slot
  own := by
    rw [trace_note, if_pos own, h.own, h.clock, List.map_append, List.append_assoc]
    rfl
  others n hn := by
    rw [trace_note, if_neg fun e => hn (Option.some.inj (e.symm.trans own)), h.others n hn,
      List.append_nil]

/-- The slot is cancelled during an attempt. -/
theorem Says.cancelSlot (h : s.Says r said t) (occupied : Bool) :
    s.Says r said ({ t with slot := t.slot.cancel }.note (.slotCancelled r.number occupied)) where
  clock := h.clock
  script := h.script
  backoff := h.backoff
  started := h.started
  kept := h.kept
  runners := h.runners
  slot := h.slot.trans t.slot.later_cancel
  own := by
    rw [trace_note, if_neg fun e => (by cases e), List.append_nil]
    exact h.own
  others n hn := by
    rw [trace_note, if_neg fun e => (by cases e), List.append_nil]
    exact h.others n hn

theorem Says.goesOn (h : s.Says r said t) (mem : r ∈ s.runners) (same : q.number = r.number) :
    s.Turned r said (some q) (t.setRunner q) where
  clock := h.clock
  script := h.script
  backoff := h.backoff
  started := h.started
  kept := h.kept
  slot := h.slot
  own := h.own
  others := h.others
  mem_iff p := by
    show p ∈ t.runners.map _ ↔ _
    rw [h.runners, List.mem_map]
    constructor
    · rintro ⟨p', hp', rfl⟩
      by_cases hnumber : p'.number = q.number
      · rw [if_pos (beq_iff_eq.mpr hnumber)]
        exact .inr rfl
      · rw [if_neg (by simpa using hnumber)]
        exact .inl ⟨hp', same ▸ hnumber⟩
    · rintro (⟨hp, hnumber⟩ | he)
      · exact ⟨p, hp, if_neg (by simpa [same] using hnumber)⟩
      · cases he
        exact ⟨r, mem, if_pos (beq_iff_eq.mpr same.symm)⟩
  leaves h := by cases h

theorem Says.finish (h : s.Says r said t) (same : q.number = r.number ∧ q.handle = r.handle)
    (o : SessionOutcome) :
    s.Turned r (said ++ [.outcome r.number o]) none (t.finish q o) := by
  obtain ⟨hnumber, hhandle⟩ := same
  have hown : (SessionNote.outcome q.number o : SessionNote α).runner? = some r.number :=
    congrArg some hnumber
  have hs := h.note hown
  refine ⟨h.clock, h.script, h.backoff, h.started, h.kept, ?_, ?_, ?_, fun p => ?_, fun _ => ?_⟩
  · exact h.slot.trans (t.slot.later_release q.handle)
  · exact hnumber ▸ hs.own
  · exact hs.others
  · show p ∈ t.runners.filter _ ↔ _
    rw [h.runners, List.mem_filter, hnumber]
    simp
  · rw [← hhandle]
    exact t.slot.holds_release q.handle

theorem turned_attempt (mem : r ∈ s.runners) :
    s.Turned r [.attempt r.number r.attempts] (some { r with
      attempts := r.attempts + 1
      session := ⟨r.session.schedule, .attempting (s.underway r.attempts)⟩ }) (s.attempt r) := by
  have hnoted := (s.says_nothing r).note
    (show (SessionNote.attempt r.number r.attempts : SessionNote α).runner? = _ from rfl)
  dsimp only [attempt]
  split
  · exact (hnoted.cancelSlot _).goesOn mem rfl
  · exact hnoted.goesOn mem rfl

theorem turn_of_success {attempt : Underway α} {value : α} (mem : r ∈ s.runners)
    (tries : r.session.stage = .attempting (some attempt))
    (due : attempt.due.any (· ≤ s.clock) = true) (succeeds : attempt.outcome = .ok value) :
    ∃ said next, s.Turn r said next ∧ s.Turned r said next (s.succeed r value) := by
  unfold succeed
  cases hplain : s.script.plainSuccess with
  | true =>
    have hsaid : s.script.cheered r.number value = [] := if_pos hplain
    exact ⟨_, _, .ends tries due succeeds (.inl hplain),
      hsaid ▸ (s.says_nothing r).finish ⟨rfl, rfl⟩ .reconnected⟩
  | false =>
    have hnoted := (s.says_nothing r).note
      (show (SessionNote.success r.number value).runner? = _ from rfl)
    cases htime : s.script.successTime with
    | none =>
      have hsaid : s.script.cheered r.number value = [.success r.number value] :=
        if_neg (by simp [hplain])
      refine ⟨_, _, .ends tries due succeeds (.inr htime), ?_⟩
      simp only [Bool.false_eq_true, if_false, Sessions.note, htime, hsaid]
      exact hnoted.finish ⟨rfl, rfl⟩ .reconnected
    | some ms =>
      refine ⟨_, _, .cheers tries due succeeds ⟨hplain, htime⟩, ?_⟩
      simp only [Bool.false_eq_true, if_false, Sessions.note, htime]
      exact hnoted.goesOn mem rfl

theorem says_heard (s : Sessions α) (r : Runner α) (failure : Failure) (keep : Bool) :
    s.Says r (s.script.heard r.number failure keep)
      (if (s.script.answers failure.kind).isSome then s.note (.failed r.number failure keep)
        else s) := by
  rw [SessionScript.heard, ← SessionScript.answers_kind]
  split
  · exact (s.says_nothing r).note rfl
  · exact s.says_nothing r

/-- What a failed attempt leads to, when it is reported. -/
theorem fail_eq {error : Error} (live : s.slot.isCancelled r.handle = false) {failure : Failure}
    (reported : failure = ⟨error, r.session.schedule.next.1⟩) {keep : Bool}
    (answer : wants (s.script.answers failure.kind) (r.failures failure.kind) = keep) :
    s.fail r error =
      (if (s.script.answers failure.kind).isSome then s.note (.failed r.number failure keep)
        else s).settleAt (r.count failure.kind)
        (Session.afterFailure r.session.schedule failure keep s.clock false) := by
  subst reported
  unfold fail
  rw [live]
  simp only [Session.failure?, Bool.false_eq_true, if_false]
  cases hkind : (Failure.mk error r.session.schedule.next.1).kind with
  | known =>
    rw [hkind] at answer
    subst answer
    rw [show s.script.answers .known = s.script.known from rfl]
    dsimp only
    split <;> rfl
  | unknown =>
    rw [hkind] at answer
    subst answer
    rw [show s.script.answers .unknown = s.script.unknown from rfl]
    dsimp only
    split <;> rfl

theorem turn_of_failure {attempt : Underway α} {error : Error} (mem : r ∈ s.runners)
    (tries : r.session.stage = .attempting (some attempt))
    (due : attempt.due.any (· ≤ s.clock) = true) (fails : attempt.outcome = .error error) :
    ∃ said next, s.Turn r said next ∧ s.Turned r said next (s.fail r error) := by
  cases hcancelled : s.slot.isCancelled r.handle with
  | true =>
    refine ⟨_, _, .breaks tries due fails hcancelled, ?_⟩
    unfold fail
    rw [hcancelled]
    exact (s.says_nothing r).finish ⟨rfl, rfl⟩ .cancelled
  | false =>
    obtain ⟨failure, hreported⟩ : ∃ f : Failure, f = ⟨error, r.session.schedule.next.1⟩ := ⟨_, rfl⟩
    cases hkeep : wants (s.script.answers failure.kind) (r.failures failure.kind) with
    | true =>
      refine ⟨_, _, .retries tries due fails hcancelled hreported hkeep, ?_⟩
      rw [fail_eq hcancelled hreported hkeep]
      exact (s.says_heard r failure true).goesOn mem (r.number_count _)
    | false =>
      refine ⟨_, _, .abandons tries due fails hcancelled hreported hkeep, ?_⟩
      rw [fail_eq hcancelled hreported hkeep]
      exact (s.says_heard r failure false).finish ⟨r.number_count _, r.handle_count _⟩ .abandoned

/-- One turn of a session. -/
theorem turn_cases (mem : r ∈ s.runners) (h : s.turn? r = some t) :
    ∃ said next, s.Turn r said next ∧ s.Turned r said next t := by
  unfold turn? at h
  split at h
  · rename_i hfresh
    cases h
    cases hcancelled : s.slot.isCancelled r.handle with
    | true =>
      exact ⟨_, _, .stops (.inl hfresh) hcancelled, (s.says_nothing r).finish ⟨rfl, rfl⟩ _⟩
    | false => exact ⟨_, _, .starts hfresh hcancelled, (s.says_nothing r).goesOn mem rfl⟩
  · rename_i delay since hsleeps
    split at h
    · rename_i hcancelled
      cases h
      exact ⟨_, _, .stops (.inr ⟨_, _, hsleeps⟩) hcancelled,
        (s.says_nothing r).finish ⟨rfl, rfl⟩ _⟩
    · rename_i hlive
      split at h
      · rename_i hdue
        cases h
        exact ⟨_, _, .attempts hsleeps (Bool.eq_false_iff.mpr hlive) hdue, turned_attempt mem⟩
      · cases h
  · rename_i attempt htries
    split at h
    · rename_i hdue
      split at h
      · rename_i hok
        cases h
        exact turn_of_success mem htries hdue hok
      · rename_i herror
        cases h
        exact turn_of_failure mem htries hdue herror
    · cases h
  · cases h
  · rename_i due hcheers
    split at h
    · rename_i hover
      cases h
      exact ⟨_, _, .settles hcheers hover, ((s.says_nothing r).note rfl).finish ⟨rfl, rfl⟩ _⟩
    · cases h

end Sessions

end Rehearsal

end ControlChannel
