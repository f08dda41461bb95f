import ControlChannel.Proofs.Sessions.Lives

/-! # Sessions follow their schedules

Whatever happens to the slot and whatever other sessions do, every move leaves a session where it
was or goes on with its life by one turn (`Sessions.lives_step`). So what a session has noted is
what a valid life notes; when it is over its handle does not occupy the slot, and after a
cancellation it begins nothing and reports no failure. Main statement:
`Sessions.session_follows_schedule`. -/

namespace ControlChannel.Rehearsal

variable {α : Type}

/-- Whether a note can follow a cancellation: no attempt begins and no failure is reported. -/
def SessionNote.isFinal : SessionNote α → Bool
  | .success .. | .successDone _ | .outcome _ .reconnected | .outcome _ .cancelled => true
  | _ => false

namespace Sessions

variable {prompt : Bool} {s t : Sessions α} {r q : Runner α} {said : List (SessionNote α)}
variable {next : Option (Runner α)}

theorem Turn.same (turn : s.Turn r said (some q)) : q.number = r.number ∧ q.handle = r.handle := by
  cases turn with
  | retries => exact ⟨r.number_count _, r.handle_count _⟩
  | starts | attempts | cheers => exact ⟨rfl, rfl⟩

/-- A cancelled session begins no attempt and reports no failure. -/
theorem Turn.final (turn : s.Turn r said next) (cancelled : s.slot.isCancelled r.handle = true) :
    ∀ note ∈ said, note.isFinal = true := by
  cases turn with
  | starts _ live | attempts _ live | retries _ _ _ live | abandons _ _ _ live =>
    rw [live] at cancelled
    cases cancelled
  | stops | cheers | breaks => exact List.forall_mem_singleton.mpr rfl
  | ends =>
    refine List.forall_mem_append.mpr ⟨?_, List.forall_mem_singleton.mpr rfl⟩
    unfold SessionScript.cheered
    split
    · exact List.forall_mem_nil _
    · exact List.forall_mem_singleton.mpr rfl
  | settles => exact List.forall_mem_cons.mpr ⟨rfl, List.forall_mem_singleton.mpr rfl⟩

/-- The session with this number and handle, which was not under way before `launch`, has lived
so. -/
structure Lives (prompt : Bool) (script : SessionScript α) (schedule : Schedule) (n : Nat)
    (handle : Handle) (launch : Nat) (s : Sessions α) (l : Life α) : Prop where
  sameScript : s.script = script
  number : n < s.started
  issued : handle.id < s.slot.nextId
  trace : s.trace n = l.notes script n
  valid : l.Valid script schedule prompt
  fits : ∀ r ∈ s.runners, r.number = n → r.handle = handle ∧ l.Fits script schedule r
  goesOn : l.isOver = false → ∃ r ∈ s.runners, r.number = n
  left : l.isOver = true → s.slot.holds handle = false
  cancelled : l.isCancelled = true → s.slot.isCancelled handle = true
  prompted : prompt = true → ∀ time, l.due? script schedule = some time → s.clock ≤ time
  fresh : l.standing = .fresh → launch ≤ s.clock ∧ (prompt = true → s.clock = launch)
  begun : l.standing ≠ .fresh → launch ≤ l.start ∧ (prompt = true → l.start = launch)

variable {script : SessionScript α} {schedule : Schedule} {n : Nat} {handle : Handle} {l : Life α}
variable {launch : Nat}

theorem awaits_iff {time : Nat} : s.awaits time = true ↔
    ∀ r ∈ s.runners, s.turn? r = none ∧ ∀ due, Runner.due? r = some due → time ≤ due := by
  simp [awaits, Option.all_eq_true]

/-- A session is where it was while another one has its turn. -/
theorem Lives.other (h : Lives prompt script schedule n handle launch s l)
    (turned : s.Turned r said next t)
    (same : ∀ q, next = some q → q.number = r.number) (other : n ≠ r.number) :
    Lives prompt script schedule n handle launch t l where
  sameScript := turned.script.trans h.sameScript
  number := turned.started ▸ h.number
  issued := Nat.lt_of_lt_of_le h.issued turned.slot.nextId
  trace := (turned.others n other).trans h.trace
  valid := h.valid
  fits q hq hn := by
    rcases (turned.mem_iff q).mp hq with ⟨hq, _⟩ | he
    · exact h.fits q hq hn
    · exact absurd (hn.symm.trans (same q he)) other
  goesOn hover := by
    obtain ⟨q, hq, hn⟩ := h.goesOn hover
    exact ⟨q, (turned.mem_iff q).mpr (.inl ⟨hq, hn ▸ other⟩), hn⟩
  left hover := turned.slot.vacated handle h.issued (h.left hover)
  cancelled hc := turned.slot.cancelled handle (h.cancelled hc)
  prompted hp := turned.clock ▸ h.prompted hp
  fresh hfresh := turned.clock ▸ h.fresh hfresh
  begun := h.begun

/-- A session goes on with its life at its turn. -/
theorem Lives.turn (h : Lives prompt script schedule n handle launch s l) (mem : r ∈ s.runners)
    (turn : s.Turn r said next) (turned : s.Turned r said next t) (own : r.number = n) :
    ∃ l', Lives prompt script schedule n handle launch t l' := by
  subst own
  obtain ⟨rfl, hfits⟩ := h.fits r mem rfl
  have hscript := h.sameScript
  subst hscript
  obtain ⟨l', g⟩ := Life.grows_of_turn hfits h.valid h.prompted turn
  refine ⟨l', turned.script, turned.started ▸ h.number,
    Nat.lt_of_lt_of_le h.issued turned.slot.nextId, ?_, g.valid, fun q hq hn => ?_, fun hover => ?_,
    fun hover => ?_, fun hc => turned.slot.cancelled _ (g.cancelled hc), fun _ => ?_,
    fun hfresh => absurd hfresh g.started, fun _ => ?_⟩
  · rw [turned.own, h.trace, g.notes]
  · rcases (turned.mem_iff q).mp hq with ⟨_, hne⟩ | he
    · exact absurd hn hne
    · obtain ⟨hfits', _, hhandle⟩ := g.goesOn q he
      exact ⟨hhandle, hfits'⟩
  · cases next with
    | none =>
      rw [g.finished rfl] at hover
      cases hover
    | some q => exact ⟨q, (turned.mem_iff q).mpr (.inr rfl), (g.goesOn q rfl).2.1⟩
  · cases next with
    | none => exact turned.leaves rfl
    | some q =>
      rw [(g.goesOn q rfl).1.isOver] at hover
      cases hover
  · rw [turned.clock]
    exact g.due
  · by_cases hfresh : l.standing = .fresh
    · rw [g.begins hfresh]
      exact h.fresh hfresh
    · rw [g.began hfresh]
      exact h.begun hfresh

/-- A session is where it was while the clock goes on or the slot changes. -/
theorem Lives.aside (h : Lives prompt script schedule n handle launch s l) (aside : s.Aside t)
    (runners : ∀ q ∈ t.runners, q.number = n → q ∈ s.runners)
    (stay : ∀ q ∈ s.runners, q ∈ t.runners)
    (started : s.started ≤ t.started)
    (clock : t.clock = s.clock ∨ s.clock ≤ t.clock ∧ (prompt = true → s.awaits t.clock = true)) :
    Lives prompt script schedule n handle launch t l where
  sameScript := aside.script.trans h.sameScript
  number := Nat.lt_of_lt_of_le h.number started
  issued := Nat.lt_of_lt_of_le h.issued aside.slot.nextId
  trace := (aside.trace n).trans h.trace
  valid := h.valid
  fits q hq hn := h.fits q (runners q hq hn) hn
  goesOn hover := by
    obtain ⟨q, hq, hn⟩ := h.goesOn hover
    exact ⟨q, stay q hq, hn⟩
  left hover := aside.slot.vacated handle h.issued (h.left hover)
  cancelled hc := aside.slot.cancelled handle (h.cancelled hc)
  prompted hp time htime := by
    rcases clock with hclock | ⟨_, hawaits⟩
    · exact hclock ▸ h.prompted hp time htime
    · obtain ⟨q, hq, hn⟩ := h.goesOn (l.isOver_of_due htime)
      have hdue := (awaits_iff.mp (hawaits hp) q hq).2
      rw [(h.fits q hq hn).2.due?, htime] at hdue
      exact hdue time rfl
  fresh hfresh := by
    rcases clock with hclock | ⟨hle, hawaits⟩
    · exact hclock ▸ h.fresh hfresh
    · refine ⟨Nat.le_trans (h.fresh hfresh).1 hle, fun hp => ?_⟩
      -- Whoever is fresh has its turn before the clock goes on.
      obtain ⟨q, hq, hn⟩ := h.goesOn (by rw [Life.isOver, hfresh])
      have hturn := (awaits_iff.mp (hawaits hp) q hq).1
      have hsession := (h.fits q hq hn).2.session
      rw [Life.session?, hfresh] at hsession
      rw [turn?, ← Option.some.inj hsession] at hturn
      cases hturn
  begun := h.begun

theorem lives_step (step : Step prompt s t) (h : Lives prompt script schedule n handle launch s l) :
    ∃ l', Lives prompt script schedule n handle launch t l' := by
  cases step with
  | @turn r said next mem turn turned =>
    by_cases hn : r.number = n
    · exact h.turn mem turn turned hn
    · exact ⟨l, h.other turned (fun q e => (e ▸ turn).same.1) (Ne.symm hn)⟩
  | launch aside runners started clock known =>
    refine ⟨l, h.aside aside (fun q hq hn => ?_) (fun q hq => ?_) (by omega) (.inl clock)⟩
    · rw [runners] at hq
      rcases List.mem_append.mp hq with hq | hq
      · exact hq
      · rw [List.mem_singleton.mp hq] at hn
        exact absurd h.number (Nat.not_lt.mpr (Nat.le_of_eq hn))
    · rw [runners]
      exact List.mem_append_left _ hq
  | still aside runners started clock =>
    exact ⟨l, h.aside aside (fun q hq _ => runners ▸ hq) (fun q hq => runners ▸ hq)
      (Nat.le_of_eq started.symm) clock⟩

/-- What holds of sessions that began with none. -/
structure Reached (prompt : Bool) (backoff : Backoff) (script : SessionScript α) (s : Sessions α) :
    Prop where
  sameBackoff : s.backoff = backoff
  sameScript : s.script = script
  kept : ∀ h ∈ s.kept, h.id < s.slot.nextId
  unheard : ∀ n, s.started ≤ n → s.trace n = []
  lives : ∀ r ∈ s.runners, ∃ launch l,
    Lives prompt script backoff.schedule r.number r.handle launch s l

variable {backoff : Backoff}

theorem reached_begin (prompt : Bool) (backoff : Backoff) (script : SessionScript α) :
    Reached prompt backoff script { backoff, script } :=
  ⟨rfl, rfl, List.forall_mem_nil _, fun _ _ => rfl, List.forall_mem_nil _⟩

theorem Reached.aside (h : Reached prompt backoff script s) (aside : s.Aside t)
    (started : s.started ≤ t.started)
    (lives : ∀ r ∈ t.runners, ∃ launch l,
      Lives prompt script backoff.schedule r.number r.handle launch t l) :
    Reached prompt backoff script t where
  sameBackoff := aside.backoff.trans h.sameBackoff
  sameScript := aside.script.trans h.sameScript
  kept handle hk := by
    rcases aside.kept handle hk with hk | hid
    · exact Nat.lt_of_lt_of_le (h.kept handle hk) aside.slot.nextId
    · exact hid
  unheard n hn := by
    rw [aside.trace]
    exact h.unheard n (Nat.le_trans started hn)
  lives := lives

/-- A session that is launched has done nothing yet. -/
theorem Reached.launched (h : Reached prompt backoff script s) (aside : s.Aside t)
    (runners : t.runners =
      s.runners ++ [{ number := s.started, handle, session := ⟨s.backoff.schedule, .fresh⟩ }])
    (started : t.started = s.started + 1) (known : handle ∈ s.kept ∨ handle.id < t.slot.nextId) :
    Lives prompt script backoff.schedule s.started handle t.clock t ⟨0, [], .fresh⟩ where
  sameScript := aside.script.trans h.sameScript
  number := started ▸ Nat.lt_succ_self _
  issued := by
    rcases known with hk | hid
    · exact Nat.lt_of_lt_of_le (h.kept handle hk) aside.slot.nextId
    · exact hid
  trace := by
    rw [aside.trace, h.unheard _ (Nat.le_refl _)]
    rfl
  valid := ⟨.nil, .fresh rfl⟩
  fits q hq hn := by
    rw [runners] at hq
    rcases List.mem_append.mp hq with hq | hq
    · obtain ⟨_, _, hl⟩ := h.lives q hq
      exact absurd hl.number (Nat.not_lt.mpr (Nat.le_of_eq hn.symm))
    · cases List.mem_singleton.mp hq
      refine ⟨rfl, ?_, rfl, fun kind => by cases kind <;> rfl⟩
      rw [h.sameBackoff]
      rfl
  goesOn _ := ⟨_, runners ▸ List.mem_append_right _ (List.mem_singleton_self _), rfl⟩
  left := nofun
  cancelled := nofun
  prompted _ := nofun
  fresh _ := ⟨Nat.le_refl _, fun _ => rfl⟩
  begun hfresh := absurd rfl hfresh

theorem Reached.step (step : Step prompt s t) (h : Reached prompt backoff script s) :
    Reached prompt backoff script t := by
  have hlives : ∀ r ∈ s.runners, ∃ launch l,
      Lives prompt script backoff.schedule r.number r.handle launch t l := fun r hr => by
    obtain ⟨launch, l, hl⟩ := h.lives r hr
    exact ⟨launch, lives_step step hl⟩
  cases step with
  | @turn r said next mem turn turned =>
    refine ⟨turned.backoff.trans h.sameBackoff, turned.script.trans h.sameScript,
      fun handle hk => ?_, fun n hn => ?_, fun q hq => ?_⟩
    · exact Nat.lt_of_lt_of_le (h.kept handle (turned.kept ▸ hk)) turned.slot.nextId
    · obtain ⟨_, l, hl⟩ := h.lives r mem
      have hne : n ≠ r.number := by
        have := hl.number
        rw [turned.started] at hn
        omega
      rw [turned.others n hne]
      exact h.unheard n (turned.started ▸ hn)
    · rcases (turned.mem_iff q).mp hq with ⟨hq, _⟩ | he
      · exact hlives q hq
      · subst he
        obtain ⟨hnumber, hhandle⟩ := turn.same
        rw [hnumber, hhandle]
        exact hlives r mem
  | launch aside runners started clock known =>
    refine h.aside aside (by omega) fun q hq => ?_
    rw [runners] at hq
    rcases List.mem_append.mp hq with hq | hq
    · exact hlives q hq
    · cases List.mem_singleton.mp hq
      exact ⟨_, _, h.launched aside runners started known⟩
  | still aside runners started clock =>
    exact h.aside aside (Nat.le_of_eq started.symm) fun q hq => hlives q (runners ▸ hq)

/-- After a cancellation a session notes only what can follow one. -/
theorem final_step {u : Sessions α} (h : Lives prompt script schedule n handle launch t l)
    (step : Step prompt t u) (cancelled : t.slot.isCancelled handle = true) :
    u.slot.isCancelled handle = true ∧
      ∃ later, u.trace n = t.trace n ++ later ∧ ∀ x ∈ later, x.2.isFinal = true := by
  cases step with
  | @turn r said next mem turn turned =>
    refine ⟨turned.slot.cancelled handle cancelled, ?_⟩
    by_cases hn : r.number = n
    · subst hn
      obtain ⟨rfl, _⟩ := h.fits r mem rfl
      refine ⟨said.map (t.clock, ·), turned.own, fun x hx => ?_⟩
      obtain ⟨note, hnote, rfl⟩ := List.mem_map.mp hx
      exact turn.final cancelled note hnote
    · exact ⟨[], (turned.others n (Ne.symm hn)).trans (List.append_nil _).symm,
        List.forall_mem_nil _⟩
  | launch aside | still aside =>
    exact ⟨aside.slot.cancelled handle cancelled, [],
      (aside.trace n).trans (List.append_nil _).symm, List.forall_mem_nil _⟩

theorem lives_of_run {moves : List Move} (h : Lives prompt script schedule n handle launch s l)
    (hrun : s.run prompt moves = some t) :
    ∃ l', Lives prompt script schedule n handle launch t l' := by
  refine run_induction (P := fun t => ∃ l', Lives prompt script schedule n handle launch t l')
    ?_ hrun ⟨l, h⟩
  rintro s t step ⟨l, hl⟩
  exact lives_step step hl

/-- What is so after every run: a cancelled session has noted only what can follow. -/
theorem final_of_run {moves : List Move} (h : Lives prompt script schedule n handle launch s l)
    (hrun : s.run prompt moves = some t) (cancelled : s.slot.isCancelled handle = true) :
    ∃ later, t.trace n = s.trace n ++ later ∧ ∀ x ∈ later, x.2.isFinal = true := by
  refine (run_induction (P := fun t => (∃ l', Lives prompt script schedule n handle launch t l') ∧
    t.slot.isCancelled handle = true ∧
      ∃ later, t.trace n = s.trace n ++ later ∧ ∀ x ∈ later, x.2.isFinal = true) ?_ hrun
    ⟨⟨l, h⟩, cancelled, [], (List.append_nil _).symm, List.forall_mem_nil _⟩).2.2
  rintro t u step ⟨⟨l', hl⟩, hc, later, htrace, hfinal⟩
  obtain ⟨hc', more, hmore, hfinal'⟩ := final_step hl step hc
  refine ⟨lives_step step hl, hc', later ++ more, ?_, List.forall_mem_append.mpr ⟨hfinal, hfinal'⟩⟩
  rw [hmore, htrace, List.append_assoc]

/-- Whoever has not begun has not been under way before now. -/
theorem Lives.relaunch (h : Lives prompt script schedule n handle launch s l)
    (fresh : l.standing = .fresh) : Lives prompt script schedule n handle s.clock s l :=
  { h with
    fresh := fun _ => ⟨Nat.le_refl _, fun _ => rfl⟩
    begun := fun hne => absurd fresh hne }

/-- **What a session notes is what a valid life notes: its first attempt begins after a sleep of
the first delay, which begins when the session does, every other one after a sleep of the next
delay, which began when the attempt before it failed, and at the very end of that sleep if the run
is prompt; every failure of a session that is not cancelled is reported to the callback for such
failures, with the delay that is slept next; the first success ends the session reconnected, a
callback that gives up ends it abandoned. A session has no turn exactly while it waits for a time to
come, and a prompt run passes none of these times by. A session that is over does not occupy the
slot; it ends cancelled only when it was cancelled, and from then on it begins no attempt and
reports no failure.** -/
theorem session_follows_schedule {past moves : List Move} {m : Sessions α}
    (hm : run prompt { backoff, script } past = some m) (hr : r ∈ m.runners)
    (hs : m.run prompt moves = some s) :
    ∃ l : Life α, l.Valid script backoff.schedule prompt ∧
      s.trace r.number = l.notes script r.number ∧
      (r.session.stage = .fresh → l.standing ≠ .fresh →
        m.clock ≤ l.start ∧ (prompt = true → l.start = m.clock)) ∧
      (l.isOver = false ↔ ∃ q ∈ s.runners, q.number = r.number) ∧
      (∀ q ∈ s.runners, q.number = r.number → (s.turn? q = none ↔ l.standing ≠ .fresh ∧
        (∀ time, l.due? script backoff.schedule = some time → s.clock < time) ∧
        (l.standing = .asleep → s.slot.isCancelled r.handle = false))) ∧
      (prompt = true → ∀ time, l.due? script backoff.schedule = some time → s.clock ≤ time) ∧
      (l.isOver = true → s.slot.holds r.handle = false) ∧
      (l.isCancelled = true → s.slot.isCancelled r.handle = true) ∧
      (m.slot.isCancelled r.handle = true →
        ∃ later, s.trace r.number = m.trace r.number ++ later ∧
          ∀ x ∈ later, x.2.isFinal = true) := by
  have hreached : Reached prompt backoff script m :=
    run_induction Reached.step hm (reached_begin prompt backoff script)
  obtain ⟨launch, l₀, h₀⟩ := hreached.lives r hr
  have hlaunch : ∃ launch, Lives prompt script backoff.schedule r.number r.handle launch m l₀ ∧
      (r.session.stage = .fresh → launch = m.clock) := by
    by_cases hfresh : r.session.stage = .fresh
    · exact ⟨_, h₀.relaunch ((h₀.fits r hr rfl).2.fresh hfresh).1, fun _ => rfl⟩
    · exact ⟨launch, h₀, fun h => absurd h hfresh⟩
  obtain ⟨launch, h₁, hclock⟩ := hlaunch
  obtain ⟨l, h⟩ := lives_of_run h₁ hs
  refine ⟨l, h.valid, h.trace, fun hfresh hbegun => hclock hfresh ▸ h.begun hbegun,
    ⟨h.goesOn, ?_⟩, fun q hq hn => ?_, h.prompted, h.left, h.cancelled, final_of_run h₀ hs⟩
  · rintro ⟨q, hq, hn⟩
    exact (h.fits q hq hn).2.isOver
  · obtain ⟨hhandle, hfits⟩ := h.fits q hq hn
    have hscript := h.sameScript
    subst hscript
    exact hhandle ▸ hfits.waits_iff

/-! A session whose first attempt takes three milliseconds and fails, and whose second one succeeds
at once. -/

/-- Delays of two, seven and again seven milliseconds. -/
def twoSeven : Backoff := .listed [.ofMillis 2, .ofMillis 7]

def secondTry : SessionScript Nat where
  attempts := [⟨false, ⟨3, some (.error (.io "reset"))⟩⟩, ⟨false, ⟨0, some (.ok 1)⟩⟩]
  fallback := ⟨false, ⟨0, none⟩⟩
  unknown := some [true]

/-- The session sleeps, fails after three milliseconds, sleeps again and succeeds. -/
def toSecondTry : List Move :=
  [.turn 0, .wait 2, .turn 0, .wait 5, .turn 0, .wait 12, .turn 0, .turn 0]

theorem session_follows_schedule_twice : ∃ (m s : Sessions Nat) (r : Runner Nat) (l : Life Nat),
    run true { backoff := twoSeven, script := secondTry } [.act .start] = some m ∧
      r ∈ m.runners ∧ m.run true toSecondTry = some s ∧
      (s.trace r.number).map (·.1) = [2, 5, 12, 12, 12] ∧
      l.Valid secondTry twoSeven.schedule true ∧
      s.trace r.number = l.notes secondTry r.number ∧ s.slot.holds r.handle = false := by
  have hrun : (run true { backoff := twoSeven, script := secondTry } [.act .start]).any (fun m =>
      m.runners.any fun r => (m.run true toSecondTry).any fun s =>
        (s.trace r.number).map (·.1) = [2, 5, 12, 12, 12] ∧ s.runners.isEmpty) = true := by
    decide +kernel
  obtain ⟨m, hm, hsession⟩ := (Option.any_eq_true _ _).mp hrun
  obtain ⟨r, hr, hsession⟩ := List.any_eq_true.mp hsession
  obtain ⟨s, hs, hdone⟩ := (Option.any_eq_true _ _).mp hsession
  obtain ⟨htimes, hnone⟩ := of_decide_eq_true hdone
  obtain ⟨l, hvalid, htrace, _, hover, _, _, hleft, _⟩ := session_follows_schedule hm hr hs
  have hgone : l.isOver = true := by
    refine Bool.not_eq_false _ ▸ fun hgoes => ?_
    obtain ⟨q, hq, _⟩ := hover.mp hgoes
    rw [List.isEmpty_iff.mp hnone] at hq
    cases hq
  exact ⟨m, s, r, l, hm, hr, hs, htimes, hvalid, htrace, hleft hgone⟩

end Sessions

end ControlChannel.Rehearsal
