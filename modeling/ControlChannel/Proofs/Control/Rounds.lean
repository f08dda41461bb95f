import ControlChannel.Proofs.Answers
import ControlChannel.Proofs.Control.Search

/-! # How a round is decided

A round takes the candidates of its plan one after the other. What it has done so far is recorded:
the nodes that it began to open connections to, the events that it published and how its bring-ups
ended (`Round.Record`). Which errors let a round go on, and by which message each of them is known,
is declared apart from the code that decides it (`Error.Unreachable`). Main statements: a bring-up
fails with the fault that it meets, and with a connection fault only if it met that one
(`BringUp.fails_of_meets`, `BringUp.meets_of_fails`); where a round stands, unless a shutdown cuts
it short, is decided by the first candidate that did not fail with a connection fault
(`Round.verdict_of_course`). -/

namespace ControlChannel

/-- The error says that nodes cannot be reached and is known by this message: a connection error by
its own, the error of a whole round by its wording. -/
inductive Error.Unreachable : Error → String → Prop where
  | connection (address : Address) (message : String) :
      Unreachable (.connection address message) message
  | noHost (failures : Failures) : Unreachable (.noHost failures) (Error.noHost failures).message

namespace Error

variable {e : Error} {message : String}

theorem unreachable_reason (h : e.isConnectionFault = true) : e.Unreachable e.reason := by
  cases e with
  | connection address message => exact .connection address message
  | noHost failures => exact .noHost failures
  | _ => cases h

theorem Unreachable.isConnectionFault (h : e.Unreachable message) :
    e.isConnectionFault = true := by
  cases h <;> rfl

end Error

namespace BringUp

/-! ## Bring-ups that meet a fault -/

/-- The signal tells of a fault: the connection is not opened, or not in the time allowed, or a
request is not answered. -/
inductive Meets (target : Address) (allowed : Duration) : Signal → Error → Prop where
  | refused (e : Error) : Meets target allowed (.opened (.error e)) e
  | late : Meets target allowed .timedOut
      (.connection target s!"timed out after {allowed.millis} ms")
  | unanswered (question : Question) (e : Error) :
      Meets target allowed (.answered question (.error e)) e

/-- The bring-up has failed with an error, or will have as soon as its connection is closed. -/
inductive Fails (e : Error) : Progress BringUp Result → Prop where
  | over : Fails e (.done (.error e))
  | closing (link : Link) : Fails e (.running (.closing link (some e)))

section Fails

variable {k : Control} {target : Address} {b : BringUp} {link : Link} {signal : Signal}
variable {o : Control × Progress BringUp Result} {e : Error}

theorem fails_giveUp {error : Option Error} : Fails e (giveUp k link error).2 ↔ error = some e := by
  constructor
  · intro hf
    cases hf
    rfl
  · rintro rfl
    exact .closing link

theorem not_fails_register : ¬ Fails e (register k link).2 := by
  unfold register
  split <;> exact nofun

theorem fails_afterTopology {x : Fabric × Progress TopologyRefresh TopologyRefresh.Result} :
    Fails e (afterTopology k link x).2 ↔ x.2 = .done (.error e) := by
  unfold afterTopology
  split
  · exact ⟨nofun, nofun⟩
  · exact ⟨nofun, nofun⟩
  · exact fails_giveUp.trans ⟨nofun, nofun⟩
  · rw [fails_giveUp]
    simp

theorem fails_afterSchema {x : Fabric × Progress SchemaRefresh SchemaRefresh.Result} :
    Fails e (afterSchema k link x).2 ↔ x.2 = .done (.error e) := by
  unfold afterSchema
  split
  · exact ⟨nofun, nofun⟩
  · rename_i fabric _
    rw [fails_afterTopology]
    unfold TopologyRefresh.start
    split <;> exact ⟨nofun, nofun⟩
  · exact fails_giveUp.trans ⟨nofun, nofun⟩
  · rw [fails_giveUp]
    simp

theorem not_fails_registered {reply : Reply} (he : e.isConnectionFault = true) :
    ¬ Fails e (registered k link reply).2 := by
  unfold registered
  split
  · rename_i e' hack
    intro hf
    obtain rfl := Option.some.inj (fails_giveUp.mp hf)
    cases reply <;> cases hack <;> cases he
  · rw [fails_afterSchema]
    unfold SchemaRefresh.start
    split <;> exact nofun

/-- What has failed comes to its end with its error. -/
theorem eq_done_of_fails (hf : Fails e (.running b)) (h : b.resume k target signal = some o) :
    o.2 = .done (.error e) := by
  cases hf with
  | closing link => cases signal <;> cases h; rfl

/-- What meets a fault fails with it. -/
theorem fails_of_meets (hm : Meets target k.settings.connectionTimeout signal e)
    (h : b.resume k target signal = some o) : Fails e o.2 := by
  cases b with
  | opening since =>
    cases hm with
    | refused e => cases h; exact .over
    | late => cases h; exact .over
    | unanswered question e => cases h
  | registering link =>
    cases hm with
    | refused e | late => cases h
    | unanswered question e => cases question <;> cases h; exact .closing link
  | schema link r =>
    obtain ⟨x, hx, rfl⟩ := Option.map_eq_some_iff.mp h
    refine fails_afterSchema.mpr ?_
    cases hm with
    | refused e | late => cases SchemaRefresh.moves_of_resume hx
    | unanswered question e => rw [SchemaRefresh.resume_answered hx]
  | topology link r =>
    obtain ⟨x, hx, rfl⟩ := Option.map_eq_some_iff.mp h
    refine fails_afterTopology.mpr ?_
    cases hm with
    | refused e | late =>
      obtain ⟨link', port, stage⟩ := r
      obtain ⟨y, hy, rfl⟩ := Option.map_eq_some_iff.mp hx
      cases TopologyRefresh.moves_of_advance hy
    | unanswered question e => rw [TopologyRefresh.resume_answered hx]
  | closing link error => cases hm <;> cases error <;> cases h

/-- What fails with a connection fault has just met it or had failed with it before. -/
theorem meets_of_fails (he : e.isConnectionFault = true) (hf : Fails e o.2)
    (h : b.resume k target signal = some o) :
    Meets target k.settings.connectionTimeout signal e ∨ Fails e (.running b) := by
  unfold resume at h
  split at h
  · cases h; exact absurd hf not_fails_register
  · cases h; cases hf; exact .inl (.refused e)
  · cases h; cases hf; exact .inl .late
  · cases h; cases hf
  · cases h; exact absurd hf (not_fails_registered he)
  · cases h; cases fails_giveUp.mp hf; exact .inl (.unanswered _ e)
  · cases h; cases fails_giveUp.mp hf
  · obtain ⟨x, hx, rfl⟩ := Option.map_eq_some_iff.mp h
    obtain ⟨question, rfl⟩ := SchemaRefresh.answered_of_fault hx (fails_afterSchema.mp hf) he
    exact .inl (.unanswered question e)
  · obtain ⟨x, hx, rfl⟩ := Option.map_eq_some_iff.mp h
    obtain ⟨question, rfl⟩ := TopologyRefresh.answered_of_fault hx (fails_afterTopology.mp hf) he
    exact .inl (.unanswered question e)
  · cases h; cases hf; exact .inr (.closing _)
  · cases h; cases hf
  · cases h

end Fails

/-! ## Bring-ups that go on -/

/-- The bring-up of `target` goes on, without an event and without a further opening. -/
structure GoesOn (k : Control) (target : Address) (o : Control × Progress BringUp Result) :
    Prop where
  events : o.1.events = k.events
  openings : o.1.fabric.openings = k.fabric.openings
  held : ∀ link ∈ o.2.link? held?, link.address = target

variable {k : Control} {target : Address} {link : Link} {o : Control × Progress BringUp Result}

theorem Works.goesOn (w : Works k link o) (ha : link.address = target) : GoesOn k target o where
  events := w.events
  openings := w.openings
  held l hl := by
    rw [w.held] at hl
    cases hl
    exact ha

/-- The bring-up is over without a connection. -/
theorem goesOn_over {f : Fabric} {r : Result} (acts : f.acts = k.fabric.acts)
    (hr : (Progress.done r).link? held? = none) :
    GoesOn k target ({ k with fabric := f }, .done r) where
  events := rfl
  openings := Fabric.openings_congr acts
  held l hl := by
    rw [hr] at hl
    cases hl

theorem goesOn_resume {b : BringUp} {signal : Signal} (h : b.resume k target signal = some o)
    (hs : signal = .cancelled → k.isShutDown = true)
    (held : ∀ link ∈ b.held?, link.address = target) : GoesOn k target o := by
  unfold resume at h
  split at h
  · cases h
    have w := works_register { k with fabric := (k.fabric.accept target).1 }
      (k.fabric.accept target).2
    exact ⟨w.events, w.openings, (w.goesOn rfl).held⟩
  · cases h; exact goesOn_over rfl rfl
  · cases h; exact goesOn_over rfl rfl
  · cases h; exact goesOn_over rfl rfl
  · cases h; exact (works_registered k _ _).goesOn (held _ rfl)
  · cases h; exact (works_giveUp k _ _ fun he => by cases he).goesOn (held _ rfl)
  · cases h; exact (works_giveUp k _ _ fun _ => hs rfl).goesOn (held _ rfl)
  · obtain ⟨x, hx, rfl⟩ := Option.map_eq_some_iff.mp h
    exact (works_afterSchema k _ (SchemaRefresh.staysOn_resume hx).quiet fun hc =>
      hs (SchemaRefresh.cancelled_of_resume hx hc)).goesOn (held _ rfl)
  · obtain ⟨x, hx, rfl⟩ := Option.map_eq_some_iff.mp h
    exact (works_afterTopology k _ (TopologyRefresh.staysOn_resume hx).quiet fun hc =>
      hs (TopologyRefresh.cancelled_of_resume hx hc)).goesOn (held _ rfl)
  · cases h; exact goesOn_over rfl rfl
  · cases h; exact goesOn_over rfl rfl
  · cases h

end BringUp

namespace Round

/-! ## Records -/

/-- What a list that has its latest entry first has got since it was `old`, in order. -/
def added {α : Type} (old new : List α) : List α := (new.take (new.length - old.length)).reverse

@[simp] theorem added_self {α : Type} (old : List α) : added old old = [] := by simp [added]

@[simp] theorem added_cons {α : Type} (x : α) (old : List α) : added old (x :: old) = [x] := by
  simp [added]

/-- What a round has done so far, in order: the nodes that it began to open connections to, the
events that it published, and the bring-ups that came to their end. -/
@[ext]
structure Record where
  opened : List Address := []
  published : List Event := []
  tried : List (Address × BringUp.Result) := []

/-- The record after one more step, from `k` to `l`, with the bring-up that ended in it. -/
def Record.extend (s : Record) (k l : Control) (ended : List (Address × BringUp.Result)) :
    Record where
  opened := s.opened ++ added k.fabric.openings l.fabric.openings
  published := s.published ++ added k.events l.events
  tried := s.tried ++ ended

/-- The bring-up that ends with a signal, if it does. -/
def ended (k : Control) (r : Round) (signal : Signal) : List (Address × BringUp.Result) :=
  match r.bringUp.resume k r.target signal with
  | some (_, .done result) => [(r.target, result)]
  | _ => []

/-- What a round over `plan` may have done, and where it stands: between two of its steps anything
may happen to the control connection, and the nodes answer as they like, but nobody shuts it
down. -/
inductive Course (plan : List Address) : Record → Progress Round Result → Prop where
  | start {k : Control} (live : k.isShutDown = false) (planned : k.fabric.takePlan.1 = plan) :
      Course plan (Record.extend {} k (start k).1 []) (start k).2
  | goes {k : Control} {record : Record} {r : Round} {signal : Signal}
      {o : Control × Progress Round Result} (course : Course plan record (.running r))
      (live : k.isShutDown = false) (heard : signal ≠ .cancelled)
      (step : r.resume k signal = some o) :
      Course plan (record.extend k o.1 (r.ended k signal)) o.2

variable {plan : List Address} {record : Record}

/-- As soon as the bring-up of its candidate has come to an end, the round goes on. -/
theorem Course.ends {r : Round} {k l : Control} {signal : Signal} {result : BringUp.Result}
    (course : Course plan record (.running r)) (live : k.isShutDown = false)
    (heard : signal ≠ .cancelled)
    (done : r.bringUp.resume k r.target signal = some (l, .done result)) :
    ∃ o, r.resume k signal = some o ∧
      Course plan (record.extend k o.1 [(r.target, result)]) o.2 := by
  have step : r.resume k signal = some (r.afterBringUp (l, .done result)) := by
    rw [resume, done]
    rfl
  have hgoes := course.goes live heard step
  rw [ended, done] at hgoes
  exact ⟨_, step, hgoes⟩

/-! ## Verdicts -/

/-- A candidate that could not be reached: the error it failed with and the message by which that
error is known. -/
structure Fault where
  address : Address
  error : Error
  message : String
  unreachable : error.Unreachable message

/-- What is recorded of some candidates that failed with connection faults, one after the other. -/
def Record.past (faults : List Fault) : Record where
  opened := faults.map Fault.address
  published := faults.map fun f => .connectionFailed f.address f.message
  tried := faults.map fun f => (f.address, .error f.error)

/-- The record after one more candidate has been turned to, and with its result, if it has one. -/
def Record.turnTo (record : Record) (target : Address) (result : Option BringUp.Result) : Record :=
  { record with
    opened := record.opened ++ [target]
    tried := record.tried ++ result.toList.map (target, ·) }

/-- The messages by address are those of the candidates that failed. -/
def Maps (failures : Failures) (faults : List Fault) : Prop :=
  ∀ a message, failures[a]? = some message ↔ ∃ f ∈ faults, f.address = a ∧ f.message = message

/-- Where a round over `plan` stands after the candidates in `faults` have failed with connection
faults. -/
inductive Verdict (plan : List Address) (faults : List Fault) :
    Record → Progress Round Result → Prop where
  /-- The next candidate is being brought up. -/
  | trying {r : Round} (planned : plan = faults.map Fault.address ++ r.target :: r.rest) :
      Verdict plan faults ((Record.past faults).turnTo r.target none) (.running r)
  /-- The next candidate is up; those after it are not tried. -/
  | found {target : Address} {rest : List Address} {link : Link}
      (planned : plan = faults.map Fault.address ++ target :: rest)
      (leads : link.address = target) :
      Verdict plan faults ((Record.past faults).turnTo target (some (.ok (.ready link))))
        (.done (.ok (.ready link)))
  /-- The next candidate failed with another error; those after it are not tried. -/
  | failed {target : Address} {rest : List Address} {e : Error}
      (planned : plan = faults.map Fault.address ++ target :: rest)
      (other : ∀ message, ¬ e.Unreachable message) :
      Verdict plan faults ((Record.past faults).turnTo target (some (.error e)))
        (.done (.error e))
  /-- No candidate is left. -/
  | exhausted {failures : Failures} (planned : plan = faults.map Fault.address)
      (mapped : plan.Nodup → Maps failures faults) :
      Verdict plan faults (Record.past faults) (.done (.error (.noHost failures)))

/-! ## One step -/

/-- A round in progress has recorded the candidates in `faults`, and the connection that it holds,
if any, leads to its present candidate. -/
structure Follows (faults : List Fault) (r : Round) : Prop where
  mapped : (faults.map Fault.address).Nodup → Maps r.failures faults
  held : ∀ link ∈ r.bringUp.held?, link.address = r.target
  going : ¬ BringUp.GivenUp (.running r.bringUp)

variable {faults : List Fault} {failures : Failures}
variable {k l : Control} {tried : List (Address × BringUp.Result)} {target : Address} {f : Fault}

theorem maps_empty : Maps ∅ [] := fun a reason => by simp

theorem Maps.insert (h : Maps failures faults) (fresh : f.address ∉ faults.map Fault.address) :
    Maps (failures.insert f.address f.message) (faults ++ [f]) := by
  intro a message
  rw [Std.ExtTreeMap.getElem?_insert]
  split
  · rename_i heq
    obtain rfl := Std.LawfulEqCmp.eq_of_compare heq
    have hnone : ∀ g ∈ faults, g.address ≠ f.address := fun g hg he =>
      fresh (List.mem_map.mpr ⟨g, hg, he⟩)
    constructor
    · intro hm
      exact ⟨f, List.mem_append_right _ (List.mem_singleton.mpr rfl), rfl, Option.some.inj hm⟩
    · rintro ⟨g, hg, ha, rfl⟩
      rcases List.mem_append.mp hg with hg | hg
      · exact absurd ha (hnone g hg)
      · rw [List.mem_singleton.mp hg]
  · rename_i hne
    have hne : f.address ≠ a := fun he => hne (he ▸ Std.ReflCmp.compare_self)
    simp [h a message, or_and_right, exists_or, hne]

theorem Record.extend_quiet (events : l.events = k.events)
    (openings : l.fabric.openings = k.fabric.openings) :
    record.extend k l tried = { record with tried := record.tried ++ tried } := by
  ext1 <;> simp [Record.extend, events, openings]

theorem Record.extend_start (openings : l.fabric.openings = k.fabric.openings) :
    record.extend k (BringUp.start l target).1 tried =
      (record.extend k l tried).turnTo target none := by
  ext1 <;> simp [Record.extend, Record.turnTo, BringUp.start, openings]

/-- The candidate that was turned to last has come to its end. -/
theorem Record.extend_ends (events : l.events = k.events)
    (openings : l.fabric.openings = k.fabric.openings) (result : BringUp.Result) :
    (record.turnTo target none).extend k l [(target, result)] =
      record.turnTo target (some result) := by
  rw [Record.extend_quiet events openings]
  ext1 <;> simp [Record.turnTo]

/-- A candidate that failed is one more of those that failed. -/
theorem Record.extend_publish (events : l.events = k.events)
    (openings : l.fabric.openings = k.fabric.openings) :
    ((Record.past faults).turnTo f.address none).extend k
        (l.publish (.connectionFailed f.address f.message)) [(f.address, .error f.error)] =
      Record.past (faults ++ [f]) := by
  ext1 <;> simp [Record.extend, Record.turnTo, Record.past, Control.publish, events, openings]

/-- The round turns to the candidates that are left. -/
theorem verdict_next {rest : List Address} (live : l.isShutDown = false)
    (planned : plan = faults.map Fault.address ++ rest)
    (mapped : (faults.map Fault.address).Nodup → Maps failures faults)
    (recorded : record.extend k l tried = Record.past faults)
    (openings : l.fabric.openings = k.fabric.openings) :
    Verdict plan faults (record.extend k (next l failures rest).1 tried) (next l failures rest).2 ∧
      ∀ r, (next l failures rest).2 = .running r → Follows faults r := by
  cases rest with
  | nil =>
    rw [List.append_nil] at planned
    refine ⟨?_, fun r h => by cases h⟩
    rw [next, recorded]
    exact .exhausted planned fun hd => mapped (planned ▸ hd)
  | cons target rest =>
    rw [next, live]
    refine ⟨?_, fun r h => ?_⟩
    · have htried := Verdict.trying
        (r := ⟨target, rest, failures, (BringUp.start l target).2⟩) planned
      rw [← recorded, ← Record.extend_start openings] at htried
      exact htried
    · cases h
      exact ⟨mapped, fun link hl => (by cases hl), id⟩

/-- The round has gone on from a candidate that was being brought up. -/
theorem verdict_goes {r : Round} {signal : Signal} {o : Control × Progress Round Result}
    (f : Follows faults r) (planned : plan = faults.map Fault.address ++ r.target :: r.rest)
    (live : k.isShutDown = false) (heard : signal ≠ .cancelled)
    (step : r.resume k signal = some o) :
    ∃ faults', Verdict plan faults'
        (((Record.past faults).turnTo r.target none).extend k o.1 (r.ended k signal)) o.2 ∧
      ∀ r', o.2 = .running r' → Follows faults' r' := by
  obtain ⟨⟨l, p⟩, hx, rfl⟩ := Option.map_eq_some_iff.mp step
  have hshut : ∀ {P : Prop}, (P → k.isShutDown = true) → ¬ P := fun h hp => by
    rw [h hp] at live
    cases live
  have hg := BringUp.goesOn_resume hx (fun hc => absurd hc heard) f.held
  have hadv := BringUp.advances_resume hx (fun hc => absurd hc heard) fun hc => absurd hc f.going
  have hgoing := hshut hadv.givenUp
  rw [ended, hx]
  cases p with
  | running b =>
    refine ⟨faults, ?_, fun r' h => ?_⟩
    · show Verdict plan faults (Record.extend _ k l []) (.running { r with bringUp := b })
      rw [Record.extend_quiet hg.events hg.openings, List.append_nil]
      exact .trying (r := { r with bringUp := b }) planned
    · cases h
      exact ⟨f.mapped, hg.held, hgoing⟩
  | done result =>
    have hends : ((Record.past faults).turnTo r.target none).extend k l [(r.target, result)] =
        (Record.past faults).turnTo r.target (some result) :=
      Record.extend_ends hg.events hg.openings result
    rcases result with e | (link | _)
    · rw [afterBringUp]
      cases he : e.isConnectionFault with
      | false =>
        refine ⟨faults, ?_, fun r' h => by cases h⟩
        have hother : ∀ message, ¬ e.Unreachable message := fun message hu => by
          rw [hu.isConnectionFault] at he
          cases he
        exact hends ▸ Verdict.failed planned hother
      | true =>
        let fault : Fault := ⟨r.target, e, e.reason, Error.unreachable_reason he⟩
        have hlive : l.isShutDown = false := hadv.keeps.isShutDown.trans live
        refine ⟨faults ++ [fault], ?_⟩
        refine verdict_next (l := l.publish _) hlive ?_ (fun hd => ?_)
          (Record.extend_publish (f := fault) hg.events hg.openings) hg.openings
        · rw [planned, List.map_append, List.append_assoc]
          rfl
        · rw [List.map_append, List.nodup_append] at hd
          exact (f.mapped hd.1).insert (f := fault) fun hm =>
            hd.2.2 _ hm _ (List.mem_singleton.mpr rfl) rfl
    · refine ⟨faults, ?_, fun r' h => by cases h⟩
      exact hends ▸ Verdict.found planned (hg.held link rfl)
    · exact absurd trivial hgoing

/-- **A round is decided by the first candidate that does not fail with a connection fault.** Its
candidates are brought up one at a time and in the order of its plan; each that failed with such a
fault is published, in order, and nothing else is. -/
theorem verdict_of_course {p : Progress Round Result} (course : Course plan record p) :
    ∃ faults, Verdict plan faults record p ∧ ∀ r, p = .running r → Follows faults r := by
  induction course with
  | @start k live planned =>
    refine ⟨[], ?_⟩
    have hrecord : Record.extend {} k { k with fabric := k.fabric.takePlan.2 } [] =
        Record.past [] := Record.extend_quiet rfl rfl
    exact verdict_next live planned.symm (fun _ => maps_empty) hrecord rfl
  | @goes k record r signal o _ live heard step ih =>
    obtain ⟨faults, verdict, follows⟩ := ih
    cases verdict with
    | trying planned => exact verdict_goes (follows r rfl) planned live heard step

end Round

end ControlChannel
