import ControlChannel.Proofs.Sessions.Turns
import ControlChannel.Rehearsal.Occupancy

/-! # The slot as a lock that can be revoked

A slot is occupied, released by number, cancelled and revoked in any order, and every handle it
ever gave out stays at hand. What one step can be is said once (`Occupancy.Performs`). A step takes
a handle out of the slot if it is the handle's own release or a cancellation (`holder_performs`),
and cancels it if it is a cancellation that finds it there or the owner's revocation
(`isCancelled_performs`); over a run this gives what became of a handle since it was given out
(`GaveOut.holds_iff`, `GaveOut.isCancelled_iff`). Main statement: `slot_locks`. -/

namespace ControlChannel

theorem Slot.holds_release_of_ne (s : Slot) {h k : Handle} (hne : k ≠ h) :
    (s.release h).holds k = s.holds k := by
  by_cases hh : s.holds h = true
  · have hother : s.holds k = false :=
      holds_eq_false.mpr fun hk => hne (Option.some.inj (hk.symm.trans (beq_iff_eq.mp hh)))
    rw [release, if_pos hh, hother]
    rfl
  · rw [release, if_neg hh]

namespace Rehearsal.Occupancy

/-- What one step can be: what it leaves behind and its result. -/
inductive Performs (o : Occupancy) : OccupancyStep → Occupancy → OccupancyResult → Prop where
  | takes (free : o.slot.holder = none) (unrevoked : o.slot.revoked = false) :
      Performs o .occupy { o with
        slot := { o.slot with holder := some ⟨o.slot.nextId⟩, nextId := o.slot.nextId + 1 }
        handles := o.handles ++ [⟨o.slot.nextId⟩] } (.handle ⟨o.slot.nextId⟩)
  | refused (closed : o.slot.holder ≠ none ∨ o.slot.revoked = true) :
      Performs o .occupy o .nothing
  | frees {n : Nat} {h : Handle} (known : o.handles[n]? = some h)
      (holds : o.slot.holder = some h) :
      Performs o (.release n) { o with slot := { o.slot with holder := none } } (.flag true)
  | stale {n : Nat} {h : Handle} (known : o.handles[n]? = some h)
      (gone : o.slot.holder ≠ some h) : Performs o (.release n) o (.flag false)
  | misses {n : Nat} (unknown : o.handles[n]? = none) : Performs o (.release n) o .nothing
  | evicts {h : Handle} (holds : o.slot.holder = some h) :
      Performs o .cancel
        { o with slot := { o.slot with holder := none, evicted := h :: o.slot.evicted } }
        (.flag true)
  | idles (free : o.slot.holder = none) : Performs o .cancel o (.flag false)
  | revokes (owned : o.owned = true) :
      Performs o .revoke { o with slot := { o.slot with revoked := true } } .nothing
  | ignores (unowned : o.owned = false) : Performs o .revoke o .nothing

variable {o t : Occupancy} {step : OccupancyStep} {r : OccupancyResult} {n : Nat} {h : Handle}

theorem performs_of_perform (hp : o.perform step = (t, r)) : o.Performs step t r := by
  cases step with
  | occupy =>
    simp only [perform] at hp
    split at hp
    · rename_i hnone
      cases hp
      have hclosed := mt o.slot.tryOccupy_isSome_iff.mpr (by simp [hnone])
      by_cases hfree : o.slot.holder = none
      · exact .refused (.inr (Bool.of_not_eq_false fun hr => hclosed ⟨hfree, hr⟩))
      · exact .refused (.inl hfree)
    · rename_i handle slot hsome
      obtain ⟨hfree, hr, rfl, rfl⟩ := Slot.tryOccupy_eq hsome
      cases hp
      exact .takes hfree hr
  | release n =>
    simp only [perform] at hp
    split at hp
    · cases hp
      exact .misses ‹_›
    · rename_i h hknown
      by_cases hh : o.slot.holder = some h
      · have hholds : o.slot.holds h = true := beq_iff_eq.mpr hh
        rw [hholds, Slot.release, if_pos hholds] at hp
        cases hp
        exact .frees hknown hh
      · have hgone : o.slot.holds h = false := Slot.holds_eq_false.mpr hh
        rw [hgone, Slot.release, if_neg (Bool.eq_false_iff.mp hgone)] at hp
        cases hp
        exact .stale hknown hh
  | cancel =>
    simp only [perform, Slot.isActive, Slot.cancel] at hp
    split at hp
    · rename_i h hh
      rw [hh] at hp
      cases hp
      exact .evicts hh
    · rename_i hh
      rw [hh] at hp
      cases hp
      exact .idles hh
  | revoke =>
    simp only [perform] at hp
    split at hp
    · cases hp
      exact .revokes ‹_›
    · cases hp
      exact .ignores (Bool.eq_false_iff.mpr ‹_›)

/-- What holds after every run: ids count the handles given out, and only these were ever in the
slot. -/
structure Orderly (o : Occupancy) : Prop where
  nextId : o.slot.nextId = o.handles.length + 1
  ids : ∀ (n : Nat) h, o.handles[n]? = some h → h.id = n + 1
  holder : ∀ h, o.slot.holder = some h → h ∈ o.handles
  evicted : ∀ h ∈ o.slot.evicted, h ∈ o.handles

theorem orderly_unused (owned : Bool) : Orderly { owned } where
  nextId := rfl
  ids n h hn := by simp at hn
  holder h hh := by cases hh
  evicted h hh := by cases hh

theorem Orderly.performs (ho : o.Orderly) (hp : o.Performs step t r) : t.Orderly := by
  cases hp with
  | takes =>
    refine ⟨?_, fun n h hn => ?_, fun h hh => ?_,
      fun h hh => List.mem_append_left _ (ho.evicted h hh)⟩
    · rw [List.length_append, ho.nextId]
      rfl
    · rw [List.getElem?_append] at hn
      split at hn
      · exact ho.ids n h hn
      · rename_i hlast
        obtain ⟨hzero, rfl⟩ := List.getElem?_eq_some_iff.mp hn
        have := ho.nextId
        simp at hzero ⊢
        omega
    · cases hh
      exact List.mem_append_right _ (List.mem_singleton_self _)
  | refused | stale | misses | idles | ignores => exact ho
  | frees => exact ⟨ho.nextId, ho.ids, fun h hh => (by cases hh), ho.evicted⟩
  | evicts holds =>
    refine ⟨ho.nextId, ho.ids, fun h hh => (by cases hh), fun h hh => ?_⟩
    rcases List.mem_cons.mp hh with rfl | hh
    · exact ho.holder h holds
    · exact ho.evicted h hh
  | revokes => exact ⟨ho.nextId, ho.ids, ho.holder, ho.evicted⟩

/-- Handles are told apart by their numbers. -/
theorem Orderly.number_unique (ho : o.Orderly) {m : Nat} (hn : o.handles[n]? = some h)
    (hm : o.handles[m]? = some h) : m = n :=
  Nat.succ.inj ((ho.ids m h hm).symm.trans (ho.ids n h hn))

theorem Orderly.lt_nextId (ho : o.Orderly) (hh : h ∈ o.handles) : h.id < o.slot.nextId := by
  obtain ⟨n, hn⟩ := List.mem_iff_getElem?.mp hh
  have hlt := (List.getElem?_eq_some_iff.mp hn).1
  have hid := ho.ids n h hn
  have hnext := ho.nextId
  omega

/-! ## What a step does to a handle -/

theorem known_performs (known : o.handles[n]? = some h) (hp : o.Performs step t r) :
    t.handles[n]? = some h := by
  cases hp with
  | takes =>
    rw [List.getElem?_append_left (List.getElem?_eq_some_iff.mp known).1]
    exact known
  | refused | frees | stale | misses | evicts | idles | revokes | ignores => exact known

/-- A handle leaves the slot by its own release or by a cancellation, and never comes back. -/
theorem holder_performs (ho : o.Orderly) (known : o.handles[n]? = some h)
    (hp : o.Performs step t r) :
    t.slot.holder = some h ↔ o.slot.holder = some h ∧ step ≠ .release n ∧ step ≠ .cancel := by
  have hstays : ∀ {P Q : Prop}, P → Q →
      (o.slot.holder = some h ↔ o.slot.holder = some h ∧ P ∧ Q) := fun hP hQ =>
    ⟨fun hh => ⟨hh, hP, hQ⟩, fun hh => hh.1⟩
  cases hp with
  | takes free _ =>
    refine ⟨fun e => ?_, fun e => ?_⟩
    · -- whoever is in the slot now has an id that no known handle has
      cases e
      exact absurd (ho.lt_nextId (List.mem_of_getElem? known)) (Nat.lt_irrefl _)
    · rw [free] at e
      cases e.1
  | refused | revokes | ignores => exact hstays (fun e => by cases e) (fun e => by cases e)
  | @frees m k hk holds =>
    refine ⟨fun e => (by cases e), fun ⟨hh, hother, _⟩ => ?_⟩
    cases holds.symm.trans hh
    exact absurd (congrArg _ (ho.number_unique known hk)) hother
  | @stale m k hk gone =>
    refine ⟨fun hh => ⟨hh, fun e => ?_, fun e => (by cases e)⟩, fun hh => hh.1⟩
    cases e
    cases known.symm.trans hk
    exact gone hh
  | @misses m unknown =>
    refine hstays (fun e => ?_) (fun e => by cases e)
    cases e
    rw [unknown] at known
    cases known
  | evicts => exact ⟨fun e => (by cases e), fun hh => absurd rfl hh.2.2⟩
  | idles free =>
    rw [free]
    exact ⟨fun e => (by cases e), fun hh => (by cases hh.1)⟩

/-- A handle becomes cancelled when a cancellation finds it in the slot or the owner revokes the
slot, and stays so. -/
theorem isCancelled_performs (h : Handle) (hp : o.Performs step t r) :
    t.slot.isCancelled h = true ↔ o.slot.isCancelled h = true ∨
      (step = .cancel ∧ o.slot.holder = some h) ∨ (step = .revoke ∧ o.owned = true) := by
  cases hp with
  | takes | refused | frees | stale | misses => simp [Slot.isCancelled]
  | evicts holds =>
    simp only [Slot.isCancelled, List.contains_cons, Bool.or_eq_true, beq_iff_eq, holds,
      Option.some.injEq, true_and, reduceCtorEq, false_and, or_false]
    grind
  | idles free => simp [free]
  | revokes owned => simp [Slot.isCancelled, owned]
  | ignores unowned => simp [unowned]

theorem owned_performs (hp : o.Performs step t r) : t.owned = o.owned := by
  cases hp <;> rfl

theorem revoked_performs (hp : o.Performs step t r) :
    t.slot.revoked = true ↔ o.slot.revoked = true ∨ (step = .revoke ∧ o.owned = true) := by
  cases hp with
  | takes | refused | frees | stale | misses | evicts | idles => simp
  | revokes owned => simp [owned]
  | ignores unowned => simp [unowned]

/-- A handle known after a step was known before or is the one the step gave out. -/
theorem known_of_performs (hp : o.Performs step t r) (known : t.handles[n]? = some h) :
    o.handles[n]? = some h ∨ (step = .occupy ∧ r = .handle h ∧ o.handles.length = n) := by
  cases hp with
  | takes =>
    by_cases hlt : n < o.handles.length
    · rw [List.getElem?_append_left hlt] at known
      exact .inl known
    · obtain ⟨hlast, rfl⟩ := List.getElem?_eq_some_iff.mp known
      rw [List.length_append, List.length_singleton] at hlast
      have hn : o.handles.length = n := by omega
      refine .inr ⟨rfl, ?_, hn⟩
      simp [← hn]
  | refused | frees | stale | misses | evicts | idles | revokes | ignores => exact .inl known

/-- A handle is in the slot, and not cancelled, right after it was given out. -/
theorem taken_of_performs (ho : o.Orderly) (hp : o.Performs .occupy t (.handle h)) :
    t.handles[o.handles.length]? = some h ∧ t.slot.holder = some h ∧
      t.slot.isCancelled h = false := by
  cases hp with
  | takes _ unrevoked =>
    refine ⟨by simp, rfl, ?_⟩
    rw [Slot.isCancelled, unrevoked, Bool.false_or, List.contains_eq_mem, decide_eq_false_iff_not]
    exact fun hevicted => Nat.lt_irrefl _ (ho.lt_nextId (ho.evicted _ hevicted))

theorem id_of_performs (ho : o.Orderly) (hp : o.Performs .occupy t (.handle h)) :
    h.id = o.handles.length + 1 ∧ ∀ k ∈ o.handles, k.id < h.id := by
  cases hp with
  | takes => exact ⟨ho.nextId, fun k hk => ho.lt_nextId hk⟩

/-! ## Runs -/

/-- What these steps in a row leave behind. -/
def run (o : Occupancy) (steps : List OccupancyStep) : Occupancy :=
  steps.foldl (fun o step => (o.perform step).1) o

/-- The handle with this number stays in the slot over these steps: it is not released and the
slot is not cancelled. -/
def Lasts (n : Nat) (steps : List OccupancyStep) : Prop :=
  .release n ∉ steps ∧ .cancel ∉ steps

/-- One of these steps is a cancellation up to which the handle with this number lasts. -/
def Evicts (n : Nat) (steps : List OccupancyStep) : Prop :=
  ∃ before after, steps = before ++ .cancel :: after ∧ Lasts n before

variable {steps : List OccupancyStep}

theorem performs_perform (o : Occupancy) (step : OccupancyStep) :
    o.Performs step (o.perform step).1 (o.perform step).2 :=
  performs_of_perform rfl

theorem run_cons (o : Occupancy) (step : OccupancyStep) (rest : List OccupancyStep) :
    o.run (step :: rest) = (o.perform step).1.run rest := rfl

theorem run_append (o : Occupancy) (before after : List OccupancyStep) :
    o.run (before ++ after) = (o.run before).run after :=
  List.foldl_append

theorem lasts_cons : Lasts n (step :: steps) ↔
    (step ≠ .release n ∧ step ≠ .cancel) ∧ Lasts n steps := by
  simp only [Lasts, List.mem_cons, not_or]
  grind

theorem evicts_cons : Evicts n (step :: steps) ↔
    step = .cancel ∨ ((step ≠ .release n ∧ step ≠ .cancel) ∧ Evicts n steps) := by
  constructor
  · rintro ⟨_ | ⟨first, before⟩, after, he, hlasts⟩
    · exact .inl (List.cons.inj he).1
    · obtain ⟨rfl, htail⟩ := List.cons.inj he
      obtain ⟨hfirst, hbefore⟩ := lasts_cons.mp hlasts
      exact .inr ⟨hfirst, before, after, htail, hbefore⟩
  · rintro (rfl | ⟨hfirst, before, after, rfl, hlasts⟩)
    · exact ⟨[], steps, rfl, by simp [Lasts]⟩
    · exact ⟨step :: before, after, rfl, lasts_cons.mpr ⟨hfirst, hlasts⟩⟩

theorem Orderly.run (ho : o.Orderly) (steps : List OccupancyStep) : (o.run steps).Orderly := by
  induction steps generalizing o with
  | nil => exact ho
  | cons step rest ih => exact ih (ho.performs (o.performs_perform step))

theorem known_run (known : o.handles[n]? = some h) (steps : List OccupancyStep) :
    (o.run steps).handles[n]? = some h := by
  induction steps generalizing o with
  | nil => exact known
  | cons step rest ih => exact ih (known_performs known (o.performs_perform step))

theorem owned_run (o : Occupancy) (steps : List OccupancyStep) :
    (o.run steps).owned = o.owned := by
  induction steps generalizing o with
  | nil => rfl
  | cons step rest ih => exact (ih _).trans (owned_performs (o.performs_perform step))

theorem revoked_run (o : Occupancy) (steps : List OccupancyStep) :
    (o.run steps).slot.revoked = true ↔
      o.slot.revoked = true ∨ (o.owned = true ∧ .revoke ∈ steps) := by
  induction steps generalizing o with
  | nil => simp [run]
  | cons step rest ih =>
    have hp := o.performs_perform step
    have hrest := ih (o.perform step).1
    rw [revoked_performs hp, owned_performs hp] at hrest
    rw [run_cons, hrest, List.mem_cons]
    grind

theorem holder_run (ho : o.Orderly) (known : o.handles[n]? = some h)
    (steps : List OccupancyStep) :
    (o.run steps).slot.holder = some h ↔ o.slot.holder = some h ∧ Lasts n steps := by
  induction steps generalizing o with
  | nil => simp [run, Lasts]
  | cons step rest ih =>
    have hp := o.performs_perform step
    rw [run_cons, ih (ho.performs hp) (known_performs known hp),
      holder_performs ho known hp, lasts_cons, and_assoc]

theorem isCancelled_run (ho : o.Orderly) (known : o.handles[n]? = some h)
    (steps : List OccupancyStep) :
    (o.run steps).slot.isCancelled h = true ↔ o.slot.isCancelled h = true ∨
      (o.slot.holder = some h ∧ Evicts n steps) ∨ (o.owned = true ∧ .revoke ∈ steps) := by
  induction steps generalizing o with
  | nil => simp [run, Evicts]
  | cons step rest ih =>
    have hp := o.performs_perform step
    rw [run_cons, ih (ho.performs hp) (known_performs known hp),
      holder_performs ho known hp, isCancelled_performs h hp, owned_performs hp, evicts_cons,
      List.mem_cons]
    grind

/-- A handle known after a run was known before or given out on the way. -/
theorem known_of_run (known : (o.run steps).handles[n]? = some h) :
    o.handles[n]? = some h ∨ ∃ before after, steps = before ++ .occupy :: after ∧
      (o.run before).handles.length = n ∧ ((o.run before).perform .occupy).2 = .handle h := by
  induction steps generalizing o with
  | nil => exact .inl known
  | cons step rest ih =>
    rcases ih known with hknown | ⟨before, after, rfl, hn, hgiven⟩
    · rcases known_of_performs (o.performs_perform step) hknown with hold | ⟨rfl, hgiven, hn⟩
      · exact .inl hold
      · exact .inr ⟨[], rest, rfl, hn, hgiven⟩
    · exact .inr ⟨step :: before, after, rfl, hn, hgiven⟩

/-! ## The lock -/

/-- The past gave out this handle under this number, and these are the steps since. -/
def GaveOut (owned : Bool) (past : List OccupancyStep) (n : Nat) (h : Handle)
    (since : List OccupancyStep) : Prop :=
  ∃ before, past = before ++ .occupy :: since ∧ (run { owned } before).handles.length = n ∧
    ((run { owned } before).perform .occupy).2 = .handle h

variable {owned : Bool} {past since : List OccupancyStep}

theorem orderly_run (owned : Bool) (past : List OccupancyStep) : (run { owned } past).Orderly :=
  (orderly_unused owned).run past

theorem gaveOut_of_known (known : (run { owned } past).handles[n]? = some h) :
    ∃ since, GaveOut owned past n h since := by
  rcases known_of_run known with hnone | ⟨before, since, hpast, hn, hgiven⟩
  · cases hnone
  · exact ⟨since, before, hpast, hn, hgiven⟩

/-- The steps since the handle was given out begin with the handle in the slot. -/
theorem GaveOut.exists_start (hg : GaveOut owned past n h since) : ∃ t : Occupancy,
    run { owned } past = t.run since ∧ t.Orderly ∧ t.owned = owned ∧ t.handles[n]? = some h ∧
      t.slot.holder = some h ∧ t.slot.isCancelled h = false := by
  obtain ⟨before, rfl, rfl, hgiven⟩ := hg
  have ho := orderly_run owned before
  have hp := (run { owned } before).performs_perform .occupy
  refine ⟨((run { owned } before).perform .occupy).1, run_append _ _ _, ho.performs hp,
    (owned_performs hp).trans (owned_run _ _), ?_⟩
  rw [hgiven] at hp
  exact taken_of_performs ho hp

theorem GaveOut.known (hg : GaveOut owned past n h since) :
    (run { owned } past).handles[n]? = some h := by
  obtain ⟨t, hrun, _, _, hknown, _⟩ := hg.exists_start
  rw [hrun]
  exact known_run hknown since

theorem GaveOut.holds_iff (hg : GaveOut owned past n h since) :
    (run { owned } past).slot.holds h = true ↔ Lasts n since := by
  obtain ⟨t, hrun, ho, _, hknown, hholder, _⟩ := hg.exists_start
  rw [hrun, Slot.holds, beq_iff_eq, holder_run ho hknown]
  exact and_iff_right hholder

theorem GaveOut.isCancelled_iff (hg : GaveOut owned past n h since) :
    (run { owned } past).slot.isCancelled h = true ↔
      Evicts n since ∨ (owned = true ∧ .revoke ∈ since) := by
  obtain ⟨t, hrun, ho, howned, hknown, hholder, hlive⟩ := hg.exists_start
  rw [hrun, isCancelled_run ho hknown, hlive, howned]
  simp [hholder]

theorem occupies_iff (o : Occupancy) : (∃ h, (o.perform .occupy).2 = .handle h) ↔
    o.slot.isActive = false ∧ o.slot.revoked = false := by
  have hp := o.performs_perform .occupy
  generalize (o.perform .occupy).1 = t at hp
  generalize (o.perform .occupy).2 = r at hp
  cases hp with
  | takes free unrevoked => simp [Slot.isActive, free, unrevoked]
  | refused closed =>
    constructor
    · rintro ⟨_, e⟩
      cases e
    rintro ⟨hfree, hunrevoked⟩
    rcases closed with hholder | hrevoked
    · exact absurd (Option.not_isSome_iff_eq_none.mp (Bool.eq_false_iff.mp hfree)) hholder
    · cases hrevoked.symm.trans hunrevoked

theorem Orderly.isActive_iff (ho : o.Orderly) :
    o.slot.isActive = true ↔ ∃ h ∈ o.handles, o.slot.holds h = true := by
  rw [Slot.isActive, Option.isSome_iff_exists]
  refine exists_congr fun h => ?_
  rw [Slot.holds, beq_iff_eq]
  exact ⟨fun hh => ⟨ho.holder h hh, hh⟩, fun hh => hh.2⟩

theorem perform_release (known : o.handles[n]? = some h) :
    o.perform (.release n) = ({ o with slot := o.slot.release h }, .flag (o.slot.holds h)) := by
  simp only [perform, known]

/-- **However the slot was occupied, released by number, cancelled and revoked in the past, it works
as a lock. It can be occupied exactly if no handle given out is in it and its owner has not revoked
it, and the new handle's id counts the occupations, so that it is none of those given out before (in
a word of sixty-four bits as long as there are fewer than `2 ^ 64` of them). A cancellation tells
whether a handle was in the slot. Of every handle given out: it is in the slot exactly as long as it
was neither released nor the slot cancelled since; its release tells whether it is in the slot, and
if not, leaves everything as it is, and never moves another handle; it is cancelled exactly if a
cancellation found it in the slot or the owner has revoked the slot since, and stays so whatever
comes.** -/
theorem slot_locks (owned : Bool) (past : List OccupancyStep) :
    let o := run { owned } past
    ((∃ h, (o.perform .occupy).2 = .handle h) ↔
      (∀ h ∈ o.handles, o.slot.holds h = false) ∧ ¬(owned = true ∧ .revoke ∈ past)) ∧
    (∀ h, (o.perform .occupy).2 = .handle h →
      h.id = o.handles.length + 1 ∧ ∀ k ∈ o.handles, k.id < h.id) ∧
    (∃ active, (o.perform .cancel).2 = .flag active ∧
      (active = true ↔ ∃ h ∈ o.handles, o.slot.holds h = true)) ∧
    (∀ (n : Nat) h, o.handles[n]? = some h ↔ ∃ since, GaveOut owned past n h since) ∧
    ∀ n h since, GaveOut owned past n h since →
      (o.slot.holds h = true ↔ Lasts n since) ∧
      (o.perform (.release n)).2 = .flag (o.slot.holds h) ∧
      (o.slot.holds h = false → (o.perform (.release n)).1 = o) ∧
      (∀ k, k ≠ h → (o.perform (.release n)).1.slot.holds k = o.slot.holds k) ∧
      (o.slot.isCancelled h = true ↔ Evicts n since ∨ (owned = true ∧ .revoke ∈ since)) ∧
      ∀ more, o.slot.isCancelled h = true → (o.run more).slot.isCancelled h = true := by
  intro o
  have ho : o.Orderly := orderly_run owned past
  have hrevoked : o.slot.revoked = true ↔ owned = true ∧ .revoke ∈ past := by
    rw [revoked_run]
    simp
  refine ⟨?_, fun h hh => ?_, ⟨o.slot.isActive, rfl, ho.isActive_iff⟩,
    fun n h => ⟨gaveOut_of_known, fun ⟨_, hg⟩ => hg.known⟩, fun n h since hg => ?_⟩
  · rw [occupies_iff, ← Bool.not_eq_true, ← Bool.not_eq_true, ho.isActive_iff, hrevoked]
    simp
  · have hp := o.performs_perform .occupy
    rw [hh] at hp
    exact id_of_performs ho hp
  · have hrelease := perform_release hg.known
    refine ⟨hg.holds_iff, by rw [hrelease], fun hgone => ?_, fun k hk => ?_, hg.isCancelled_iff,
      fun more hc => (isCancelled_run ho hg.known more).mpr (.inl hc)⟩
    · rw [hrelease, Slot.release, hgone]
      rfl
    · rw [hrelease]
      exact o.slot.holds_release_of_ne hk

end Rehearsal.Occupancy

end ControlChannel
