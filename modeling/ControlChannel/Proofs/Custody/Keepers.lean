import ControlChannel.Proofs.Control.Steps

/-! # No connection is leaked

Whoever keeps a connection is the slot, a bring-up, an installation, or a shutdown or installation
that took it out of the slot (`Keeper`). Along every run a connection that is not closed has exactly
one keeper (`connection_kept`); the invariant behind it is `Custody`, which every turn keeps because
the turn answers for what it takes over and leaves behind. -/

namespace ControlChannel

/-- Who keeps a connection. -/
inductive Keeper where
  /-- The slot of the active connection. -/
  | slot
  /-- The bring-up of a job. -/
  | bringUp (job : JobId)
  /-- An installation that came too late, and closes the connection that it brought. -/
  | discard (job : JobId)
  /-- An installation or a shutdown that took the connection out of the slot, and closes it. -/
  | taker (job : JobId)
  deriving DecidableEq, Repr

/-- Whether the keeper is closing the connection and will do nothing else with it. -/
def Keeper.closes : Keeper → Bool
  | .slot | .bringUp _ => false
  | .discard _ | .taker _ => true

/-- As what the task of a job keeps the connection that it holds. -/
def Task.keeper (id : JobId) (task : Task) : Keeper :=
  match task.attempt? with
  | some (.installing i) => if i.kept then .taker id else .discard id
  | some _ => .bringUp id
  | none => .taker id

namespace System

/-- The keepers of a connection. -/
def keepers (s : System) (c : ConnectionId) : List Keeper :=
  (if c ∈ Link.ids s.control.active then [.slot] else []) ++
    (s.jobs.filter fun j => c ∈ Link.ids j.task.held?).map fun j => j.task.keeper j.id

end System

/-- All connections are in good hands: each one that is not closed is in exactly one, nobody has
asked to close one that is in use, and everybody has asked to close the others. -/
structure Custody (k : Control) (ts : List Task) : Prop where
  hands : InHands k.fabric (Link.ids k.active ++ Task.held ts)
  known : ∀ c ∈ k.fabric.closings, c < k.fabric.connections.size
  spared : ∀ c ∈ Link.ids k.active ++ Task.used ts, c ∉ k.fabric.closings
  discards : ∀ c ∈ Task.held ts, c ∈ Task.used ts ∨ c ∈ k.fabric.closings
  emptied : k.isShutDown = true → k.active = none

namespace Task

theorem held_append (ts us : List Task) : held (ts ++ us) = held ts ++ held us :=
  List.flatMap_append

theorem used_append (ts us : List Task) : used (ts ++ us) = used ts ++ used us :=
  List.flatMap_append

theorem held_cons (t : Task) (ts : List Task) : held (t :: ts) = Link.ids t.held? ++ held ts := rfl

theorem used_cons (t : Task) (ts : List Task) : used (t :: ts) = Link.ids t.uses? ++ used ts := rfl

/-- What a bring-up has a use for, it holds. -/
theorem held?_of_uses? {task : Task} {link : Link} (h : task.uses? = some link) :
    task.held? = some link := by
  obtain ⟨a, ha, hu⟩ := Option.bind_eq_some_iff.mp h
  rw [held?_of_attempt ha]
  cases a with
  | fresh | installing i => cases hu
  | round r =>
    change r.bringUp.uses? = some link at hu
    show r.bringUp.held? = some link
    cases hb : r.bringUp with
    | opening t => rw [hb] at hu; cases hu
    | closing l e => rw [hb] at hu; cases hu
    | registering l | schema l r | topology l r => rw [hb] at hu; exact hu

theorem mem_held?_of_mem_uses? {task : Task} {c : ConnectionId} (h : c ∈ Link.ids task.uses?) :
    c ∈ Link.ids task.held? := by
  obtain ⟨link, hl, rfl⟩ := List.mem_map.mp h
  rw [held?_of_uses? (Option.mem_toList.mp hl)]
  exact List.mem_singleton.mpr rfl

theorem keeper_of_uses {task : Task} {c : ConnectionId} (id : JobId)
    (h : c ∈ Link.ids task.uses?) : task.keeper id = .bringUp id := by
  obtain ⟨link, hl, rfl⟩ := List.mem_map.mp h
  obtain ⟨a, ha, hu⟩ := Option.bind_eq_some_iff.mp (Option.mem_toList.mp hl)
  cases a with
  | round r => rw [keeper, ha]
  | fresh | installing i => cases hu

theorem mem_held_of_mem_used {ts : List Task} {c : ConnectionId} (h : c ∈ used ts) :
    c ∈ held ts := by
  obtain ⟨t, ht, hc⟩ := List.mem_flatMap.mp h
  exact List.mem_flatMap.mpr ⟨t, ht, mem_held?_of_mem_uses? hc⟩

theorem held_perm {ts us : List Task} (p : ts.Perm us) : (held ts).Perm (held us) :=
  p.flatMap_right _

theorem used_perm {ts us : List Task} (p : ts.Perm us) : (used ts).Perm (used us) :=
  p.flatMap_right _

end Task

namespace Custody

variable {k : Control} {ts us : List Task} {task : Task} {turn : Turn}

theorem perm (p : ts.Perm us) (c : Custody k ts) : Custody k us := by
  have hu := fun x => (Task.used_perm p).mem_iff (a := x)
  refine ⟨c.hands.perm ((Task.held_perm p).append_left _), c.known, fun x hx => c.spared x ?_,
    fun x hx => ?_, c.emptied⟩
  · rcases List.mem_append.mp hx with hx | hx
    · exact List.mem_append_left _ hx
    · exact List.mem_append_right _ ((hu x).mpr hx)
  · exact (c.discards x ((Task.held_perm p).mem_iff.mpr hx)).imp_left (hu x).mp

theorem outside {f : Fabric} (h : k.fabric.Untouched f) (c : Custody k ts) :
    Custody { k with fabric := f } ts := by
  have hc : f.closings = k.fabric.closings := Fabric.closings_congr h.acts
  refine ⟨c.hands.passes (.of_untouched h _), ?_, ?_, ?_, c.emptied⟩
  · show ∀ c ∈ f.closings, c < f.connections.size
    rw [hc, h.size]
    exact c.known
  · show ∀ x ∈ Link.ids k.active ++ Task.used ts, x ∉ f.closings
    rw [hc]
    exact c.spared
  · show ∀ x ∈ Task.held ts, x ∈ Task.used ts ∨ x ∈ f.closings
    rw [hc]
    exact c.discards

/-- The connections pass on, and the other tasks keep theirs. -/
theorem passes (s : Turn.Sound k task turn) (c : Custody k (task :: ts)) :
    InHands turn.control.fabric
      (Link.ids turn.control.active ++ (Task.held turn.tasks ++ Task.held ts)) := by
  have hp := s.custody.frame (Task.held ts)
  rw [List.append_assoc, List.append_assoc, ← Task.held_cons] at hp
  exact c.hands.passes hp

/-- A connection in use was in use before, or is new; a turn asks to close only its own. -/
theorem spared_turn (s : Turn.Sound k task turn) (c : Custody k (task :: ts)) :
    ∀ x ∈ Link.ids turn.control.active ++ Task.used (turn.tasks ++ ts),
      x ∉ turn.control.fabric.closings := by
  obtain ⟨_, hheld, hactive⟩ := List.nodup_append.mp (passes s c).nodup
  obtain ⟨_, _, hothers⟩ := List.nodup_append.mp hheld
  intro x hx hcl
  rw [Task.used_append, ← List.append_assoc] at hx
  rcases s.closings x hcl with hold | ⟨hnew, hunused⟩
  · rcases List.mem_append.mp hx with hx | hx
    · have hfrom : x ∈ Link.ids k.active ++ Link.ids task.uses? ∨
          k.fabric.connections.size ≤ x := by
        rcases List.mem_append.mp hx with hx | hx
        · exact s.actives x hx
        · exact (s.uses x hx).imp_left (List.mem_append_right _)
      rcases hfrom with hx | hx
      · refine c.spared x ?_ hold
        rw [Task.used_cons, ← List.append_assoc]
        exact List.mem_append_left _ hx
      · exact absurd (c.known x hold) (Nat.not_lt.mpr hx)
    · refine c.spared x ?_ hold
      rw [Task.used_cons]
      exact List.mem_append_right _ (List.mem_append_right _ hx)
  · rcases List.mem_append.mp hx with hx | hx
    · rcases List.mem_append.mp hx with hx | hx
      · exact hactive x hx x (List.mem_append_left _ hnew) rfl
      · exact hunused hx
    · exact hothers x hnew x (Task.mem_held_of_mem_used hx) rfl

theorem discards_turn (s : Turn.Sound k task turn) (c : Custody k (task :: ts)) :
    ∀ x ∈ Task.held (turn.tasks ++ ts), x ∈ Task.used (turn.tasks ++ ts) ∨
      x ∈ turn.control.fabric.closings := by
  obtain ⟨_, hheld, _⟩ := List.nodup_append.mp c.hands.nodup
  obtain ⟨_, _, hothers⟩ := List.nodup_append.mp hheld
  intro x hx
  rw [Task.held_append] at hx
  rw [Task.used_append]
  rcases List.mem_append.mp hx with hx | hx
  · exact (s.discards x hx).imp_left (List.mem_append_left _)
  · rcases c.discards x (List.mem_append_right _ hx) with hu | hcl
    · rcases List.mem_append.mp hu with hu | hu
      · -- the connection would be in two hands
        have hown : x ∈ Link.ids task.held? := Task.mem_held?_of_mem_uses? hu
        exact absurd rfl (hothers x hown x hx)
      · exact .inl (List.mem_append_right _ hu)
    · exact .inr (s.asked x hcl)

theorem known_turn (s : Turn.Sound k task turn) (c : Custody k (task :: ts)) :
    ∀ x ∈ turn.control.fabric.closings, x < turn.control.fabric.connections.size := by
  intro x hx
  rcases s.closings x hx with hx | ⟨hx, _⟩
  · exact Nat.lt_of_lt_of_le (c.known x hx) s.custody.grows
  · exact (passes s c).below x (List.mem_append_right _ (List.mem_append_left _ hx))

/-- **Every move keeps the connections in good hands.** -/
theorem invariant : System.Invariant Custody where
  perm := perm
  outside := outside
  called _ c := ⟨c.hands, c.known, c.spared, c.discards, c.emptied⟩
  turn s c := by
    refine ⟨?_, known_turn s c, spared_turn s c, discards_turn s c, fun h => ?_⟩
    · rw [Task.held_append]
      exact passes s c
    · rcases s.emptied h with h | h
      · exact (s.stays h).trans (c.emptied h)
      · exact h

theorem initial (settings : Settings) (store : Store) (balancing : Balancing) :
    Custody (System.initial settings store balancing).control [] := by
  refine ⟨⟨List.nodup_nil, List.forall_mem_nil _, fun c h => ?_⟩, List.forall_mem_nil _,
    List.forall_mem_nil _, List.forall_mem_nil _, fun _ => rfl⟩
  exact absurd (Fabric.isClosed_eq_false h) (Nat.not_lt_zero c)

end Custody

namespace System

theorem custody_of_reaches {settings : Settings} {store : Store} {balancing : Balancing}
    {t : System} (r : Reaches (initial settings store balancing) t) :
    Custody t.control t.tasks :=
  Custody.invariant.reaches (proper_initial settings store balancing) r
    (Custody.initial settings store balancing)

theorem count_ids (link : Option Link) (c : ConnectionId) :
    (Link.ids link).count c = if c ∈ Link.ids link then 1 else 0 := by
  cases link with
  | none => rfl
  | some l =>
    by_cases h : l.id = c
    · simp [h]
    · simp [h, Ne.symm h]

theorem count_held (jobs : List Job) (c : ConnectionId) :
    (Task.held (jobs.map (·.task))).count c =
      (jobs.filter fun j => c ∈ Link.ids j.task.held?).length := by
  induction jobs with
  | nil => rfl
  | cons j jobs ih =>
    rw [List.map_cons, Task.held_cons, List.count_append, count_ids, ih, List.filter_cons]
    by_cases h : c ∈ Link.ids j.task.held?
    · simp [h, Nat.add_comm]
    · simp [h]

/-- There are as many keepers of a connection as hands that it is in. -/
theorem length_keepers (s : System) (c : ConnectionId) :
    (s.keepers c).length = (Link.ids s.control.active ++ Task.held s.tasks).count c := by
  rw [keepers, List.length_append, List.length_map, List.count_append, count_ids, tasks, count_held]
  split <;> rfl

theorem keepers_eq {t : System} (h : Custody t.control t.tasks) {c : ConnectionId}
    (hc : t.control.fabric.isClosed c = false) : ∃ keeper, t.keepers c = [keeper] := by
  refine List.length_eq_one_iff.mp ?_
  rw [length_keepers, h.hands.nodup.count, if_pos (h.hands.account c hc)]

theorem slot_mem_keepers {t : System} {c : ConnectionId} :
    .slot ∈ t.keepers c ↔ c ∈ Link.ids t.control.active := by
  rw [keepers, List.mem_append]
  constructor
  · rintro (h | h)
    · split at h
      · assumption
      · cases h
    · obtain ⟨j, _, hj⟩ := List.mem_map.mp h
      unfold Task.keeper at hj
      repeat' split at hj
      all_goals cases hj
  · intro h
    exact .inl (by rw [if_pos h]; exact List.mem_singleton.mpr rfl)

/-- Whoever is about to close a connection, because it came too late or was taken out of the slot,
has asked it to close. -/
theorem asked_of_closes {t : System} (h : Custody t.control t.tasks) {c : ConnectionId}
    {keeper : Keeper} (hk : t.keepers c = [keeper]) (hc : keeper.closes = true) :
    c ∈ t.control.fabric.closings := by
  have hm : keeper ∈ t.keepers c := hk ▸ List.mem_singleton.mpr rfl
  rcases List.mem_append.mp hm with hm | hm
  · split at hm
    · rw [List.mem_singleton.mp hm] at hc; cases hc
    · cases hm
  · obtain ⟨j, hj, rfl⟩ := List.mem_map.mp hm
    obtain ⟨hj, hheld⟩ := List.mem_filter.mp hj
    have hin : c ∈ Task.held t.tasks :=
      List.mem_flatMap.mpr ⟨j.task, List.mem_map_of_mem hj, of_decide_eq_true hheld⟩
    refine (h.discards c hin).resolve_left fun hu => ?_
    -- a bring-up would keep the connection as well
    obtain ⟨task, ht, hu⟩ := List.mem_flatMap.mp hu
    obtain ⟨i, hi, rfl⟩ := List.mem_map.mp ht
    have hb := Task.keeper_of_uses i.id hu
    have hmem : i.task.keeper i.id ∈ t.keepers c := by
      refine List.mem_append_right _ (List.mem_map.mpr ⟨i, List.mem_filter.mpr ⟨hi, ?_⟩, rfl⟩)
      exact decide_eq_true (Task.mem_held?_of_mem_uses? hu)
    rw [hk, List.mem_singleton, hb] at hmem
    rw [← hmem] at hc
    cases hc

/-- **No connection is leaked.** A connection is closed or has exactly one keeper, who has asked it
to close unless it is a bring-up or the slot; with no work in progress only the slot is left, and
after a shutdown not even that. -/
theorem connection_kept (settings : Settings) (store : Store) (balancing : Balancing) {t : System}
    (r : Reaches (initial settings store balancing) t) :
    (∀ c < t.control.fabric.connections.size, t.control.fabric.isClosed c = true ∨
      ∃ keeper, t.keepers c = [keeper] ∧
        (keeper.closes = true → c ∈ t.control.fabric.closings)) ∧
    (t.jobs = [] → ∀ c < t.control.fabric.connections.size, t.control.fabric.isClosed c = true ∨
      ∃ link, t.control.active = some link ∧ link.id = c) ∧
    (t.control.isShutDown = true → (∀ c, .slot ∉ t.keepers c) ∧
      (t.jobs = [] → ∀ c < t.control.fabric.connections.size,
        t.control.fabric.isClosed c = true)) := by
  have h := custody_of_reaches r
  have hkept : ∀ c, t.control.fabric.isClosed c = true ∨ ∃ keeper, t.keepers c = [keeper] := by
    intro c
    cases hc : t.control.fabric.isClosed c with
    | true => exact .inl rfl
    | false => exact .inr (keepers_eq h hc)
  have hidle : t.jobs = [] → ∀ c, t.control.fabric.isClosed c = true ∨
      ∃ link, t.control.active = some link ∧ link.id = c := by
    intro hj c
    refine (hkept c).imp_right fun ⟨keeper, hk⟩ => ?_
    have hin : c ∈ Link.ids t.control.active := by
      rw [keepers, hj] at hk
      by_cases hc : c ∈ Link.ids t.control.active
      · exact hc
      · rw [if_neg hc] at hk; cases hk
    obtain ⟨link, hl, rfl⟩ := List.mem_map.mp hin
    exact ⟨link, Option.mem_toList.mp hl, rfl⟩
  refine ⟨fun c _ => ?_, fun hj c _ => hidle hj c, fun hs => ⟨fun c hc => ?_, fun hj c _ => ?_⟩⟩
  · exact (hkept c).imp_right fun ⟨keeper, hk⟩ => ⟨keeper, hk, asked_of_closes h hk⟩
  · rw [slot_mem_keepers, h.emptied hs] at hc
    cases hc
  · refine (hidle hj c).resolve_right fun ⟨link, hl, _⟩ => ?_
    rw [h.emptied hs] at hl
    cases hl

theorem connection_kept_replaced : ∃ t, Reaches lone t ∧
    (t.keepers 0 = [.taker 1] ∧ t.keepers 1 = [.slot] ∧ t.control.fabric.isClosed 0 = false) ∧
    ∃ keeper, t.keepers 0 = [keeper] ∧ (keeper.closes = true → 0 ∈ t.control.fabric.closings) := by
  have h : ((lone.run (.trigger :: bringsUp 0 ++ .signal 0 .go :: .trigger :: bringsUp 1)).any
      fun t => t.keepers 0 = [.taker 1] ∧ t.keepers 1 = [.slot] ∧
        t.control.fabric.isClosed 0 = false) = true := by
    decide +kernel
  obtain ⟨t, hr, hk⟩ := exists_reaches h
  refine ⟨t, hr, hk, ?_⟩
  have hc := (connection_kept _ _ _ hr).1 0 (Fabric.isClosed_eq_false hk.2.2)
  rw [hk.2.2] at hc
  exact hc.resolve_left Bool.false_ne_true

end System

end ControlChannel
