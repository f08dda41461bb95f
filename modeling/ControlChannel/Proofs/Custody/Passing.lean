import ControlChannel.Proofs.Acts

/-! # Custody of connections

Every connection that is not closed is in somebody's hands: the slot's, a bring-up's, an
installation's or a shutdown's. A piece of work takes connections over from those of `xs` and
leaves them with those of `ys`, and what it does to the fabric in between answers for the
difference (`Passes`). Such steps compose, and whoever is not concerned keeps what he has
(`Passes.frame`), so that all connections stay in good hands (`InHands.passes`). -/

namespace ControlChannel

/-- The number of the connection behind a link, if there is a link. -/
def Link.ids (link : Option Link) : List ConnectionId := link.toList.map (·.id)

@[simp] theorem Link.ids_none : Link.ids none = [] := rfl

@[simp] theorem Link.ids_some (link : Link) : Link.ids (some link) = [link.id] := rfl

theorem Fabric.isClosed_eq_false {f : Fabric} {c : ConnectionId} (h : f.isClosed c = false) :
    c < f.connections.size := by
  apply Nat.lt_of_not_le
  intro hc
  rw [isClosed, connection?, Array.getElem?_eq_none hc] at h
  cases h

theorem Fabric.isClosed_accept (f : Fabric) (a : Address) (c : ConnectionId) :
    (f.accept a).1.isClosed c = (decide (c ≠ f.connections.size) && f.isClosed c) := by
  simp only [isClosed, connection?, accept, Array.getElem?_push]
  by_cases h : c = f.connections.size <;> simp [h]

/-- Custody passes from `xs` to `ys` while the fabric goes from `f` to `g`. -/
structure Passes (f g : Fabric) (xs ys : List ConnectionId) : Prop where
  grows : f.connections.size ≤ g.connections.size
  known : ∀ c ∈ ys, c ∈ xs ∨ (f.connections.size ≤ c ∧ c < g.connections.size)
  account : ∀ c, g.isClosed c = false → c ∈ ys ∨ (c ∉ xs ∧ f.isClosed c = false)
  nodup : xs.Nodup → (∀ c ∈ xs, c < f.connections.size) → ys.Nodup

namespace Passes

variable {f g h : Fabric} {xs ys zs : List ConnectionId}

theorem below (p : Passes f g xs ys) (hx : ∀ c ∈ xs, c < f.connections.size) :
    ∀ c ∈ ys, c < g.connections.size := by
  intro c hc
  rcases p.known c hc with hc | hc
  · exact Nat.lt_of_lt_of_le (hx c hc) p.grows
  · exact hc.2

/-- Nothing passes when no connection is opened and none reopened. -/
theorem of_closed (hs : g.connections.size = f.connections.size)
    (hc : ∀ c, f.isClosed c = true → g.isClosed c = true) (xs : List ConnectionId) :
    Passes f g xs xs := by
  refine ⟨Nat.le_of_eq hs.symm, fun c hx => .inl hx, fun c ho => ?_, fun hn _ => hn⟩
  by_cases hx : c ∈ xs
  · exact .inl hx
  · refine .inr ⟨hx, ?_⟩
    cases hf : f.isClosed c with
    | false => rfl
    | true => rw [hc c hf] at ho; cases ho

theorem of_connections (hc : g.connections = f.connections) (xs : List ConnectionId) :
    Passes f g xs xs := by
  refine of_closed (by rw [hc]) (fun c hf => ?_) xs
  rw [← hf, Fabric.isClosed, Fabric.isClosed, Fabric.connection?, Fabric.connection?, hc]

theorem of_untouched (u : Fabric.Untouched f g) (xs : List ConnectionId) : Passes f g xs xs :=
  of_closed u.size u.closed xs

theorem trans (p : Passes f g xs ys) (q : Passes g h ys zs) : Passes f h xs zs := by
  refine ⟨Nat.le_trans p.grows q.grows, ?_, ?_, ?_⟩
  · intro c hc
    rcases q.known c hc with hc | hc
    · rcases p.known c hc with hc | hc
      · exact .inl hc
      · exact .inr ⟨hc.1, Nat.lt_of_lt_of_le hc.2 q.grows⟩
    · exact .inr ⟨Nat.le_trans p.grows hc.1, hc.2⟩
  · intro c ho
    rcases q.account c ho with hc | ⟨hy, ho⟩
    · exact .inl hc
    · rcases p.account c ho with hc | hc
      · exact absurd hc hy
      · exact .inr hc
  · intro hn hx
    exact q.nodup (p.nodup hn hx) (p.below hx)

/-- Hands that are not concerned keep what they have. -/
theorem frame (p : Passes f g xs ys) (rest : List ConnectionId) :
    Passes f g (xs ++ rest) (ys ++ rest) := by
  refine ⟨p.grows, ?_, ?_, ?_⟩
  · intro c hc
    rcases List.mem_append.mp hc with hc | hc
    · rcases p.known c hc with hc | hc
      · exact .inl (List.mem_append_left _ hc)
      · exact .inr hc
    · exact .inl (List.mem_append_right _ hc)
  · intro c ho
    rcases p.account c ho with hc | ⟨hx, hf⟩
    · exact .inl (List.mem_append_left _ hc)
    · by_cases hr : c ∈ rest
      · exact .inl (List.mem_append_right _ hr)
      · exact .inr ⟨fun hc => (List.mem_append.mp hc).elim hx hr, hf⟩
  · intro hn hb
    obtain ⟨hx, hr, hd⟩ := List.nodup_append.mp hn
    refine List.nodup_append.mpr
      ⟨p.nodup hx fun c hc => hb c (List.mem_append_left _ hc), hr, ?_⟩
    intro c hy d hc e
    subst e
    rcases p.known c hy with hx | hnew
    · exact hd c hx c hc rfl
    · exact absurd (hb c (List.mem_append_right _ hc)) (Nat.not_lt.mpr hnew.1)

theorem perm {xs' ys' : List ConnectionId} (p : Passes f g xs ys) (hx : xs.Perm xs')
    (hy : ys.Perm ys') : Passes f g xs' ys' := by
  refine ⟨p.grows, ?_, ?_, ?_⟩
  · intro c hc
    rcases p.known c (hy.mem_iff.mpr hc) with hc | hc
    · exact .inl (hx.mem_iff.mp hc)
    · exact .inr hc
  · intro c ho
    rcases p.account c ho with hc | ⟨hc, hf⟩
    · exact .inl (hy.mem_iff.mp hc)
    · exact .inr ⟨fun h => hc (hx.mem_iff.mpr h), hf⟩
  · intro hn hb
    exact hy.nodup_iff.mp (p.nodup (hx.nodup_iff.mpr hn) fun c hc => hb c (hx.mem_iff.mp hc))

theorem accept (f : Fabric) (a : Address) :
    Passes f (f.accept a).1 [] [(f.accept a).2.id] := by
  refine ⟨by simp [Fabric.accept], ?_, ?_, fun _ _ => by simp⟩
  · intro c hc
    rw [List.mem_singleton.mp hc]
    exact .inr ⟨Nat.le_refl _, by simp [Fabric.accept]⟩
  · intro c ho
    rw [Fabric.isClosed_accept] at ho
    by_cases h : c = f.connections.size
    · exact .inl (by rw [h]; exact List.mem_singleton.mpr rfl)
    · exact .inr ⟨List.not_mem_nil, by simpa [h] using ho⟩

/-- A connection that is closed is in nobody's hands any more. -/
theorem lose (f : Fabric) (c : ConnectionId) : Passes f (f.lose c) [c] [] := by
  refine ⟨by simp [Fabric.lose], fun d hd => absurd hd List.not_mem_nil, ?_, fun _ _ => by simp⟩
  intro d ho
  rw [Fabric.isClosed_lose, Bool.or_eq_false_iff] at ho
  refine .inr ⟨fun hd => ?_, ho.2⟩
  rw [List.mem_singleton.mp hd] at ho
  simp at ho

/-- A connection that is closed already can be let go of. -/
theorem drop {c : ConnectionId} (hc : f.isClosed c = true) (xs : List ConnectionId) :
    Passes f f (xs ++ [c]) xs := by
  refine ⟨Nat.le_refl _, fun d hd => .inl (List.mem_append_left _ hd), ?_, fun hn _ =>
    (List.nodup_append.mp hn).1⟩
  intro d ho
  by_cases hd : d ∈ xs
  · exact .inl hd
  · refine .inr ⟨fun h => ?_, ho⟩
    rcases List.mem_append.mp h with h | h
    · exact hd h
    · rw [List.mem_singleton.mp h, hc] at ho; cases ho

end Passes

/-- Every connection that is not closed is in exactly one of the hands. -/
structure InHands (f : Fabric) (xs : List ConnectionId) : Prop where
  nodup : xs.Nodup
  below : ∀ c ∈ xs, c < f.connections.size
  account : ∀ c, f.isClosed c = false → c ∈ xs

theorem InHands.passes {f g : Fabric} {xs ys : List ConnectionId} (h : InHands f xs)
    (p : Passes f g xs ys) : InHands g ys := by
  refine ⟨p.nodup h.nodup h.below, p.below h.below, fun c ho => ?_⟩
  rcases p.account c ho with hc | ⟨hc, hf⟩
  · exact hc
  · exact absurd (h.account c hf) hc

theorem InHands.perm {f : Fabric} {xs ys : List ConnectionId} (h : InHands f xs)
    (p : xs.Perm ys) : InHands f ys :=
  ⟨p.nodup_iff.mp h.nodup, fun c hc => h.below c (p.mem_iff.mpr hc),
    fun c ho => p.mem_iff.mp (h.account c ho)⟩

end ControlChannel
