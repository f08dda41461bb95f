import ControlChannel.Proofs.Schema.Decoding
import ControlChannel.Topology

/-! # What an answer about peers says

A row says nothing readable if the column is missing or an address has the wrong size
(`Row.PeerFault`). The first such row decides the error (`foundHosts_eq_error`); without one, the
hosts found are the node itself and the peers that the rows name (`exists_foundHosts`). -/

namespace ControlChannel

/-! ## Internet addresses in cells -/

namespace Cell

theorem groupBytes_groupOf (a b : UInt8) : groupBytes (groupOf a b) = [a, b] := by
  have ha := a.toNat_lt
  have hb := b.toNat_lt
  have hword : (groupOf a b).toNat = a.toNat * 0x100 + b.toNat := by
    show _ % 0x10000 = _
    omega
  have hfirst : (a.toNat * 0x100 + b.toNat) / 0x100 = a.toNat := by omega
  have hsecond : (a.toNat * 0x100 + b.toNat).toUInt8 = b := by
    refine UInt8.toNat_inj.mp ?_
    show _ % 0x100 = _
    omega
  rw [groupBytes, hword, hfirst, hsecond]
  exact congrArg (fun x => [x, b]) UInt8.ofNat_toNat

theorem decodeInet_eq_ok {raw : Bytes} {ip : Ip} :
    decodeInet raw = .ok ip ↔ raw = encodeInet ip := by
  refine ⟨fun h => ?_, fun h => h ▸ decodeInet_encodeInet ip⟩
  unfold decodeInet at h
  split at h
  · cases h
    rfl
  · cases h
    simp only [encodeInet, Ipv6.groups, List.flatMap_cons, List.flatMap_nil, groupBytes_groupOf,
      List.cons_append, List.nil_append]
  · cases h

theorem decodeInet_eq_error {raw : Bytes} {fault : CellFault} :
    decodeInet raw = .error fault ↔
      (raw.length ≠ 4 ∧ raw.length ≠ 16) ∧ fault = .inetSize raw.length := by
  unfold decodeInet
  split
  · simp
  · simp
  · rename_i hfour hsixteen
    have hsize : raw.length ≠ 4 ∧ raw.length ≠ 16 := by
      refine ⟨fun h => ?_, fun h => ?_⟩
      · match raw, h with
        | [a, b, c, d], _ => exact hfour a b c d rfl
      · match raw, h with
        | [a0, b0, a1, b1, a2, b2, a3, b3, a4, b4, a5, b5, a6, b6, a7, b7], _ =>
          exact hsixteen a0 b0 a1 b1 a2 b2 a3 b3 a4 b4 a5 b5 a6 b6 a7 b7 rfl
    simp [hsize, eq_comm]

end Cell

/-! ## Rows -/

namespace Row

/-- Why a row says nothing readable of a peer. -/
inductive PeerFault (row : Row) : RowFault → Prop
  | absent (missing : "peer" ∉ row.columns) : PeerFault row (.noColumn "peer")
  | size {raw : Bytes} (given : row.cell "peer" = .ok (some raw))
      (wrong : raw.length ≠ 4 ∧ raw.length ≠ 16) : PeerFault row (.cell (.inetSize raw.length))

/-- The row names a peer with this address. -/
def NamesPeer (row : Row) (ip : Ip) : Prop := row.cell "peer" = .ok (some (Cell.encodeInet ip))

variable {row : Row} {column : String} {fault : RowFault}

theorem cell_eq_error (width : row.cells.length = row.columns.length) :
    row.cell column = .error fault ↔ column ∉ row.columns ∧ fault = .noColumn column := by
  have hnone : (row.columns.zip row.cells).lookup column = none ↔ column ∉ row.columns := by
    rw [List.lookup_eq_none_iff]
    have hnames : (row.columns.zip row.cells).map (·.1) = row.columns :=
      List.map_fst_zip (Nat.le_of_eq width.symm)
    refine ⟨fun h hmem => ?_, fun h p hp => ?_⟩
    · rw [← hnames] at hmem
      obtain ⟨p, hp, rfl⟩ := List.mem_map.mp hmem
      simpa using h p hp
    · refine bne_iff_ne.mpr fun e => h ?_
      rw [← hnames, e]
      exact List.mem_map_of_mem hp
  unfold cell
  split
  · rename_i hsome
    rw [hsome] at hnone
    simp_all
  · rename_i hlookup
    simp [hnone.mp hlookup, eq_comm]

theorem read_eq_error {α : Type} {decode : Bytes → Except CellFault α} :
    row.read decode column = .error fault ↔ row.cell column = .error fault ∨
      ∃ raw e, row.cell column = .ok (some raw) ∧ decode raw = .error e ∧ fault = .cell e := by
  refine bind_eq_error.trans (or_congr_right ⟨?_, ?_⟩)
  · rintro ⟨cell, hcell, h⟩
    cases cell with
    | none => cases h
    | some raw =>
      rcases bind_eq_error.mp h with h | ⟨_, _, h⟩
      · obtain ⟨e, he, rfl⟩ := mapError_eq_error.mp h
        exact ⟨raw, e, hcell, he, rfl⟩
      · cases h
  · rintro ⟨raw, e, hcell, he, rfl⟩
    exact ⟨some raw, hcell, bind_eq_error.mpr (.inl (mapError_eq_error.mpr ⟨e, he, rfl⟩))⟩

theorem inet_eq_error (width : row.cells.length = row.columns.length) :
    row.inet "peer" = .error fault ↔ row.PeerFault fault := by
  rw [inet, read_eq_error, cell_eq_error width]
  constructor
  · rintro (⟨hmissing, rfl⟩ | ⟨raw, e, hgiven, herror, rfl⟩)
    · exact .absent hmissing
    · obtain ⟨hwrong, rfl⟩ := Cell.decodeInet_eq_error.mp herror
      exact .size hgiven hwrong
  · intro h
    cases h with
    | absent missing => exact .inl ⟨missing, rfl⟩
    | size given wrong =>
      exact .inr ⟨_, _, given, Cell.decodeInet_eq_error.mpr ⟨wrong, rfl⟩, rfl⟩

theorem inet_eq_some {ip : Ip} : row.inet "peer" = .ok (some ip) ↔ row.NamesPeer ip := by
  rw [inet, read_eq_some, NamesPeer]
  simp only [Cell.decodeInet_eq_ok, exists_eq_right]

end Row

/-! ## Answers -/

/-- The reply has no rows: what a refresh fails with that needs them. -/
inductive Reply.Rowless : Reply → Error → Prop where
  | rejected (code : Int32) (message : String) :
      Rowless (.rejected code message) (.server code message)
  | ready : Rowless .ready (.protocol "expected rows, got READY")
  | void : Rowless .void (.protocol "expected rows, got VOID")

theorem Reply.exists_rowless {reply : Reply} (h : ∀ set, reply ≠ .rows set) :
    ∃ e, reply.Rowless e := by
  cases reply with
  | rows set => exact absurd rfl (h set)
  | ready => exact ⟨_, .ready⟩
  | void => exact ⟨_, .void⟩
  | rejected code message => exact ⟨_, .rejected code message⟩

theorem Reply.Rowless.resultSet_eq {reply : Reply} {e : Error} (h : reply.Rowless e) :
    reply.resultSet = .error e := by
  cases h <;> rfl

/-- Every row says something readable of a peer, or that there is none. -/
def ResultSet.Legible (set : ResultSet) : Prop := ∀ row ∈ set.rows, ∀ fault, ¬ row.PeerFault fault

theorem ResultSet.width_of_mem_rows {set : ResultSet} {row : Row} (h : row ∈ set.rows) :
    row.cells.length = row.columns.length := by
  obtain ⟨cells, hcells, rfl⟩ := List.mem_map.mp h
  exact set.width cells hcells

theorem ResultSet.exists_first_fault {set : ResultSet} (h : ¬ set.Legible) :
    ∃ before row after fault, set.rows = before ++ row :: after ∧
      (∀ r ∈ before, ∀ fault, ¬ r.PeerFault fault) ∧ row.PeerFault fault := by
  classical
  have hsome : (set.rows.find? fun row => decide (∃ fault, row.PeerFault fault)).isSome := by
    rw [List.find?_isSome]
    simpa [Legible] using h
  obtain ⟨row, hrow⟩ := Option.isSome_iff_exists.mp hsome
  obtain ⟨hfaulty, before, after, hsplit, hbefore⟩ := List.find?_eq_some_iff_append.mp hrow
  obtain ⟨fault, hfault⟩ := of_decide_eq_true hfaulty
  refine ⟨before, row, after, fault, hsplit, fun r hr fault hfault => ?_, hfault⟩
  simpa [show ∃ fault, r.PeerFault fault from ⟨fault, hfault⟩] using hbefore r hr

namespace Topology

/-- The node that answers, or one of the peers that its answer names, on the given port. -/
def Found (connected : Address) (port : UInt16) (peers : ResultSet) (a : Address) : Prop :=
  a = connected ∨ ∃ row ∈ peers.rows, ∃ ip, row.NamesPeer ip ∧ a = .ofIp ip port

variable {connected : Address} {port : UInt16} {peers : ResultSet}

theorem inet_of_legible {row : Row} (hrow : row ∈ peers.rows)
    (h : ∀ fault, ¬ row.PeerFault fault) : ∃ ip, row.inet "peer" = .ok ip := by
  cases hinet : row.inet "peer" with
  | ok ip => exact ⟨ip, rfl⟩
  | error fault =>
    exact absurd ((Row.inet_eq_error (ResultSet.width_of_mem_rows hrow)).mp hinet) (h fault)

theorem foundHosts_eq_error {before after : List Row} {row : Row} {fault : RowFault}
    (split : peers.rows = before ++ row :: after)
    (first : ∀ r ∈ before, ∀ fault, ¬ r.PeerFault fault) (faulty : row.PeerFault fault) :
    foundHosts connected peers port = .error fault := by
  have hmem : ∀ r ∈ before ++ [row], r ∈ peers.rows := fun r hr => by
    rw [split]
    simp only [List.mem_append, List.mem_cons] at hr ⊢
    grind
  have hbefore : ∀ r ∈ before, ∃ ip, r.inet "peer" = .ok ip := fun r hr =>
    inet_of_legible (hmem r (List.mem_append_left _ hr)) (first r hr)
  have hrow : row.inet "peer" = .error fault :=
    (Row.inet_eq_error (ResultSet.width_of_mem_rows (hmem row (by simp)))).mpr faulty
  rw [foundHosts, split, mapM_eq_error hbefore hrow]
  rfl

theorem exists_foundHosts (connected : Address) (port : UInt16) (h : peers.Legible) :
    ∃ found, foundHosts connected peers port = .ok found ∧
      ∀ a, a ∈ found ↔ Found connected port peers a := by
  have hrows := mapM_eq_decoded fun row hrow => inet_of_legible hrow (h row hrow)
  refine ⟨_, by rw [foundHosts, hrows]; rfl, fun a => ?_⟩
  simp only [Std.ExtTreeSet.mem_ofList, List.contains_iff_mem, List.mem_cons, List.mem_filterMap,
    mem_decoded, Option.map_eq_some_iff, Found]
  refine or_congr_right ⟨?_, ?_⟩
  · rintro ⟨_, ⟨row, hrow, hinet⟩, ip, rfl, rfl⟩
    exact ⟨row, hrow, ip, Row.inet_eq_some.mp hinet, rfl⟩
  · rintro ⟨row, hrow, ip, hnames, rfl⟩
    exact ⟨some ip, ⟨row, hrow, Row.inet_eq_some.mpr hnames⟩, ip, rfl, rfl⟩

theorem mem_foundHosts {hosts : Addresses} (h : foundHosts connected peers port = .ok hosts)
    (a : Address) : a ∈ hosts ↔ Found connected port peers a := by
  have hlegible : peers.Legible := by
    refine Classical.byContradiction fun hillegible => ?_
    obtain ⟨_, _, _, _, hsplit, hfirst, hfaulty⟩ := ResultSet.exists_first_fault hillegible
    rw [foundHosts_eq_error hsplit hfirst hfaulty] at h
    cases h
  obtain ⟨found, hfound, hmem⟩ := exists_foundHosts connected port hlegible
  cases h.symm.trans hfound
  exact hmem a

end Topology

end ControlChannel
