import IbcRelayer.RelayApi

/-!
# IbcRelayer — what the transaction of `Relay` inserts

* `PacketInfo.key` — the key of the row that a packet is stored under;
* `insertPackets_append`, `relay_append` — rows are only added, and those that are new have nothing
  recorded;
* `insertPackets_stored`, `insertPackets_conflict` — the loop stores every packet whose destination
  is known, and it fails when one of them is there already.
-/

namespace IbcRelayer

open RelayerAPIService

/-- The key that a packet of the chain is stored under. -/
def PacketInfo.key (packet : PacketInfo) (chainID : String) : RowKey :=
  ⟨chainID, packet.sourceClient, packet.sequence.toUInt32.toInt32⟩

/-- The configuration knows the chain that the packet goes to. -/
def PacketInfo.Known (packet : PacketInfo) (config : ConfigReader) (chainID : String) : Prop :=
  ∃ dest, getClientCounterpartyChainID config chainID packet.sourceClient = .ok dest

section Loop

variable {config : ConfigReader} {chainID txHash : String} {packets : List (PacketInfo × Int32)}
  {rows rows' : List Ibcv2Transfer} {packet : PacketInfo} {id : Int32}

/-- A row is inserted at the end, when its key is free. -/
theorem insertIBCV2Transfer_inv {arg : InsertIBCV2TransferParams}
    (h : insertIBCV2Transfer arg id rows = some rows') :
    row rows (arg.toRow id).key = none ∧ rows' = rows ++ [arg.toRow id] := by
  unfold insertIBCV2Transfer at h
  split at h
  · cases h
  · rename_i hnew
    cases h
    exact ⟨Option.not_isSome_iff_eq_none.mp hnew, rfl⟩

/-- The loop adds rows that are as a packet is inserted. -/
theorem insertPackets_append
    (h : insertPackets config chainID txHash packets rows = some rows') :
    ∃ added, rows' = rows ++ added
      ∧ ∀ r ∈ added, ∃ arg id, r = InsertIBCV2TransferParams.toRow arg id := by
  induction packets generalizing rows with
  | nil =>
    cases h
    exact ⟨[], (List.append_nil _).symm, List.forall_mem_nil _⟩
  | cons entry rest ih =>
    unfold insertPackets at h
    split at h
    · exact ih h
    · obtain ⟨rows₁, hinsert, h⟩ := Option.bind_eq_some_iff.mp h
      obtain ⟨-, rfl⟩ := insertIBCV2Transfer_inv hinsert
      obtain ⟨added, rfl, hadded⟩ := ih h
      exact ⟨_, List.append_assoc _ _ _, List.forall_mem_cons.mpr ⟨⟨_, _, rfl⟩, hadded⟩⟩

/-- So does `Relay`; a call that fails adds none. -/
theorem relay_append (config : ConfigReader) (chainID txHash : String)
    (packets : List (PacketInfo × Int32)) (rows : List Ibcv2Transfer) :
    ∃ added, relay config chainID txHash packets rows = rows ++ added
      ∧ ∀ r ∈ added, ∃ arg id, r = InsertIBCV2TransferParams.toRow arg id := by
  unfold relay
  split
  · exact ⟨[], (List.append_nil _).symm, List.forall_mem_nil _⟩
  · cases h : insertPackets config chainID txHash packets rows with
    | none => exact ⟨[], (List.append_nil _).symm, List.forall_mem_nil _⟩
    | some rows' => exact insertPackets_append h

/-- A row that is there after `Relay` was there before, or is as a packet is inserted. -/
theorem relay_rows {r : Ibcv2Transfer} (hr : r ∈ relay config chainID txHash packets rows) :
    r ∈ rows ∨ ∃ arg id, r = InsertIBCV2TransferParams.toRow arg id := by
  obtain ⟨added, heq, hadded⟩ := relay_append config chainID txHash packets rows
  rw [heq] at hr
  exact (List.mem_append.mp hr).imp_right (hadded r)

/-- A packet whose destination is known gets a row of its own. -/
theorem insertPackets_stored {dest : String}
    (h : insertPackets config chainID txHash packets rows = some rows')
    (hmem : (packet, id) ∈ packets)
    (hdest : getClientCounterpartyChainID config chainID packet.sourceClient = .ok dest) :
    row rows' (packet.key chainID) = some ((packet.insert chainID dest txHash).toRow id) := by
  induction packets generalizing rows with
  | nil => cases hmem
  | cons entry rest ih =>
    unfold insertPackets at h
    rcases List.mem_cons.mp hmem with rfl | hmem
    · rw [hdest] at h
      obtain ⟨rows₁, hinsert, h⟩ := Option.bind_eq_some_iff.mp h
      obtain ⟨hnew, rfl⟩ := insertIBCV2Transfer_inv hinsert
      obtain ⟨added, rfl, -⟩ := insertPackets_append h
      refine row_append ?_
      change row rows (packet.key chainID) = none at hnew
      unfold row at hnew ⊢
      rw [List.find?_append, hnew, Option.none_or]
      exact List.find?_cons_of_pos (decide_eq_true rfl)
    · split at h
      · exact ih h hmem
      · obtain ⟨rows₁, -, h⟩ := Option.bind_eq_some_iff.mp h
        exact ih h hmem

/-- The transaction fails when a packet whose destination is known has a row. -/
theorem insertPackets_conflict (hmem : (packet, id) ∈ packets)
    (hknown : packet.Known config chainID)
    (hrow : (row rows (packet.key chainID)).isSome = true) :
    insertPackets config chainID txHash packets rows = none := by
  induction packets generalizing rows with
  | nil => cases hmem
  | cons entry rest ih =>
    unfold insertPackets
    rcases List.mem_cons.mp hmem with rfl | hmem
    · obtain ⟨dest, hdest⟩ := hknown
      have hinsert : insertIBCV2Transfer (packet.insert chainID dest txHash) id rows = none :=
        if_pos hrow
      rw [hdest]
      dsimp only
      rw [hinsert]
      rfl
    · split
      · exact ih hmem hrow
      · refine Option.bind_eq_none_iff.mpr fun rows₁ hinsert => ih hmem ?_
        obtain ⟨-, rfl⟩ := insertIBCV2Transfer_inv hinsert
        obtain ⟨r, hr⟩ := Option.isSome_iff_exists.mp hrow
        rw [row_append hr]
        rfl

/-- Without a packet whose destination is known there is nothing to insert. -/
theorem insertPackets_unknown (h : ∀ entry ∈ packets, ¬ entry.1.Known config chainID) :
    insertPackets config chainID txHash packets rows = some rows := by
  induction packets with
  | nil => rfl
  | cons entry rest ih =>
    unfold insertPackets
    split
    · exact ih fun entry' hin => h entry' (List.mem_cons_of_mem entry hin)
    · rename_i dest hdest
      exact absurd ⟨dest, hdest⟩ (h entry List.mem_cons_self)

theorem mem_mapIdx_ids {ps : List PacketInfo} (h : packet ∈ ps) (ids : Nat → Int32) :
    ∃ id, (packet, id) ∈ ps.mapIdx fun i p => (p, ids i) := by
  obtain ⟨i, hi, rfl⟩ := List.mem_iff_getElem.mp h
  exact ⟨ids i, List.mem_mapIdx.mpr ⟨i, hi, rfl⟩⟩

theorem mem_of_mapIdx_ids {ps : List PacketInfo} {ids : Nat → Int32} {entry : PacketInfo × Int32}
    (h : entry ∈ ps.mapIdx fun i p => (p, ids i)) : entry.1 ∈ ps := by
  obtain ⟨i, hi, rfl⟩ := List.mem_mapIdx.mp h
  exact List.getElem_mem hi

end Loop

end IbcRelayer
