import Mathlib.Data.UInt
import IbcRelayer.RelayCall
import IbcRelayer.Routes

/-!
# IbcRelayer — the trip of a sequence number

The sequence number of a packet is a `uint64` on the chains. `Relay` converts it to the `int32` of
the column; the copy of a row has it as a `uint32`, which the stages extend to `uint64` again; and
`Status` extends the `int32` itself, with its sign. `sequence_survives` says for which numbers the
three agree.
-/

namespace IbcRelayer

open CallTree Prog IBCV2Transfer RelayerAPIService

/-! ## The conversions -/

/-- `uint64(uint32(int32(n)))`, on the way through the pipeline. -/
theorem pipeline_sequence_iff (n : UInt64) : n.toUInt32.toUInt64 = n ↔ n.toNat < 2 ^ 32 := by
  rw [← UInt64.toNat_inj]
  simp

/-- `uint64(int32(n))`, on the way through `Status`. -/
theorem status_sequence_iff {n : UInt64} (h : n.toNat < 2 ^ 32) :
    n.toUInt32.toInt32.toInt64.toUInt64 = n ↔ n.toNat < 2 ^ 31 := by
  have hextend : n.toUInt32.toInt32.toInt64.toUInt64.toNat
      = (BitVec.signExtend 64 (n.toBitVec.setWidth 32)).toNat := rfl
  rw [← UInt64.toNat_inj, hextend, BitVec.toNat_signExtend, BitVec.msb_eq_decide]
  simp
  split <;> omega

theorem sequence_of_rowKey {t : IBCV2Transfer} {chainID : String} {p : PacketInfo}
    (h : t.rowKey = p.key chainID) : t.sequence = p.sequence.toUInt32.toUInt64 := by
  have hnumber : t.packetSequenceNumber.toInt32 = p.sequence.toUInt32.toInt32 :=
    congrArg RowKey.packetSequenceNumber h
  have hbits := congrArg Int32.toUInt32 hnumber
  simp only [UInt32.toUInt32_toInt32] at hbits
  rw [IBCV2Transfer.sequence, hbits]

theorem status_of_key {r : Ibcv2Transfer} {chainID : String} {p : PacketInfo}
    (h : r.key = p.key chainID) :
    (packetStatus r).sequenceNumber = p.sequence.toUInt32.toInt32.toInt64.toUInt64 := by
  have hnumber : r.packetSequenceNumber = p.sequence.toUInt32.toInt32 :=
    congrArg RowKey.packetSequenceNumber h
  rw [packetStatus, hnumber]

/-- Small sequence numbers have keys of their own. -/
theorem key_ne {p q : PacketInfo} {chainID : String} (hp : p.sequence.toNat < 2 ^ 32)
    (hq : q.sequence.toNat < 2 ^ 32) (hne : q.sequence ≠ p.sequence) :
    q.key chainID ≠ p.key chainID := by
  intro hkey
  have hnumber : q.sequence.toUInt32.toInt32 = p.sequence.toUInt32.toInt32 :=
    congrArg RowKey.packetSequenceNumber hkey
  have hbits := congrArg Int32.toUInt32 hnumber
  simp only [UInt32.toUInt32_toInt32] at hbits
  rw [← (pipeline_sequence_iff _).mpr hp, ← (pipeline_sequence_iff _).mpr hq, hbits] at hne
  exact hne rfl

/-! ## A packet that was stored -/

/-- The packet's sequence number comes out of the relayer as it went in. -/
structure SequenceKept (s : System) (chainID txHash : String) (p : PacketInfo) : Prop where
  /-- It is on the packet's row, for the pipeline and for `Status`. -/
  stored : ∃ r, s.world.row (p.key chainID) = some r ∧ (newIBCV2Transfer r).sequence = p.sequence
    ∧ (packetStatus r).sequenceNumber = p.sequence
    ∧ ∀ requests, ⟨chainID, txHash⟩ ∈ requests → ∃ statuses,
      status chainID txHash (getRelayRequest ⟨chainID, txHash⟩ requests)
          (.ok (getTransfersBySourceTx chainID txHash s.world.transfers)) = .ok statuses
        ∧ packetStatus r ∈ statuses
  /-- The chains are asked about it. -/
  asked : ∀ task ∈ s.tasks, ∀ stage ts c k, task.work = .running stage ts (.call c k) →
    ∀ t ∈ ts, t.rowKey = p.key chainID → ∀ n, c.sequenceNumber = some n → n = p.sequence
  /-- Txs are requested for it. -/
  requested : ∀ task ∈ s.tasks, ∀ stage ts req submission k,
    task.work = .running stage ts (.call (.relayByTx req submission) k) →
      req.sequences = submission.transfers.map IBCV2Transfer.sequence
        ∧ ∀ u ∈ submission.transfers, u.rowKey = p.key chainID → u.sequence = p.sequence

section Kept

variable {config : ConfigReader} {priceClient : Bool} {s₀ s₁ s₂ s : System}
  {chainID txHash : String} {packets : List (PacketInfo × Int32)} {p : PacketInfo} {id : Int32}

/-- What the tasks of a system ask for. -/
theorem sequences_used {Good : List Stage → IBCV2Transfer → Ibcv2Transfer → Prop}
    (hinv : s.Inv Good) (chainID : String) (hsmall : p.sequence.toNat < 2 ^ 32) :
    (∀ task ∈ s.tasks, ∀ stage ts c k, task.work = .running stage ts (.call c k) →
      ∀ t ∈ ts, t.rowKey = p.key chainID → ∀ n, c.sequenceNumber = some n → n = p.sequence)
    ∧ ∀ task ∈ s.tasks, ∀ stage ts req submission k,
      task.work = .running stage ts (.call (.relayByTx req submission) k) →
        req.sequences = submission.transfers.map IBCV2Transfer.sequence
          ∧ ∀ u ∈ submission.transfers, u.rowKey = p.key chainID → u.sequence = p.sequence := by
  have hsequence : ∀ u : IBCV2Transfer, u.rowKey = p.key chainID → u.sequence = p.sequence :=
    fun u hkey => (sequence_of_rowKey hkey).trans ((pipeline_sequence_iff _).mpr hsmall)
  constructor
  · rintro ⟨pl, rest, work⟩ htask stage ts c k hwork t ht hkey n hn
    cases hwork
    obtain ⟨t', hts, rfl⟩ :=
      (hinv.pending htask (Sample.obliging .zero Sample.world c)).query n hn
    rw [hts] at ht
    cases List.mem_singleton.mp ht
    exact hsequence t hkey
  · rintro ⟨pl, rest, work⟩ htask stage ts req submission k hwork
    cases hwork
    obtain ⟨c, q, txIDs, hc, hq, -, rfl⟩ :=
      (hinv.pending htask (.error (.new ""))).request req submission rfl
    exact ⟨request_sequences hc hq txIDs _, fun u _ => hsequence u⟩

/-- The row of a packet in every later state. -/
theorem stored_row (hnamed : ¬ (txHash = "" ∨ chainID = ""))
    (haccepted : (insertPackets config chainID txHash packets s₁.world.transfers).isSome = true)
    (hrelay : s₁.step config priceClient (.relay chainID txHash packets) = some s₂)
    (hrun : System.Run config priceClient (fun _ _ => True) s₂ s) (hp : (p, id) ∈ packets)
    (hknown : p.Known config chainID) :
    ∃ r, s.world.row (p.key chainID) = some r ∧ r.sourceTxHash = txHash := by
  obtain ⟨dest, hdest⟩ := hknown
  obtain ⟨rows, hrows⟩ := Option.isSome_iff_exists.mp haccepted
  have hrow : s₂.world.row (p.key chainID) = some ((p.insert chainID dest txHash).toRow id) := by
    cases hrelay
    change row (relay config chainID txHash packets s₁.world.transfers) _ = _
    rw [relay, if_neg hnamed, hrows]
    exact insertPackets_stored hrows hp hdest
  obtain ⟨us, hus⟩ := run_rows hrun hrow
  refine ⟨_, hus, ?_⟩
  generalize hr : (p.insert chainID dest txHash).toRow id = r
  have hhash : r.sourceTxHash = txHash := by
    rw [← hr]
    rfl
  rw [← hhash]
  clear hhash hus hr
  induction us generalizing r with
  | nil => rfl
  | cons u us ih =>
    rw [applyAll_cons, ih]
    cases u <;> rfl

/-- **Sequence numbers below `2 ^ 31` survive**, and no others. `Relay` has stored a packet; then,
in every later state, its sequence number is the one that the pipeline asks the chains and the proof
API about and that `Status` reports, and no other packet with such a number has its key, if and only
if it is below `2 ^ 31`. -/
theorem sequence_survives (hstart : s₀.Started)
    (hrun₁ : System.Run config priceClient (fun _ _ => True) s₀ s₁)
    (hnamed : ¬ (txHash = "" ∨ chainID = ""))
    (haccepted : (insertPackets config chainID txHash packets s₁.world.transfers).isSome = true)
    (hrelay : s₁.step config priceClient (.relay chainID txHash packets) = some s₂)
    (hrun₂ : System.Run config priceClient (fun _ _ => True) s₂ s) (hp : (p, id) ∈ packets)
    (hknown : p.Known config chainID) :
    (SequenceKept s chainID txHash p
      ∧ ∀ q : PacketInfo, q.sequence.toNat < 2 ^ 31 → q.sourceClient = p.sourceClient →
        q.sequence ≠ p.sequence → q.key chainID ≠ p.key chainID)
      ↔ p.sequence.toNat < 2 ^ 31 := by
  have hrun : System.Run config priceClient (fun _ _ => True) s₀ s :=
    (hrun₁.tail ⟨_, trivial, hrelay⟩).trans hrun₂
  constructor
  -- the status answers with an `int32`, the narrowest of the types on the way
  · rintro ⟨⟨⟨r, hrow, hcopy, hstatus, -⟩, -, -⟩, -⟩
    have hkey : r.key = p.key chainID := key_of_row hrow
    have hsmall : p.sequence.toNat < 2 ^ 32 := by
      rw [← pipeline_sequence_iff, ← sequence_of_rowKey ((newIBCV2Transfer_rowKey r).trans hkey)]
      exact hcopy
    exact (status_sequence_iff hsmall).mp ((status_of_key hkey).symm.trans hstatus)
  -- below it no conversion changes the number, and two numbers stay apart
  · intro hsmall
    have hsmall' : p.sequence.toNat < 2 ^ 32 := by omega
    obtain ⟨r, hrow, hhash⟩ := stored_row hnamed haccepted hrelay hrun₂ hp hknown
    have hkey : r.key = p.key chainID := key_of_row hrow
    obtain ⟨hasked, hrequested⟩ := sequences_used (run_inv_any hstart hrun) chainID hsmall'
    refine ⟨⟨⟨r, hrow, ?_, ?_, ?_⟩, hasked, hrequested⟩, ?_⟩
    · rw [sequence_of_rowKey ((newIBCV2Transfer_rowKey r).trans hkey)]
      exact (pipeline_sequence_iff _).mpr hsmall'
    · exact (status_of_key hkey).trans ((status_sequence_iff hsmall').mpr hsmall)
    · intro requests hin
      have hchain : r.sourceChainID = chainID := congrArg RowKey.sourceChainID hkey
      have hlisted : r ∈ getTransfersBySourceTx chainID txHash s.world.transfers :=
        List.mem_filter.mpr ⟨List.mem_of_find?_eq_some hrow, by simp [hchain, hhash]⟩
      refine ⟨_, ?_, List.mem_map_of_mem hlisted⟩
      unfold status
      rw [if_neg hnamed, getRelayRequest, if_pos hin]
    · exact fun q hq _ hne => key_ne hsmall' (by omega) hne

end Kept

/-- `sequence_survives` when the destination chain is asked about the packet. -/
theorem sequence_survives_asked :
    ∃ s, System.Run Sample.config false (fun _ _ => True) Sample.idle s
      ∧ Sample.calling (fun c => c.sequenceNumber == some 7) s = true
      ∧ SequenceKept s "cosmoshub-4" "0xa1" Sample.packetInfo := by
  have hscript : ((Sample.idle.step Sample.config false
      (.relay "cosmoshub-4" "0xa1" [(Sample.packetInfo, 1)])).bind fun s =>
        s.script Sample.config false (fun _ _ => true)
          [.poll, .submit (.ok ()), .start 0, .call 0 (Sample.obliging .zero),
            .call 0 (Sample.obliging .zero)]).any
      (Sample.calling fun c => c.sequenceNumber == some 7) = true := by
    decide +kernel
  obtain ⟨s, hs, hcalling⟩ := (Option.any_eq_true _ _).mp hscript
  obtain ⟨s₂, hrelay, hs⟩ := Option.bind_eq_some_iff.mp hs
  have hrun := System.run_of_script _ _ (P := fun _ _ => True) (fun _ _ _ => trivial) hs
  have hkept := (sequence_survives (p := Sample.packetInfo) Sample.started .refl (by decide)
    (by decide +kernel) hrelay hrun (List.mem_singleton_self _) ⟨"1", rfl⟩).mpr (by decide)
  exact ⟨s, .head ⟨_, trivial, hrelay⟩ hrun, hcalling, hkept.1⟩

/-- The system after `Relay` has stored a packet with this sequence number. -/
def Sample.storing (n : UInt64) : System :=
  { Sample.idle with
    world := ⟨relay Sample.config "cosmoshub-4" "0xa1"
      [({ Sample.packetInfo with sequence := n }, 1)] [], []⟩ }

/-- At `2 ^ 31` the number that `Status` reports is another one. At `2 ^ 32 + 7` the pipeline takes
the packet for the one with the number 7, and its key is that packet's. -/
theorem large_sequences_change :
    (∃ r, (Sample.storing (2 ^ 31)).world.transfers = [r]
        ∧ (packetStatus r).sequenceNumber = 18446744071562067968
        ∧ ¬ SequenceKept (Sample.storing (2 ^ 31)) "cosmoshub-4" "0xa1"
          { Sample.packetInfo with sequence := 2 ^ 31 })
      ∧ ∃ r, (Sample.storing (2 ^ 32 + 7)).world.transfers = [r]
        ∧ (newIBCV2Transfer r).sequence = 7 ∧ r.key = Sample.packetInfo.key "cosmoshub-4"
        ∧ ¬ SequenceKept (Sample.storing (2 ^ 32 + 7)) "cosmoshub-4" "0xa1"
          { Sample.packetInfo with sequence := 2 ^ 32 + 7 } := by
  refine ⟨⟨_, rfl, by decide +kernel, fun hkept => ?_⟩,
    _, rfl, by decide +kernel, by decide +kernel,
    fun hkept => ?_⟩
  · obtain ⟨r, hrow, -, hstatus, -⟩ := hkept.stored
    rw [status_of_key (key_of_row hrow)] at hstatus
    revert hstatus
    decide +kernel
  · obtain ⟨r, hrow, hcopy, -⟩ := hkept.stored
    rw [sequence_of_rowKey ((newIBCV2Transfer_rowKey r).trans (key_of_row hrow))] at hcopy
    revert hcopy
    decide +kernel

end IbcRelayer
