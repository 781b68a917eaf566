import Mathlib.Data.UInt
import IbcRelayer.Bridge.Evm

/-!
# IbcRelayer — the two finality tests of the EVM client

`IsTxFinalized` compares the block of a tx with the head or with the finalized block of the chain;
`IsTimestampFinalized` looks at the time of one block. On one chain both come down to the height up
to which it counts as finalized (`EVMChain.finalizedHeight`), which only rises.

A block time that is too large for a `time.Time` is taken for one in the past.
-/

namespace IbcRelayer

open EVMBridgeClient

/-- The blocks `0` to the latest, given by their times, and the height of the finalized one. -/
structure EVMChain where
  times : List UInt64
  finalized : Nat
  ordered : times.Pairwise (· ≤ ·)
  finalized_lt : finalized < times.length
  heights : times.length ≤ 2 ^ 63
  bounded : ∀ t ∈ times, t.toNat < 2 ^ 63

namespace EVMChain

/-- The height of the latest block. -/
def latest (chain : EVMChain) : Nat := chain.times.length - 1

/-- The header of a block, if the chain has it. -/
def header (chain : EVMChain) (n : Nat) : Except GoError Header :=
  match chain.times[n]? with
  | some time => .ok ⟨n, time⟩
  | none => .error ethereumNotFound

/-- A node that has the chain, and these receipts. -/
def node (chain : EVMChain) (receipts : String → Except GoError Receipt) : EVMNode where
  transactionReceipt := receipts
  headerByNumber
    | none => chain.header chain.latest
    | some n =>
      if n = finalizedBlockNumber then chain.header chain.finalized
      else if n < 0 then .error ethereumNotFound
      else chain.header n.toNat

/-- The height up to which the chain counts as finalized, if there are enough blocks. -/
def finalizedHeight (chain : EVMChain) : Option UInt64 → Option Nat
  | none => some chain.finalized
  | some offset => if offset.toNat ≤ chain.latest then some (chain.latest - offset.toNat) else none

/-- The chain has grown. -/
structure Grown (chain chain' : EVMChain) : Prop where
  blocks : chain.times <+: chain'.times
  finalized : chain.finalized ≤ chain'.finalized

section Reads

variable (chain : EVMChain)

/-- There is a latest block, since there is a finalized one. -/
theorem latest_lt : chain.latest < chain.times.length := by
  have := chain.finalized_lt
  unfold latest
  omega

theorem header_of_lt {n : Nat} (h : n < chain.times.length) :
    chain.header n = .ok ⟨n, chain.times[n]⟩ := by
  rw [header, List.getElem?_eq_getElem h]

theorem time_le {m n : Nat} (hmn : m ≤ n) (hn : n < chain.times.length) :
    chain.times[m].toNat ≤ chain.times[n].toNat := by
  rcases Nat.lt_or_eq_of_le hmn with hlt | rfl
  · exact UInt64.le_iff_toNat_le.mp (List.pairwise_iff_getElem.mp chain.ordered m n _ hn hlt)
  · exact Nat.le_refl _

/-- The finalized height is that of a block. -/
theorem finalizedHeight_lt {offset : Option UInt64} {h : Nat}
    (hheight : chain.finalizedHeight offset = some h) : h < chain.times.length := by
  have hlatest := chain.latest_lt
  cases offset with
  | none =>
    cases hheight
    exact chain.finalized_lt
  | some offset =>
    simp only [finalizedHeight] at hheight
    split at hheight
    · cases hheight
      omega
    · cases hheight

theorem toNat_height {n : Nat} (hn : n < 2 ^ 63) : (UInt64.ofInt (n : Int)).toNat = n := by
  rw [UInt64.ofInt, UInt64.toNat_ofNat']
  omega

/-- The block that `IsTimestampFinalized` looks at. -/
theorem finalizedHeader_node (receipts : String → Except GoError Receipt)
    (offset : Option UInt64) :
    finalizedHeader (chain.node receipts) offset
      = match chain.finalizedHeight offset with
        | none => .ok none
        | some h => (chain.header h).map some := by
  have hlatest := chain.latest_lt
  have hbound : chain.latest < 2 ^ 63 := Nat.lt_of_lt_of_le hlatest chain.heights
  have hnumber := toNat_height hbound
  cases offset with
  | none =>
    have hread := chain.header_of_lt chain.finalized_lt
    simp only [finalizedHeader, node, if_true, finalizedHeight, hread, Except.map]
  | some offset =>
    simp only [finalizedHeader, node, finalizedHeight, chain.header_of_lt hlatest]
    by_cases h : offset.toNat ≤ chain.latest
    · have hge : ¬ UInt64.ofInt chain.latest < offset := by
        rw [UInt64.lt_iff_toNat_lt, hnumber]
        omega
      have hsub : (UInt64.ofInt chain.latest - offset).toNat = chain.latest - offset.toNat := by
        rw [UInt64.toNat_sub_of_le _ _ (UInt64.not_lt.mp hge), hnumber]
      have hheight : (UInt64.ofInt chain.latest - offset).toInt64.toInt
          = ((chain.latest - offset.toNat : Nat) : Int) := by
        rw [toInt64_toInt, hsub, if_pos (by omega)]
      -- the height is not taken for the tag of the finalized block, which is negative
      have htag : ((chain.latest - offset.toNat : Nat) : Int) ≠ finalizedBlockNumber := by
        unfold finalizedBlockNumber
        omega
      have hpos : ¬ ((chain.latest - offset.toNat : Nat) : Int) < 0 := by omega
      have hread := chain.header_of_lt (show chain.latest - offset.toNat < _ by omega)
      rw [if_neg hge, if_pos h, hheight, if_neg htag, if_neg hpos, Int.toNat_natCast]
      simp only [hread, Except.map]
    -- fewer blocks than the offset: nothing is finalized yet
    · have hlt : UInt64.ofInt chain.latest < offset := by
        rw [UInt64.lt_iff_toNat_lt, hnumber]
        omega
      rw [if_pos hlt, if_neg h]

/-- `IsTxFinalized` for a tx in the block `b`. -/
theorem isTxFinalized_node {receipts : String → Except GoError Receipt} {txHash : String}
    {receipt : Receipt} (hreceipt : receipts txHash = .ok receipt) {b : Nat}
    (hb : receipt.blockNumber = b) (hbound : b < 2 ^ 63) (offset : Option UInt64) :
    EVMBridgeClient.isTxFinalized (chain.node receipts) txHash offset = .ok true
      ↔ ∃ h, chain.finalizedHeight offset = some h ∧ b ≤ h := by
  have hlatest := chain.latest_lt
  have hnumber := toNat_height (Nat.lt_of_lt_of_le hlatest chain.heights)
  have hblock := toNat_height hbound
  unfold EVMBridgeClient.isTxFinalized
  rw [show (chain.node receipts).transactionReceipt txHash = .ok receipt from hreceipt]
  cases offset with
  | none =>
    simp only [node, if_true, finalizedHeight, chain.header_of_lt chain.finalized_lt, hb,
      toInt_ofInt_natCast hbound]
    simp
  | some offset =>
    simp only [node, finalizedHeight, chain.header_of_lt hlatest, hb, Except.ok.injEq,
      Bool.and_eq_true, decide_eq_true_eq]
    rw [UInt64.le_iff_toNat_le, UInt64.le_iff_toNat_le, hnumber, hblock]
    constructor
    -- the difference does not wrap around, because the head was compared first
    · rintro ⟨hle, hdiff⟩
      rw [UInt64.toNat_sub_of_le _ _ (by rwa [UInt64.le_iff_toNat_le, hnumber, hblock]), hnumber,
        hblock] at hdiff
      exact ⟨chain.latest - offset.toNat, if_pos (by omega), by omega⟩
    · rintro ⟨h, hheight, hbh⟩
      split at hheight
      · cases hheight
        have hle : b ≤ chain.latest := by omega
        refine ⟨hle, ?_⟩
        rw [UInt64.toNat_sub_of_le _ _ (by rwa [UInt64.le_iff_toNat_le, hnumber, hblock]), hnumber,
          hblock]
        omega
      · cases hheight

/-- Every block time is one that a `time.Time` can stand for. -/
def Representable : Prop := ∀ t ∈ chain.times, (t.toNat : Int) + unixToInternal < 2 ^ 63

/-- `IsTimestampFinalized` compares with the time of the block at the finalized height. -/
theorem isTimestampFinalized_node (hchain : chain.Representable) (location : Location)
    (receipts : String → Except GoError Receipt) (ts : Time) (offset : Option UInt64) :
    EVMBridgeClient.isTimestampFinalized location (chain.node receipts) ts offset = .ok true
      ↔ ∃ h, ∃ hlt : h < chain.times.length, chain.finalizedHeight offset = some h
          ∧ ts.unixNano ≤ chain.times[h].toNat * 10 ^ 9 := by
  unfold EVMBridgeClient.isTimestampFinalized
  rw [chain.finalizedHeader_node receipts offset]
  cases hheight : chain.finalizedHeight offset with
  | none => simp
  | some h =>
    have hlt := chain.finalizedHeight_lt hheight
    have hread : unixSeconds chain.times[h].toInt64 = (chain.times[h].toNat : Int) := by
      rw [unixSeconds_unsigned, if_pos (hchain _ (List.getElem_mem hlt))]
    simp only [chain.header_of_lt hlt, Except.map, Time.after, Time.unix, hread, Except.ok.injEq,
      Option.some.injEq, Bool.not_eq_true', decide_eq_false_iff_not, Int.not_lt]
    constructor
    · exact fun hts => ⟨h, hlt, rfl, hts⟩
    · rintro ⟨_, _, rfl, hts⟩
      exact hts

/-- `IsTxFinalized` answers yes for a tx of the block `b`, whichever it is. -/
def TxFinalized (offset : Option UInt64) (b : Nat) : Prop :=
  ∀ (receipts : String → Except GoError Receipt) (txHash : String) (receipt : Receipt),
    receipts txHash = .ok receipt → receipt.blockNumber = b →
    EVMBridgeClient.isTxFinalized (chain.node receipts) txHash offset = .ok true

/-- A tx is finalized if its block is at the finalized height or below. -/
theorem txFinalized_iff {b : Nat} (hb : b < chain.times.length) (offset : Option UInt64) :
    chain.TxFinalized offset b ↔ ∃ h, chain.finalizedHeight offset = some h ∧ b ≤ h := by
  have hbound : b < 2 ^ 63 := Nat.lt_of_lt_of_le hb chain.heights
  constructor
  · intro hfinalized
    -- a tx of this block, on a node that has no other
    let receipt : Receipt :=
      { status := 1, logs := [], blockNumber := b, effectiveGasPrice := 0, gasUsed := 0 }
    let receipts : String → Except GoError Receipt := fun _ => .ok receipt
    have hreceipt : receipts "" = .ok receipt := rfl
    exact (chain.isTxFinalized_node hreceipt rfl hbound offset).mp
      (hfinalized receipts "" receipt hreceipt rfl)
  · intro hheight receipts txHash receipt hreceipt hblock
    exact (chain.isTxFinalized_node hreceipt hblock hbound offset).mpr hheight

end Reads

section Growth

variable {chain chain' : EVMChain} (hgrown : Grown chain chain')
include hgrown

theorem Grown.latest_le : chain.latest ≤ chain'.latest := by
  have hlength := hgrown.blocks.length_le
  unfold latest
  omega

theorem Grown.getElem {n : Nat} (hn : n < chain.times.length) :
    ∃ hn' : n < chain'.times.length, chain'.times[n] = chain.times[n] := by
  obtain ⟨more, hmore⟩ := hgrown.blocks
  have hn' : n < (chain.times ++ more).length := by
    rw [List.length_append]
    omega
  exact ⟨hmore ▸ hn', by simp only [← hmore, List.getElem_append_left hn]⟩

/-- The finalized height only rises. -/
theorem Grown.finalizedHeight {offset : Option UInt64} {h : Nat}
    (hheight : chain.finalizedHeight offset = some h) :
    ∃ h', chain'.finalizedHeight offset = some h' ∧ h ≤ h' := by
  have hlatest := hgrown.latest_le
  cases offset with
  | none =>
    cases hheight
    exact ⟨_, rfl, hgrown.finalized⟩
  | some offset =>
    simp only [EVMChain.finalizedHeight] at hheight
    split at hheight
    · cases hheight
      exact ⟨chain'.latest - offset.toNat, if_pos (by omega), by omega⟩
    · cases hheight

end Growth

end EVMChain

/-- **The two finality tests agree.** On a chain whose block times a `time.Time` can stand for, a
timestamp is finalized if and only if there is a block that has reached it and whose txs are
finalized, for each offset. Neither test takes its answer back when the chain grows. -/
theorem finality_tests_agree (chain : EVMChain) (hchain : chain.Representable)
    (location : Location) (receipts : String → Except GoError Receipt) (ts : Time)
    (offset : Option UInt64) :
    (EVMBridgeClient.isTimestampFinalized location (chain.node receipts) ts offset = .ok true
      ↔ ∃ b, ∃ hb : b < chain.times.length,
          ts.unixNano ≤ chain.times[b].toNat * 10 ^ 9 ∧ chain.TxFinalized offset b)
    ∧ ∀ chain' : EVMChain, chain.Grown chain' → chain'.Representable → ∀ receipts',
        (EVMBridgeClient.isTimestampFinalized location (chain.node receipts) ts offset = .ok true →
          EVMBridgeClient.isTimestampFinalized location (chain'.node receipts') ts offset
            = .ok true)
        ∧ ∀ (txHash : String) (receipt : Receipt),
            ∀ b < chain.times.length, receipt.blockNumber = b →
            receipts txHash = .ok receipt → receipts' txHash = .ok receipt →
            EVMBridgeClient.isTxFinalized (chain.node receipts) txHash offset = .ok true →
            EVMBridgeClient.isTxFinalized (chain'.node receipts') txHash offset = .ok true := by
  refine ⟨?_, fun chain' hgrown hchain' receipts' => ⟨?_, ?_⟩⟩
  · rw [chain.isTimestampFinalized_node hchain]
    constructor
    · rintro ⟨h, hlt, hheight, hts⟩
      exact ⟨h, hlt, hts, (chain.txFinalized_iff hlt offset).mpr ⟨h, hheight, Nat.le_refl h⟩⟩
    -- the block at the finalized height is not older than `b`
    · rintro ⟨b, hb, hts, hfinalized⟩
      obtain ⟨h, hheight, hbh⟩ := (chain.txFinalized_iff hb offset).mp hfinalized
      have hlt := chain.finalizedHeight_lt hheight
      have htime := chain.time_le hbh hlt
      exact ⟨h, hlt, hheight, by omega⟩
  · rw [chain.isTimestampFinalized_node hchain, chain'.isTimestampFinalized_node hchain']
    rintro ⟨h, hlt, hheight, hts⟩
    obtain ⟨h', hheight', hle⟩ := hgrown.finalizedHeight hheight
    have hlt' := chain'.finalizedHeight_lt hheight'
    obtain ⟨hn, htime⟩ := hgrown.getElem hlt
    have hlater := chain'.time_le hle hlt'
    rw [htime] at hlater
    exact ⟨h', hlt', hheight', by omega⟩
  · intro txHash receipt b hb hblock hreceipt hreceipt' hfinalized
    have hbound : b < 2 ^ 63 := Nat.lt_of_lt_of_le hb chain.heights
    rw [chain.isTxFinalized_node hreceipt hblock hbound] at hfinalized
    obtain ⟨h, hheight, hbh⟩ := hfinalized
    obtain ⟨h', hheight', hle⟩ := hgrown.finalizedHeight hheight
    exact (chain'.isTxFinalized_node hreceipt' hblock hbound offset).mpr
      ⟨h', hheight', Nat.le_trans hbh hle⟩

namespace Sample

/-- Three blocks, of which the second is finalized. -/
def threeBlocks : EVMChain where
  times := [10, 12, 12]
  finalized := 1
  ordered := by decide
  finalized_lt := by decide
  heights := by simp
  bounded := by simp

/-- One block, at the last second of an `int64`. -/
def lastSecond : EVMChain where
  times := [9223372036854775807]
  finalized := 0
  ordered := by decide
  finalized_lt := by decide
  heights := by simp
  bounded := by simp

end Sample

/-- One block on the head leaves a timestamp of the second block finalized. -/
theorem finality_tests_agree_at_second_block :
    Sample.threeBlocks.Representable
      ∧ EVMBridgeClient.isTimestampFinalized .utc
          (Sample.threeBlocks.node fun _ => .error ethereumNotFound) ⟨11 * 10 ^ 9, 0⟩ (some 1)
          = .ok true
      ∧ ∃ b, ∃ hb : b < Sample.threeBlocks.times.length,
          (11 * 10 ^ 9 : Int) ≤ Sample.threeBlocks.times[b].toNat * 10 ^ 9
            ∧ Sample.threeBlocks.TxFinalized (some 1) b := by
  have hchain : Sample.threeBlocks.Representable := by
    simp [EVMChain.Representable, Sample.threeBlocks, unixToInternal]
  have hfinalized : EVMBridgeClient.isTimestampFinalized .utc
      (Sample.threeBlocks.node fun _ => .error ethereumNotFound) ⟨11 * 10 ^ 9, 0⟩ (some 1)
      = .ok true := by decide +kernel
  exact ⟨hchain, hfinalized,
    (finality_tests_agree Sample.threeBlocks hchain .utc _ ⟨11 * 10 ^ 9, 0⟩ (some 1)).1.mp
      hfinalized⟩

/-- The last second of an `int64` is no `time.Time`: a block of that time is taken to lie before
the epoch, while its txs are finalized. -/
theorem last_second_not_finalized :
    EVMBridgeClient.isTimestampFinalized .utc
        (Sample.lastSecond.node fun _ => .error ethereumNotFound) ⟨0, 0⟩ none = .ok false
      ∧ ∃ b, ∃ hb : b < Sample.lastSecond.times.length,
          (0 : Int) ≤ Sample.lastSecond.times[b].toNat * 10 ^ 9
            ∧ Sample.lastSecond.TxFinalized none b := by
  have hb : 0 < Sample.lastSecond.times.length := by decide
  exact ⟨by decide +kernel, 0, hb, by omega,
    (Sample.lastSecond.txFinalized_iff hb none).mpr ⟨0, rfl, Nat.le_refl 0⟩⟩

end IbcRelayer
