import Mathlib.Data.Rat.Floor
import IbcRelayer.Golang

/-!
# IbcRelayer — the price of an EVM tx

`newTx` of `EVMBridgeClient` (`shared/bridges/ibcv2/evm_bridge_client.go`). The fee cap of a tx is
the suggested tip and twice the base fee, so that it covers both; then the tip and the fee cap are
each multiplied by a number from the configuration.

The fee cap stays above the base fee, but not above the tip (`well_priced_iff`).
-/

namespace IbcRelayer

/-! ## The model -/

/-- `ethereum.CallMsg`, as far as it is filled in. -/
structure CallMsg where
  sender : String
  recipient : String
  data : List UInt8
  deriving DecidableEq, Repr

/-- `types.DynamicFeeTx`, as far as it is filled in. -/
structure DynamicFeeTx where
  recipient : String
  nonce : UInt64
  gasFeeCap : Option Int
  gasTipCap : Option Int
  gas : UInt64
  data : List UInt8
  deriving DecidableEq, Repr

/-- What a node answers while a tx is built. An address is the text that its `String` prints, and
the base fee is that of the latest header. -/
structure EVMTxNode where
  latestBaseFee : Except GoError Int
  suggestGasTipCap : Except GoError Int
  pendingCodeAt : String → Except GoError (List UInt8)
  estimateGas : CallMsg → Except GoError UInt64
  pendingNonceAt : String → Except GoError UInt64
  nonceAt : String → Except GoError UInt64

/-- The fields of `EVMBridgeClient` that `newTx` reads. `hexToAddress` is `common.HexToAddress`. -/
structure EVMTxClient where
  hexToAddress : String → String
  chainID : String
  signerAddress : String
  gasFeeCapMultiplier : Option ℚ
  gasTipCapMultiplier : Option ℚ

/-- `Int` of a `big.Float`, which cuts off the fraction. -/
def truncate (x : ℚ) : Int := x.num.tdiv x.den

/-- An amount that is multiplied, unless one of the two is nil. The product is exact. -/
def adjust (multiplier : Option ℚ) : Option Int → Option Int
  | none => none
  | some amount =>
    match multiplier with
    | none => some amount
    | some multiplier => some (truncate (amount * multiplier))

/-- How far the pending nonce may be ahead of the confirmed one. -/
def maxPendingAndConfirmedNonceDifference : UInt64 := 5

/-- `selectNonceWithFallback` -/
def selectNonceWithFallback (pendingNonce confirmedNonce : UInt64) : UInt64 :=
  if pendingNonce > confirmedNonce
      ∧ pendingNonce - confirmedNonce > maxPendingAndConfirmedNonceDifference then
    confirmedNonce
  else
    pendingNonce

namespace EVMTxClient

variable (c : EVMTxClient)

/-- `adjustGasFeeCap` -/
def adjustGasFeeCap (gasFeeCap : Option Int) : Option Int := adjust c.gasFeeCapMultiplier gasFeeCap

/-- `adjustGasTipCap` -/
def adjustGasTipCap (gasTipCap : Option Int) : Option Int := adjust c.gasTipCapMultiplier gasTipCap

/-- `newTx` -/
def newTx (node : EVMTxNode) (bz : List UInt8) (address : String) :
    Except GoError DynamicFeeTx := do
  let recipient := c.hexToAddress address
  let baseFee ← node.latestBaseFee.mapError (·.wrap "getting latest block header")
  let gasTipCap ← node.suggestGasTipCap.mapError
    (·.wrap ("getting suggested gas price for chain " ++ c.chainID))
  let gasFeeCap := gasTipCap + baseFee * 2
  let code ← (node.pendingCodeAt recipient).mapError
    (·.wrap ("getting pending code at for address " ++ recipient))
  if code.isEmpty then
    -- the error that is wrapped is nil
    throw (.new ("code no length response when getting pending code for address " ++ recipient
      ++ ": %!w(<nil>)"))
  let gasLimit ← (node.estimateGas { sender := c.signerAddress, recipient, data := bz }).mapError
    (·.wrap ("estimating gas to deliver msg to " ++ recipient))
  let pendingNonce ← (node.pendingNonceAt c.signerAddress).mapError
    (·.wrap ("getting pending nonce for address " ++ c.signerAddress ++ " on chain " ++ c.chainID))
  let confirmedNonce ← (node.nonceAt c.signerAddress).mapError
    (·.wrap
      ("getting confirmed nonce for address " ++ c.signerAddress ++ " on chain " ++ c.chainID))
  return {
    recipient
    nonce := selectNonceWithFallback pendingNonce confirmedNonce
    gasFeeCap := c.adjustGasFeeCap (some gasFeeCap)
    gasTipCap := c.adjustGasTipCap (some gasTipCap)
    gas := gasLimit
    data := bz }

end EVMTxClient

/-! ## Amounts -/

/-- A multiplier that makes an amount no smaller. -/
def AtLeastOne (multiplier : Option ℚ) : Prop := ∀ m ∈ multiplier, 1 ≤ m

/-- Cutting off the fraction of an amount that is not negative rounds it down. -/
theorem truncate_eq_floor {x : ℚ} (hx : 0 ≤ x) : truncate x = ⌊x⌋ := by
  rw [truncate, Rat.floor_def']
  exact Int.tdiv_eq_ediv_of_nonneg (Rat.num_nonneg.mpr hx)

/-- A multiplier that is nil stands for 1. -/
theorem adjust_eq_floor {multiplier : Option ℚ} (hm : AtLeastOne multiplier) {amount : Int}
    (hamount : 0 ≤ amount) :
    adjust multiplier (some amount) = some ⌊(amount : ℚ) * multiplier.getD 1⌋ := by
  cases multiplier with
  | none => simp [adjust]
  | some m =>
    have hm : (0 : ℚ) ≤ m := le_trans zero_le_one (hm m rfl)
    have hproduct : 0 ≤ (amount : ℚ) * m := mul_nonneg (by exact_mod_cast hamount) hm
    rw [adjust, truncate_eq_floor hproduct]
    rfl

/-- Such a multiplier makes an amount no smaller, also when the fraction is cut off. -/
theorem le_adjusted {multiplier : Option ℚ} (hm : AtLeastOne multiplier) {amount : Int}
    (hamount : 0 ≤ amount) : amount ≤ ⌊(amount : ℚ) * multiplier.getD 1⌋ := by
  have hone : (1 : ℚ) ≤ multiplier.getD 1 := by
    cases multiplier with
    | none => exact le_refl _
    | some m => exact hm m rfl
  rw [Int.le_floor]
  exact le_mul_of_one_le_right (by exact_mod_cast hamount) hone

/-- Cutting off the fractions keeps the order, unless a whole number is between the two. -/
theorem floor_le_floor_iff (x y : ℚ) : ⌊x⌋ ≤ ⌊y⌋ ↔ ¬ ∃ n : ℤ, y < n ∧ (n : ℚ) ≤ x := by
  rw [← not_lt, not_iff_not, Int.floor_lt]
  constructor
  · intro h
    exact ⟨⌊x⌋, h, Int.floor_le x⟩
  · rintro ⟨n, hy, hx⟩
    have hn : n ≤ ⌊x⌋ := Int.le_floor.mpr hx
    exact lt_of_lt_of_le hy (by exact_mod_cast hn)

/-! ## The tx -/

namespace EVMTxClient

variable {c : EVMTxClient} {node : EVMTxNode} {bz : List UInt8} {address : String}
  {tx : DynamicFeeTx}

/-- What a node accepts: the fee cap covers the tip and the base fee. -/
def WellPriced (tx : DynamicFeeTx) (baseFee : Int) : Prop :=
  ∃ tipCap feeCap, tx.gasTipCap = some tipCap ∧ tx.gasFeeCap = some feeCap
    ∧ tipCap ≤ feeCap ∧ baseFee ≤ feeCap

/-- A whole number is above the fee cap, which the tip reaches: both are multiplied, and not cut off
yet. -/
def Overtipped (c : EVMTxClient) (gasTipCap baseFee : Int) : Prop :=
  ∃ n : ℤ, ((gasTipCap + baseFee * 2 : Int) : ℚ) * c.gasFeeCapMultiplier.getD 1 < n
    ∧ (n : ℚ) ≤ (gasTipCap : ℚ) * c.gasTipCapMultiplier.getD 1

/-- A call whose error is wrapped and returned has succeeded when the function does. -/
theorem bind_mapError_ok {α β : Type} {x : Except GoError α} {g : GoError → GoError}
    {f : α → Except GoError β} {b : β} (h : (x.mapError g >>= f) = .ok b) :
    ∃ a, x = .ok a ∧ f a = .ok b := by
  cases x with
  | error err => cases h
  | ok a => exact ⟨a, rfl, h⟩

/-- The two caps of a tx that is built, from what the node has answered. -/
theorem newTx_caps (h : c.newTx node bz address = .ok tx) :
    ∃ gasTipCap baseFee, node.suggestGasTipCap = .ok gasTipCap ∧ node.latestBaseFee = .ok baseFee
      ∧ tx.gasTipCap = c.adjustGasTipCap (some gasTipCap)
      ∧ tx.gasFeeCap = c.adjustGasFeeCap (some (gasTipCap + baseFee * 2)) := by
  obtain ⟨baseFee, hbase, h⟩ := bind_mapError_ok h
  obtain ⟨gasTipCap, htip, h⟩ := bind_mapError_ok h
  obtain ⟨code, -, h⟩ := bind_mapError_ok h
  refine ⟨gasTipCap, baseFee, htip, hbase, ?_⟩
  -- there is code at the address
  split at h
  · cases h
  · obtain ⟨gasLimit, -, h⟩ := bind_mapError_ok h
    obtain ⟨pendingNonce, -, h⟩ := bind_mapError_ok h
    obtain ⟨confirmedNonce, -, h⟩ := bind_mapError_ok h
    cases h
    exact ⟨rfl, rfl⟩

/-- **A tx is well priced if its tip is.** For a tip and a base fee that are not negative and
multipliers that are at least 1, the fee cap of a tx that is built covers the tip and the base fee
if and only if no whole number is above the multiplied fee cap which the multiplied tip reaches. -/
theorem well_priced_iff (h : c.newTx node bz address = .ok tx) {gasTipCap baseFee : Int}
    (htip : node.suggestGasTipCap = .ok gasTipCap) (hbase : node.latestBaseFee = .ok baseFee)
    (htipPos : 0 ≤ gasTipCap) (hbasePos : 0 ≤ baseFee) (hfeeCap : AtLeastOne c.gasFeeCapMultiplier)
    (htipCap : AtLeastOne c.gasTipCapMultiplier) :
    WellPriced tx baseFee ↔ ¬ Overtipped c gasTipCap baseFee := by
  obtain ⟨gasTipCap', baseFee', htip', hbase', htx, htx'⟩ := newTx_caps h
  cases htip.symm.trans htip'
  cases hbase.symm.trans hbase'
  have hfee : 0 ≤ gasTipCap + baseFee * 2 := by omega
  rw [adjustGasTipCap, adjust_eq_floor htipCap htipPos] at htx
  rw [adjustGasFeeCap, adjust_eq_floor hfeeCap hfee] at htx'
  rw [Overtipped, ← floor_le_floor_iff]
  constructor
  · rintro ⟨tipCap, feeCap, hgasTipCap, hgasFeeCap, hle, -⟩
    cases htx.symm.trans hgasTipCap
    cases htx'.symm.trans hgasFeeCap
    exact hle
  · intro hle
    -- the fee cap was at least twice the base fee before it was multiplied
    have hbaseLe : baseFee ≤ ⌊((gasTipCap + baseFee * 2 : Int) : ℚ)
        * c.gasFeeCapMultiplier.getD 1⌋ := by
      have := le_adjusted hfeeCap hfee
      omega
    exact ⟨_, _, htx, htx', hle, hbaseLe⟩

end EVMTxClient

/-! ## Two txs -/

namespace Sample

/-- A tip of 1 gwei, and a base fee of a tenth of it. -/
def quietNode : EVMTxNode where
  latestBaseFee := .ok 100000000
  suggestGasTipCap := .ok 1000000000
  pendingCodeAt _ := .ok [0x60]
  estimateGas _ := .ok 21000
  pendingNonceAt _ := .ok 7
  nonceAt _ := .ok 7

/-- A client with these multipliers. -/
def evmTxClient (gasFeeCapMultiplier gasTipCapMultiplier : Option ℚ) : EVMTxClient where
  hexToAddress := id
  chainID := "1"
  signerAddress := "0x52"
  gasFeeCapMultiplier
  gasTipCapMultiplier

/-- The tx that is built on the quiet node. -/
def pricedTx (feeCap tipCap : Int) : DynamicFeeTx where
  recipient := "0x26"
  nonce := 7
  gasFeeCap := some feeCap
  gasTipCap := some tipCap
  gas := 21000
  data := [1]

end Sample

namespace EVMTxClient

/-- `well_priced_iff` when both are multiplied by three halves. -/
theorem well_priced_iff_same :
    (Sample.evmTxClient (some (3 / 2)) (some (3 / 2))).newTx Sample.quietNode [1] "0x26"
        = .ok (Sample.pricedTx 1800000000 1500000000)
      ∧ WellPriced (Sample.pricedTx 1800000000 1500000000) 100000000
      ∧ ¬ Overtipped (Sample.evmTxClient (some (3 / 2)) (some (3 / 2))) 1000000000 100000000 := by
  have htx : (Sample.evmTxClient (some (3 / 2)) (some (3 / 2))).newTx Sample.quietNode [1] "0x26"
      = .ok (Sample.pricedTx 1800000000 1500000000) := by decide +kernel
  have hpriced : WellPriced (Sample.pricedTx 1800000000 1500000000) 100000000 :=
    ⟨_, _, rfl, rfl, by decide, by decide⟩
  have hone : AtLeastOne (some (3 / 2)) := by
    intro m hm
    cases Option.mem_some_iff.mp hm
    norm_num
  exact ⟨htx, hpriced,
    (well_priced_iff htx rfl rfl (by decide) (by decide) hone hone).mp hpriced⟩

/-- The tip alone is doubled, on a chain with a low base fee: the fee cap is below the tip. -/
theorem doubled_tip_above_fee_cap :
    (Sample.evmTxClient none (some 2)).newTx Sample.quietNode [1] "0x26"
        = .ok (Sample.pricedTx 1200000000 2000000000)
      ∧ ¬ WellPriced (Sample.pricedTx 1200000000 2000000000) 100000000 := by
  refine ⟨by decide +kernel, ?_⟩
  rintro ⟨tipCap, feeCap, htip, hfee, hle, -⟩
  cases htip
  cases hfee
  revert hle
  decide

end EVMTxClient

end IbcRelayer
