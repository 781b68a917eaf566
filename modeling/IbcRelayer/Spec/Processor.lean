import IbcRelayer.Spec.Basic

/-!
# IbcRelayer — what the processors of single transfers do

One specification for each `Process` method: what an un-errored end says about the transfer, the
statements made on its row and the answers that were given. The error ends are the same for all of
them (`Outcome`): an error with a text, and nothing written but, for the methods that clear a tx,
that one statement.
-/

namespace IbcRelayer

open CallTree Prog

/-! ## What a method records on the copy -/

namespace IBCV2Transfer

def setRecvTx (t : IBCV2Transfer) (tx : BridgeTx) : IBCV2Transfer :=
  { t with
    recvTxHash := some tx.hash
    recvTxTime := some tx.timestamp
    recvTxRelayerAddress := some tx.relayerAddress }

def setAckTx (t : IBCV2Transfer) (tx : BridgeTx) : IBCV2Transfer :=
  { t with
    ackTxHash := some tx.hash
    ackTxTime := some tx.timestamp
    ackTxRelayerAddress := some tx.relayerAddress }

def setTimeoutTx (t : IBCV2Transfer) (tx : BridgeTx) : IBCV2Transfer :=
  { t with
    timeoutTxHash := some tx.hash
    timeoutTxTime := some tx.timestamp
    timeoutTxRelayerAddress := some tx.relayerAddress }

end IBCV2Transfer

/-! ## What a method asks -/

namespace Call

/-- The queries of `CheckRecvPacketDelivery`. -/
def asksDelivery : Call → Bool
  | .isPacketReceived .. | .findRecvTx .. => true
  | _ => false

/-- The queries of the commitment checks. -/
def asksCommitment : Call → Bool
  | .isPacketCommitted .. | .findAckTx .. | .findTimeoutTx .. => true
  | _ => false

/-- The query of the two checks of a tx's finality. -/
def asksTxFinality : Call → Bool
  | .isTxFinalized .. => true
  | _ => false

/-- The query of `CheckTimeoutFinality`. -/
def asksTimestampFinality : Call → Bool
  | .isTimestampFinalized .. => true
  | _ => false

/-- The query of `WaitForWriteAck`. -/
def asksWriteAck : Call → Bool
  | .packetWriteAckStatus .. => true
  | _ => false

/-- The query of the stages that follow a submission. -/
def asksRetry : Call → Bool
  | .shouldRetryTx .. => true
  | _ => false

/-- The gas calculators and the batches have no queries. -/
def asksNothing : Call → Bool := fun _ => false

end Call

/-! ## The checks -/

/-- Not received, or received and the recv tx found. -/
inductive CheckRecvOk (t : IBCV2Transfer) :
    IBCV2Transfer → List TransferUpdate → List Event → Prop where
  | notReceived {evs : List Event}
      (h : ⟨.isPacketReceived t.destinationChainID t.packetDestinationClientID t.sequence,
        .ok false⟩ ∈ evs) : CheckRecvOk t t [] evs
  | received {evs : List Event} (tx : BridgeTx)
      (h : ⟨.isPacketReceived t.destinationChainID t.packetDestinationClientID t.sequence,
        .ok false⟩ ∉ evs) :
      CheckRecvOk t (t.setRecvTx tx)
        [.updateTransferRecvTx (some tx.hash) (some tx.timestamp) (some tx.relayerAddress)] evs

/-- `CheckRecvPacketDelivery` asks the destination chain, and writes only what `FindRecvTx`
returned. -/
theorem checkRecv_spec (t : IBCV2Transfer) :
    (CheckRecvPacketDeliveryProcessor.process t).run.Ensures
      (Outcome (Harmless Call.asksDelivery [t.rowKey]) t.rowKey []
      fun t' evs => CheckRecvOk t t' (updatesOf t.rowKey evs) evs) := by
  refine Runs.ensures ?_
  refine Runs.query (E := fun r => ⟨.getClient _, r⟩) (fun _ => rfl) (fun _ => rfl) fun _ => ?_
  refine Runs.query (E := fun r => ⟨.isPacketReceived _ _ _, r⟩) (fun _ => rfl) (fun _ => rfl) ?_
  rintro (_ | _)
  · exact Runs.pure (.notReceived (by simp))
  · refine Runs.query (E := fun r => ⟨.findRecvTx _ _ _ _ _, r⟩) (fun _ => rfl) (fun _ => rfl) ?_
    intro tx
    refine Runs.write (harmless_update (by simp) (by simp)) fun hus => ?_
    rw [hus]
    exact .received tx (by simp)

/-- Still committed, or the ack tx or the timeout tx was found. -/
inductive CheckCommitmentOk (t : IBCV2Transfer) :
    IBCV2Transfer → List TransferUpdate → List Event → Prop where
  | committed {evs : List Event}
      (h : ∀ tx, ⟨.findAckTx t.sourceChainID t.packetSourceClientID t.packetDestinationClientID
        t.sequence, .ok tx⟩ ∉ evs) : CheckCommitmentOk t t [] evs
  | acked {evs : List Event} (tx : BridgeTx)
      (h : ⟨.findAckTx t.sourceChainID t.packetSourceClientID t.packetDestinationClientID
        t.sequence, .ok tx⟩ ∈ evs) :
      CheckCommitmentOk t (t.setAckTx tx)
        [.updateTransferAckTx (some tx.hash) (some tx.timestamp) (some tx.relayerAddress)] evs
  | timedOut {evs : List Event} (tx : BridgeTx)
      (h : ⟨.findTimeoutTx t.sourceChainID t.packetSourceClientID t.packetDestinationClientID
        t.sequence, .ok tx⟩ ∈ evs)
      (hack : ∀ tx, ⟨.findAckTx t.sourceChainID t.packetSourceClientID t.packetDestinationClientID
        t.sequence, .ok tx⟩ ∉ evs) :
      CheckCommitmentOk t (t.setTimeoutTx tx)
        [.updateTransferTimeoutTx (some tx.hash) (some tx.timestamp) (some tx.relayerAddress)] evs

/-- `CheckPacketCommitment`: without a commitment exactly one of the two searches has to find a tx.
That both find one, or none does, is an error, and nothing is written. -/
theorem checkCommitment_spec (t : IBCV2Transfer) :
    (CheckPacketCommitmentProcessor.process t).run.Ensures
      (Outcome (Harmless Call.asksCommitment [t.rowKey]) t.rowKey []
      fun t' evs => CheckCommitmentOk t t' (updatesOf t.rowKey evs) evs) := by
  refine Runs.ensures ?_
  refine Runs.query (E := fun r => ⟨.getClient _, r⟩) (fun _ => rfl) (fun _ => rfl) fun _ => ?_
  refine Runs.query (E := fun r => ⟨.isPacketCommitted _ _ _, r⟩) (fun _ => rfl) (fun _ => rfl) ?_
  rintro (_ | _)
  · refine Runs.peek (E := fun r => ⟨.findAckTx _ _ _ _, r⟩) (fun _ => rfl) (fun _ => rfl) ?_
    intro ackTx
    refine Runs.peek (E := fun r => ⟨.findTimeoutTx _ _ _ _, r⟩) (fun _ => rfl) (fun _ => rfl) ?_
    intro timeoutTx
    -- both answers are known here, each a tx or an error: four ends
    rcases ackTx with _ | ackTx <;> rcases timeoutTx with _ | timeoutTx
    · exact Runs.throw (by simp [GoError.new])
    · refine Runs.write (harmless_update (by simp) (by simp)) fun hus => ?_
      rw [hus]
      exact .timedOut timeoutTx (by simp) (by simp)
    · refine Runs.write (harmless_update (by simp) (by simp)) fun hus => ?_
      rw [hus]
      exact .acked ackTx (by simp)
    · exact Runs.throw (by simp [GoError.new])
  · exact Runs.pure (.committed (by simp))

/-- The send tx is final, and the time at which this was seen is recorded once. -/
inductive CheckSendFinalityOk (offset : Option UInt64) (t : IBCV2Transfer) :
    IBCV2Transfer → List TransferUpdate → List Event → Prop where
  | timeKnown {evs : List Event}
      (h : ⟨.isTxFinalized t.sourceChainID t.sourceTxHash offset, .ok true⟩ ∈ evs) :
      CheckSendFinalityOk offset t t [] evs
  | timeSet {evs : List Event} (time : Time)
      (h : ⟨.isTxFinalized t.sourceChainID t.sourceTxHash offset, .ok true⟩ ∈ evs) :
      CheckSendFinalityOk offset t { t with sourceTxFinalizedTime := some time }
        [.updateTransferSourceTxFinalizedTime (some time)] evs

/-- Either way the source chain has called the send tx final. -/
theorem CheckSendFinalityOk.finalized {offset : Option UInt64} {t t' : IBCV2Transfer}
    {us : List TransferUpdate} {evs : List Event} (h : CheckSendFinalityOk offset t t' us evs) :
    ⟨.isTxFinalized t.sourceChainID t.sourceTxHash offset, .ok true⟩ ∈ evs := by
  cases h with
  | timeKnown h => exact h
  | timeSet time h => exact h

/-- `CheckSendFinality` ends without an error only on a final send tx; the time is written at most
once, as a copy that has it is left alone. -/
theorem checkSendFinality_spec (offset : Option UInt64) (t : IBCV2Transfer) :
    (CheckSendFinalityProcessor.process offset t).run.Ensures
      (Outcome (Harmless Call.asksTxFinality [t.rowKey]) t.rowKey []
      fun t' evs => CheckSendFinalityOk offset t t' (updatesOf t.rowKey evs) evs) := by
  refine Runs.ensures ?_
  refine Runs.query (E := fun r => ⟨.getClient _, r⟩) (fun _ => rfl) (fun _ => rfl) fun _ => ?_
  refine Runs.query (E := fun r => ⟨.isTxFinalized _ _ _, r⟩) (fun _ => rfl) (fun _ => rfl) ?_
  rintro (_ | _)
  · exact Runs.throw (by simp [CheckSendFinalityProcessor.errSendNotFinalized])
  · simp only [Bool.not_true, Bool.false_eq_true, if_false]
    -- the time is set already, or is read off the clock
    split
    · exact Runs.pure (.timeKnown (by simp))
    · refine Runs.peek (E := fun time => ⟨.now _ _, time⟩) (fun _ => rfl) (fun _ => rfl) ?_
      intro time
      refine Runs.write (harmless_update (by simp) (by simp)) fun hus => ?_
      rw [hus]
      exact .timeSet time (by simp)

/-- `CheckTimeoutFinality` writes nothing: it lets the copy pass once the destination chain is final
up to the timeout. -/
theorem checkTimeoutFinality_spec (offset : Option UInt64) (t : IBCV2Transfer) :
    (CheckTimeoutFinalityProcessor.process offset t).run.Ensures
      (Outcome (Harmless Call.asksTimestampFinality [t.rowKey]) t.rowKey []
      fun t' evs => t' = t ∧ updatesOf t.rowKey evs = [] ∧
        ⟨.isTimestampFinalized t.destinationChainID t.packetTimeoutTimestamp offset, .ok true⟩
          ∈ evs) := by
  refine Runs.ensures ?_
  refine Runs.query (E := fun r => ⟨.getClient _, r⟩) (fun _ => rfl) (fun _ => rfl) fun _ => ?_
  refine Runs.query (E := fun r => ⟨.isTimestampFinalized _ _ _, r⟩) (fun _ => rfl)
    (fun _ => rfl) ?_
  rintro (_ | _)
  · exact Runs.throw (by simp [CheckTimeoutFinalityProcessor.errTimeoutNotFinalized])
  · exact Runs.pure ⟨rfl, rfl, by simp⟩

/-! ## The write ack -/

/-- The write ack is recorded under the hash and the time of the recv tx. -/
inductive WaitForWriteAckOk (t : IBCV2Transfer) :
    IBCV2Transfer → List TransferUpdate → Prop where
  | found (recvHash : String) (status : Ibcv2WriteAckStatus) (h : t.recvTxHash = some recvHash) :
      WaitForWriteAckOk t
        { t with
          writeAckTxHash := some recvHash
          writeAckTxTime := some (t.recvTxTime.getD .zero)
          writeAckStatus := some status }
        [.updateTransferWriteAckTx (some recvHash) (some (t.recvTxTime.getD .zero)) (some status)]

/-- The end that `WaitForWriteAck` has for a status, be it decoded or not. -/
theorem recordWriteAck_runs {t : IBCV2Transfer} {recvHash : String}
    (hrecv : t.recvTxHash = some recvHash) (status : Ibcv2WriteAckStatus) (past : List Event) :
    Runs (Harmless Call.asksWriteAck [t.rowKey]) t.rowKey [.clearRecvTx] past
      (WaitForWriteAckPacket.recordWriteAck t recvHash status)
      fun t' evs => WaitForWriteAckOk t t' (updatesOf t.rowKey evs) := by
  refine Runs.peek (E := fun _ => ⟨.addRelayCompleted _ _ _ _ _, ()⟩) (fun _ => rfl)
    (fun _ => rfl) fun _ => ?_
  refine Runs.write (harmless_update (by simp) (by simp)) fun hus => ?_
  rw [hus]
  exact .found recvHash status hrecv

/-- `WaitForWriteAck` ends with a write ack on the copy and on the row. The one error that writes is
a recv tx without the ack of this packet: the recv tx is cleared. -/
theorem waitForWriteAck_spec (t : IBCV2Transfer) :
    (WaitForWriteAckPacket.process t).run.Ensures
      (Outcome (Harmless Call.asksWriteAck [t.rowKey]) t.rowKey [.clearRecvTx]
      fun t' evs => WaitForWriteAckOk t t' (updatesOf t.rowKey evs)) := by
  refine Runs.ensures ?_
  unfold WaitForWriteAckPacket.process
  refine Runs.query (E := fun r => ⟨.getClient _, r⟩) (fun _ => rfl) (fun _ => rfl) fun _ => ?_
  split
  · rename_i recvHash hrecv
    refine Runs.peek (E := fun r => ⟨.packetWriteAckStatus _ _ _ _ _, r⟩) (fun _ => rfl)
      (fun _ => rfl) ?_
    -- an error is of one of three kinds: no write ack of this packet, another error, or an ack that
    -- cannot be decoded
    rintro (err | status)
    · dsimp only
      split
      · exact Runs.clear (harmless_update (by simp) (by simp)) (by simp) (by simp [GoError.new])
      · split
        · exact Runs.throw (by simp)
        · exact recordWriteAck_runs hrecv .unknown _
    · exact recordWriteAck_runs hrecv status _
  · exact Runs.throw (by simp [GoError.new])

/-- The write ack tx is final. The time at which this was seen is set on the copy; the statement
that should record it names no row. -/
inductive CheckWriteAckFinalityOk (offset : Option UInt64) (t : IBCV2Transfer) :
    IBCV2Transfer → List TransferUpdate → List Event → Prop where
  | timeKnown {evs : List Event} (hash : String) (hhash : t.writeAckTxHash = some hash)
      (h : ⟨.isTxFinalized t.destinationChainID hash offset, .ok true⟩ ∈ evs)
      (htime : t.writeAckTxFinalizedTime.isSome = true) :
      CheckWriteAckFinalityOk offset t t [] evs
  | timeSet {evs : List Event} (hash : String) (time : Time)
      (hhash : t.writeAckTxHash = some hash)
      (h : ⟨.isTxFinalized t.destinationChainID hash offset, .ok true⟩ ∈ evs)
      (htime : t.writeAckTxFinalizedTime = none) :
      CheckWriteAckFinalityOk offset t { t with writeAckTxFinalizedTime := some time }
        (if t.rowKey = RowKey.zero then [.updateTransferWriteAckTxFinalizedTime (some time)]
          else []) evs

/-- Either way the destination chain has called the write ack tx final. -/
theorem CheckWriteAckFinalityOk.finalized {offset : Option UInt64} {t t' : IBCV2Transfer}
    {us : List TransferUpdate} {evs : List Event} (h : CheckWriteAckFinalityOk offset t t' us evs) :
    ∃ hash, t.writeAckTxHash = some hash
      ∧ ⟨.isTxFinalized t.destinationChainID hash offset, .ok true⟩ ∈ evs := by
  cases h with
  | timeKnown hash hhash h => exact ⟨hash, hhash, h⟩
  | timeSet hash time hhash h => exact ⟨hash, hhash, h⟩

/-- `CheckWriteAckFinality` sets the time on the copy, but its statement is for the row with the
zero key: `RowKey.zero` is among the keys that may be written, and the row of the transfer gets
nothing unless that is its key. -/
theorem checkWriteAckFinality_spec (offset : Option UInt64) (t : IBCV2Transfer) :
    (CheckWriteAckFinalityProcessor.process offset t).run.Ensures
      (Outcome (Harmless Call.asksTxFinality [t.rowKey, RowKey.zero]) t.rowKey []
        fun t' evs => CheckWriteAckFinalityOk offset t t' (updatesOf t.rowKey evs) evs) := by
  refine Runs.ensures ?_
  unfold CheckWriteAckFinalityProcessor.process
  refine Runs.query (E := fun r => ⟨.getClient _, r⟩) (fun _ => rfl) (fun _ => rfl) fun _ => ?_
  split
  · rename_i hash hhash
    refine Runs.query (E := fun r => ⟨.isTxFinalized _ _ _, r⟩) (fun _ => rfl) (fun _ => rfl) ?_
    rintro (_ | _)
    · exact Runs.throw (by simp [CheckWriteAckFinalityProcessor.errWriteAckNotFinalized])
    · simp only [Bool.not_true, Bool.false_eq_true, if_false]
      split
      · rename_i htime
        exact Runs.pure (.timeKnown hash hhash (by simp) htime)
      · rename_i htime
        refine Runs.peek (E := fun time => ⟨.now _ _, time⟩) (fun _ => rfl) (fun _ => rfl) ?_
        intro time
        refine Runs.update (harmless_update (by simp) (by simp)) fun hharmless horderly hpast =>
          ⟨hharmless, horderly, ?_⟩
        -- the parameters of the statement have no key columns, hence the zero key
        have hevent : updatesOfEvent t.rowKey
              ⟨.update (.updateTransferWriteAckTxFinalizedTime (some time)) RowKey.zero, .ok ()⟩
            = if t.rowKey = RowKey.zero then [.updateTransferWriteAckTxFinalizedTime (some time)]
              else [] := by
          simp [updatesOfEvent, eq_comm]
        show CheckWriteAckFinalityOk offset t _ (updatesOf t.rowKey (_ :: _)) _
        rw [updatesOf_cons, hpast, List.nil_append, hevent]
        refine CheckWriteAckFinalityOk.timeSet hash time hhash ?_ ?_
        · exact List.mem_cons_of_mem _ (List.mem_cons_of_mem _ List.mem_cons_self)
        · simpa using htime
  · exact Runs.throw (by simp [GoError.new])

/-! ## After a submission -/

/-- The tx need not be sent again. -/
inductive RetryOk (p : RetryPacket) (t : IBCV2Transfer) :
    IBCV2Transfer → List TransferUpdate → List Event → Prop where
  | confirmed {evs : List Event} (hash : String) (time : Time) (hhash : p.txHash t = some hash)
      (htime : p.txTime t = some time)
      (h : ⟨.shouldRetryTx p.chainID hash p.expiry time, .ok false⟩ ∈ evs) : RetryOk p t t [] evs

/-- A retry processor lets the copy pass if the chain does not want the tx again, and writes nothing
then. Otherwise it clears the tx and ends with its sentinel. -/
theorem retry_spec (p : RetryPacket) (herr : p.errRetrying.text ≠ "")
    (hclear : ∀ status, p.clear ≠ .updateTransferState status) (t : IBCV2Transfer) :
    (p.process t).run.Ensures
      (Outcome (Harmless Call.asksRetry [t.rowKey]) t.rowKey [p.clear]
      fun t' evs => RetryOk p t t' (updatesOf t.rowKey evs) evs) := by
  refine Runs.ensures ?_
  unfold RetryPacket.process
  refine Runs.query (E := fun r => ⟨.getClient _, r⟩) (fun _ => rfl) (fun _ => rfl) fun _ => ?_
  -- a missing hash or time is an error, although `ShouldProcess` has looked at both
  cases hhash : p.txHash t with
  | none => exact Runs.throw (by simp [GoError.new])
  | some hash =>
    cases htime : p.txTime t with
    | none => exact Runs.throw (by simp [GoError.new])
    | some time =>
      refine Runs.query (E := fun r => ⟨.shouldRetryTx _ _ _ _, r⟩) (fun _ => rfl)
        (fun _ => rfl) ?_
      rintro (_ | _)
      · exact Runs.pure (.confirmed hash time hhash htime (by simp))
      · exact Runs.clear (harmless_update (by simp) hclear) (by simp) herr

/-- The end of a gas calculator: the cost that goes to the row is the value of the fee of the tx on
the copy. -/
def GasOk (p : TxGasCalculator) (t t' : IBCV2Transfer) (us : List TransferUpdate)
    (evs : List Event) : Prop :=
  t' = t ∧ ∃ hash fee coingeckoID decimals cost, p.txHash t = some hash
    ∧ ⟨.txFee (p.chainID t) hash, .ok fee⟩ ∈ evs
    ∧ ⟨.getCoinUsdValue coingeckoID decimals fee, .ok cost⟩ ∈ evs
    ∧ us = [p.updateGasCostUSD cost]

/-- A gas calculator writes the cost to the row and returns the copy as it was. -/
theorem gas_spec (p : TxGasCalculator)
    (hupdate : ∀ cost status, p.updateGasCostUSD cost ≠ .updateTransferState status)
    (coingeckoID : String) (decimals : UInt8) (t : IBCV2Transfer) :
    (p.process coingeckoID decimals t).run.Ensures
      (Outcome (Harmless Call.asksNothing [t.rowKey]) t.rowKey []
      fun t' evs => GasOk p t t' (updatesOf t.rowKey evs) evs) := by
  refine Runs.ensures ?_
  unfold TxGasCalculator.process
  refine Runs.query (E := fun r => ⟨.getClient _, r⟩) (fun _ => rfl) (fun _ => rfl) fun _ => ?_
  cases hhash : p.txHash t with
  | none => exact Runs.throw (by simp [GoError.new])
  | some hash =>
    refine Runs.query (E := fun r => ⟨.txFee _ _, r⟩) (fun _ => rfl) (fun _ => rfl) fun fee => ?_
    refine Runs.query (E := fun r => ⟨.getCoinUsdValue _ _ _, r⟩) (fun _ => rfl) (fun _ => rfl) ?_
    intro cost
    exact Runs.write (harmless_update (by simp) (hupdate cost)) fun hus =>
      ⟨rfl, hash, fee, coingeckoID, decimals, cost, hhash, by simp, by simp, hus⟩

end IbcRelayer
