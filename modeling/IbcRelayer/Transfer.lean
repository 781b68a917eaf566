import IbcRelayer.Db

/-!
# IbcRelayer — the transfer that travels through a pipeline

`IBCV2Transfer` is the in-memory copy of a row that the pipeline stages read and change
(`relayer/ibcv2/ibcv2_transfer.go`). A pointer field is an `Option`, so the `GetX` methods that
return a value and a flag are the field itself. Left out are the logger and the `*TxBytes` and
`*TxToAddress` fields, which no stage reads or sets.

A copy is identified by its packet: `newTransferKey` is the key of the deduplication set,
`rowKey` the key its `UPDATE` statements carry. They differ in the type of the sequence number,
which the row stores as an `int32` and the copy holds as a `uint32`.
-/

namespace IbcRelayer

/-- The copy of a row, with the error that a stage has left on it. -/
structure IBCV2Transfer where
  id : Int32
  state : Ibcv2RelayStatus := .pending
  sourceChainID : String
  destinationChainID : String
  sourceTxHash : String
  sourceTxTime : Time
  sourceTxFinalizedTime : Option Time := none
  packetSequenceNumber : UInt32
  packetSourceClientID : String
  packetDestinationClientID : String
  packetTimeoutTimestamp : Time
  recvTxHash : Option String := none
  recvTxTime : Option Time := none
  recvTxRelayerAddress : Option String := none
  recvTxGasCostUSD : Option Int := none
  writeAckTxHash : Option String := none
  writeAckTxTime : Option Time := none
  writeAckStatus : Option Ibcv2WriteAckStatus := none
  writeAckTxFinalizedTime : Option Time := none
  ackTxHash : Option String := none
  ackTxTime : Option Time := none
  ackTxRelayerAddress : Option String := none
  ackTxGasCostUSD : Option Int := none
  timeoutTxHash : Option String := none
  timeoutTxTime : Option Time := none
  timeoutTxRelayerAddress : Option String := none
  timeoutTxGasCostUSD : Option Int := none
  processingError : Option GoError := none
  deriving DecidableEq, Repr

/-- `NewIBCV2Transfer`: the copy of a row. A gas cost keeps only the integer of its numeric. -/
def newIBCV2Transfer (r : Ibcv2Transfer) : IBCV2Transfer where
  id := r.id
  state := r.status
  sourceChainID := r.sourceChainID
  destinationChainID := r.destinationChainID
  sourceTxHash := r.sourceTxHash
  sourceTxTime := r.sourceTxTime
  sourceTxFinalizedTime := r.sourceTxFinalizedTime
  packetSequenceNumber := r.packetSequenceNumber.toUInt32
  packetSourceClientID := r.packetSourceClientID
  packetDestinationClientID := r.packetDestinationClientID
  packetTimeoutTimestamp := r.packetTimeoutTimestamp
  recvTxHash := r.recvTxHash
  recvTxTime := r.recvTxTime
  recvTxRelayerAddress := r.recvTxRelayerAddress
  -- the exponent of the numeric is dropped
  recvTxGasCostUSD := r.recvTxGasCostUsd.map (·.int)
  writeAckTxHash := r.writeAckTxHash
  writeAckTxTime := r.writeAckTxTime
  writeAckStatus := r.writeAckStatus
  writeAckTxFinalizedTime := r.writeAckTxFinalizedTime
  ackTxHash := r.ackTxHash
  ackTxTime := r.ackTxTime
  ackTxRelayerAddress := r.ackTxRelayerAddress
  ackTxGasCostUSD := r.ackTxGasCostUsd.map (·.int)
  timeoutTxHash := r.timeoutTxHash
  timeoutTxTime := r.timeoutTxTime
  timeoutTxRelayerAddress := r.timeoutTxRelayerAddress
  timeoutTxGasCostUSD := r.timeoutTxGasCostUsd.map (·.int)

namespace IBCV2Transfer

/-- `Error()`: the text of the processing error, empty when there is none. -/
def error (t : IBCV2Transfer) : String :=
  match t.processingError with
  | none => ""
  | some err => err.text

/-- The key of the `UPDATE` statements made for this transfer. -/
def rowKey (t : IBCV2Transfer) : RowKey :=
  ⟨t.sourceChainID, t.packetSourceClientID, t.packetSequenceNumber.toInt32⟩

/-- `uint64(transfer.GetPacketSequenceNumber())`, as it is sent to the clients. -/
def sequence (t : IBCV2Transfer) : UInt64 := t.packetSequenceNumber.toUInt64

/-- `IsTimedOut`, at the clock reading `now`. -/
def isTimedOut (t : IBCV2Transfer) (now : Time) : Bool := now.after t.packetTimeoutTimestamp

/-- `transfer.ProcessingError = err` -/
def fail (t : IBCV2Transfer) (err : GoError) : IBCV2Transfer :=
  { t with processingError := some err }

@[simp] theorem fail_error (t : IBCV2Transfer) (err : GoError) :
    (t.fail err).error = err.text := rfl

@[simp] theorem fail_rowKey (t : IBCV2Transfer) (err : GoError) :
    (t.fail err).rowKey = t.rowKey := rfl

theorem error_of_none {t : IBCV2Transfer} (h : t.processingError = none) : t.error = "" := by
  simp [error, h]

/-- The fields no stage ever changes: what packet the transfer is about. -/
structure SamePacket (t t' : IBCV2Transfer) : Prop where
  id : t'.id = t.id
  sourceChainID : t'.sourceChainID = t.sourceChainID
  destinationChainID : t'.destinationChainID = t.destinationChainID
  sourceTxHash : t'.sourceTxHash = t.sourceTxHash
  sourceTxTime : t'.sourceTxTime = t.sourceTxTime
  packetSequenceNumber : t'.packetSequenceNumber = t.packetSequenceNumber
  packetSourceClientID : t'.packetSourceClientID = t.packetSourceClientID
  packetDestinationClientID : t'.packetDestinationClientID = t.packetDestinationClientID
  packetTimeoutTimestamp : t'.packetTimeoutTimestamp = t.packetTimeoutTimestamp

theorem SamePacket.refl (t : IBCV2Transfer) : SamePacket t t := by
  constructor <;> rfl

/-- Stages one after the other leave the fields alone. -/
theorem SamePacket.trans {t u v : IBCV2Transfer} (h : SamePacket t u) (h' : SamePacket u v) :
    SamePacket t v where
  id := h'.id.trans h.id
  sourceChainID := h'.sourceChainID.trans h.sourceChainID
  destinationChainID := h'.destinationChainID.trans h.destinationChainID
  sourceTxHash := h'.sourceTxHash.trans h.sourceTxHash
  sourceTxTime := h'.sourceTxTime.trans h.sourceTxTime
  packetSequenceNumber := h'.packetSequenceNumber.trans h.packetSequenceNumber
  packetSourceClientID := h'.packetSourceClientID.trans h.packetSourceClientID
  packetDestinationClientID := h'.packetDestinationClientID.trans h.packetDestinationClientID
  packetTimeoutTimestamp := h'.packetTimeoutTimestamp.trans h.packetTimeoutTimestamp

/-- An error is left on a transfer without touching its packet. -/
theorem samePacket_fail (t : IBCV2Transfer) (err : GoError) : SamePacket t (t.fail err) := by
  constructor <;> rfl

theorem samePacket_state (t : IBCV2Transfer) (state : Ibcv2RelayStatus) :
    SamePacket t { t with state } := by
  constructor <;> rfl

/-- The statements for a copy hit the same row all the way through a pipeline. -/
theorem SamePacket.rowKey {t t' : IBCV2Transfer} (h : SamePacket t t') : t'.rowKey = t.rowKey := by
  simp [IBCV2Transfer.rowKey, h.sourceChainID, h.packetSourceClientID, h.packetSequenceNumber]

theorem SamePacket.sequence {t t' : IBCV2Transfer} (h : SamePacket t t') :
    t'.sequence = t.sequence := by
  rw [IBCV2Transfer.sequence, IBCV2Transfer.sequence, h.packetSequenceNumber]

/-- Whether a packet is timed out depends on the clock only, not on the stage. -/
theorem SamePacket.isTimedOut {t t' : IBCV2Transfer} (h : SamePacket t t') (now : Time) :
    t'.isTimedOut now = t.isTimedOut now := by
  rw [IBCV2Transfer.isTimedOut, IBCV2Transfer.isTimedOut, h.packetTimeoutTimestamp]

end IBCV2Transfer

/-- The `int32` sequence number of a row survives the trip through the copy's `uint32`, so the
statements made for a copy hit the row it was made from. -/
@[simp] theorem newIBCV2Transfer_rowKey (r : Ibcv2Transfer) :
    (newIBCV2Transfer r).rowKey = r.key := by
  simp [newIBCV2Transfer, IBCV2Transfer.rowKey, Ibcv2Transfer.key]

/-- `transferKey` -/
structure TransferKey where
  sourceChainID : String
  packetSequenceNumber : UInt32
  packetSourceClientID : String
  deriving DecidableEq, Repr

/-- `newTransferKey` -/
def newTransferKey (t : IBCV2Transfer) : TransferKey :=
  ⟨t.sourceChainID, t.packetSequenceNumber, t.packetSourceClientID⟩

/-- Two copies have the same deduplication key exactly when their statements hit the same row. -/
theorem newTransferKey_eq_iff {t t' : IBCV2Transfer} :
    newTransferKey t = newTransferKey t' ↔ t.rowKey = t'.rowKey := by
  simp only [newTransferKey, IBCV2Transfer.rowKey, TransferKey.mk.injEq, RowKey.mk.injEq]
  constructor
  · rintro ⟨hchain, hseq, hclient⟩
    exact ⟨hchain, hclient, by rw [hseq]⟩
  · rintro ⟨hchain, hclient, hseq⟩
    refine ⟨hchain, ?_, hclient⟩
    -- the conversion between `int32` and `uint32` loses nothing
    have := congrArg Int32.toUInt32 hseq
    simpa using this

end IbcRelayer
