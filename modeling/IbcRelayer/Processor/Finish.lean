import IbcRelayer.Processor.Check

/-!
# IbcRelayer — the last stage

`IsComplete` and `StateFinisher.Process`, which writes the final status of a transfer. The stage is
not wrapped: it checks for an error itself and never returns one.
-/

namespace IbcRelayer

open CallTree

/-- `IsComplete` -/
def IBCV2Transfer.isComplete (t : IBCV2Transfer)
    (shouldRelaySuccessAcks shouldRelayErrorAcks : Bool) : Eff Bool := do
  if t.processingError.isSome then
    return false
  if t.timeoutTxHash.isSome then
    return true
  if t.recvTxHash.isNone || t.writeAckTxHash.isNone then
    return false
  if t.ackTxHash.isSome then
    return true
  match t.writeAckStatus with
  | none =>
    warn .isCompleteWithoutWriteAckStatus t.rowKey
    return false
  | some status =>
    if (status.isErrorAck && shouldRelayErrorAcks)
        || (status.isSuccessAck && shouldRelaySuccessAcks) then
      return false
    return true

namespace StateFinisher

/-- The final status of a complete transfer, `none` when the write ack status is missing. -/
def finalState (t : IBCV2Transfer) : Option Ibcv2RelayStatus :=
  if t.timeoutTxHash.isSome then
    some .completeWithTimeout
  else
    t.writeAckStatus.map fun status =>
      if t.ackTxHash.isSome then .completeWithAck
      else if status.isErrorAck then .completeWithWriteAckError
      else .completeWithWriteAckSuccess

/-- `RecordTimeoutRelayed` and `RecordAckRelayed`; the first counts under the relay type of a
recv. -/
def recordRelayed (t : IBCV2Transfer) : Ibcv2RelayStatus → Eff Unit
  | .completeWithTimeout =>
    addRelayCompleted t.sourceChainID t.packetSourceClientID t.destinationChainID
      t.packetDestinationClientID .sendToRecv
  | .completeWithAck =>
    addRelayCompleted t.destinationChainID t.packetDestinationClientID t.sourceChainID
      t.packetSourceClientID .recvToAck
  | _ => return

/-- `StateFinisher.Process` -/
def process (shouldRelaySuccessAcks shouldRelayErrorAcks : Bool) (t : IBCV2Transfer) :
    Eff IBCV2Transfer := do
  if t.error ≠ "" then
    return t
  if !(← t.isComplete shouldRelaySuccessAcks shouldRelayErrorAcks) then
    warn .finishNotComplete t.rowKey
    return t
  match finalState t with
  | none =>
    warn .finishWithoutWriteAckStatus t.rowKey
    return t
  | some state =>
    recordRelayed t state
    let t := { t with state }
    match ← (update (.updateTransferState state) t.rowKey).run with
    | .ok _ => return t
    | .error err => return t.fail (err.wrap ("updating transfer state to " ++ state.toString))

end StateFinisher

end IbcRelayer
