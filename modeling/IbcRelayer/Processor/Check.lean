import IbcRelayer.ProcessorMw

/-!
# IbcRelayer — the stages that look before the relayer acts

The processors that ask a chain about a packet and record what they find:
`CheckRecvPacketDeliveryProcessor`, `CheckPacketCommitmentProcessor`, `CheckSendFinalityProcessor`,
`CheckTimeoutFinalityProcessor`, `WaitForWriteAckPacket` and `CheckWriteAckFinalityProcessor`, each
with its `ShouldProcess`, its `State` and its `Process`.
-/

namespace IbcRelayer

open CallTree

/-- The packet sequence number in an error text (`%d`). -/
def IBCV2Transfer.sequenceText (t : IBCV2Transfer) : String := toString t.packetSequenceNumber.toNat

/-! ## `CheckRecvPacketDeliveryProcessor` -/

namespace CheckRecvPacketDeliveryProcessor

def shouldProcess (t : IBCV2Transfer) : Eff Bool :=
  return t.recvTxHash.isNone && t.ackTxHash.isNone && t.timeoutTxHash.isNone

def process (t : IBCV2Transfer) : ExceptT GoError Eff IBCV2Transfer := do
  wrapErr ("getting bridge client for transfer destination chain " ++ t.destinationChainID)
    (getClient t.destinationChainID)
  let received ← wrapErr ("checking if packet with sequence number " ++ t.sequenceText
      ++ " is already received on destination chain " ++ t.destinationChainID
      ++ " for client " ++ t.packetDestinationClientID)
    (isPacketReceived t.destinationChainID t.packetDestinationClientID t.sequence)
  if !received then
    return t
  let recvTx ← wrapErr ("finding for recv tx hash for transfer from source client "
      ++ t.packetSourceClientID ++ " to dest client " ++ t.packetDestinationClientID
      ++ " with sequence " ++ t.sequenceText ++ " and timeout tx "
      ++ t.packetTimeoutTimestamp.formatRFC3339)
    (findRecvTx t.destinationChainID t.packetSourceClientID t.packetDestinationClientID t.sequence
      t.packetTimeoutTimestamp)
  wrapErr ("updating transfer recv tx with existing tx hash " ++ recvTx.hash ++ " and timestamp "
      ++ recvTx.timestamp.formatRFC3339)
    (update (.updateTransferRecvTx (some recvTx.hash) (some recvTx.timestamp)
      (some recvTx.relayerAddress)) t.rowKey)
  return { t with
    recvTxHash := some recvTx.hash
    recvTxTime := some recvTx.timestamp
    recvTxRelayerAddress := some recvTx.relayerAddress }

end CheckRecvPacketDeliveryProcessor

def checkRecvPacketDeliveryProcessor : IBCV2Processor where
  state := .checkRecvPacketDelivery
  shouldProcess := CheckRecvPacketDeliveryProcessor.shouldProcess
  process := CheckRecvPacketDeliveryProcessor.process

/-! ## `CheckPacketCommitmentProcessor` -/

namespace CheckPacketCommitmentProcessor

def shouldProcess (t : IBCV2Transfer) : Eff Bool :=
  return t.ackTxHash.isNone && t.timeoutTxHash.isNone

/-- The two searches run side by side and neither stops the other from answering; the order in
which they are made here does not matter, since every pair of answers is possible. -/
def process (t : IBCV2Transfer) : ExceptT GoError Eff IBCV2Transfer := do
  wrapErr ("getting bridge client for transfer source chain " ++ t.sourceChainID)
    (getClient t.sourceChainID)
  let committed ← wrapErr ("checking if packet with sequence number " ++ t.sequenceText
      ++ " is already ack'd on source chain " ++ t.sourceChainID
      ++ " for client " ++ t.packetSourceClientID)
    (isPacketCommitted t.sourceChainID t.packetSourceClientID t.sequence)
  if committed then
    return t
  let ackTx ← liftM (findAckTx t.sourceChainID t.packetSourceClientID
    t.packetDestinationClientID t.sequence).run
  let timeoutTx ← liftM (findTimeoutTx t.sourceChainID t.packetSourceClientID
    t.packetDestinationClientID t.sequence).run
  match ackTx, timeoutTx with
  | .ok ackTx, .ok timeoutTx =>
    throw (.new ("found both timeout tx " ++ timeoutTx.hash ++ " and ack tx " ++ ackTx.hash
      ++ " packet, should not be possible"))
  | .ok ackTx, .error _ =>
    wrapErr ("updating transfer ack tx with existing tx hash " ++ ackTx.hash ++ " and timestamp "
        ++ ackTx.timestamp.formatRFC3339)
      (update (.updateTransferAckTx (some ackTx.hash) (some ackTx.timestamp)
        (some ackTx.relayerAddress)) t.rowKey)
    return { t with
      ackTxHash := some ackTx.hash
      ackTxTime := some ackTx.timestamp
      ackTxRelayerAddress := some ackTx.relayerAddress }
  | .error _, .ok timeoutTx =>
    wrapErr ("updating transfer timeout tx with existing tx hash " ++ timeoutTx.hash
        ++ " and timestamp " ++ timeoutTx.timestamp.formatRFC3339)
      (update (.updateTransferTimeoutTx (some timeoutTx.hash) (some timeoutTx.timestamp)
        (some timeoutTx.relayerAddress)) t.rowKey)
    return { t with
      timeoutTxHash := some timeoutTx.hash
      timeoutTxTime := some timeoutTx.timestamp
      timeoutTxRelayerAddress := some timeoutTx.relayerAddress }
  | .error _, .error _ =>
    throw (.new ("could not find timeout tx or ack tx after packet commitment not found on chain "
      ++ t.sourceChainID))

end CheckPacketCommitmentProcessor

def checkPacketCommitmentProcessor : IBCV2Processor where
  state := .checkAckPacketDelivery
  shouldProcess := CheckPacketCommitmentProcessor.shouldProcess
  process := CheckPacketCommitmentProcessor.process

/-! ## `CheckSendFinalityProcessor` -/

namespace CheckSendFinalityProcessor

def errSendNotFinalized : GoError := ⟨"send tx not finalized", [.errSendNotFinalized]⟩

def shouldProcess (t : IBCV2Transfer) : Eff Bool :=
  return t.recvTxHash.isNone

def process (sourceFinalityOffset : Option UInt64) (t : IBCV2Transfer) :
    ExceptT GoError Eff IBCV2Transfer := do
  wrapErr ("getting source bridge client for chain " ++ t.sourceChainID)
    (getClient t.sourceChainID)
  let finalized ← wrapErr ("checking if tx " ++ t.sourceTxHash ++ " is finalized on chain "
      ++ t.sourceChainID)
    (isTxFinalized t.sourceChainID t.sourceTxHash sourceFinalityOffset)
  if !finalized then
    throw errSendNotFinalized
  if t.sourceTxFinalizedTime.isSome then
    return t
  let finalizedTime ← liftM (now .sourceTxFinalizedTime t.rowKey)
  wrapErr "updating source tx finalized time"
    (update (.updateTransferSourceTxFinalizedTime (some finalizedTime)) t.rowKey)
  return { t with sourceTxFinalizedTime := some finalizedTime }

end CheckSendFinalityProcessor

def checkSendFinalityProcessor (sourceFinalityOffset : Option UInt64) : IBCV2Processor where
  state := .awaitingSendFinality
  shouldProcess := CheckSendFinalityProcessor.shouldProcess
  process := CheckSendFinalityProcessor.process sourceFinalityOffset

/-! ## `CheckTimeoutFinalityProcessor` -/

namespace CheckTimeoutFinalityProcessor

def errTimeoutNotFinalized : GoError := ⟨"timeout tx not finalized", [.errTimeoutNotFinalized]⟩

def shouldProcess (t : IBCV2Transfer) : Eff Bool := do
  let now ← now .checkTimeoutFinality t.rowKey
  return (t.isTimedOut now && t.recvTxHash.isNone && t.ackTxHash.isNone) && t.timeoutTxHash.isNone

def process (destinationFinalityOffset : Option UInt64) (t : IBCV2Transfer) :
    ExceptT GoError Eff IBCV2Transfer := do
  wrapErr ("getting destination bridge client for chain " ++ t.destinationChainID)
    (getClient t.destinationChainID)
  let finalized ← wrapErr ("checking timeout finality on chain " ++ t.destinationChainID)
    (isTimestampFinalized t.destinationChainID t.packetTimeoutTimestamp destinationFinalityOffset)
  if !finalized then
    throw errTimeoutNotFinalized
  return t

end CheckTimeoutFinalityProcessor

def checkTimeoutFinalityProcessor (destinationFinalityOffset : Option UInt64) :
    IBCV2Processor where
  state := .awaitingTimeoutFinality
  shouldProcess := CheckTimeoutFinalityProcessor.shouldProcess
  process := CheckTimeoutFinalityProcessor.process destinationFinalityOffset

/-! ## `WaitForWriteAckPacket` -/

def Ibcv2WriteAckStatus.toString : Ibcv2WriteAckStatus → String
  | .success => "SUCCESS"
  | .error => "ERROR"
  | .unknown => "UNKNOWN"

namespace WaitForWriteAckPacket

def shouldProcess (t : IBCV2Transfer) : Eff Bool :=
  return (t.recvTxHash.isSome && t.writeAckTxHash.isNone) && t.timeoutTxHash.isNone

/-- The end of `Process`: the write ack is expected in the recv tx and gets its hash and time. -/
def recordWriteAck (t : IBCV2Transfer) (recvHash : String) (status : Ibcv2WriteAckStatus) :
    ExceptT GoError Eff IBCV2Transfer := do
  liftM (addRelayCompleted t.sourceChainID t.packetSourceClientID t.destinationChainID
    t.packetDestinationClientID .sendToRecv)
  -- a missing time is only logged; the zero `time.Time` is then written
  let recvTxTime := t.recvTxTime.getD .zero
  wrapErr ("updating transfer with write ack tx hash " ++ recvHash ++ ", time "
      ++ recvTxTime.string ++ ", and status " ++ status.toString)
    (update (.updateTransferWriteAckTx (some recvHash) (some recvTxTime) (some status)) t.rowKey)
  return { t with
    writeAckTxHash := some recvHash
    writeAckTxTime := some recvTxTime
    writeAckStatus := some status }

/-- A recv tx that does not hold the write ack of this packet is cleared; an ack that cannot be
decoded is taken as `UNKNOWN`. -/
def process (t : IBCV2Transfer) : ExceptT GoError Eff IBCV2Transfer := do
  wrapErr ("getting client for transfer destination chain " ++ t.destinationChainID)
    (getClient t.destinationChainID)
  let some recvHash := t.recvTxHash
    | throw (.new "transfer does not have recv tx hash, violating ShouldProcess")
  match ← liftM (packetWriteAckStatus t.destinationChainID recvHash t.sequence
    t.packetSourceClientID t.packetDestinationClientID).run with
  | .ok status => recordWriteAck t recvHash status
  | .error err =>
    if err.is .errWriteAckNotFoundForPacket then
      wrapErr ("clearing transfer recv tx hash " ++ recvHash) (update .clearRecvTx t.rowKey)
      throw (.new ("write ack for transfer not found in recv tx " ++ recvHash))
    else if !err.is .errWriteAckDecoding then
      throw (err.wrap ("finding write ack for packet with sequence number " ++ t.sequenceText
        ++ " on chain " ++ t.destinationChainID ++ " in recv tx with hash " ++ recvHash))
    else
      recordWriteAck t recvHash .unknown

end WaitForWriteAckPacket

def waitForWriteAckPacketProcessor : IBCV2Processor where
  state := .waitForWriteAck
  shouldProcess := WaitForWriteAckPacket.shouldProcess
  process := WaitForWriteAckPacket.process

/-! ## `CheckWriteAckFinalityProcessor` -/

/-- An ack that is not a success is relayed like an error ack. -/
def Ibcv2WriteAckStatus.isErrorAck (s : Ibcv2WriteAckStatus) : Bool := s == .error || s == .unknown

def Ibcv2WriteAckStatus.isSuccessAck (s : Ibcv2WriteAckStatus) : Bool := s == .success

namespace CheckWriteAckFinalityProcessor

def errWriteAckNotFinalized : GoError := ⟨"write tx not finalized", [.errWriteAckNotFinalized]⟩

def shouldProcess (shouldRelaySuccessAcks shouldRelayErrorAcks : Bool) (t : IBCV2Transfer) :
    Eff Bool := do
  if t.writeAckTxHash.isNone then
    return false
  match t.writeAckStatus with
  | none =>
    warn .writeAckFinalityWithoutWriteAckStatus t.rowKey
    return false
  | some status =>
    return (status.isErrorAck && shouldRelayErrorAcks)
      || (status.isSuccessAck && shouldRelaySuccessAcks)

/-- The parameters of the update leave the key columns out. -/
def process (destinationFinalityOffset : Option UInt64) (t : IBCV2Transfer) :
    ExceptT GoError Eff IBCV2Transfer := do
  wrapErr ("getting source bridge client for chain " ++ t.destinationChainID)
    (getClient t.destinationChainID)
  let some writeAckTxHash := t.writeAckTxHash
    | throw (.new "write ack tx hash not finalized, violates should process")
  let finalized ← wrapErr ("checking if tx " ++ writeAckTxHash ++ " is finalized on chain "
      ++ t.destinationChainID)
    (isTxFinalized t.destinationChainID writeAckTxHash destinationFinalityOffset)
  if !finalized then
    throw errWriteAckNotFinalized
  if t.writeAckTxFinalizedTime.isSome then
    return t
  let finalizedTime ← liftM (now .writeAckTxFinalizedTime t.rowKey)
  wrapErr "updating write ack tx finalized time"
    (update (.updateTransferWriteAckTxFinalizedTime (some finalizedTime)) RowKey.zero)
  return { t with writeAckTxFinalizedTime := some finalizedTime }

end CheckWriteAckFinalityProcessor

def checkWriteAckFinalityProcessor (shouldRelaySuccessAcks shouldRelayErrorAcks : Bool)
    (destinationFinalityOffset : Option UInt64) : IBCV2Processor where
  state := .awaitingWriteAckFinality
  shouldProcess := CheckWriteAckFinalityProcessor.shouldProcess shouldRelaySuccessAcks
    shouldRelayErrorAcks
  process := CheckWriteAckFinalityProcessor.process destinationFinalityOffset

end IbcRelayer
