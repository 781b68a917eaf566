import IbcRelayer.Processor.Submitted

/-!
# IbcRelayer — the stages that submit a tx

`BatchRecvPacketProcessor`, `BatchAckPacketProcessor` and `BatchTimeoutPacketProcessor` submit one
tx for a batch of transfers. Their `Process` methods take the same steps (`BatchPacket.process`):

* `gather` collects the tx ids and the sequence numbers of the request; a hash that is not
  hexadecimal puts an error on its transfer, the others go on;
* the proof API turns the request into tx bytes, which are delivered to a chain;
* one transaction records the tx on every transfer that has no error, then the copies get it too.

The `ShouldProcess` methods differ and are written out for each. The durations that are measured
around the request only go to the log and are left out.
-/

namespace IbcRelayer

open CallTree

/-- What the batch processors differ in. -/
structure BatchPacket where
  txType : TxType
  /-- The kind of tx in the error texts. -/
  kind : String
  /-- The chain the tx is delivered to, with its role in the error texts. -/
  role : String
  chainID : String
  /-- The hash whose bytes go into the request, and its name in the error texts. -/
  txHash : IBCV2Transfer → Except GoError String
  txHashName : String
  request : List (List UInt8) → List UInt64 → RelayByTxRequest
  relayByTxText : Nat → String
  deliverTxText : Nat → String
  updateTx : BridgeTx → TransferUpdate
  updateTxText : BridgeTx → IBCV2Transfer → String
  setTx : BridgeTx → IBCV2Transfer → IBCV2Transfer

/-! ## The request -/

/-- What the first loop leaves behind. `requested` are the transfers of `sequences`, and
`transfers` is the whole batch, with the errors the loop has set. -/
structure Gathered where
  txIDs : List (List UInt8) := []
  sequences : List UInt64 := []
  requested : List IBCV2Transfer := []
  transfers : List IBCV2Transfer := []
  deriving DecidableEq, Repr

def Gathered.consFailed (g : Gathered) (t : IBCV2Transfer) (err : GoError) : Gathered :=
  { g with transfers := t.fail err :: g.transfers }

def Gathered.consRequested (g : Gathered) (t : IBCV2Transfer) : Gathered :=
  { g with
    sequences := t.sequence :: g.sequences
    requested := t :: g.requested
    transfers := t :: g.transfers }

/-- The loop over the batch; `txSet` are the hashes whose bytes are in the request already. -/
def BatchPacket.gather (p : BatchPacket) (txSet : List String) : List IBCV2Transfer → Gathered
  | [] => {}
  | t :: rest =>
    match p.txHash t with
    | .error err => (p.gather txSet rest).consFailed t err
    | .ok hash =>
      if hash ∈ txSet then
        (p.gather txSet rest).consRequested t
      else
        match decodeString (trimHexMark hash) with
        | .error err =>
          (p.gather txSet rest).consFailed t
            (err.wrap ("decoding hex " ++ p.txHashName ++ " tx hash " ++ hash ++ " to bytes"))
        | .ok txID =>
          let g := (p.gather (hash :: txSet) rest).consRequested t
          { g with txIDs := txID :: g.txIDs }

/-! ## Recording the tx -/

/-- `wrapErr` inside a transaction. -/
def Tx.wrapErr {α : Type} (msg : String) (x : Tx α) : Tx α :=
  fun stmts => IbcRelayer.wrapErr msg (x.run stmts)

/-- `insertTransferTxSubmissionMappings`, over the transfers that have no error. -/
def insertTransferTxSubmissionMappings (submissionID : Int32) : List IBCV2Transfer → Tx Unit
  | [] => return
  | t :: rest => do
    if t.id = 0 then
      throw (.new ("transfer from source chain " ++ t.sourceChainID ++ " packet sequence "
        ++ t.sequenceText ++ " and source client " ++ t.packetSourceClientID
        ++ " is missing db id"))
    Tx.wrapErr ("inserting tx submission mapping for transfer " ++ toString t.id.toInt
        ++ " and submission " ++ toString submissionID.toInt)
      (Tx.exec (.insertIBCV2TransferTxSubmission t.id submissionID))
    insertTransferTxSubmissionMappings submissionID rest

/-- The loop of the transaction over the transfers that have no error. -/
def BatchPacket.updateTxs (p : BatchPacket) (tx : BridgeTx) : List IBCV2Transfer → Tx Unit
  | [] => return
  | t :: rest => do
    Tx.wrapErr (p.updateTxText tx t) (Tx.exec (.update (p.updateTx tx) t.rowKey))
    p.updateTxs tx rest

/-- The body of the transaction; `submitted` are the transfers that have no error. -/
def BatchPacket.record (p : BatchPacket) (tx : BridgeTx) (submitted : List IBCV2Transfer) :
    Tx Unit := do
  p.updateTxs tx submitted
  if submitted.isEmpty then
    return
  let submissionID ← Tx.wrapErr ("inserting " ++ p.kind ++ " tx submission " ++ tx.hash)
    (Tx.insertSubmission
      { txHash := tx.hash
        chainID := p.chainID
        txType := p.txType
        relayerAddress := tx.relayerAddress
        submittedAt := tx.timestamp })
  Tx.wrapErr ("inserting " ++ p.kind ++ " tx submission mappings for " ++ tx.hash)
    (insertTransferTxSubmissionMappings submissionID submitted)

/-! ## `Process` -/

/-- What the request and the tx are made for. -/
def BatchPacket.submission (p : BatchPacket) (g : Gathered) : Submission := ⟨p.txType, g.requested⟩

/-- The copies after the tx was recorded. -/
def BatchPacket.setTxs (p : BatchPacket) (tx : BridgeTx) (transfers : List IBCV2Transfer) :
    List IBCV2Transfer :=
  transfers.map fun t => if t.processingError.isSome then t else p.setTx tx t

/-- The end of `Process`: deliver the tx, and record it. -/
def BatchPacket.deliver (p : BatchPacket) (g : Gathered) (resp : RelayByTxResponse) :
    ExceptT GoError Eff (List IBCV2Transfer) := do
  let tx ← wrapErr (p.deliverTxText g.sequences.length)
    (deliverTx p.chainID resp.tx resp.address (p.submission g))
  wrapErr ("updating batch transfers " ++ p.kind ++ " txs")
    (execTx (p.record tx (g.transfers.filter (·.processingError.isNone))))
  return p.setTxs tx g.transfers

/-- The `Process` method of the batch processors. -/
def BatchPacket.process (p : BatchPacket) (transfers : List IBCV2Transfer) :
    ExceptT GoError Eff (List IBCV2Transfer) := do
  let g := p.gather [] transfers
  let resp ← wrapErr (p.relayByTxText g.sequences.length)
    (relayByTx (p.request g.txIDs g.sequences) (p.submission g))
  wrapErr ("getting client for transfer " ++ p.role ++ " chain " ++ p.chainID)
    (getClient p.chainID)
  -- an EVM chain has to catch up with the current time, or the tx would revert
  if (← liftM (chainType p.chainID)) = .evm then
    wrapErr "waiting for chain" (waitForChain p.chainID)
  p.deliver g resp

/-! ## The three members -/

/-- The chains and clients of a pipeline. -/
structure Route where
  sourceChainID : String
  sourceClientID : String
  destinationChainID : String
  destinationClientID : String
  deriving DecidableEq, Repr

/-- The text of a failed update in the recv and in the ack processor. -/
def updateTransferText (kind : String) (tx : BridgeTx) (t : IBCV2Transfer) : String :=
  "updating transfer from source chain " ++ t.sourceChainID ++ " packet sequence "
    ++ t.sequenceText ++ " and source client " ++ t.packetSourceClientID ++ " with " ++ kind
    ++ " hash " ++ tx.hash

def batchRecvPacket (route : Route) : BatchPacket where
  txType := .recvPacket
  kind := "recv"
  role := "destination"
  chainID := route.destinationChainID
  txHash t := .ok t.sourceTxHash
  txHashName := "source"
  request txIDs sequences :=
    { srcChain := route.sourceChainID
      dstChain := route.destinationChainID
      sourceTxIds := txIDs
      srcClientId := route.sourceClientID
      dstClientId := route.destinationClientID
      srcPacketSequences := sequences }
  relayByTxText n := "getting recv tx bytes from relay service for batch of " ++ toString n
    ++ " transfers"
  deliverTxText n := "signing and submitting recv tx bytes for batch of " ++ toString n
    ++ " transfers"
  updateTx tx := .updateTransferRecvTx (some tx.hash) (some tx.timestamp) (some tx.relayerAddress)
  updateTxText := updateTransferText "recv"
  setTx tx t :=
    { t with
      recvTxHash := some tx.hash
      recvTxTime := some tx.timestamp
      recvTxRelayerAddress := some tx.relayerAddress }

/-- The relayer's address goes to the row but not to the copy. -/
def batchAckPacket (route : Route) : BatchPacket where
  txType := .ackPacket
  kind := "ack"
  role := "source"
  chainID := route.sourceChainID
  txHash t :=
    match t.writeAckTxHash with
    | some hash => .ok hash
    | none => .error (.new "trying to deliver ack packet, no write ack tx hash found")
  txHashName := "write ack"
  request txIDs sequences :=
    { srcChain := route.destinationChainID
      dstChain := route.sourceChainID
      sourceTxIds := txIDs
      dstClientId := route.sourceClientID
      srcClientId := route.destinationClientID
      dstPacketSequences := sequences }
  relayByTxText n := "getting ack tx bytes from relay service for batch of " ++ toString n
    ++ " transfers"
  deliverTxText n := "signing and submitting ack tx bytes for batch of " ++ toString n
    ++ " transfers"
  updateTx tx := .updateTransferAckTx (some tx.hash) (some tx.timestamp) (some tx.relayerAddress)
  updateTxText := updateTransferText "ack"
  setTx tx t := { t with ackTxHash := some tx.hash, ackTxTime := some tx.timestamp }

/-- The relayer's address goes to the row but not to the copy, and the text of a failed update
prints the whole tx. -/
def batchTimeoutPacket (route : Route) : BatchPacket where
  txType := .timeoutPacket
  kind := "timeout"
  role := "source"
  chainID := route.sourceChainID
  txHash t := .ok t.sourceTxHash
  txHashName := "source"
  request txIDs sequences :=
    { srcChain := route.destinationChainID
      dstChain := route.sourceChainID
      timeoutTxIds := txIDs
      srcClientId := route.destinationClientID
      dstClientId := route.sourceClientID
      dstPacketSequences := sequences }
  relayByTxText n := "getting timeout tx bytes from ibcv2 relayer for batch of " ++ toString n
    ++ " transfers"
  deliverTxText _ := "submitting batch timeout tx"
  updateTx tx :=
    .updateTransferTimeoutTx (some tx.hash) (some tx.timestamp) (some tx.relayerAddress)
  updateTxText tx _ := "updating transfer timeout tx with timeout tx &\x7b" ++ tx.hash ++ " "
    ++ tx.timestamp.string ++ " " ++ tx.relayerAddress ++ "\x7d"
  setTx tx t := { t with timeoutTxHash := some tx.hash, timeoutTxTime := some tx.timestamp }

/-- The clock is only read when there is no recv tx. -/
def BatchRecvPacketProcessor.shouldProcess (t : IBCV2Transfer) : Eff Bool := do
  if t.recvTxHash.isSome then
    return false
  let now ← now .batchRecvPacket t.rowKey
  return !t.isTimedOut now

def BatchAckPacketProcessor.shouldProcess (shouldRelaySuccessAcks shouldRelayErrorAcks : Bool)
    (t : IBCV2Transfer) : Eff Bool := do
  if t.writeAckTxHash.isNone then
    return false
  match t.writeAckStatus with
  | none =>
    warn .deliverAckWithoutWriteAckStatus t.rowKey
    return false
  | some status =>
    if (status.isErrorAck && !shouldRelayErrorAcks)
        || (status.isSuccessAck && !shouldRelaySuccessAcks) then
      return false
    return t.ackTxHash.isNone && t.timeoutTxHash.isNone

def BatchTimeoutPacketProcessor.shouldProcess (t : IBCV2Transfer) : Eff Bool := do
  let now ← now .batchTimeoutPacket t.rowKey
  return (t.isTimedOut now && t.recvTxHash.isNone && t.ackTxHash.isNone) && t.timeoutTxHash.isNone

def batchRecvPacketProcessor (route : Route) : IBCV2BatchProcessor where
  state := .deliverRecvPacket
  shouldProcess := BatchRecvPacketProcessor.shouldProcess
  process := (batchRecvPacket route).process

def batchAckPacketProcessor (route : Route) (shouldRelaySuccessAcks shouldRelayErrorAcks : Bool) :
    IBCV2BatchProcessor where
  state := .deliverAckPacket
  shouldProcess :=
    BatchAckPacketProcessor.shouldProcess shouldRelaySuccessAcks shouldRelayErrorAcks
  process := (batchAckPacket route).process

def batchTimeoutPacketProcessor (route : Route) : IBCV2BatchProcessor where
  state := .deliverTimeoutPacket
  shouldProcess := BatchTimeoutPacketProcessor.shouldProcess
  process := (batchTimeoutPacket route).process

end IbcRelayer
