import IbcRelayer.PipelineOpts
import IbcRelayer.Processor.Batch
import IbcRelayer.Processor.Finish

/-!
# IbcRelayer — the pipeline and a transfer's way through it

`NewPipeline` (`relayer/ibcv2/pipeline.go`) chains the stages; `ConditionallyBatchProcess` puts a
stage that submits a tx behind a collector of batches.

* `Stage` names the stages, `newPipeline` lists those of a pipeline in their order: a gas stage is
  there only when the gas token of its chain is configured and there is a price client.
* `Stage.run` is what one stage does to one transfer. `none` is a transfer that the stage does not
  put on its output.
* `pass` is the way of one transfer through all stages. The other transfers of the batches it gets
  into are parameters (`Mates`), so that a statement about every pass covers every batching.
-/

namespace IbcRelayer

open CallTree

/-- The pipeline of a route; `priceClient` tells whether there is a price client. -/
structure Pipeline where
  route : Route
  opts : PipelineOptions
  priceClient : Bool
  deriving DecidableEq, Repr

/-- `newPipelineKey` -/
def newPipelineKey (t : IBCV2Transfer) : Route :=
  ⟨t.sourceChainID, t.packetSourceClientID, t.destinationChainID, t.packetDestinationClientID⟩

/-! ## The stages -/

inductive Stage where
  | checkRecvPacketDelivery
  | checkInitialPacketCommitment
  | checkSendPacketFinality
  | checkTimeoutTimestampFinality
  | batchTimeoutPacket
  | retryTimeoutPacket
  | timeoutTxGasCalculator
  | batchRecvPacket
  | retryRecvPacket
  | recvTxGasCalculator
  | waitForWriteAckPacket
  | checkWriteAckFinality
  | checkPostReceivePacketCommitment
  | batchAckPacket
  | retryAckPacket
  | ackTxGasCalculator
  | stateFinisher
  deriving DecidableEq, Repr

namespace Pipeline

/-- Whether the gas costs of txs on the source chain can be calculated. -/
def sourceGas (pl : Pipeline) : Bool :=
  pl.opts.sourceChainGasTokenCoingeckoID != "" && pl.opts.sourceChainGasTokenDecimals != 0
    && pl.priceClient

/-- Whether the gas costs of txs on the destination chain can be calculated. -/
def destinationGas (pl : Pipeline) : Bool :=
  pl.opts.destinationChainGasTokenCoingeckoID != ""
    && pl.opts.destinationChainGasTokenDecimals != 0 && pl.priceClient

end Pipeline

/-- A stage that is only there under a condition. -/
def onlyIf (condition : Bool) (stage : Stage) : List Stage := if condition then [stage] else []

/-- `NewPipeline` -/
def newPipeline (pl : Pipeline) : List Stage :=
  List.flatten [
    [.checkRecvPacketDelivery, .checkInitialPacketCommitment, .checkSendPacketFinality,
      .checkTimeoutTimestampFinality, .batchTimeoutPacket, .retryTimeoutPacket],
    onlyIf pl.sourceGas .timeoutTxGasCalculator,
    [.batchRecvPacket, .retryRecvPacket],
    onlyIf pl.destinationGas .recvTxGasCalculator,
    [.waitForWriteAckPacket, .checkWriteAckFinality, .checkPostReceivePacketCommitment,
      .batchAckPacket, .retryAckPacket],
    onlyIf pl.sourceGas .ackTxGasCalculator,
    [.stateFinisher]]

/-- What runs in a stage. -/
inductive StageProcessor where
  | single (p : IBCV2Processor)
  | batch (p : IBCV2BatchProcessor)
  | finisher (shouldRelaySuccessAcks shouldRelayErrorAcks : Bool)

/-- The processor that `NewPipeline` creates for a stage. -/
def Stage.processor (pl : Pipeline) : Stage → StageProcessor
  | .checkRecvPacketDelivery => .single checkRecvPacketDeliveryProcessor
  | .checkInitialPacketCommitment => .single checkPacketCommitmentProcessor
  | .checkSendPacketFinality => .single (checkSendFinalityProcessor pl.opts.sourceFinalityOffset)
  | .checkTimeoutTimestampFinality =>
    .single (checkTimeoutFinalityProcessor pl.opts.destinationFinalityOffset)
  | .batchTimeoutPacket => .batch (batchTimeoutPacketProcessor pl.route)
  | .retryTimeoutPacket => .single (retryTimeoutPacketProcessor pl.route.sourceChainID)
  | .timeoutTxGasCalculator =>
    .single (timeoutTxGasCalculatorProcessor pl.opts.sourceChainGasTokenCoingeckoID
      pl.opts.sourceChainGasTokenDecimals)
  | .batchRecvPacket => .batch (batchRecvPacketProcessor pl.route)
  | .retryRecvPacket => .single (retryRecvPacketProcessor pl.route.destinationChainID)
  | .recvTxGasCalculator =>
    .single (recvTxGasCalculatorProcessor pl.opts.destinationChainGasTokenCoingeckoID
      pl.opts.destinationChainGasTokenDecimals)
  | .waitForWriteAckPacket => .single waitForWriteAckPacketProcessor
  | .checkWriteAckFinality =>
    .single (checkWriteAckFinalityProcessor pl.opts.shouldRelaySuccessAcks
      pl.opts.shouldRelayErrorAcks pl.opts.destinationFinalityOffset)
  | .checkPostReceivePacketCommitment => .single checkPacketCommitmentProcessor
  | .batchAckPacket =>
    .batch (batchAckPacketProcessor pl.route pl.opts.shouldRelaySuccessAcks
      pl.opts.shouldRelayErrorAcks)
  | .retryAckPacket => .single (retryAckPacketProcessor pl.route.sourceChainID)
  | .ackTxGasCalculator =>
    .single (ackTxGasCalculatorProcessor pl.opts.sourceChainGasTokenCoingeckoID
      pl.opts.sourceChainGasTokenDecimals)
  | .stateFinisher =>
    .finisher pl.opts.shouldRelaySuccessAcks pl.opts.shouldRelayErrorAcks

/-! ## One transfer in one stage -/

/-- The other transfers of a batch, before and after the one that is followed: no two transfers of
a pipeline have the same key, since the deduplication set lets a key in only once. -/
structure Mates (key : RowKey) where
  before : List IBCV2Transfer := []
  after : List IBCV2Transfer := []
  nodup : (key :: (before ++ after).map (·.rowKey)).Nodup := by simp

/-- The router of `ConditionallyBatchProcess`: whether a transfer is put into a batch. -/
def routeToBatch (p : IBCV2BatchProcessor) (t : IBCV2Transfer) : Eff Bool := do
  if t.error ≠ "" then
    return false
  p.shouldProcess t

/-- `ConditionallyBatchProcess`, followed for the transfer `t`. -/
def conditionallyBatchProcess (p : IBCV2BatchProcessor) (before after : List IBCV2Transfer)
    (t : IBCV2Transfer) : Eff (Option IBCV2Transfer) := do
  if !(← routeToBatch p t) then
    return some t
  match ← IBCV2BatchProcessorMW.process p (before ++ t :: after) with
  -- the library drops a batch whose processor returns an error
  | .error _ => return none
  | .ok output => return output.find? (·.rowKey = t.rowKey)

/-- One stage, followed for the transfer `t`. -/
def StageProcessor.run (before after : List IBCV2Transfer) (t : IBCV2Transfer) :
    StageProcessor → Eff (Option IBCV2Transfer)
  | .single p => do
    match ← IBCV2ProcessorMW.process p t with
    -- the library drops an input whose processor returns an error
    | .error _ => return none
    | .ok output => return some output
  | .batch p => conditionallyBatchProcess p before after t
  | .finisher success error => do
    return some (← StateFinisher.process success error t)

/-! ## A pass -/

/-- The stages of a list, one after the other, until one drops the transfer. -/
def runStages (pl : Pipeline) {key : RowKey} (mates : Stage → Mates key) :
    List Stage → IBCV2Transfer → Eff (Option IBCV2Transfer)
  | [], t => return some t
  | stage :: rest, t => do
    match ← (stage.processor pl).run (mates stage).before (mates stage).after t with
    | none => return none
    | some t => runStages pl mates rest t

/-- The way of a transfer through the whole pipeline. -/
def pass (pl : Pipeline) {key : RowKey} (mates : Stage → Mates key) (t : IBCV2Transfer) :
    Eff (Option IBCV2Transfer) :=
  runStages pl mates (newPipeline pl) t

/-! ## A packet and an environment to run with -/

namespace Sample

def packet : InsertIBCV2TransferParams where
  sourceChainID := "cosmoshub-4"
  destinationChainID := "1"
  sourceTxHash := "0xa1"
  sourceTxTime := { unixNano := 0 }
  packetSequenceNumber := 7
  packetSourceClientID := "08-wasm-0"
  packetDestinationClientID := "client-0"
  packetTimeoutTimestamp := { unixNano := 1000 }

def row : Ibcv2Transfer := packet.toRow 1

def opts : PipelineOptions where
  shouldRelaySuccessAcks := true
  shouldRelayErrorAcks := true
  ackBatchSize := defaultBatchSize
  ackBatchTimeout := defaultBatchTimeout
  ackBatchConcurrency := defaultBatchConcurrency
  recvBatchSize := defaultBatchSize
  recvBatchTimeout := defaultBatchTimeout
  recvBatchConcurrency := defaultBatchConcurrency
  timeoutBatchSize := defaultBatchSize
  timeoutBatchTimeout := defaultTimeoutBatchTimeout
  timeoutBatchConcurrency := defaultBatchConcurrency
  sourceChainGasTokenCoingeckoID := ""
  sourceChainGasTokenDecimals := 0
  destinationChainGasTokenCoingeckoID := ""
  destinationChainGasTokenDecimals := 0
  sourceFinalityOffset := none
  destinationFinalityOffset := none

def pipeline : Pipeline := ⟨newPipelineKey (newIBCV2Transfer row), opts, false⟩

/-- The packet is the only one. -/
def world : World := ⟨[row], []⟩

def alone : Stage → Mates row.key := fun _ => {}

/-- Every call succeeds, the packet is committed and not received, everything is final, and no tx
has to be sent again; `clock` is the reading of the clock. -/
def obliging (clock : Time) : Environment := fun _ c =>
  match c with
  | .getClient _ => .ok ()
  | .isPacketReceived .. => .ok false
  | .isPacketCommitted .. => .ok true
  | .findRecvTx .. => .error (.new "tx not found")
  | .findAckTx .. => .error (.new "tx not found")
  | .findTimeoutTx .. => .error (.new "tx not found")
  | .deliverTx .. => .ok ⟨"0xd1", { unixNano := 500 }, "relayer"⟩
  | .packetWriteAckStatus .. => .ok .success
  | .shouldRetryTx .. => .ok false
  | .waitForChain _ => .ok ()
  | .isTxFinalized .. => .ok true
  | .isTimestampFinalized .. => .ok true
  | .chainType _ => .cosmos
  | .txFee .. => .ok 1
  | .getCoinUsdValue .. => .ok none
  | .relayByTx .. => .ok ⟨[], "router"⟩
  | .now .. => clock
  | .update .. => .ok ()
  | .txBegin => .ok ()
  | .txExec _ => .ok ()
  | .txInsertSubmission _ => .ok 1
  | .txRollback => .ok ()
  | .txCommit _ => .ok ()
  | .warn .. => ()
  | .addRelayCompleted .. => ()

end Sample

end IbcRelayer
