import IbcRelayer.Calls

/-!
# IbcRelayer — the options of a pipeline

`relayer/ibcv2/pipeline_opts.go`: `NewPipelineOpts` reads the options of a transfer's pipeline from
the configuration of its two chains. Of a chain's configuration only the fields that are read there
are kept; a chain without an IBC v2 section cannot be relayed for.
-/

namespace IbcRelayer

/-- `time.Second`, a duration in nanoseconds. -/
def second : Int := 10 ^ 9

/-- `config.IBCV2Config`; a batch option that is zero is not set. `counterpartyChains` maps the
client ids of the chain to the chains they are clients of. -/
structure IBCV2Config where
  counterpartyChains : List (String × String) := []
  finalityOffset : Option UInt64 := none
  shouldRelaySuccessAcks : Bool := false
  shouldRelayErrorAcks : Bool := false
  ackBatchSize : Int := 0
  ackBatchTimeout : Int := 0
  ackBatchConcurrency : Int := 0
  recvBatchSize : Int := 0
  recvBatchTimeout : Int := 0
  recvBatchConcurrency : Int := 0
  timeoutBatchSize : Int := 0
  timeoutBatchTimeout : Int := 0
  timeoutBatchConcurrency : Int := 0
  deriving DecidableEq, Repr

/-- `config.ChainConfig`; its type is a string, and `none` if that is none of the names of
`ChainType`. -/
structure ChainConfig where
  chainName : String := ""
  type : Option ChainType := none
  environment : String := ""
  gasTokenCoingeckoID : Option String := none
  gasTokenDecimals : UInt8 := 0
  ibcv2 : Option IBCV2Config := none
  deriving DecidableEq, Repr

/-- `GetChainConfig` of the config reader. -/
abbrev ConfigReader := String → Except GoError ChainConfig

structure PipelineOptions where
  shouldRelaySuccessAcks : Bool
  shouldRelayErrorAcks : Bool
  ackBatchSize : Int
  ackBatchTimeout : Int
  ackBatchConcurrency : Int
  recvBatchSize : Int
  recvBatchTimeout : Int
  recvBatchConcurrency : Int
  timeoutBatchSize : Int
  timeoutBatchTimeout : Int
  timeoutBatchConcurrency : Int
  sourceChainGasTokenCoingeckoID : String
  sourceChainGasTokenDecimals : UInt8
  destinationChainGasTokenCoingeckoID : String
  destinationChainGasTokenDecimals : UInt8
  sourceFinalityOffset : Option UInt64
  destinationFinalityOffset : Option UInt64
  deriving DecidableEq, Repr

def defaultBatchSize : Int := 50

def defaultBatchConcurrency : Int := 10

/-- The default timeout of ack and recv batches. -/
def defaultBatchTimeout : Int := 10 * second

def defaultTimeoutBatchTimeout : Int := 1 * minute

/-- A configured value, or the default when it is zero. -/
def orDefault (configured default : Int) : Int := if configured ≠ 0 then configured else default

/-- `fmt.Errorf("getting config for chain %s: %w", chainID, err)` -/
def getChainConfig (config : ConfigReader) (chainID : String) : Except GoError ChainConfig :=
  match config chainID with
  | .ok chain => .ok chain
  | .error err => .error (err.wrap ("getting config for chain " ++ chainID))

/-- `NewPipelineOpts`: acks and timeouts go to the source chain and use its options, recvs go to
the destination chain. -/
def newPipelineOpts (config : ConfigReader) (t : IBCV2Transfer) :
    Except GoError PipelineOptions := do
  let source ← getChainConfig config t.sourceChainID
  let destination ← getChainConfig config t.destinationChainID
  let some sourceIBCV2 := source.ibcv2
    | throw (.new ("no ibcv2 config for source chain " ++ t.sourceChainID))
  let some destinationIBCV2 := destination.ibcv2
    | throw (.new ("no ibcv2 config for destination chain " ++ t.destinationChainID))
  return {
    shouldRelaySuccessAcks := sourceIBCV2.shouldRelaySuccessAcks
    shouldRelayErrorAcks := sourceIBCV2.shouldRelayErrorAcks
    ackBatchSize := orDefault sourceIBCV2.ackBatchSize defaultBatchSize
    ackBatchTimeout := orDefault sourceIBCV2.ackBatchTimeout defaultBatchTimeout
    ackBatchConcurrency := orDefault sourceIBCV2.ackBatchConcurrency defaultBatchConcurrency
    recvBatchSize := orDefault destinationIBCV2.recvBatchSize defaultBatchSize
    recvBatchTimeout := orDefault destinationIBCV2.recvBatchTimeout defaultBatchTimeout
    recvBatchConcurrency := orDefault destinationIBCV2.recvBatchConcurrency defaultBatchConcurrency
    timeoutBatchSize := orDefault sourceIBCV2.timeoutBatchSize defaultBatchSize
    timeoutBatchTimeout := orDefault sourceIBCV2.timeoutBatchTimeout defaultTimeoutBatchTimeout
    timeoutBatchConcurrency :=
      orDefault sourceIBCV2.timeoutBatchConcurrency defaultBatchConcurrency
    sourceChainGasTokenCoingeckoID := source.gasTokenCoingeckoID.getD ""
    sourceChainGasTokenDecimals := source.gasTokenDecimals
    destinationChainGasTokenCoingeckoID := destination.gasTokenCoingeckoID.getD ""
    destinationChainGasTokenDecimals := destination.gasTokenDecimals
    sourceFinalityOffset := sourceIBCV2.finalityOffset
    destinationFinalityOffset := destinationIBCV2.finalityOffset }

end IbcRelayer
