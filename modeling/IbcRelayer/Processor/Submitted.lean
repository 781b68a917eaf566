import IbcRelayer.Processor.Check

/-!
# IbcRelayer — the stages after a tx was submitted

Two families of three processors, one for each kind of tx:

* `RetryRecvPacketProcessor`, `RetryAckPacketProcessor` and `RetryTimeoutPacketProcessor` ask the
  chain whether a recorded tx has to be sent again and, if so, clear it and end the pass;
* `RecvTxGasCalculatorProcessor`, `AckTxGasCalculatorProcessor` and
  `TimeoutTxGasCalculatorProcessor` record what a tx cost.

A family is one definition and its members apply it to their own fields, chain and texts. The
counter of retried txs and the latencies are left out: nothing reads them back.
-/

namespace IbcRelayer

open CallTree

/-! ## Retrying -/

/-- What the retry processors differ in. -/
structure RetryPacket where
  /-- The kind of tx in the error texts. -/
  kind : String
  /-- The chain of the tx, with its role in the error texts. -/
  role : String
  chainID : String
  expiry : Int
  txHash : IBCV2Transfer → Option String
  txTime : IBCV2Transfer → Option Time
  clear : TransferUpdate
  errRetrying : GoError

/-- The `Process` method of the retry processors. -/
def RetryPacket.process (p : RetryPacket) (t : IBCV2Transfer) :
    ExceptT GoError Eff IBCV2Transfer := do
  wrapErr ("getting client for transfer " ++ p.role ++ " chain " ++ p.chainID)
    (getClient p.chainID)
  let some txHash := p.txHash t
    | throw (.new ("transfer does not have " ++ p.kind
        ++ " tx hash, violates should process, this is a bug"))
  let some txTime := p.txTime t
    | throw (.new ("transfer does not have a " ++ p.kind
        ++ " tx time, violates should process, this is a bug"))
  let retry ← wrapErr ("checking if transfer with " ++ p.kind ++ " tx hash " ++ txHash
      ++ ", submitted at " ++ txTime.utc.formatRFC3339 ++ ", should be retried")
    (shouldRetryTx p.chainID txHash p.expiry txTime)
  if !retry then
    return t
  wrapErr ("clearing " ++ p.kind ++ " tx hash " ++ txHash ++ " and time "
      ++ txTime.utc.formatRFC3339)
    (update p.clear t.rowKey)
  -- the error ends the pass; the next one finds the row without the tx
  throw p.errRetrying

def retryRecvExpiry : Int := 2 * minute

def retryAckExpiry : Int := 2 * minute

def retryTimeoutExpiry : Int := 2 * minute

def errRetryingRecvPacket : GoError := ⟨"retrying recv packet", [.errRetryingRecvPacket]⟩

def errRetryingAckPacket : GoError := ⟨"retrying ack packet", [.errRetryingAckPacket]⟩

def errRetryingTimeoutPacket : GoError := ⟨"retrying timeout packet", [.errRetryingTimeoutPacket]⟩

def retryRecvPacket (destinationChainID : String) : RetryPacket where
  kind := "recv"
  role := "destination"
  chainID := destinationChainID
  expiry := retryRecvExpiry
  txHash := (·.recvTxHash)
  txTime := (·.recvTxTime)
  clear := .clearRecvTx
  errRetrying := errRetryingRecvPacket

def retryAckPacket (sourceChainID : String) : RetryPacket where
  kind := "ack"
  role := "source"
  chainID := sourceChainID
  expiry := retryAckExpiry
  txHash := (·.ackTxHash)
  txTime := (·.ackTxTime)
  clear := .clearAckTx
  errRetrying := errRetryingAckPacket

def retryTimeoutPacket (sourceChainID : String) : RetryPacket where
  kind := "timeout"
  role := "source"
  chainID := sourceChainID
  expiry := retryTimeoutExpiry
  txHash := (·.timeoutTxHash)
  txTime := (·.timeoutTxTime)
  clear := .clearTimeoutTx
  errRetrying := errRetryingTimeoutPacket

/-- A recv tx is only looked at until its write ack is known. -/
def retryRecvPacketProcessor (destinationChainID : String) : IBCV2Processor where
  state := .deliverRecvPacket
  shouldProcess t :=
    return t.recvTxHash.isSome && t.recvTxTime.isSome && t.writeAckTxHash.isNone
  process := (retryRecvPacket destinationChainID).process

def retryAckPacketProcessor (sourceChainID : String) : IBCV2Processor where
  state := .deliverAckPacket
  shouldProcess t := return t.ackTxHash.isSome && t.ackTxTime.isSome
  process := (retryAckPacket sourceChainID).process

def retryTimeoutPacketProcessor (sourceChainID : String) : IBCV2Processor where
  state := .deliverTimeoutPacket
  shouldProcess t := return t.timeoutTxHash.isSome && t.timeoutTxTime.isSome
  process := (retryTimeoutPacket sourceChainID).process

/-! ## Gas costs -/

/-- What the gas calculators differ in. -/
structure TxGasCalculator where
  kind : String
  role : String
  /-- The kind of tx that the text for a missing hash names. -/
  missing : String
  chainID : IBCV2Transfer → String
  txHash : IBCV2Transfer → Option String
  gasCostUSD : IBCV2Transfer → Option Int
  updateGasCostUSD : Option Numeric → TransferUpdate

/-- The `ShouldProcess` method of the gas calculators. -/
def TxGasCalculator.shouldProcess (p : TxGasCalculator) (t : IBCV2Transfer) : Eff Bool := do
  if (p.gasCostUSD t).isSome then
    return false
  return (p.txHash t).isSome

/-- The `Process` method of the gas calculators; the cost goes to the row only. -/
def TxGasCalculator.process (p : TxGasCalculator) (coingeckoID : String) (decimals : UInt8)
    (t : IBCV2Transfer) : ExceptT GoError Eff IBCV2Transfer := do
  wrapErr ("getting ibcv2 bridge client for transfer " ++ p.role ++ " chain " ++ p.chainID t)
    (getClient (p.chainID t))
  let some txHash := p.txHash t
    | throw (.new ("this is a bug! transfer does not have a " ++ p.missing
        ++ " tx, violating should process"))
  let gasCostInGasToken ← wrapErr ("getting gas cost of " ++ p.kind ++ " tx " ++ txHash ++ " on "
      ++ p.chainID t)
    (txFee (p.chainID t) txHash)
  let gasCostUSD ← wrapErr ("getting usd value of " ++ p.kind ++ " tx gas cost on chain "
      ++ p.chainID t)
    (getCoinUsdValue coingeckoID decimals gasCostInGasToken)
  wrapErr ("updating transfer " ++ p.kind ++ " tx gas cost usd value")
    (update (p.updateGasCostUSD gasCostUSD) t.rowKey)
  return t

def recvTxGasCalculator : TxGasCalculator where
  kind := "recv"
  role := "destination"
  missing := "recv"
  chainID := (·.destinationChainID)
  txHash := (·.recvTxHash)
  gasCostUSD := (·.recvTxGasCostUSD)
  updateGasCostUSD := .updateTransferRecvTxGasCostUSD

def ackTxGasCalculator : TxGasCalculator where
  kind := "ack"
  role := "source"
  missing := "ack"
  chainID := (·.sourceChainID)
  txHash := (·.ackTxHash)
  gasCostUSD := (·.ackTxGasCostUSD)
  updateGasCostUSD := .updateTransferAckTxGasCostUSD

/-- Its text for a missing timeout tx speaks of a recv tx. -/
def timeoutTxGasCalculator : TxGasCalculator where
  kind := "timeout"
  role := "source"
  missing := "recv"
  chainID := (·.sourceChainID)
  txHash := (·.timeoutTxHash)
  gasCostUSD := (·.timeoutTxGasCostUSD)
  updateGasCostUSD := .updateTransferTimeoutTxGasCostUSD

def recvTxGasCalculatorProcessor (coingeckoID : String) (decimals : UInt8) : IBCV2Processor where
  state := .calculatingRecvTxGasCost
  shouldProcess := recvTxGasCalculator.shouldProcess
  process := recvTxGasCalculator.process coingeckoID decimals

def ackTxGasCalculatorProcessor (coingeckoID : String) (decimals : UInt8) : IBCV2Processor where
  state := .calculatingAckTxGasCost
  shouldProcess := ackTxGasCalculator.shouldProcess
  process := ackTxGasCalculator.process coingeckoID decimals

def timeoutTxGasCalculatorProcessor (coingeckoID : String) (decimals : UInt8) :
    IBCV2Processor where
  state := .calculatingTimeoutTxGasCost
  shouldProcess := timeoutTxGasCalculator.shouldProcess
  process := timeoutTxGasCalculator.process coingeckoID decimals

end IbcRelayer
