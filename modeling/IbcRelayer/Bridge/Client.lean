import Mathlib.Data.List.Infix
import IbcRelayer.RelayCall

/-!
# IbcRelayer — the bridge clients' queries about a tx

`ShouldRetryTx`, `PacketWriteAckStatus`, `TxFee` and `TxExecutionStatus` of `EVMBridgeClient` and
`CosmosBridgeClient` (`shared/bridges/ibcv2`). Each fetches the receipt or the result of a tx
through `txOnce`, the cache that the methods share, and makes its answer of what it gets. This is
the part that comes after the fetch. `ShouldRetryTx` asks for the latest header when the tx is not
found.

What a decoder of a library makes of some bytes is given with them, and the ABI of the router, which
is compiled in, is known.
-/

namespace IbcRelayer

/-- The queries that go through `txOnce`. `expiry` is a duration in nanoseconds. -/
inductive TxQuery where
  | shouldRetryTx (txHash : String) (expiry : Int) (sentTs : Time)
  | packetWriteAckStatus (hash : String) (sequence : UInt64) (sourceClientID destClientID : String)
  | txFee (txHash : String)
  | txExecutionStatus (txHash : String)
  deriving DecidableEq, Repr

/-- The hash under which the tx is fetched and kept. -/
def TxQuery.hash : TxQuery → String
  | .shouldRetryTx hash _ _ => hash
  | .packetWriteAckStatus hash _ _ _ => hash
  | .txFee hash => hash
  | .txExecutionStatus hash => hash

inductive TxAnswer where
  | shouldRetry (retry : Bool)
  | writeAckStatus (status : Ibcv2WriteAckStatus)
  | fee (amount : Int)
  | execution (status : TxExecutionStatus)
  deriving DecidableEq, Repr

/-- What a query does when it has the tx: it returns, or it needs the latest header. -/
inductive TxQuery.Next where
  | return (r : Except GoError TxAnswer)
  | latestHeader (expiry : Int) (sentTs : Time)
  deriving DecidableEq

/-- What the two clients do around the fetch; `V` is what they fetch and `H` a header. -/
structure TxClient (V H : Type) where
  /-- The error before the fetch. -/
  check : TxQuery → Option GoError
  next : TxQuery → Except GoError V → TxQuery.Next
  headerTime : Except GoError H → Except GoError Time

def errTxNotFound : GoError := ⟨"tx not found", [.errTxNotFound]⟩

/-- `ethereum.NotFound` -/
def ethereumNotFound : GoError := ⟨"not found", [.ethereumNotFound]⟩

def errWriteAckNotFoundForPacket : GoError :=
  ⟨"write ack for packet not found in tx", [.errWriteAckNotFoundForPacket]⟩

/-- `fmt.Errorf("%w:%w", ErrWriteAckDecoding, err)` -/
def writeAckDecoding (err : GoError) : GoError :=
  ⟨"could not decode write ack:" ++ err.text, .errWriteAckDecoding :: err.chain⟩

/-- `fmt.Errorf("%w: %w", ErrTxNotFound, err)` -/
def txNotFound (err : GoError) : GoError :=
  ⟨"tx not found: " ++ err.text, .errTxNotFound :: err.chain⟩

/-- `strings.Contains(err.Error(), "not found")` -/
def GoError.notFound (err : GoError) : Bool :=
  "not found".toList <:+: err.text.toList

/-- `ErrorAcknowledgement`, the SHA-256 sum of `UNIVERSAL_ERROR_ACKNOWLEDGEMENT`. -/
def errorAcknowledgement : List UInt8 :=
  [71, 116, 212, 165, 117, 153, 63, 150, 59, 28, 6, 87, 55, 54, 97, 122, 69, 122, 190, 248, 88, 145,
    120, 219, 141, 16, 201, 75, 74, 181, 17, 171]

/-- The status of a write ack with these acknowledgements. -/
def statusOfAcknowledgements (acks : List (List UInt8)) : Ibcv2WriteAckStatus :=
  if acks = [errorAcknowledgement] then .error else .success

/-- The end of `ShouldRetryTx` for a tx that is not found, when the latest header has this time. -/
def retryUnlessFound (expiry : Int) (sentTs : Time) (header : Except GoError Time) :
    Except GoError TxAnswer :=
  match header with
  | .error err => .error err
  | .ok headerTs =>
    let expiresAt : Time := { sentTs.utc with unixNano := sentTs.unixNano + expiry }
    if headerTs.after expiresAt then .ok (.shouldRetry true) else .error errTxNotFound

/-! ## EVM chains -/

/-- The event of the router, as `ParseWriteAcknowledgement` returns it. -/
structure WriteAcknowledgement where
  sequence : UInt64
  sourceClient : String
  destClient : String
  acknowledgements : List (List UInt8)
  deriving DecidableEq, Repr

/-- The packet of the router's event, as `ParseSendPacket` returns it. -/
structure SendPacket where
  sequence : UInt64
  sourceClient : String
  destClient : String
  timeoutTimestamp : UInt64
  deriving DecidableEq, Repr

/-- `types.Log`; `text` is what `%v` prints, `writeAck` and `sendPacket` what
`ParseWriteAcknowledgement` and `ParseSendPacket` make of it. -/
structure Log where
  address : List UInt8
  topics : List (List UInt8)
  text : String
  writeAck : Except String WriteAcknowledgement
  sendPacket : Except String SendPacket
  deriving DecidableEq

/-- `types.Receipt` -/
structure Receipt where
  status : UInt64
  effectiveGasPrice : Int
  gasUsed : UInt64
  blockNumber : Int
  logs : List (Option Log)
  deriving DecidableEq

namespace EVMBridgeClient

variable (writeAckEventID : List UInt8)

/-- The loop over the logs in `PacketWriteAckStatus`. -/
def writeAckStatusOfLogs (sequence : UInt64) (sourceClientID destClientID : String) :
    List (Option Log) → Except GoError Ibcv2WriteAckStatus
  | [] => .error errWriteAckNotFoundForPacket
  | none :: rest => writeAckStatusOfLogs sequence sourceClientID destClientID rest
  | some log :: rest =>
    if log.topics.head? ≠ some writeAckEventID then
      writeAckStatusOfLogs sequence sourceClientID destClientID rest
    else
      match log.writeAck with
      | .error text =>
        .error ((GoError.new text).wrap ("parsing write packet event from log " ++ log.text))
      | .ok writeAck =>
        if writeAck.sequence = sequence ∧ writeAck.sourceClient = sourceClientID
            ∧ writeAck.destClient = destClientID then
          .ok (statusOfAcknowledgements writeAck.acknowledgements)
        else
          writeAckStatusOfLogs sequence sourceClientID destClientID rest

def next : TxQuery → Except GoError Receipt → TxQuery.Next
  | .shouldRetryTx txHash expiry sentTs, .error err =>
    if err.notFound then
      .latestHeader expiry sentTs
    else
      .return (.error (err.wrap ("could not get transaction receipt for tx with hash " ++ txHash)))
  | .shouldRetryTx .., .ok receipt => .return (.ok (.shouldRetry (receipt.status ≠ 1)))
  | .packetWriteAckStatus .., .error err =>
    .return (.error
      (if err.notFound then errTxNotFound else err.wrap "getting transaction receipt"))
  | .packetWriteAckStatus _ sequence sourceClientID destClientID, .ok receipt =>
    .return ((writeAckStatusOfLogs writeAckEventID sequence sourceClientID destClientID
      receipt.logs).map .writeAckStatus)
  | .txFee txHash, .error err =>
    .return (.error (err.wrap ("getting transaction receipt for tx hash " ++ txHash)))
  | .txFee _, .ok receipt =>
    .return (.ok (.fee (receipt.effectiveGasPrice * receipt.gasUsed.toNat)))
  | .txExecutionStatus txHash, .error err =>
    .return (.error (
      if err.is .ethereumNotFound then txNotFound err
      else err.wrap ("getting transaction receipt for tx hash " ++ txHash)))
  | .txExecutionStatus _, .ok receipt =>
    .return (.ok (.execution (
      if receipt.status = 1 then { status := .success }
      else { status := .failed, errorMessage := "evm transaction execution failed" })))

/-- A header is its time in seconds. -/
def txClient : TxClient Receipt UInt64 where
  check _ := none
  next := next writeAckEventID
  headerTime
    | .error err => .error (err.wrap "getting latest block header")
    | .ok time => .ok (Time.unix .utc time.toInt64)

end EVMBridgeClient

/-! ## Cosmos chains -/

/-- `abci.Event`, with the keys and values of its attributes. -/
structure AbciEvent where
  type : String
  attributes : List (String × String)
  deriving DecidableEq, Repr

/-- What `TxDecoder` makes of the bytes of a tx; `fee` has the amount of the fee denom, or nil. -/
inductive DecodedTx where
  | undecodable (text : String)
  | notFeeTx
  | feeTx (fee : Option Int)
  deriving DecidableEq, Repr

/-- `coretypes.ResultTx` -/
structure ResultTx where
  height : Int64
  code : UInt32
  log : String
  events : List AbciEvent
  tx : DecodedTx
  deriving DecidableEq, Repr

namespace CosmosBridgeClient

-- `proto.Unmarshal` into an `Acknowledgement`, whose `AppAcknowledgements` it returns
variable (unmarshal : List UInt8 → Except String (List (List UInt8)))

/-- `parseWriteAckStatusForPacket` -/
def parseWriteAckStatusForPacket :
    List (String × String) → Except GoError Ibcv2WriteAckStatus
  | [] => .ok .unknown
  | (key, value) :: rest =>
    if key ≠ "encoded_acknowledgement_hex" then
      parseWriteAckStatusForPacket rest
    else
      match decodeString value with
      | .error err => .error (writeAckDecoding err)
      | .ok protoAckBytes =>
        match unmarshal protoAckBytes with
        | .error text => .error (writeAckDecoding (.new text))
        | .ok acks => .ok (statusOfAcknowledgements acks)

/-- The loop over the events in `PacketWriteAckStatus`. -/
def writeAckStatusOfEvents (sequence : UInt64) (sourceClientID destClientID : String) :
    List AbciEvent → Except GoError Ibcv2WriteAckStatus
  | [] => .error errWriteAckNotFoundForPacket
  | event :: rest =>
    if event.type = "write_acknowledgement"
        ∧ ("packet_sequence", toString sequence.toInt64.toInt) ∈ event.attributes
        ∧ ("packet_source_client", sourceClientID) ∈ event.attributes
        ∧ ("packet_dest_client", destClientID) ∈ event.attributes then
      parseWriteAckStatusForPacket unmarshal event.attributes
    else
      writeAckStatusOfEvents sequence sourceClientID destClientID rest

/-- The fee that `TxFee` returns for a tx. -/
def feeOf : DecodedTx → Except GoError TxAnswer
  | .undecodable text => .error ((GoError.new text).wrap "decoding tx result")
  | .notFeeTx => .error (.new "could not convert decoded tx to sdk.FeeTx")
  | .feeTx fee => .ok (.fee (fee.getD 0))

def check (q : TxQuery) : Option GoError :=
  match decodeString q.hash with
  | .ok _ => none
  | .error err =>
    match q with
    | .shouldRetryTx txHash _ _ => err.wrap ("decoding hex tx hash " ++ txHash ++ " to bytes")
    | q => err.wrap ("hex decoding tx hash string " ++ q.hash)

def next : TxQuery → Except GoError ResultTx → TxQuery.Next
  | .shouldRetryTx txHash expiry sentTs, .error err =>
    if err.notFound then
      .latestHeader expiry sentTs
    else
      .return (.error (err.wrap ("fetching tx " ++ txHash ++ " on chain")))
  | .shouldRetryTx .., .ok resp => .return (.ok (.shouldRetry (resp.code ≠ 0)))
  | .packetWriteAckStatus hash .., .error err =>
    .return (.error (
      if err.notFound then errTxNotFound else err.wrap ("getting tx " ++ hash ++ "'s result")))
  | .packetWriteAckStatus _ sequence sourceClientID destClientID, .ok txResult =>
    .return ((writeAckStatusOfEvents unmarshal sequence sourceClientID destClientID
      txResult.events).map .writeAckStatus)
  | .txFee txHash, .error err =>
    .return (.error (err.wrap ("getting results for tx hash " ++ txHash)))
  | .txFee _, .ok result => .return (feeOf result.tx)
  | .txExecutionStatus txHash, .error err =>
    .return (.error (
      if err.notFound then txNotFound err else err.wrap ("getting results for tx hash " ++ txHash)))
  | .txExecutionStatus _, .ok result =>
    .return (.ok (.execution (
      if result.code = 0 then { status := .success }
      else { status := .failed, errorMessage := result.log })))

/-- A header is its time; there may be none in the result. -/
def txClient : TxClient ResultTx (Option Time) where
  check := check
  next := next unmarshal
  headerTime
    | .error err => .error (err.wrap "getting latest block header")
    | .ok none =>
      .error (.new "fetched block header at latest height without err but header was nil")
    | .ok (some time) => .ok time

end CosmosBridgeClient

end IbcRelayer
