import IbcRelayer.Bridge.Cosmos
import IbcRelayer.Bridge.Evm
import IbcRelayer.Lib.Bytes

/-!
# IbcRelayer — what the clients find out about a packet

`IsPacketReceived`, `IsPacketCommitted`, `FindRecvTx`, `FindAckTx` and `FindTimeoutTx` of
`EVMBridgeClient` and `CosmosBridgeClient` (`shared/bridges/ibcv2`).

The first two read what the chain keeps about the packet: a commitment of the router, under the hash
of a path, or the answer of a gRPC query. The others search for the tx that has received,
acknowledged or timed out the packet: by the topics of the router's logs, or by the attributes of a
tx's events. A node is given by its answers, and the ABI of the router, which is compiled in, is
known. The log lines of the clients are left out.
-/

namespace IbcRelayer

open Bytes

/-! ## EVM chains -/

/-- The events of the router that the client searches for. -/
inductive RouterEvent where
  | writeAcknowledgement
  | ackPacket
  | timeoutPacket
  deriving DecidableEq, Repr

/-- `ethereum.FilterQuery`, for all blocks. -/
structure FilterQuery where
  addresses : List (List UInt8)
  topics : List (List (List UInt8))
  deriving DecidableEq, Repr

/-- `types.Log` as `FilterLogs` returns it; `parseError` is the error of the router's parser for the
event of the log, which returns the log itself otherwise. -/
structure FilteredLog where
  address : List UInt8
  topics : List (List UInt8)
  txHash : String
  blockNumber : UInt64
  parseError : Option GoError := none
  deriving DecidableEq, Repr

/-- The answers of a node. A tx is what `types.Sender` makes of it, with the signer of a chain. -/
structure EVMQueryNode extends EVMNode where
  getCommitment : List UInt8 → Except GoError (List UInt8)
  filterLogs : FilterQuery → Except GoError (List FilteredLog)
  transactionByHash : String → Except GoError (Int → Except GoError String)

/-- The bytes of a string. -/
def bytesOf (s : String) : List UInt8 := s.toUTF8.data.toList

/-- What `%s` prints of a `common.Hash`. -/
def hexHash (hash : List UInt8) : String :=
  "0x" ++ String.ofList (hash.flatMap fun byte =>
    [Nat.digitChar (byte / 16).toNat, Nat.digitChar (byte % 16).toNat])

/-- The values that `encodePacked` is given, by their types. -/
inductive PackedValue where
  | bytes (bz : List UInt8)
  | byte (b : UInt8)
  | string (s : String)
  | other (type : String)
  deriving DecidableEq, Repr

/-- `encodePacked` -/
def encodePacked : List PackedValue → Except GoError (List UInt8)
  | [] => .ok []
  | value :: values =>
    let written : Except GoError (List UInt8) :=
      match value with
      | .bytes bz => .ok bz
      | .byte b => .ok [b]
      | .string s => .ok (bytesOf s)
      | .other type => .error (.new ("unsupported value type " ++ type))
    match written with
    | .error err => .error err
    | .ok bz => (encodePacked values).map (bz ++ ·)

/-- The values that `abi.MakeTopics` is given, by their types. -/
inductive TopicRule where
  | hash (h : List UInt8)
  | string (s : String)
  | uint64 (n : UInt64)
  deriving DecidableEq, Repr

/-- What an `EVMBridgeClient` and the libraries give for its queries: `makeTopics` is
`abi.MakeTopics`, and `printed` is what `%s` prints of some bytes. -/
structure EVMQueryClient where
  chainID : String
  routerAddress : List UInt8
  eventID : RouterEvent → List UInt8
  keccak256 : List UInt8 → List UInt8
  makeTopics : List (List TopicRule) → Except GoError (List (List (List UInt8)))
  printed : List UInt8 → String
  location : Location

/-- What the three searches for a log differ in. -/
structure RouterSearch where
  event : RouterEvent
  filtering : String
  what : String
  side : String
  parsing : String

/-- `new(big.Int).SetString(s, 10)` -/
def bigIntOfString (s : String) : Option Int :=
  match s.toList with
  | '-' :: digits => (decimalValue digits).map fun n => -n
  | '+' :: digits => (decimalValue digits).map fun n => n
  | digits => (decimalValue digits).map fun n => n

namespace EVMQueryClient

variable (client : EVMQueryClient) (node : EVMQueryNode)

/-- A storage slot of the router that was never written: 32 bytes of zeros. -/
def unwritten : List UInt8 := List.replicate 32 0

/-- The values of a commitment path. -/
def pathValues (clientID : String) (kind : UInt8) (sequence : UInt64) : List PackedValue :=
  [.string clientID, .byte kind, .bytes (bigEndian 8 sequence.toNat)]

/-- The common part of `IsPacketReceived` and `IsPacketCommitted`; `getting` says what is read from
which path. -/
def hasCommitment (clientID : String) (kind : UInt8) (sequence : UInt64)
    (getting : List UInt8 → String) : Except GoError Bool :=
  match encodePacked (pathValues clientID kind sequence) with
  | .error err =>
    .error (err.wrap ("encoding packed client id '" ++ clientID ++ "' '" ++ toString kind.toNat
      ++ "' and sequence '" ++ toString sequence.toNat ++ "'"))
  | .ok path =>
    let hashedPath := client.keccak256 path
    match node.getCommitment hashedPath with
    | .error err =>
      .error (err.wrap (getting path ++ " and sequence " ++ toString sequence.toNat
        ++ " and hashed path " ++ hexHash hashedPath))
    | .ok commitment => .ok (commitment ≠ unwritten)

/-- `IsPacketReceived`, whose error prints the path in the place of the client id. -/
def isPacketReceived (packetDestinationClientID : String) (sequence : UInt64) :
    Except GoError Bool :=
  client.hasCommitment node packetDestinationClientID 2 sequence fun path =>
    "getting commitment for packet with destination client id " ++ client.printed path

/-- `IsPacketCommitted` -/
def isPacketCommitted (packetSourceClientID : String) (sequence : UInt64) : Except GoError Bool :=
  client.hasCommitment node packetSourceClientID 1 sequence fun _ =>
    "getting commitment for packet with source client id " ++ packetSourceClientID

/-- `txSigner` -/
def txSigner (hash : String) : Except GoError String :=
  match bigIntOfString client.chainID with
  | none => .error (.new ("could not convert chain id " ++ client.chainID ++ " to *big.Int"))
  | some chainID =>
    match node.transactionByHash hash with
    | .error err => .error (err.wrap ("getting transaction for hash " ++ hash))
    | .ok sender =>
      match sender chainID with
      | .error err => .error (err.wrap ("getting transaction " ++ hash ++ " sender"))
      | .ok address => .ok address

/-- The values that a search asks for, one for each place among the topics. -/
def topicQuery (event : RouterEvent) (clientID : String) (sequence : UInt64) :
    List (List TopicRule) :=
  [[.hash (client.eventID event)], [.string clientID], [.uint64 sequence]]

/-- The filter of a search. -/
def logFilter (topics : List (List (List UInt8))) : FilterQuery where
  addresses := [client.routerAddress]
  topics

/-- The common part of `FindRecvTx`, `FindAckTx` and `FindTimeoutTx`. -/
def findTx (search : RouterSearch) (clientID : String) (sequence : UInt64) :
    Except GoError BridgeTx :=
  match client.makeTopics (client.topicQuery search.event clientID sequence) with
  | .error err => .error (err.wrap "creating topics for filter logs query")
  | .ok topics =>
    match node.filterLogs (client.logFilter topics) with
    | .error err => .error (err.wrap search.filtering)
    | .ok [] => .error errTxNotFound
    | .ok [log] =>
      match log.parseError with
      | some err => .error (err.wrap search.parsing)
      | none =>
        match node.headerByNumber (some log.blockNumber.toInt64.toInt) with
        | .error err =>
          .error (err.wrap ("getting block header at height " ++ toString log.blockNumber.toNat))
        | .ok header => .ok {
            hash := log.txHash
            timestamp := Time.unix client.location header.time.toInt64
            -- a signer that is not found is logged only
            relayerAddress := (client.txSigner node log.txHash).toOption.getD "" }
    | .ok logs =>
      .error (.new ("expected to receive 1 log for " ++ search.what ++ " with sequence "
        ++ toString sequence.toNat ++ " and " ++ search.side ++ " client ID " ++ clientID
        ++ ", instead got " ++ toString logs.length))

/-- `FindRecvTx`: the router reports a received packet by its write ack only. -/
def findRecvTx (_sourceClientID destinationClientID : String) (sequence : UInt64)
    (_timeoutTimestamp : Time) : Except GoError BridgeTx :=
  client.findTx node {
    event := .writeAcknowledgement
    filtering := "filtering for write ack logs"
    what := "write ack"
    side := "dest"
    parsing := "parsing write ack" } destinationClientID sequence

/-- `FindAckTx` -/
def findAckTx (sourceClientID _destClientID : String) (sequence : UInt64) :
    Except GoError BridgeTx :=
  client.findTx node {
    event := .ackPacket
    filtering := "filtering ack logs"
    what := "ack packet"
    side := "source"
    parsing := "parsing ack packet log" } sourceClientID sequence

/-- `FindTimeoutTx` -/
def findTimeoutTx (sourceClientID _destClientID : String) (sequence : UInt64) :
    Except GoError BridgeTx :=
  client.findTx node {
    event := .timeoutPacket
    filtering := "filtering for timeout logs"
    what := "timeout"
    side := "source"
    parsing := "parsing timeout packet" } sourceClientID sequence

end EVMQueryClient

/-! ## Cosmos chains -/

/-- The messages of a tx that `txSigner` tells apart, with their signers. -/
inductive ChannelMsg where
  | recvPacket (signer : String)
  | acknowledgement (signer : String)
  | timeout (signer : String)
  | other
  deriving DecidableEq, Repr

/-- `coretypes.ResultTx` as `TxSearch` returns it; `msgs` is what `TxDecoder` makes of the tx. -/
structure FoundTx where
  hash : String
  height : Int64
  events : List AbciEvent
  msgs : Except GoError (List ChannelMsg)

/-- `coretypes.ResultTxSearch`, the first page of a search. -/
structure SearchResult where
  totalCount : Nat
  txs : List FoundTx
  nonempty : totalCount ≠ 0 → txs ≠ []

/-- The error of a gRPC query; `notFound` is whether `status.FromError` finds the code `NotFound`.
-/
structure GrpcError where
  err : GoError
  notFound : Bool := false
  deriving DecidableEq, Repr

/-- The answers of a node. `packetReceipt` has the field `Received` of the response. -/
structure CosmosQueryNode where
  packetReceipt : String → UInt64 → Except GoError Bool
  packetCommitment : String → UInt64 → Except GrpcError Unit
  txSearch : String → Except GoError SearchResult
  header : Int64 → Except GoError (Option Time)

namespace CosmosBridgeClient

variable (node : CosmosQueryNode)

/-- `IsPacketReceived` -/
def isPacketReceived (destinationClientID : String) (sequence : UInt64) : Except GoError Bool :=
  match node.packetReceipt destinationClientID sequence with
  | .error err =>
    .error (err.wrap ("querying for packet receipt with sequence number "
      ++ toString sequence.toNat ++ " to destination client " ++ destinationClientID))
  | .ok received => .ok received

/-- `IsPacketCommitted` -/
def isPacketCommitted (sourceClientID : String) (sequence : UInt64) : Except GoError Bool :=
  match node.packetCommitment sourceClientID sequence with
  | .error failure =>
    if failure.notFound then
      .ok false
    else
      .error (failure.err.wrap ("querying for packet commitment with sequence number "
        ++ toString sequence.toNat ++ " to source client " ++ sourceClientID))
  | .ok () => .ok true

/-- The loop over the messages in `txSigner`. -/
def signerOf : List ChannelMsg → Except GoError String
  | [] => .error (.new "expected recv packet, ack packet, or timeout packet msg but found none")
  | .recvPacket signer :: _ | .acknowledgement signer :: _ | .timeout signer :: _ => .ok signer
  | .other :: rest => signerOf rest

/-- `txSigner` -/
def txSigner (tx : FoundTx) : Except GoError String :=
  match tx.msgs with
  | .error err => .error (err.wrap "decoding tx result")
  | .ok msgs => signerOf msgs

/-- `%s.%s='%s'` -/
def textCondition (event key text : String) : String := event ++ "." ++ key ++ "='" ++ text ++ "'"

/-- `%s.%s=%d` -/
def numberCondition (event key : String) (n : Int) : String :=
  event ++ "." ++ key ++ "=" ++ toString n

/-- The conditions that every search has. -/
def packetConditions (event sourceClientID destClientID : String) (sequence : UInt64) :
    List String :=
  [textCondition event "packet_source_client" sourceClientID,
    textCondition event "packet_dest_client" destClientID,
    numberCondition event "packet_sequence" sequence.toNat]

/-- The common part of `FindRecvTx`, `FindAckTx` and `FindTimeoutTx`, for the conditions of a
search. A signer that is not found is left empty. -/
def findTx (kind searching : String) (conditions : List String) : Except GoError BridgeTx :=
  match node.txSearch (String.intercalate " AND " conditions) with
  | .error err => .error (err.wrap searching)
  | .ok searchResult =>
    if hnone : searchResult.totalCount = 0 then
      .error errTxNotFound
    else if searchResult.totalCount ≠ 1 then
      .error (.new ("expected only 1 tx, but got " ++ toString searchResult.totalCount))
    else
      let tx := searchResult.txs.head (searchResult.nonempty hnone)
      match node.header tx.height with
      | .error err =>
        .error (err.wrap ("fetching block header at " ++ kind ++ " tx height "
          ++ toString tx.height.toInt))
      | .ok none =>
        .error (.new ("fetched block header at " ++ kind ++ " tx height "
          ++ toString tx.height.toInt ++ " without err but header was nil"))
      | .ok (some time) => .ok {
          hash := tx.hash
          timestamp := time
          relayerAddress := (txSigner tx).toOption.getD "" }

/-- `FindRecvTx`; `Unix` rounds down to a second. -/
def findRecvTx (sourceClientID destClientID : String) (sequence : UInt64)
    (timeoutTimestamp : Time) : Except GoError BridgeTx :=
  findTx node "recv" ("searching for recv tx from source client " ++ sourceClientID
      ++ " to dest client " ++ destClientID ++ " with sequence " ++ toString sequence.toNat
      ++ " and timeout tx " ++ toString timeoutTimestamp.unixNano)
    (packetConditions "recv_packet" sourceClientID destClientID sequence
      ++ [numberCondition "recv_packet" "packet_timeout_timestamp"
        (timeoutTimestamp.unixNano / 10 ^ 9)])

/-- `FindAckTx` -/
def findAckTx (sourceClientID destClientID : String) (sequence : UInt64) :
    Except GoError BridgeTx :=
  findTx node "ack" ("searching for ack tx from source client " ++ sourceClientID
      ++ " to dest client " ++ destClientID ++ " with sequence " ++ toString sequence.toNat)
    (packetConditions "acknowledge_packet" sourceClientID destClientID sequence)

/-- `FindTimeoutTx` -/
def findTimeoutTx (sourceClientID destClientID : String) (sequence : UInt64) :
    Except GoError BridgeTx :=
  findTx node "timeout" ("searching for timeout tx from source client " ++ sourceClientID
      ++ " to dest client " ++ destClientID ++ " with sequence " ++ toString sequence.toNat)
    (packetConditions "timeout_packet" sourceClientID destClientID sequence)

end CosmosBridgeClient

end IbcRelayer
