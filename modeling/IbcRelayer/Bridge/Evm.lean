import IbcRelayer.Bridge.Client

/-!
# IbcRelayer — what the EVM client reads from a node

`IsTxFinalized`, `IsTimestampFinalized` and `SendPacketsFromTx` of `EVMBridgeClient`
(`shared/bridges/ibcv2/evm_bridge_client.go`), which ask the node themselves and not through
`txOnce`. A node is given by its answers, and the host by its local zone.
-/

namespace IbcRelayer

/-- `types.Header` -/
structure Header where
  number : Int
  time : UInt64
  deriving DecidableEq, Repr

/-- The answers of a node. `HeaderByNumber` is given nil for the latest block, and a negative number
for a tag. -/
structure EVMNode where
  transactionReceipt : String → Except GoError Receipt
  headerByNumber : Option Int → Except GoError Header

/-- `rpc.FinalizedBlockNumber` -/
def finalizedBlockNumber : Int := -3

namespace EVMBridgeClient

/-! ## Finality -/

/-- `IsTxFinalized` -/
def isTxFinalized (node : EVMNode) (txHash : String) (offset : Option UInt64) :
    Except GoError Bool :=
  match node.transactionReceipt txHash with
  | .error err =>
    .error (if err.notFound then errTxNotFound else err.wrap ("getting receipt for tx " ++ txHash))
  | .ok receipt =>
    match offset with
    | none =>
      match node.headerByNumber (some finalizedBlockNumber) with
      | .error err => .error (err.wrap "getting finalized block height")
      | .ok finalizedHeader =>
        .ok ((Int64.ofInt receipt.blockNumber).toInt ≤ finalizedHeader.number)
    | some offset =>
      match node.headerByNumber none with
      | .error err => .error (err.wrap "getting latest block height")
      | .ok latestHeader =>
        let txBlockNumber := UInt64.ofInt receipt.blockNumber
        let latestBlockNumber := UInt64.ofInt latestHeader.number
        .ok (txBlockNumber ≤ latestBlockNumber && offset ≤ latestBlockNumber - txBlockNumber)

/-- The header that `IsTimestampFinalized` looks at, or `none` if there are not enough blocks. -/
def finalizedHeader (node : EVMNode) : Option UInt64 → Except GoError (Option Header)
  | none =>
    match node.headerByNumber (some finalizedBlockNumber) with
    | .error err => .error (err.wrap "getting finalized block header")
    | .ok header => .ok (some header)
  | some offset =>
    match node.headerByNumber none with
    | .error err => .error (err.wrap "getting latest block height")
    | .ok latestHeader =>
      let latestBlockNumber := UInt64.ofInt latestHeader.number
      if latestBlockNumber < offset then
        .ok none
      else
        let finalizedHeight := latestBlockNumber - offset
        match node.headerByNumber (some finalizedHeight.toInt64.toInt) with
        | .error err =>
          .error (err.wrap ("getting block header at height " ++ toString finalizedHeight.toNat))
        | .ok header => .ok (some header)

/-- `IsTimestampFinalized` -/
def isTimestampFinalized (location : Location) (node : EVMNode) (timestamp : Time)
    (offset : Option UInt64) : Except GoError Bool :=
  match finalizedHeader node offset with
  | .error err => .error err
  | .ok none => .ok false
  | .ok (some header) =>
    let blockTime := Time.unix location header.time.toInt64
    .ok (!timestamp.after blockTime)

/-! ## Packets -/

section Packets

variable (location : Location) (sendPacketEventID : List UInt8) (chainID txHash : String)

/-- The packet of an event; the time of its block is not known yet. -/
def packetInfo (sendPacket : SendPacket) : PacketInfo where
  sequence := sendPacket.sequence
  sourceClient := sendPacket.sourceClient
  destinationClient := sendPacket.destClient
  timeoutTimestamp := Time.unix location sendPacket.timeoutTimestamp.toInt64
  timestamp := .zero

/-- The loop over the logs in `SendPacketsFromTx`. -/
def packetsOfLogs : List (Option Log) → Except GoError (List PacketInfo)
  | [] => .ok []
  | none :: rest => packetsOfLogs rest
  | some log :: rest =>
    if log.topics.head? ≠ some sendPacketEventID then
      packetsOfLogs rest
    else
      match log.sendPacket with
      | .error text =>
        .error ((GoError.new text).wrap
          ("parsing send packet event from tx " ++ txHash ++ " logs on chain " ++ chainID))
      | .ok sendPacket =>
        match packetsOfLogs rest with
        | .error err => .error err
        | .ok packets => .ok (packetInfo location sendPacket :: packets)

/-- `SendPacketsFromTx` -/
def sendPacketsFromTx (node : EVMNode) : Except GoError (List PacketInfo) :=
  match node.transactionReceipt txHash with
  | .error err =>
    .error (err.wrap
      ("getting transaction receipt for tx " ++ txHash ++ " on chain " ++ chainID))
  | .ok receipt =>
    match packetsOfLogs location sendPacketEventID chainID txHash receipt.logs with
    | .error err => .error err
    | .ok [] => .ok []
    | .ok packets =>
      match node.headerByNumber (some receipt.blockNumber) with
      | .error err =>
        .error (err.wrap ("getting block header for height " ++ toString receipt.blockNumber
          ++ " of tx " ++ txHash ++ " o chain " ++ chainID))
      | .ok header =>
        .ok (packets.map ({ · with timestamp := Time.unix location header.time.toInt64 }))

end Packets

end EVMBridgeClient

end IbcRelayer
