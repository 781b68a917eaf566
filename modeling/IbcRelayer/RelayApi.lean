import IbcRelayer.PipelineOpts

/-!
# IbcRelayer — how packets get into the table

The transaction of `RelayerAPIService.Relay` (`relayerapi/services/relayerapi/service.go`), which
inserts a row for every packet of a source tx. The status of the tx, its sender and its packets are
answers of a bridge client: a request that gets as far as the transaction is given by its packets.
The row of the request itself, and what a call answers, are in `RelayCall`.
-/

namespace IbcRelayer

/-- `bridges/ibcv2.PacketInfo` -/
structure PacketInfo where
  sequence : UInt64
  sourceClient : String
  destinationClient : String
  timeoutTimestamp : Time
  timestamp : Time
  deriving DecidableEq, Repr

/-- `GetClientCounterpartyChainID` of the config reader. -/
def getClientCounterpartyChainID (config : ConfigReader) (chainID clientID : String) :
    Except GoError String := do
  let chain ← config chainID
  let some ibcv2 := chain.ibcv2
    | throw (.new ("chain " ++ chainID ++ " is not ibcv2 enabled"))
  let some trackedChain := ibcv2.counterpartyChains.lookup clientID
    | throw (.new ("unknown client " ++ clientID ++ " on chain " ++ chainID))
  return trackedChain

/-- The parameters of a packet's insert; `int32` keeps the low bits of the sequence number. -/
def PacketInfo.insert (packet : PacketInfo) (sourceChainID destChainID txHash : String) :
    InsertIBCV2TransferParams where
  sourceChainID
  destinationChainID := destChainID
  sourceTxHash := txHash
  sourceTxTime := packet.timestamp
  packetSequenceNumber := packet.sequence.toUInt32.toInt32
  packetSourceClientID := packet.sourceClient
  packetDestinationClientID := packet.destinationClient
  packetTimeoutTimestamp := packet.timeoutTimestamp

/-- `InsertIBCV2Transfer`: the unique index refuses a second row for a packet. -/
def insertIBCV2Transfer (arg : InsertIBCV2TransferParams) (id : Int32)
    (rows : List Ibcv2Transfer) : Option (List Ibcv2Transfer) :=
  if (row rows (arg.toRow id).key).isSome then none else some (rows ++ [arg.toRow id])

namespace RelayerAPIService

/-- The loop of the transaction over the packets, each with the id that its row gets. -/
def insertPackets (config : ConfigReader) (sourceChainID txHash : String) :
    List (PacketInfo × Int32) → List Ibcv2Transfer → Option (List Ibcv2Transfer)
  | [], rows => some rows
  | (packet, id) :: rest, rows =>
    match getClientCounterpartyChainID config sourceChainID packet.sourceClient with
    -- a packet with an unknown destination is skipped
    | .error _ => insertPackets config sourceChainID txHash rest rows
    | .ok destChainID => do
      let rows ← insertIBCV2Transfer (packet.insert sourceChainID destChainID txHash) id rows
      insertPackets config sourceChainID txHash rest rows

/-- `Relay`, from the check of the request to the end of the transaction: all packets are inserted
or none is. -/
def relay (config : ConfigReader) (chainID txHash : String) (packets : List (PacketInfo × Int32))
    (rows : List Ibcv2Transfer) : List Ibcv2Transfer :=
  if txHash = "" ∨ chainID = "" then
    rows
  else
    (insertPackets config chainID txHash packets rows).getD rows

end RelayerAPIService

end IbcRelayer
