import IbcRelayer.Bridge.Client

/-!
# IbcRelayer — what the Cosmos client reads from a node and submits to it

`SendPacketsFromTx`, `signAndSubmit` and `signAndSubmitMessages` of `CosmosBridgeClient`
(`shared/bridges/ibcv2/cosmos_bridge_client.go`).

A read is a function of the node's answers. A submission is a call tree over `CosmosCall`: the
node, the signer, the encoders of the SDK and the pause between two txs. The log lines of the
client are left out.
-/

namespace IbcRelayer

open CallTree

/-! ## Packets -/

/-- The answers of a node. A header is its time; there may be none in the result. -/
structure CosmosNode where
  tx : List UInt8 → Except GoError ResultTx
  header : Int64 → Except GoError (Option Time)

namespace CosmosBridgeClient

section Packets

variable (location : Location)

/-- One step of the loop over the attributes in `SendPacketsFromTx`. -/
def readAttribute (packet : PacketInfo) : String × String → Except GoError PacketInfo
  | (key, value) =>
    if key = "packet_sequence" then
      match atoi value with
      | none => .error (.new ("converting packet sequence " ++ value ++ " to int"))
      | some sequence => .ok { packet with sequence := sequence.toUInt64 }
    else if key = "packet_source_client" then
      .ok { packet with sourceClient := value }
    else if key = "packet_dest_client" then
      .ok { packet with destinationClient := value }
    else if key = "packet_timeout_timestamp" then
      match atoi value with
      | none => .error (.new ("converting attribute timeout ts " ++ value ++ " to int"))
      | some unixts => .ok { packet with timeoutTimestamp := Time.unix location unixts }
    else
      .ok packet

/-- `PacketInfo{}` -/
def emptyPacket : PacketInfo := ⟨0, "", "", .zero, .zero⟩

/-- The loop over the events in `SendPacketsFromTx`. -/
def packetsOfEvents : List AbciEvent → Except GoError (List PacketInfo)
  | [] => .ok []
  | event :: rest =>
    if event.type ≠ "send_packet" then
      packetsOfEvents rest
    else do
      let packet ← event.attributes.foldlM (readAttribute location) emptyPacket
      let packets ← packetsOfEvents rest
      -- v1 send packets do not contain the clients
      if packet.sourceClient = "" ∨ packet.destinationClient = "" then
        return packets
      else
        return packet :: packets

/-- `SendPacketsFromTx` -/
def sendPacketsFromTx (node : CosmosNode) (txHash : String) : Except GoError (List PacketInfo) :=
  match decodeString txHash with
  | .error err => .error (err.wrap "hex decoding tx hash")
  | .ok hashBytes =>
    match node.tx hashBytes with
    | .error err => .error (err.wrap "getting tx result")
    | .ok txResult =>
      match packetsOfEvents location txResult.events with
      | .error err => .error err
      | .ok [] => .ok []
      | .ok packets =>
        match node.header txResult.height with
        | .error err =>
          .error (err.wrap ("getting header for height " ++ toString txResult.height.toInt))
        | .ok none => .error (.new ("got nil header at height " ++ toString txResult.height.toInt))
        | .ok (some time) => .ok (packets.map ({ · with timestamp := time }))

end Packets

end CosmosBridgeClient

/-! ## Submissions -/

/-- `sdk.Msg` -/
structure SdkMsg where
  typeURL : String
  value : List UInt8
  deriving DecidableEq, Repr

/-- `codectypes.Any` -/
structure CodecAny where
  typeURL : String
  value : List UInt8
  deriving DecidableEq, Repr

/-- The account that `AccountInfo` tells of. -/
structure BaseAccount where
  accountNumber : UInt64
  sequence : UInt64
  deriving DecidableEq, Repr

/-- What has been set on a `TxBuilder`. -/
structure CosmosTx where
  msgs : List SdkMsg
  gasLimit : UInt64 := 0
  feeAmount : List (String × Int) := []
  deriving DecidableEq, Repr

/-- `CosmosTransaction` after `Sign`, which adds a signature and keeps the messages. -/
structure SignedTx where
  tx : CosmosTx
  signature : List UInt8
  deriving DecidableEq, Repr

/-- `coretypes.ResultBroadcastTx` -/
structure ResultBroadcastTx where
  code : UInt32
  log : String
  hash : List UInt8
  deriving DecidableEq, Repr

/-- The calls of a submission. `broadcastTxSync` also carries the tx that its bytes encode. -/
inductive CosmosCall where
  | convertAndEncode (hrp : String) (address : List UInt8)
  | accountInfo (address : String)
  | setMsgs (msgs : List SdkMsg)
  | sign (chainID : String) (tx : CosmosTx) (account : BaseAccount)
  | encode (tx : SignedTx)
  | simulate (txBytes : List UInt8)
  | broadcastTxSync (txBytes : List UInt8) (tx : SignedTx)
  | sleep (delay : Int)
  deriving DecidableEq, Repr

/-- An account or a gas report may be missing from an answer. -/
def CosmosCall.Answer : CosmosCall → Type
  | .convertAndEncode .. => Except GoError String
  | .accountInfo _ => Except GoError (Option BaseAccount)
  | .setMsgs _ => Except GoError Unit
  | .sign .. => Except GoError (List UInt8)
  | .encode _ => Except GoError (List UInt8)
  | .simulate _ => Except GoError (Option UInt64)
  | .broadcastTxSync .. => Except GoError ResultBroadcastTx
  | .sleep _ => Unit

/-- A submission, which may fail. -/
abbrev Submit := ExceptT GoError (Prog CosmosCall.Answer)

/-- `if err != nil { return nil, fmt.Errorf(msg + ": %w", err) }` after a call -/
def Submit.ask {α : Type} (msg : String) (x : Submit α) : Submit α :=
  .mk do
    match ← x.run with
    | .ok a => return .ok a
    | .error err => return .error (err.wrap msg)

/-! ### Gas and fees -/

/-- A natural number rounded to `bits` binary digits, ties to even. -/
def roundBits (bits n : Nat) : Nat :=
  let shift := n.log2 + 1 - bits
  let quotient := n / 2 ^ shift
  let rest := 2 * (n % 2 ^ shift)
  if rest > 2 ^ shift ∨ (rest = 2 ^ shift ∧ quotient % 2 = 1) then
    (quotient + 1) * 2 ^ shift
  else
    quotient * 2 ^ shift

/-- `uint64(math.Ceil(float64(gasUsed) * 1.5))`. A `float64` has 53 digits; the product is counted
in halves. -/
def gasLimitOf (gasUsed : UInt64) : UInt64 :=
  .ofNat ((roundBits 53 (3 * roundBits 53 gasUsed.toNat) + 1) / 2)

/-- A `float64`: `mantissa * 2 ^ exponent`. -/
structure Float64 where
  mantissa : Int
  exponent : Int
  deriving DecidableEq, Repr

/-- `new(big.Float).Mul(big.NewFloat(x), new(big.Float).SetInt64(n)).Int(nil)`: the product has 64
digits, and its fraction is cut off. -/
def Float64.mulInt64 (x : Float64) (n : Int64) : Int :=
  let product := x.mantissa * n.toInt
  let rounded := product.sign * roundBits 64 product.natAbs
  if 0 ≤ x.exponent then rounded * 2 ^ x.exponent.toNat
  else rounded.tdiv (2 ^ (-x.exponent).toNat)

/-- `CosmosBridgeClient`, as far as submissions read it. `NewClientManagerFromConfig` refuses a
chain with a gas price and a fee amount. -/
structure CosmosBridgeClient where
  chainID : String
  addressPrefix : String
  signerAddress : List UInt8
  /-- What `%s` prints of the address. -/
  signerText : String
  gasPrice : Float64
  feeDenom : String
  feeAmount : UInt64
  txSubmissionDelay : Int
  oneFee : ¬ (0 < gasPrice.mantissa ∧ 0 < feeAmount)

namespace CosmosBridgeClient

/-- `getTxFee`, the amount of the coin. -/
def getTxFee (client : CosmosBridgeClient) (gasLimit : UInt64) : Except GoError Int :=
  if client.feeDenom = "" then
    .error (.new ("fee denom not set for chain " ++ client.chainID))
  else if 0 < client.gasPrice.mantissa ∧ 0 < client.feeAmount then
    .error (.new
      ("gas price and fee amount cannot both be set for chain " ++ client.chainID))
  else if 0 < client.gasPrice.mantissa then
    .ok (client.gasPrice.mulInt64 gasLimit.toInt64 + 1)
  else
    .ok client.feeAmount.toNat

/-- `sdk.NewCoins(sdk.NewCoin(denom, amount))`, which leaves a zero coin out. -/
def newCoins (denom : String) (amount : Int) : List (String × Int) :=
  if amount = 0 then [] else [(denom, amount)]

section Submissions

variable (client : CosmosBridgeClient)

/-- Sign and encode the tx of the builder. -/
def signAndEncode (tx : CosmosTx) (account : BaseAccount) : Submit (SignedTx × List UInt8) := do
  let signature ← Submit.ask "signing tx" (.mk (.call (.sign client.chainID tx account) .done))
  let signed : SignedTx := { tx, signature }
  let signedTxBytes ← Submit.ask "encoding signed tx" (.mk (.call (.encode signed) .done))
  return (signed, signedTxBytes)

/-- `getEstimatedGasLimit` -/
def getEstimatedGasLimit (tx : CosmosTx) (account : BaseAccount) : Submit UInt64 := do
  let (_, signedTxBytes) ← client.signAndEncode tx account
  let gasInfo ← Submit.ask "simulating tx to get estimated gas usage"
    (.mk (.call (.simulate signedTxBytes) .done))
  match gasInfo with
  | none => throw (.new "got nil gas info after simulating tx")
  | some gasUsed => return gasLimitOf gasUsed

/-- The fee that `signAndSubmitMessages` sets, if the client has a fee denom. -/
def txFeeAmount (gasLimit : UInt64) : Submit (List (String × Int)) :=
  if client.feeDenom ≠ "" then
    match client.getTxFee gasLimit with
    | .error err => throw (err.wrap "getting tx fee")
    | .ok fee => pure (newCoins client.feeDenom fee)
  else
    pure []

/-- `signAndSubmitMessages` -/
def signAndSubmitMessages (msgs : List SdkMsg) : Submit (List UInt8) := do
  let bech32Address ← Submit.ask ("converting and encoding signer address " ++ client.signerText
      ++ " with prefix " ++ client.addressPrefix ++ " to bech32")
    (.mk (.call (.convertAndEncode client.addressPrefix client.signerAddress) .done))
  let account ← Submit.ask ("getting account info for cosmos signer " ++ bech32Address
      ++ " on chain " ++ client.chainID)
    (.mk (.call (.accountInfo bech32Address) .done))
  let some accountInfo := account
    | throw (.new ("got no info for cosmos signer account " ++ bech32Address ++ " on chain "
        ++ client.chainID ++ ": %!w(<nil>)"))
  Submit.ask "setting message in tx" (.mk (.call (.setMsgs msgs) .done))
  let gasLimit ← Submit.ask "getting estimated gas limit for tx"
    (client.getEstimatedGasLimit { msgs } accountInfo)
  let feeAmount ← client.txFeeAmount gasLimit
  let (signed, signedTxBytes) ← client.signAndEncode { msgs, gasLimit, feeAmount } accountInfo
  let result ← Submit.ask ("broadcasting tx synchronously from signer " ++ bech32Address)
    (.mk (.call (.broadcastTxSync signedTxBytes signed) .done))
  if result.code ≠ 0 then
    throw (.new ("broadcasting cosmos tx from signer " ++ bech32Address ++ " returned error code "
      ++ toString result.code.toNat ++ ": " ++ result.log))
  else
    return result.hash

/-- `codectypes.MsgTypeURL(&ibcclientv1types.MsgUpdateClient{})` -/
def updateClientTypeURL : String := "/ibc.core.client.v1.MsgUpdateClient"

def isUpdateClient (msg : SdkMsg) : Bool := msg.typeURL = updateClientTypeURL

/-- The loop that submits the client updates one by one. It returns the other messages. -/
def submitClientUpdates (numClientUpdates : Nat) : Nat → List SdkMsg → Submit (List SdkMsg)
  | _, [] => return []
  | numSubmitted, msg :: rest => do
    if ¬ isUpdateClient msg then
      let nonClientUpdateMsgs ← submitClientUpdates numClientUpdates numSubmitted rest
      return msg :: nonClientUpdateMsgs
    else
      let _ ← Submit.ask ("submitting individual update client message number "
          ++ toString numSubmitted ++ " since there were " ++ toString numClientUpdates
          ++ " included in tx")
        (client.signAndSubmitMessages [msg])
      (.mk (.call (.sleep client.txSubmissionDelay) fun _ => .done (.ok ())) : Submit Unit)
      submitClientUpdates numClientUpdates (numSubmitted + 1) rest

/-- `signAndSubmit`, from the unpacked messages on. -/
def submitMsgs (msgs : List SdkMsg) : Submit (List UInt8) := do
  let numClientUpdates := msgs.countP isUpdateClient
  if numClientUpdates > 1 then
    let nonClientUpdateMsgs ← client.submitClientUpdates numClientUpdates 0 msgs
    client.signAndSubmitMessages nonClientUpdateMsgs
  else
    client.signAndSubmitMessages msgs

/-- `signAndSubmit`. `unmarshal` makes a `TxBody` of the bytes and returns its messages,
`unpackAny` is that of the interface registry. -/
def signAndSubmit (unmarshal : List UInt8 → Except GoError (List CodecAny))
    (unpackAny : CodecAny → Except GoError SdkMsg) (bz : List UInt8) : Submit (List UInt8) := do
  match unmarshal bz with
  | .error err => throw (err.wrap "unmarshaling tx bytes")
  | .ok messages =>
    if messages = [] then
      throw (.new "no messages to relay")
    match messages.mapM unpackAny with
    | .error err => throw (err.wrap "unpacking msg into sdk.Msg")
    | .ok msgs => client.submitMsgs msgs

end Submissions

end CosmosBridgeClient

end IbcRelayer
