import IbcRelayer.Calls
import IbcRelayer.RelayApi

/-!
# IbcRelayer — the calls of the relayer's API

`Relay` and `Status` of `relayerapi/services/relayerapi/service.go`, with the two tables they use
and with what they answer. `RelayApi` has the rows that a call adds; here are the request's own row,
the checks before the transaction, and the errors. What the bridge client of the source chain
answers during a call is a parameter.
-/

namespace IbcRelayer

/-! ## The two tables -/

/-- A row of `ibcv2_relay_requests`, by the columns of its unique constraint. -/
structure Ibcv2RelayRequest where
  sourceChainID : String
  sourceTxHash : String
  deriving DecidableEq, Repr

structure Database where
  transfers : List Ibcv2Transfer := []
  relayRequests : List Ibcv2RelayRequest := []
  deriving DecidableEq, Repr

/-- `pgconn.PgError`, as far as it is looked at. -/
structure PgError where
  code : String
  message : String
  deriving DecidableEq, Repr

/-- `Error()` of a `PgError`. -/
def PgError.error (err : PgError) : GoError :=
  .new ("ERROR: " ++ err.message ++ " (SQLSTATE " ++ err.code ++ ")")

def errCodeDuplicateKey : String := "23505"

/-- What Postgres reports when `index_ibcv2_transfer_packet` refuses a row. -/
def duplicatePacket : PgError where
  code := errCodeDuplicateKey
  message := "duplicate key value violates unique constraint \"index_ibcv2_transfer_packet\""

/-- `InsertRelayRequest`: with `ON CONFLICT DO NOTHING` a request that is there is no error. -/
def insertRelayRequest (arg : Ibcv2RelayRequest) (db : Database) : Except PgError Database :=
  if arg ∈ db.relayRequests then
    .ok db
  else
    .ok { db with relayRequests := db.relayRequests ++ [arg] }

/-- `ExecTx`: the changes of a transaction whose function returns an error are rolled back. -/
def Database.execTx (fn : Database → Except GoError Database) (db : Database) :
    Except GoError Unit × Database :=
  match fn db with
  | .ok db' => (.ok (), db')
  | .error err => (.error err, db)

/-! ## `Relay` -/

/-- The `codes` of the errors. -/
inductive Code where
  | invalidArgument
  | notFound
  | unavailable
  | failedPrecondition
  | internal
  deriving DecidableEq, Repr

/-- The error of a handler: a gRPC status, or another error. -/
inductive HandlerError where
  | status (code : Code) (message : String)
  | other (err : GoError)
  deriving DecidableEq, Repr

/-- The two values of `TxExecutionStatus.Status`. -/
inductive TxExecution where
  | success
  | failed
  deriving DecidableEq, Repr

/-- `bridges/ibcv2.TxExecutionStatus` -/
structure TxExecutionStatus where
  status : TxExecution
  errorMessage : String := ""
  deriving DecidableEq, Repr

/-- What the client manager and the client of the source chain answer during a `Relay` call. -/
structure SourceAnswers where
  client : Except GoError Unit
  txExecutionStatus : Except GoError TxExecutionStatus
  chainType : ChainType
  transactionSender : Except GoError String
  packets : Except GoError (List PacketInfo)
  deriving DecidableEq

namespace RelayerAPIService

def errAlreadySubmitted : GoError := ⟨"tx already submitted", [.errAlreadySubmitted]⟩

/-- The source tx has to be there, to have succeeded and not to come from a blacklisted sender;
`blacklist` has the keys of `utils.OFACAddressMap`. -/
def checkTx (blacklist : List String) (sourceChainID txHash : String) (src : SourceAnswers) :
    Except HandlerError Unit := do
  let .ok () := src.client
    | throw (.status .invalidArgument ("unsupported chain: " ++ sourceChainID))
  match src.txExecutionStatus with
  | .error err =>
    if err.is .errTxNotFound then
      throw (.status .notFound ("tx " ++ txHash ++ " not found on chain " ++ sourceChainID))
    throw (.status .unavailable err.text)
  | .ok execStatus =>
    if execStatus.status ≠ .success then
      throw (.status .failedPrecondition ("tx " ++ txHash ++ " on chain " ++ sourceChainID
        ++ " did not succeed on chain: " ++ execStatus.errorMessage))
  if src.chainType = .evm then
    match src.transactionSender with
    | .error err =>
      throw (.other (err.wrap "checking OFAC Blacklist - error getting transaction sender"))
    | .ok transactionSender =>
      if transactionSender.toLower ∈ blacklist then
        throw (.status .invalidArgument "Transaction sender is blacklisted - cannot relay")

/-- `Relay` up to the transaction. -/
def packetsOfTx (blacklist : List String) (sourceChainID txHash : String) (src : SourceAnswers) :
    Except HandlerError (List PacketInfo) :=
  if txHash = "" ∨ sourceChainID = "" then
    .error (.status .invalidArgument "tx_hash and chain_id are required")
  else
    match checkTx blacklist sourceChainID txHash src with
    | .error err => .error err
    | .ok () =>
      match src.packets with
      | .error err => .error (.status .internal ("failed to get packets from tx: " ++ err.text))
      | .ok packets => .ok packets

/-- The loop of the transaction over the packets, with its error. -/
def insertTransfers (config : ConfigReader) (sourceChainID txHash : String) :
    List (PacketInfo × Int32) → List Ibcv2Transfer → Except GoError (List Ibcv2Transfer)
  | [], rows => .ok rows
  | (packet, id) :: rest, rows =>
    match getClientCounterpartyChainID config sourceChainID packet.sourceClient with
    -- a packet with an unknown destination is skipped
    | .error _ => insertTransfers config sourceChainID txHash rest rows
    | .ok destChainID =>
      match insertIBCV2Transfer (packet.insert sourceChainID destChainID txHash) id rows with
      | none =>
        .error (duplicatePacket.error.wrap
          ("inserting packet sequence " ++ toString packet.sequence.toNat))
      | some rows => insertTransfers config sourceChainID txHash rest rows

/-- The function that `Relay` gives to `ExecTx`. -/
def persist (config : ConfigReader) (sourceChainID txHash : String)
    (packets : List (PacketInfo × Int32)) (db : Database) : Except GoError Database :=
  match insertRelayRequest ⟨sourceChainID, txHash⟩ db with
  | .error pgErr =>
    if pgErr.code = errCodeDuplicateKey then
      .error errAlreadySubmitted
    else
      .error (pgErr.error.wrap "inserting relay request")
  | .ok db =>
    match insertTransfers config sourceChainID txHash packets db.transfers with
    | .error err => .error err
    | .ok transfers => .ok { db with transfers }

/-- The whole of `Relay`; the row of the packet `i` gets the id `ids i`. -/
def relayTx (config : ConfigReader) (blacklist : List String) (sourceChainID txHash : String)
    (src : SourceAnswers) (ids : Nat → Int32) (db : Database) :
    Except HandlerError Unit × Database :=
  match packetsOfTx blacklist sourceChainID txHash src with
  | .error err => (.error err, db)
  | .ok packets =>
    let entries := packets.mapIdx fun i p => (p, ids i)
    match db.execTx (persist config sourceChainID txHash entries) with
    | (.ok (), db) => (.ok (), db)
    | (.error txErr, db) =>
      if txErr.is .errAlreadySubmitted then
        (.ok (), db)
      else
        (.error (.status .internal ("failed to persist relay submission: " ++ txErr.text)), db)

/-! ## `Status` -/

/-- `protorelayerapi.TransferState` -/
inductive TransferState where
  | pending
  | complete
  | failed
  deriving DecidableEq, Repr

def mapDBStatusToProto : Ibcv2RelayStatus → TransferState
  | .completeWithAck | .completeWithTimeout | .completeWithWriteAckSuccess
  | .completeWithWriteAckError => .complete
  | .failed => .failed
  | _ => .pending

/-- `protorelayerapi.TransactionInfo` -/
structure TransactionInfo where
  txHash : String
  chainID : String
  deriving DecidableEq, Repr

def toTxInfo (hash : Option String) (chainID : String) : Option TransactionInfo :=
  hash.map (⟨·, chainID⟩)

/-- `protorelayerapi.PacketStatus` -/
structure PacketStatus where
  state : TransferState
  sequenceNumber : UInt64
  sourceClientID : String
  sendTx : TransactionInfo
  recvTx : Option TransactionInfo
  ackTx : Option TransactionInfo
  timeoutTx : Option TransactionInfo
  deriving DecidableEq, Repr

/-- The status of a row; the conversion of its `int32` to `uint64` extends the sign. -/
def packetStatus (t : Ibcv2Transfer) : PacketStatus where
  state := mapDBStatusToProto t.status
  sequenceNumber := t.packetSequenceNumber.toInt64.toUInt64
  sourceClientID := t.packetSourceClientID
  sendTx := ⟨t.sourceTxHash, t.sourceChainID⟩
  recvTx := toTxInfo t.recvTxHash t.destinationChainID
  ackTx := toTxInfo t.ackTxHash t.sourceChainID
  timeoutTx := toTxInfo t.timeoutTxHash t.sourceChainID

/-- `pgx.ErrNoRows` -/
def errNoRows : GoError := ⟨"no rows in result set", [.errNoRows]⟩

/-- `GetRelayRequest`, of a database that can be read. -/
def getRelayRequest (arg : Ibcv2RelayRequest) (requests : List Ibcv2RelayRequest) :
    Except GoError Ibcv2RelayRequest :=
  if arg ∈ requests then .ok arg else .error errNoRows

/-- `GetTransfersBySourceTx`, of a database that can be read. -/
def getTransfersBySourceTx (sourceChainID sourceTxHash : String) (rows : List Ibcv2Transfer) :
    List Ibcv2Transfer :=
  rows.filter fun r => r.sourceChainID = sourceChainID ∧ r.sourceTxHash = sourceTxHash

/-- `Status`, where `request` and `transfers` are the answers of its two reads, of `GetRelayRequest`
and of `GetTransfersBySourceTx`. -/
def status (chainID txHash : String) (request : Except GoError Ibcv2RelayRequest)
    (transfers : Except GoError (List Ibcv2Transfer)) : Except HandlerError (List PacketStatus) :=
  if txHash = "" ∨ chainID = "" then
    .error (.status .invalidArgument "tx_hash and chain_id are required")
  else
    match request with
    | .error err =>
      if err.is .errNoRows then
        .error (.status .notFound "transaction not submitted to relayer")
      else
        .error (.status .internal "failed to query relay request")
    | .ok _ =>
      match transfers with
      | .error _ => .error (.status .internal "failed to query transfers")
      | .ok transfers => .ok (transfers.map packetStatus)

/-! ## What a call does -/

/-- The loop with its error is the loop of `RelayApi`. -/
theorem insertTransfers_toOption (config : ConfigReader) (sourceChainID txHash : String)
    (packets : List (PacketInfo × Int32)) (rows : List Ibcv2Transfer) :
    (insertTransfers config sourceChainID txHash packets rows).toOption
      = insertPackets config sourceChainID txHash packets rows := by
  induction packets generalizing rows with
  | nil => rfl
  | cons entry rest ih =>
    obtain ⟨packet, id⟩ := entry
    unfold insertTransfers insertPackets
    cases getClientCounterpartyChainID config sourceChainID packet.sourceClient with
    | error err => exact ih rows
    | ok destChainID =>
      dsimp only
      cases insertIBCV2Transfer (packet.insert sourceChainID destChainID txHash) id rows with
      | none => rfl
      | some rows' => exact ih rows'

/-- The error of the loop is not `errAlreadySubmitted`. -/
theorem insertTransfers_error {config : ConfigReader} {sourceChainID txHash : String}
    {packets : List (PacketInfo × Int32)} {rows : List Ibcv2Transfer} {err : GoError}
    (h : insertTransfers config sourceChainID txHash packets rows = .error err) :
    err.is .errAlreadySubmitted = false := by
  induction packets generalizing rows with
  | nil => cases h
  | cons entry rest ih =>
    obtain ⟨packet, id⟩ := entry
    unfold insertTransfers at h
    split at h
    · exact ih h
    · split at h
      · cases h
        rfl
      · exact ih h

/-- A call that gets to the transaction. -/
theorem packetsOfTx_ok {blacklist : List String} {sourceChainID txHash : String}
    {src : SourceAnswers} {packets : List PacketInfo}
    (h : packetsOfTx blacklist sourceChainID txHash src = .ok packets) :
    ¬ (txHash = "" ∨ sourceChainID = "") ∧ src.packets = .ok packets := by
  unfold packetsOfTx at h
  split at h
  · cases h
  · rename_i hnamed
    refine ⟨hnamed, ?_⟩
    split at h
    · cases h
    · split at h
      · cases h
      · rename_i packets' hpackets
        cases h
        exact hpackets

/-- The request of a transaction is in the table afterwards. -/
theorem insertRelayRequest_ok (arg : Ibcv2RelayRequest) (db : Database) :
    ∃ requests, insertRelayRequest arg db = .ok { db with relayRequests := requests }
      ∧ arg ∈ requests ∧ db.relayRequests ⊆ requests
      ∧ (arg ∈ db.relayRequests → requests = db.relayRequests) := by
  unfold insertRelayRequest
  split
  · rename_i hin
    exact ⟨_, rfl, hin, fun _ h => h, fun _ => rfl⟩
  · rename_i hnew
    exact ⟨_, rfl, by simp, by simp, fun hin => absurd hin hnew⟩

/-- What a call does: it adds the rows of the packets and the request and answers OK, or it changes
nothing and answers an error. -/
theorem relayTx_cases (config : ConfigReader) (blacklist : List String)
    (sourceChainID txHash : String) (src : SourceAnswers) (ids : Nat → Int32) (db : Database) :
    (∃ packets transfers requests, packetsOfTx blacklist sourceChainID txHash src = .ok packets
        ∧ insertPackets config sourceChainID txHash (packets.mapIdx fun i p => (p, ids i))
            db.transfers = some transfers
        ∧ insertRelayRequest ⟨sourceChainID, txHash⟩ db
            = .ok { db with relayRequests := requests }
        ∧ relayTx config blacklist sourceChainID txHash src ids db
            = (.ok (), ⟨transfers, requests⟩))
      ∨ ((∀ packets, packetsOfTx blacklist sourceChainID txHash src = .ok packets →
          insertPackets config sourceChainID txHash (packets.mapIdx fun i p => (p, ids i))
            db.transfers = none)
        ∧ ∃ err, relayTx config blacklist sourceChainID txHash src ids db = (.error err, db)) := by
  obtain ⟨requests, hrequest, -⟩ := insertRelayRequest_ok ⟨sourceChainID, txHash⟩ db
  unfold relayTx
  cases hpackets : packetsOfTx blacklist sourceChainID txHash src with
  | error err => exact Or.inr ⟨nofun, err, rfl⟩
  | ok packets =>
    -- the request can always be stored, so the transfers decide whether the transaction commits
    have hloop := insertTransfers_toOption config sourceChainID txHash
      (packets.mapIdx fun i p => (p, ids i)) db.transfers
    unfold Database.execTx persist
    rw [hrequest]
    dsimp only
    cases hinsert : insertTransfers config sourceChainID txHash
        (packets.mapIdx fun i p => (p, ids i)) db.transfers with
    | ok transfers =>
      rw [hinsert] at hloop
      exact Or.inl ⟨packets, transfers, requests, rfl, hloop.symm, rfl, rfl⟩
    | error err =>
      rw [hinsert] at hloop
      refine Or.inr ⟨?_, ?_⟩
      · rintro _ ⟨⟩
        exact hloop.symm
      · dsimp only
        rw [insertTransfers_error hinsert]
        exact ⟨_, rfl⟩

end RelayerAPIService

end IbcRelayer
