import IbcRelayer.Lib.CallTree
import IbcRelayer.Transfer

/-!
# IbcRelayer — what a stage can call

A pipeline stage is a program over `Call`: the bridge clients, the proof API, the price client, the
clock, the database and the log. The answers are the environment's, so a statement about every run
covers every client, every storage failure and every clock.

Some calls carry an argument that is not sent anywhere and only says what the call is made for:

* `now` carries its reader, so that the readings of one evaluation of `IsTimedOut` can be named;
* `now` and `warn` carry the key of the transfer they are made for;
* `relayByTx` and `deliverTx` carry the `Submission` they belong to, the transfers whose sequence
  numbers are in the request.

A database transaction is the calls `txBegin`, its statements, and `txRollback` or `txCommit`. Its
statements change nothing that others see; `txCommit` applies all of them at once.
-/

namespace IbcRelayer

open CallTree

/-! ## The values that travel -/

/-- `BridgeTx` -/
structure BridgeTx where
  hash : String
  timestamp : Time
  relayerAddress : String
  deriving DecidableEq, Repr

/-- `config.ChainType` -/
inductive ChainType where
  | cosmos
  | evm
  | svm
  deriving DecidableEq, Repr

/-- `proofapi.RelayByTxRequest` -/
structure RelayByTxRequest where
  srcChain : String
  dstChain : String
  sourceTxIds : List (List UInt8) := []
  timeoutTxIds : List (List UInt8) := []
  srcClientId : String
  dstClientId : String
  srcPacketSequences : List UInt64 := []
  dstPacketSequences : List UInt64 := []
  deriving DecidableEq, Repr

/-- `proofapi.RelayByTxResponse` -/
structure RelayByTxResponse where
  tx : List UInt8
  address : String
  deriving DecidableEq, Repr

/-- `ibcv2_relayer_tx_submission_type`: the three kinds of tx the relayer submits. -/
inductive TxType where
  | recvPacket
  | ackPacket
  | timeoutPacket
  deriving DecidableEq, Repr

/-- What a `RelayByTx` request and the tx delivered for it are about. -/
structure Submission where
  kind : TxType
  transfers : List IBCV2Transfer
  deriving DecidableEq, Repr

/-- `metrics.RelayType` -/
inductive RelayType where
  | sendToRecv
  | sendToTimeout
  | recvToAck
  deriving DecidableEq, Repr

/-- `InsertIBCV2RelayerTxSubmissionParams`; the status is always `PENDING`. -/
structure InsertSubmissionParams where
  txHash : String
  chainID : String
  txType : TxType
  relayerAddress : String
  submittedAt : Time
  deriving DecidableEq, Repr

/-- The statements that are made inside a transaction. -/
inductive TxStmt where
  | update (u : TransferUpdate) (key : RowKey)
  | insertIBCV2RelayerTxSubmission (params : InsertSubmissionParams)
  | insertIBCV2TransferTxSubmission (transferID submissionID : Int32)
  deriving DecidableEq, Repr

/-- Who reads the clock. -/
inductive ClockReader where
  | checkTimeoutFinality
  | batchTimeoutPacket
  | batchRecvPacket
  | sourceTxFinalizedTime
  | writeAckTxFinalizedTime
  deriving DecidableEq, Repr

/-- The warnings of branches that the code takes to be impossible. -/
inductive Warning where
  | isCompleteWithoutWriteAckStatus
  | writeAckFinalityWithoutWriteAckStatus
  | deliverAckWithoutWriteAckStatus
  | finishWithoutWriteAckStatus
  | finishNotComplete
  deriving DecidableEq, Repr

def Warning.text : Warning → String
  | .isCompleteWithoutWriteAckStatus =>
      "this is a bug! tx has write ack tx hash but does not have a write ack status"
  | .writeAckFinalityWithoutWriteAckStatus =>
      "this is a bug! transfer does not have a write ack status when checking write ack finality"
  | .deliverAckWithoutWriteAckStatus =>
      "this is a bug! transfer does not have a write ack status when delivering ack packet"
  | .finishWithoutWriteAckStatus =>
      "this is a bug! non timeout transfer is trying to be marked as complete "
        ++ "without any write ack status, not marking as complete!"
  | .finishNotComplete =>
      "state finisher received transfer that is not errored and not complete"

/-! ## Calls and answers -/

/-- A call on a bridge client names the chain of the client. -/
inductive Call where
  | getClient (chainID : String)
  | isPacketReceived (chainID clientID : String) (sequence : UInt64)
  | isPacketCommitted (chainID clientID : String) (sequence : UInt64)
  | findRecvTx (chainID sourceClientID destClientID : String) (sequence : UInt64)
      (timeoutTimestamp : Time)
  | findAckTx (chainID sourceClientID destClientID : String) (sequence : UInt64)
  | findTimeoutTx (chainID sourceClientID destClientID : String) (sequence : UInt64)
  | deliverTx (chainID : String) (tx : List UInt8) (address : String) (submission : Submission)
  | packetWriteAckStatus (chainID hash : String) (sequence : UInt64)
      (sourceClientID destClientID : String)
  | shouldRetryTx (chainID txHash : String) (expiry : Int) (sentTs : Time)
  | waitForChain (chainID : String)
  | isTxFinalized (chainID txHash : String) (offset : Option UInt64)
  | isTimestampFinalized (chainID : String) (timestamp : Time) (offset : Option UInt64)
  | chainType (chainID : String)
  | txFee (chainID txHash : String)
  | getCoinUsdValue (coingeckoID : String) (decimals : UInt8) (amount : Int)
  | relayByTx (request : RelayByTxRequest) (submission : Submission)
  | now (reader : ClockReader) (key : RowKey)
  | update (u : TransferUpdate) (key : RowKey)
  | txBegin
  | txExec (stmt : TxStmt)
  | txInsertSubmission (params : InsertSubmissionParams)
  | txRollback
  | txCommit (body : List TxStmt)
  | warn (warning : Warning) (key : RowKey)
  | addRelayCompleted (sourceChainID sourceClientID destinationChainID destinationClientID : String)
      (relayType : RelayType)
  deriving DecidableEq

/-- What a call returns. A client, the database or the proof API may always answer with an error;
the clock and the log do not. -/
@[reducible] def Call.Answer : Call → Type
  | .getClient _ => Except GoError Unit
  | .isPacketReceived .. => Except GoError Bool
  | .isPacketCommitted .. => Except GoError Bool
  | .findRecvTx .. => Except GoError BridgeTx
  | .findAckTx .. => Except GoError BridgeTx
  | .findTimeoutTx .. => Except GoError BridgeTx
  | .deliverTx .. => Except GoError BridgeTx
  | .packetWriteAckStatus .. => Except GoError Ibcv2WriteAckStatus
  | .shouldRetryTx .. => Except GoError Bool
  | .waitForChain _ => Except GoError Unit
  | .isTxFinalized .. => Except GoError Bool
  | .isTimestampFinalized .. => Except GoError Bool
  | .chainType _ => ChainType
  | .txFee .. => Except GoError Int
  | .getCoinUsdValue .. => Except GoError (Option Numeric)
  | .relayByTx .. => Except GoError RelayByTxResponse
  | .now .. => Time
  | .update .. => Except GoError Unit
  | .txBegin => Except GoError Unit
  | .txExec _ => Except GoError Unit
  | .txInsertSubmission _ => Except GoError Int32
  | .txRollback => Except GoError Unit
  | .txCommit _ => Except GoError Unit
  | .warn .. => Unit
  | .addRelayCompleted .. => Unit

/-- The programs of the relayer. -/
abbrev Eff := Prog Call.Answer

/-- The transfers a call is made for, when it is one of the two calls of a tx submission. -/
def Call.submission : Call → Option Submission
  | .relayByTx _ submission => some submission
  | .deliverTx _ _ _ submission => some submission
  | _ => none

/-! ## The world the calls act on -/

/-- A call with its answer. -/
abbrev Event := CallTree.Event Call.Answer

/-- The transfers table, and what was called so far, the latest call first. -/
structure World where
  transfers : List Ibcv2Transfer
  log : List Event := []

/-- The effect of a transaction's statement on the transfers table. -/
def TxStmt.apply : TxStmt → List Ibcv2Transfer → List Ibcv2Transfer
  | .update u key, rows => updateWhere u key rows
  | _, rows => rows

/-- The effect of an answered call on the transfers table: a statement that fails changes nothing,
a transaction acts when it is committed. -/
def Call.effect : (c : Call) → c.Answer → List Ibcv2Transfer → List Ibcv2Transfer
  | .update u key, .ok _, rows => updateWhere u key rows
  -- what was executed inside is seen by others from here on
  | .txCommit body, .ok _, rows => body.foldl (fun rows stmt => stmt.apply rows) rows
  | _, _, rows => rows

/-- A call with its answer changes the table and is recorded. -/
def World.next (w : World) (c : Call) (answer : c.Answer) : World where
  transfers := c.effect answer w.transfers
  log := ⟨c, answer⟩ :: w.log

/-- The row of a packet. -/
def World.row (w : World) (key : RowKey) : Option Ibcv2Transfer := IbcRelayer.row w.transfers key

@[simp] theorem World.next_log (w : World) (c : Call) (answer : c.Answer) :
    (w.next c answer).log = ⟨c, answer⟩ :: w.log := rfl

/-- The world after a list of events, the latest first. -/
def World.after (w : World) (evs : List Event) : World :=
  evs.foldr (fun e w => w.next e.call e.answer) w

@[simp] theorem World.after_log (w : World) (evs : List Event) :
    (w.after evs).log = evs ++ w.log := by
  induction evs with
  | nil => rfl
  | cons e evs ih => simpa [World.after] using ih

/-- An environment answers every call, knowing the world it is made in. -/
abbrev Environment := World → (c : Call) → c.Answer

/-- A program run against an environment. -/
def execute {α : Type} (env : Environment) (p : Eff α) (w : World) : α × World :=
  p.run World.next env w

theorem execute_bind {α β : Type} (env : Environment) (p : Eff α) (f : α → Eff β) (w : World) :
    execute env (p >>= f) w = execute env (f (execute env p w).1) (execute env p w).2 :=
  Prog.run_bind World.next env p f w

/-- What a program ensures holds of its runs, and its events are what a run adds to the log. -/
theorem execute_of_ensures {α : Type} {p : Eff α} {Q : α → List Event → Prop}
    (h : p.Ensures Q) (env : Environment) (w : World) :
    ∃ evs, Q (execute env p w).1 evs ∧ (execute env p w).2 = w.after evs
      ∧ ∀ e ∈ evs, ∃ w', e.answer = env w' e.call :=
  h.run World.next env w

/-! ## Making a call -/

def getClient (chainID : String) : ExceptT GoError Eff Unit :=
  .mk (.call (.getClient chainID) .done)

def isPacketReceived (chainID clientID : String) (sequence : UInt64) : ExceptT GoError Eff Bool :=
  .mk (.call (.isPacketReceived chainID clientID sequence) .done)

def isPacketCommitted (chainID clientID : String) (sequence : UInt64) : ExceptT GoError Eff Bool :=
  .mk (.call (.isPacketCommitted chainID clientID sequence) .done)

def findRecvTx (chainID sourceClientID destClientID : String) (sequence : UInt64)
    (timeoutTimestamp : Time) : ExceptT GoError Eff BridgeTx :=
  .mk (.call (.findRecvTx chainID sourceClientID destClientID sequence timeoutTimestamp) .done)

def findAckTx (chainID sourceClientID destClientID : String) (sequence : UInt64) :
    ExceptT GoError Eff BridgeTx :=
  .mk (.call (.findAckTx chainID sourceClientID destClientID sequence) .done)

def findTimeoutTx (chainID sourceClientID destClientID : String) (sequence : UInt64) :
    ExceptT GoError Eff BridgeTx :=
  .mk (.call (.findTimeoutTx chainID sourceClientID destClientID sequence) .done)

def deliverTx (chainID : String) (tx : List UInt8) (address : String) (submission : Submission) :
    ExceptT GoError Eff BridgeTx :=
  .mk (.call (.deliverTx chainID tx address submission) .done)

def packetWriteAckStatus (chainID hash : String) (sequence : UInt64)
    (sourceClientID destClientID : String) : ExceptT GoError Eff Ibcv2WriteAckStatus :=
  .mk (.call (.packetWriteAckStatus chainID hash sequence sourceClientID destClientID) .done)

def shouldRetryTx (chainID txHash : String) (expiry : Int) (sentTs : Time) :
    ExceptT GoError Eff Bool :=
  .mk (.call (.shouldRetryTx chainID txHash expiry sentTs) .done)

def waitForChain (chainID : String) : ExceptT GoError Eff Unit :=
  .mk (.call (.waitForChain chainID) .done)

def isTxFinalized (chainID txHash : String) (offset : Option UInt64) : ExceptT GoError Eff Bool :=
  .mk (.call (.isTxFinalized chainID txHash offset) .done)

def isTimestampFinalized (chainID : String) (timestamp : Time) (offset : Option UInt64) :
    ExceptT GoError Eff Bool :=
  .mk (.call (.isTimestampFinalized chainID timestamp offset) .done)

def txFee (chainID txHash : String) : ExceptT GoError Eff Int :=
  .mk (.call (.txFee chainID txHash) .done)

def getCoinUsdValue (coingeckoID : String) (decimals : UInt8) (amount : Int) :
    ExceptT GoError Eff (Option Numeric) :=
  .mk (.call (.getCoinUsdValue coingeckoID decimals amount) .done)

def relayByTx (request : RelayByTxRequest) (submission : Submission) :
    ExceptT GoError Eff RelayByTxResponse :=
  .mk (.call (.relayByTx request submission) .done)

def update (u : TransferUpdate) (key : RowKey) : ExceptT GoError Eff Unit :=
  .mk (.call (.update u key) .done)

def chainType (chainID : String) : Eff ChainType := .call (.chainType chainID) .done

/-- `time.Now()` -/
def now (reader : ClockReader) (key : RowKey) : Eff Time := .call (.now reader key) .done

/-- `GetLogger().Warn`, on the logger of the transfer with this key. -/
def warn (warning : Warning) (key : RowKey) : Eff Unit := .call (.warn warning key) .done

def addRelayCompleted (sourceChainID sourceClientID destinationChainID destinationClientID : String)
    (relayType : RelayType) : Eff Unit :=
  .call (.addRelayCompleted sourceChainID sourceClientID destinationChainID destinationClientID
    relayType) .done

/-- `if err != nil { return nil, fmt.Errorf(msg + ": %w", err) }` -/
def wrapErr {α : Type} (msg : String) (x : ExceptT GoError Eff α) : ExceptT GoError Eff α :=
  .mk do
    match ← x.run with
    | .ok a => return .ok a
    | .error err => return .error (err.wrap msg)

/-! ## Transactions -/

/-- The body of a transaction: it collects the statements that were made. -/
abbrev Tx := StateT (List TxStmt) (ExceptT GoError Eff)

/-- A statement inside a transaction. -/
def Tx.exec (stmt : TxStmt) : Tx Unit := do
  (.mk (.call (.txExec stmt) .done) : ExceptT GoError Eff Unit)
  modify (· ++ [stmt])

/-- `InsertIBCV2RelayerTxSubmission`, which returns the id of the new row. -/
def Tx.insertSubmission (params : InsertSubmissionParams) : Tx Int32 := do
  let id ← (.mk (.call (.txInsertSubmission params) .done) : ExceptT GoError Eff Int32)
  modify (· ++ [.insertIBCV2RelayerTxSubmission params])
  return id

/-- `ExecTx`: begin, run the body, and commit, or roll back when the body fails. -/
def execTx (body : Tx Unit) : ExceptT GoError Eff Unit :=
  .mk do
    match ← (.call .txBegin .done : Eff (Except GoError Unit)) with
    | .error err => return .error err
    | .ok _ =>
      match ← (body.run []).run with
      -- a commit that fails changes nothing, and its error is that of the transaction
      | .ok (_, stmts) => .call (.txCommit stmts) .done
      | .error err =>
        match ← (.call .txRollback .done : Eff (Except GoError Unit)) with
        | .ok _ => return .error err
        | .error rollback =>
          -- both errors are in the chain
          return .error { text := "tx err: " ++ err.text ++ ", rb err: " ++ rollback.text
                          chain := err.chain ++ rollback.chain }

end IbcRelayer
