import IbcRelayer.Golang

/-!
# IbcRelayer — the `ibcv2_transfers` table

The rows the relayer keeps about packets, and the sqlc statements of
`db/queries/ibcv2_transfers.sql` that change them. A nullable column is an `Option`. The columns
`created_at`, `updated_at` and `status_text` are left out: nothing in the relayer reads them.

* `TransferUpdate` has one constructor for each `UPDATE` statement; its arguments are the values of
  the `SET` clause and `TransferUpdate.apply` is what it does to a row that matches.
* `updateWhere` is the statement: every row with the given key is changed, no other row is.
* `row` looks a row up by its key, which the unique index `index_ibcv2_transfer_packet` makes
  unambiguous.
-/

namespace IbcRelayer

/-- `ibcv2_relay_status` -/
inductive Ibcv2RelayStatus where
  | pending
  | checkRecvPacketDelivery
  | getRecvPacket
  | deliverRecvPacket
  | waitForWriteAck
  | checkAckPacketDelivery
  | getAckPacket
  | deliverAckPacket
  | checkTimeoutPacketDelivery
  | getTimeoutPacket
  | deliverTimeoutPacket
  | completeWithAck
  | completeWithTimeout
  | failed
  | awaitingSendFinality
  | awaitingWriteAckFinality
  | completeWithWriteAckSuccess
  | awaitingTimeoutFinality
  | completeWithWriteAckError
  | calculatingRecvTxGasCost
  | calculatingAckTxGasCost
  | calculatingTimeoutTxGasCost
  deriving DecidableEq, Repr

/-- The enum value as it is printed in log lines and error texts. -/
def Ibcv2RelayStatus.toString : Ibcv2RelayStatus → String
  | .pending => "PENDING"
  | .checkRecvPacketDelivery => "CHECK_RECV_PACKET_DELIVERY"
  | .getRecvPacket => "GET_RECV_PACKET"
  | .deliverRecvPacket => "DELIVER_RECV_PACKET"
  | .waitForWriteAck => "WAIT_FOR_WRITE_ACK"
  | .checkAckPacketDelivery => "CHECK_ACK_PACKET_DELIVERY"
  | .getAckPacket => "GET_ACK_PACKET"
  | .deliverAckPacket => "DELIVER_ACK_PACKET"
  | .checkTimeoutPacketDelivery => "CHECK_TIMEOUT_PACKET_DELIVERY"
  | .getTimeoutPacket => "GET_TIMEOUT_PACKET"
  | .deliverTimeoutPacket => "DELIVER_TIMEOUT_PACKET"
  | .completeWithAck => "COMPLETE_WITH_ACK"
  | .completeWithTimeout => "COMPLETE_WITH_TIMEOUT"
  | .failed => "FAILED"
  | .awaitingSendFinality => "AWAITING_SEND_FINALITY"
  | .awaitingWriteAckFinality => "AWAITING_WRITE_ACK_FINALITY"
  | .completeWithWriteAckSuccess => "COMPLETE_WITH_WRITE_ACK_SUCCESS"
  | .awaitingTimeoutFinality => "AWAITING_TIMEOUT_FINALITY"
  | .completeWithWriteAckError => "COMPLETE_WITH_WRITE_ACK_ERROR"
  | .calculatingRecvTxGasCost => "CALCULATING_RECV_TX_GAS_COST"
  | .calculatingAckTxGasCost => "CALCULATING_ACK_TX_GAS_COST"
  | .calculatingTimeoutTxGasCost => "CALCULATING_TIMEOUT_TX_GAS_COST"

/-- The statuses that `GetUnfinishedIBCV2Transfers` leaves out. -/
def Ibcv2RelayStatus.isFinished : Ibcv2RelayStatus → Bool
  | .completeWithAck | .completeWithTimeout | .failed
  | .completeWithWriteAckSuccess | .completeWithWriteAckError => true
  | _ => false

/-- `ibcv2_write_ack_status` -/
inductive Ibcv2WriteAckStatus where
  | success
  | error
  | unknown
  deriving DecidableEq, Repr

/-- A valid `pgtype.Numeric`: `int * 10 ^ exp`. -/
structure Numeric where
  int : Int
  exp : Int := 0
  deriving DecidableEq, Repr

/-- The columns that the `WHERE` clauses name. -/
structure RowKey where
  sourceChainID : String
  packetSourceClientID : String
  packetSequenceNumber : Int32
  deriving DecidableEq, Repr

/-- A row of `ibcv2_transfers`. -/
structure Ibcv2Transfer where
  id : Int32
  status : Ibcv2RelayStatus := .pending
  sourceChainID : String
  destinationChainID : String
  sourceTxHash : String
  sourceTxTime : Time
  packetSequenceNumber : Int32
  packetSourceClientID : String
  packetDestinationClientID : String
  packetTimeoutTimestamp : Time
  recvTxHash : Option String := none
  recvTxTime : Option Time := none
  recvTxRelayerAddress : Option String := none
  recvTxGasCostUsd : Option Numeric := none
  writeAckTxHash : Option String := none
  writeAckTxTime : Option Time := none
  writeAckStatus : Option Ibcv2WriteAckStatus := none
  writeAckTxFinalizedTime : Option Time := none
  ackTxHash : Option String := none
  ackTxTime : Option Time := none
  ackTxRelayerAddress : Option String := none
  ackTxGasCostUsd : Option Numeric := none
  timeoutTxHash : Option String := none
  timeoutTxTime : Option Time := none
  timeoutTxRelayerAddress : Option String := none
  timeoutTxGasCostUsd : Option Numeric := none
  sourceTxFinalizedTime : Option Time := none
  deriving DecidableEq, Repr

/-- The columns of the unique index, by which the statements find the row. -/
def Ibcv2Transfer.key (r : Ibcv2Transfer) : RowKey :=
  ⟨r.sourceChainID, r.packetSourceClientID, r.packetSequenceNumber⟩

/-- The key that an `UPDATE` gets when its parameters leave the three key columns out: Go's zero
values. -/
def RowKey.zero : RowKey := ⟨"", "", 0⟩

/-! ## The `UPDATE` statements -/

/-- The `SET` clauses of the `UPDATE` statements, with their parameters. -/
inductive TransferUpdate where
  | updateTransferState (status : Ibcv2RelayStatus)
  | updateTransferRecvTx (hash : Option String) (time : Option Time) (relayer : Option String)
  | updateTransferRecvTxGasCostUSD (cost : Option Numeric)
  | updateTransferWriteAckTx (hash : Option String) (time : Option Time)
      (status : Option Ibcv2WriteAckStatus)
  | updateTransferAckTx (hash : Option String) (time : Option Time) (relayer : Option String)
  | updateTransferAckTxGasCostUSD (cost : Option Numeric)
  | updateTransferTimeoutTx (hash : Option String) (time : Option Time) (relayer : Option String)
  | updateTransferTimeoutTxGasCostUSD (cost : Option Numeric)
  | updateTransferSourceTxFinalizedTime (time : Option Time)
  | updateTransferWriteAckTxFinalizedTime (time : Option Time)
  | clearRecvTx
  | clearAckTx
  | clearTimeoutTx
  deriving DecidableEq, Repr

/-- What the `SET` clause does to a row. The `Clear` statements null the hash and the time, and
leave the relayer address and the gas cost as they are. -/
def TransferUpdate.apply : TransferUpdate → Ibcv2Transfer → Ibcv2Transfer
  | .updateTransferState status, r => { r with status }
  | .updateTransferRecvTx hash time relayer, r =>
      { r with recvTxHash := hash, recvTxTime := time, recvTxRelayerAddress := relayer }
  | .updateTransferRecvTxGasCostUSD cost, r => { r with recvTxGasCostUsd := cost }
  | .updateTransferWriteAckTx hash time status, r =>
      { r with writeAckTxHash := hash, writeAckTxTime := time, writeAckStatus := status }
  | .updateTransferAckTx hash time relayer, r =>
      { r with ackTxHash := hash, ackTxTime := time, ackTxRelayerAddress := relayer }
  | .updateTransferAckTxGasCostUSD cost, r => { r with ackTxGasCostUsd := cost }
  | .updateTransferTimeoutTx hash time relayer, r =>
      { r with timeoutTxHash := hash, timeoutTxTime := time, timeoutTxRelayerAddress := relayer }
  | .updateTransferTimeoutTxGasCostUSD cost, r => { r with timeoutTxGasCostUsd := cost }
  | .updateTransferSourceTxFinalizedTime time, r => { r with sourceTxFinalizedTime := time }
  | .updateTransferWriteAckTxFinalizedTime time, r => { r with writeAckTxFinalizedTime := time }
  | .clearRecvTx, r => { r with recvTxHash := none, recvTxTime := none }
  | .clearAckTx, r => { r with ackTxHash := none, ackTxTime := none }
  | .clearTimeoutTx, r => { r with timeoutTxHash := none, timeoutTxTime := none }

/-- Several statements on one row, in order. -/
def applyAll (us : List TransferUpdate) (r : Ibcv2Transfer) : Ibcv2Transfer :=
  us.foldl (fun r u => u.apply r) r

/-- `UPDATE ibcv2_transfers SET u WHERE key` -/
def updateWhere (u : TransferUpdate) (key : RowKey) (rows : List Ibcv2Transfer) :
    List Ibcv2Transfer :=
  rows.map fun r => if r.key = key then u.apply r else r

/-- The row with the given key. -/
def row (rows : List Ibcv2Transfer) (key : RowKey) : Option Ibcv2Transfer :=
  rows.find? fun r => r.key = key

/-- `GetUnfinishedIBCV2Transfers` -/
def getUnfinishedIBCV2Transfers (rows : List Ibcv2Transfer) : List Ibcv2Transfer :=
  rows.filter fun r => !r.status.isFinished

/-! ## Inserting -/

/-- `InsertIBCV2TransferParams` -/
structure InsertIBCV2TransferParams where
  sourceChainID : String
  destinationChainID : String
  sourceTxHash : String
  sourceTxTime : Time
  packetSequenceNumber : Int32
  packetSourceClientID : String
  packetDestinationClientID : String
  packetTimeoutTimestamp : Time
  deriving DecidableEq, Repr

/-- The row that `InsertIBCV2Transfer` adds: status `PENDING`, every nullable column `NULL`. -/
def InsertIBCV2TransferParams.toRow (p : InsertIBCV2TransferParams) (id : Int32) :
    Ibcv2Transfer where
  id
  sourceChainID := p.sourceChainID
  destinationChainID := p.destinationChainID
  sourceTxHash := p.sourceTxHash
  sourceTxTime := p.sourceTxTime
  packetSequenceNumber := p.packetSequenceNumber
  packetSourceClientID := p.packetSourceClientID
  packetDestinationClientID := p.packetDestinationClientID
  packetTimeoutTimestamp := p.packetTimeoutTimestamp

/-! ## Lookup after an update -/

/-- No statement changes the columns it is found by. -/
@[simp] theorem TransferUpdate.apply_key (u : TransferUpdate) (r : Ibcv2Transfer) :
    (u.apply r).key = r.key := by
  cases u <;> rfl

@[simp] theorem applyAll_nil (r : Ibcv2Transfer) : applyAll [] r = r := rfl

@[simp] theorem applyAll_cons (u : TransferUpdate) (us : List TransferUpdate)
    (r : Ibcv2Transfer) : applyAll (u :: us) r = applyAll us (u.apply r) := rfl

theorem applyAll_append (us vs : List TransferUpdate) (r : Ibcv2Transfer) :
    applyAll (us ++ vs) r = applyAll vs (applyAll us r) := by
  simp [applyAll]

/-- No list of statements changes the columns that a row is found by. -/
@[simp] theorem applyAll_key (us : List TransferUpdate) (r : Ibcv2Transfer) :
    (applyAll us r).key = r.key := by
  induction us generalizing r with
  | nil => rfl
  | cons u us ih => simp [ih]

theorem key_of_row {rows : List Ibcv2Transfer} {key : RowKey} {r : Ibcv2Transfer}
    (h : row rows key = some r) : r.key = key := by
  simpa using List.find?_some h

theorem row_append {rows added : List Ibcv2Transfer} {key : RowKey} {r : Ibcv2Transfer}
    (h : row rows key = some r) : row (rows ++ added) key = some r := by
  unfold row at h ⊢
  rw [List.find?_append, h]
  rfl

/-- An `UPDATE` is seen by a lookup under its own key, and by no other lookup. -/
theorem row_updateWhere (u : TransferUpdate) (key key' : RowKey) (rows : List Ibcv2Transfer) :
    row (updateWhere u key rows) key'
      = if key' = key then (row rows key').map u.apply else row rows key' := by
  unfold row updateWhere
  rw [List.find?_map]
  -- an `UPDATE` does not change which rows have the key
  have hcomp : ((fun r : Ibcv2Transfer => decide (r.key = key')) ∘
      fun r => if r.key = key then u.apply r else r) = fun r => decide (r.key = key') := by
    funext r
    by_cases h : r.key = key <;> simp [h]
  rw [hcomp]
  cases hfind : List.find? (fun r => decide (r.key = key')) rows with
  | none => simp
  -- the row is changed if it is the one that the statement is for
  | some r =>
    have hr : r.key = key' := by simpa using List.find?_some hfind
    by_cases h : key' = key <;> simp [hr, h]

end IbcRelayer
