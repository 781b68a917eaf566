import IbcRelayer.Calls

/-!
# IbcRelayer — the tables of the submitted txs

`ibcv2_relayer_tx_submissions` has a row for every tx that a batch processor delivered, and
`ibcv2_transfer_tx_submissions` names the transfers it was delivered for. The statements are those
of `db/queries/ibcv2_relayer_tx_submissions.sql` and `ibcv2_transfer_tx_submissions.sql`. The column
`resolved_at` is left out: nothing in the relayer reads it.

* `Tables` — the tables that a batch writes to; `Tables.Sound` are the constraints that the schema
  puts on the two tables.
* `Store` — the database during a method: between `txBegin` and `txCommit` the statements act on a
  copy of the tables, which takes their place when the transaction is committed.
-/

namespace IbcRelayer

/-- `ibcv2_relayer_tx_submission_status` -/
inductive SubmissionStatus where
  | pending
  | success
  | failed
  | expired
  deriving DecidableEq, Repr

/-- A row of `ibcv2_relayer_tx_submissions`. -/
structure Ibcv2RelayerTxSubmission where
  id : Int32
  txHash : String
  chainID : String
  txType : TxType
  relayerAddress : String
  submittedAt : Time
  gasCostAmount : Option Numeric := none
  gasCostUsd : Option Numeric := none
  status : SubmissionStatus
  executionError : Option String := none
  deriving DecidableEq, Repr

/-- The columns of `ibcv2_relayer_tx_submissions_chain_id_tx_hash_tx_type_key`. -/
def Ibcv2RelayerTxSubmission.key (r : Ibcv2RelayerTxSubmission) : String × String × TxType :=
  (r.chainID, r.txHash, r.txType)

/-- The row that `InsertIBCV2RelayerTxSubmission` adds. -/
def InsertSubmissionParams.toRow (params : InsertSubmissionParams) (id : Int32) :
    Ibcv2RelayerTxSubmission where
  id
  txHash := params.txHash
  chainID := params.chainID
  txType := params.txType
  relayerAddress := params.relayerAddress
  submittedAt := params.submittedAt
  status := .pending

/-! ## The statements of the cost tracker -/

section Tracking

/-- An `UPDATE` with `WHERE id = $n`. -/
def updateSubmission (id : Int32) (f : Ibcv2RelayerTxSubmission → Ibcv2RelayerTxSubmission)
    (rows : List Ibcv2RelayerTxSubmission) : List Ibcv2RelayerTxSubmission :=
  rows.map fun r => if r.id = id then f r else r

/-- `UpdateIBCV2RelayerTxSubmissionTrackingParams`, without the column `resolved_at`. -/
structure UpdateTrackingParams where
  gasCostAmount : Option Numeric
  gasCostUsd : Option Numeric
  status : SubmissionStatus
  executionError : Option String
  id : Int32
  deriving DecidableEq, Repr

/-- The columns that the statement sets. -/
def UpdateTrackingParams.set (arg : UpdateTrackingParams) (r : Ibcv2RelayerTxSubmission) :
    Ibcv2RelayerTxSubmission :=
  { r with
    gasCostAmount := arg.gasCostAmount
    gasCostUsd := arg.gasCostUsd
    status := arg.status
    executionError := arg.executionError }

/-- `UpdateIBCV2RelayerTxSubmissionTracking`, which does not look at the status of the row. -/
def updateTracking (arg : UpdateTrackingParams) :
    List Ibcv2RelayerTxSubmission → List Ibcv2RelayerTxSubmission :=
  updateSubmission arg.id arg.set

/-- Only a pending row expires. -/
def Ibcv2RelayerTxSubmission.expire (r : Ibcv2RelayerTxSubmission) : Ibcv2RelayerTxSubmission :=
  if r.status = .pending then { r with status := .expired, executionError := none } else r

/-- `ExpirePendingIBCV2RelayerTxSubmission` -/
def expirePending (id : Int32) : List Ibcv2RelayerTxSubmission → List Ibcv2RelayerTxSubmission :=
  updateSubmission id Ibcv2RelayerTxSubmission.expire

/-- What `GetUnresolvedIBCV2RelayerTxSubmissions` may answer: the pending rows in the order of their
submission, as many as the limit lets through. The order of rows that were submitted at the same
time is not specified. -/
structure Unresolved (limit : Nat) (rows answer : List Ibcv2RelayerTxSubmission) : Prop where
  pending : ∀ r ∈ answer, r ∈ rows ∧ r.status = .pending
  distinct : answer.Nodup
  ordered : answer.Pairwise (·.submittedAt.unixNano ≤ ·.submittedAt.unixNano)
  limited : answer.length = min limit (rows.countP (·.status = .pending))
  first : ∀ r ∈ rows, r.status = .pending → r ∈ answer
    ∨ ∀ r' ∈ answer, r'.submittedAt.unixNano ≤ r.submittedAt.unixNano

instance (limit : Nat) (rows answer : List Ibcv2RelayerTxSubmission) :
    Decidable (Unresolved limit rows answer) :=
  decidable_of_iff
    (answer.all (fun r => r ∈ rows ∧ r.status = .pending) ∧ answer.Nodup
      ∧ answer.Pairwise (·.submittedAt.unixNano ≤ ·.submittedAt.unixNano)
      ∧ answer.length = min limit (rows.countP (·.status = .pending))
      ∧ rows.all fun r => r.status ≠ .pending ∨ r ∈ answer
        ∨ answer.all fun r' => r'.submittedAt.unixNano ≤ r.submittedAt.unixNano) <| by
    constructor
    · rintro ⟨pending, distinct, ordered, limited, first⟩
      refine ⟨by simpa using pending, distinct, ordered, limited, fun r hr hpending => ?_⟩
      have hfirst := List.all_eq_true.mp first r hr
      simpa [hpending] using hfirst
    · rintro ⟨pending, distinct, ordered, limited, first⟩
      refine ⟨by simpa using pending, distinct, ordered, limited, ?_⟩
      refine List.all_eq_true.mpr fun r hr => decide_eq_true ?_
      rcases Decidable.em (r.status = .pending) with hpending | hresolved
      · exact .inr (by simpa using first r hr hpending)
      · exact .inl hresolved

end Tracking

/-! ## The tables -/

/-- A mapping is the id of a transfer and the id of a submission. -/
structure Tables where
  transfers : List Ibcv2Transfer := []
  submissions : List Ibcv2RelayerTxSubmission := []
  mappings : List (Int32 × Int32) := []
  deriving DecidableEq, Repr

namespace Tables

/-- `InsertIBCV2RelayerTxSubmission` -/
def insertSubmission (params : InsertSubmissionParams) (id : Int32) (T : Tables) : Tables :=
  { T with submissions := T.submissions ++ [params.toRow id] }

/-- A statement that returns nothing. A mapping that is there already stays as it is. -/
def exec : TxStmt → Tables → Tables
  | .update u key, T => { T with transfers := updateWhere u key T.transfers }
  | .insertIBCV2TransferTxSubmission transferID submissionID, T =>
    if (transferID, submissionID) ∈ T.mappings then
      T
    else
      { T with mappings := T.mappings ++ [(transferID, submissionID)] }
  -- it returns the id of the row, see `insertSubmission`
  | .insertIBCV2RelayerTxSubmission _, T => T

/-- The primary key and the unique constraint of the submissions, and the reference of a mapping to
its submission. -/
structure Sound (T : Tables) : Prop where
  ids : (T.submissions.map (·.id)).Nodup
  keys : (T.submissions.map (·.key)).Nodup
  mapped : ∀ m ∈ T.mappings, m.2 ∈ T.submissions.map (·.id)

instance (T : Tables) : Decidable T.Sound :=
  decidable_of_iff
    ((T.submissions.map (·.id)).Nodup ∧ (T.submissions.map (·.key)).Nodup
      ∧ T.mappings.all fun m => m.2 ∈ T.submissions.map (·.id))
    ⟨fun ⟨ids, keys, mapped⟩ => ⟨ids, keys, by simpa [List.all_eq_true] using mapped⟩,
      fun ⟨ids, keys, mapped⟩ => ⟨ids, keys, by simpa [List.all_eq_true] using mapped⟩⟩

end Tables

/-! ## Transactions -/

/-- The database, and what a transaction has changed so far. -/
structure Store where
  tables : Tables
  /-- The copy that the open transaction works on. -/
  working : Option Tables := none
  log : List Event := []

namespace Store

/-- What an answered call does. A statement that fails does nothing, and neither does a transaction
that is rolled back or whose commit fails. -/
def act (s : Store) : (c : Call) → c.Answer → Store
  | .update u key, .ok _ => { s with tables := s.tables.exec (.update u key) }
  | .txBegin, .ok _ => { s with working := some s.tables }
  | .txExec stmt, .ok _ => { s with working := s.working.map (·.exec stmt) }
  | .txInsertSubmission params, .ok id =>
    { s with working := s.working.map (·.insertSubmission params id) }
  | .txRollback, _ => { s with working := none }
  | .txCommit _, .ok _ => { s with tables := s.working.getD s.tables, working := none }
  | .txCommit _, .error _ => { s with working := none }
  | _, _ => s

/-- The store after a call, which is logged. -/
def next (s : Store) (c : Call) (answer : c.Answer) : Store :=
  { s.act c answer with log := ⟨c, answer⟩ :: s.log }

/-- The store after a list of events, the latest first. -/
def after (s : Store) (evs : List Event) : Store :=
  evs.foldr (fun e s => s.next e.call e.answer) s

/-- A program run against a database and whatever else answers its calls. -/
def execute {α : Type} (env : Store → (c : Call) → c.Answer) (p : Eff α) (s : Store) : α × Store :=
  p.run Store.next env s

@[simp] theorem after_nil (s : Store) : s.after [] = s := rfl

@[simp] theorem after_cons (s : Store) (e : Event) (evs : List Event) :
    s.after (e :: evs) = (s.after evs).next e.call e.answer := rfl

theorem after_log (s : Store) (evs : List Event) : (s.after evs).log = evs ++ s.log := by
  induction evs with
  | nil => rfl
  | cons e evs ih =>
    rw [after_cons, List.cons_append, ← ih]
    rfl

/-- Events that come later act on what the earlier ones have left. -/
theorem after_append (s : Store) (evs evs' : List Event) :
    s.after (evs' ++ evs) = (s.after evs).after evs' := by
  rw [after, List.foldr_append]
  rfl

end Store

end IbcRelayer
