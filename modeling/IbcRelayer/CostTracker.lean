import IbcRelayer.Lib.Machine
import IbcRelayer.Lib.Protocol
import IbcRelayer.PipelineOpts
import IbcRelayer.RelayCall
import IbcRelayer.Submissions

/-!
# IbcRelayer — what the submitted txs cost

`SubmittedTxCostTracker` (`relayer/ibcv2/tx_submission_cost_tracker.go`): in each round it reads the
pending submissions, asks the chain of each for the outcome and the fee of its tx, and writes them
to the row; a submission that is too old expires.

* `trackSubmission` is a program of its own, over `SubmissionCall`; the round makes its calls under
  the name of the submission (`TrackCall.of`).
* `CostTracking` is the table and the round that is under way. The tracker makes one call in a step,
  with any answer, and the batch processors insert rows in between.
* `roundProtocol` says what the rest of a round may do: the rows it has read are pending, and each
  of them is resolved once, with its cost, and then counted.

The last update has no condition on the status of the row: that it hits a pending row is because
nothing but the tracker resolves rows, and there is one tracker.
-/

namespace IbcRelayer

open CallTree Prog

/-! ## The calls -/

/-- A call made for a submission. A call on a bridge client names the chain of the client. -/
inductive SubmissionCall where
  /-- `time.Now()` -/
  | now
  | expirePending (id : Int32)
  | getClient (chainID : String)
  | txExecutionStatus (chainID txHash : String)
  | txFee (chainID txHash : String)
  | getCoinUsdValue (coingeckoID : String) (decimals : UInt8) (amount : Int)
  /-- `Scan` of a `pgtype.Numeric` -/
  | scanNumeric (text : String)
  | updateTracking (arg : UpdateTrackingParams)
  | addTransactionConfirmed (success : Bool) (chainID chainName chainEnvironment : String)
  | addTransactionGasCost (chainID chainName chainEnvironment : String) (gasCost : Int)
      (gasTokenDecimals : UInt8)
  deriving DecidableEq, Repr

/-- `TxFee` may answer with a `nil` amount, and `GetCoinUsdValue` with an invalid numeric. -/
@[reducible] def SubmissionCall.Answer : SubmissionCall → Type
  | .now => Time
  | .expirePending _ => Except GoError Unit
  | .getClient _ => Except GoError Unit
  | .txExecutionStatus .. => Except GoError TxExecutionStatus
  | .txFee .. => Except GoError (Option Int)
  | .getCoinUsdValue .. => Except GoError (Option Numeric)
  | .scanNumeric _ => Except GoError Numeric
  | .updateTracking _ => Except GoError Unit
  | .addTransactionConfirmed .. => Unit
  | .addTransactionGasCost .. => Unit

abbrev SubmissionEvent := CallTree.Event SubmissionCall.Answer

inductive TrackCall where
  | getUnresolvedIBCV2RelayerTxSubmissions (limit : Int32)
  | of (submission : Ibcv2RelayerTxSubmission) (c : SubmissionCall)
  deriving DecidableEq, Repr

@[reducible] def TrackCall.Answer : TrackCall → Type
  | .getUnresolvedIBCV2RelayerTxSubmissions _ => Except GoError (List Ibcv2RelayerTxSubmission)
  | .of _ c => c.Answer

abbrev TrackEvent := CallTree.Event TrackCall.Answer

/-- What is done for a submission, which may end with an error. -/
abbrev Track := ExceptT GoError (Prog SubmissionCall.Answer)

namespace Track

/-- A call that cannot fail. -/
def ask (c : SubmissionCall) : Track c.Answer := .mk (.call c fun r => .done (.ok r))

/-- `if err != nil { return fmt.Errorf(msg + ": %w", err) }` -/
def wrapErr {α : Type} (msg : String) (x : Track α) : Track α :=
  .mk do
    match ← x.run with
    | .ok a => return .ok a
    | .error err => return .error (err.wrap msg)

end Track

/-! ## The tracker -/

/-- `chainConfigOrFallback`, without its flag. -/
def chainConfigOrFallback (config : ConfigReader) (chainID : String) : ChainConfig :=
  match config chainID with
  | .ok chainConfig => chainConfig
  | .error _ => { chainName := chainID }

/-- `db.Ibcv2RelayerTxSubmissionStatus(executionStatus.Status)` -/
def TxExecution.submissionStatus : TxExecution → SubmissionStatus
  | .success => .success
  | .failed => .failed

/-- `priceClient` says if there is one. -/
structure SubmittedTxCostTracker where
  config : ConfigReader
  priceClient : Bool
  batchSize : Int32
  attemptExpiry : Int

namespace SubmittedTxCostTracker

/-- `NewSubmittedTxCostTracker` -/
def new (config : ConfigReader) (priceClient : Bool) (batchSize : Int32) (attemptExpiry : Int) :
    SubmittedTxCostTracker where
  config
  priceClient
  batchSize := if batchSize ≤ 0 then 100 else batchSize
  attemptExpiry

variable (t : SubmittedTxCostTracker)

/-- `getGasCostUSD`; an invalid numeric is `none`. -/
def getGasCostUSD (chainID : String) (amount : Int) : Track (Option Numeric) := do
  if amount = 0 then
    return some { int := 0 }
  if !t.priceClient then
    return none
  match t.config chainID with
  | .error err => throw (err.wrap ("getting chain config for chain " ++ chainID))
  | .ok chainConfig =>
    match chainConfig.gasTokenCoingeckoID with
    | none => return none
    | some coingeckoID =>
      if coingeckoID = "" ∨ chainConfig.gasTokenDecimals = 0 then
        return none
      .mk (.call (.getCoinUsdValue coingeckoID chainConfig.gasTokenDecimals amount) .done)

/-- `resolveGasCosts`; the amount that it returns is a pointer. -/
def resolveGasCosts (submission : Ibcv2RelayerTxSubmission) :
    Track (Option Int × Option Numeric) := do
  let fee ← Track.wrapErr "unable to get native gas cost"
    (.mk (.call (.txFee submission.chainID submission.txHash) .done))
  let gasCostAmount := fee.getD 0
  -- without a price the amount is still returned
  let gasCostUSD : Option Numeric ← .mk do
    match ← (t.getGasCostUSD submission.chainID gasCostAmount).run with
    | .error _ => return .ok none
    | .ok gasCostUSD => return .ok gasCostUSD
  return (some gasCostAmount, gasCostUSD)

/-- `bigIntToNumeric` -/
def bigIntToNumeric (value : Int) : Track Numeric :=
  .mk (.call (.scanNumeric (toString value)) .done)

/-- `recordResolvedSubmissionMetrics` -/
def recordResolvedSubmissionMetrics (submission : Ibcv2RelayerTxSubmission)
    (executionStatus : TxExecution) (gasCostAmount : Option Int) : Track Unit := do
  let chainConfig := chainConfigOrFallback t.config submission.chainID
  Track.ask (.addTransactionConfirmed (executionStatus = .success) submission.chainID
    chainConfig.chainName chainConfig.environment)
  match gasCostAmount with
  | none => return
  | some gasCostAmount =>
    Track.ask (.addTransactionGasCost submission.chainID chainConfig.chainName
      chainConfig.environment gasCostAmount chainConfig.gasTokenDecimals)

/-- The first test of `trackSubmission`; the column `submitted_at` is not nullable. -/
def isExpired (submission : Ibcv2RelayerTxSubmission) : Track Bool := do
  if submission.status ≠ .pending then
    return false
  let now ← Track.ask .now
  return submission.submittedAt.unixNano + t.attemptExpiry < now.unixNano

/-- `trackSubmission` from the point where its outcome and its costs are known. -/
def writeResolved (submission : Ibcv2RelayerTxSubmission) (executionStatus : TxExecutionStatus)
    (gasCostAmount : Option Int) (gasCostUSD : Option Numeric) : Track Unit := do
  let id := toString submission.id.toInt
  let gasCostNumeric ← match gasCostAmount with
    | none => pure none
    | some value =>
      some <$> Track.wrapErr ("converting gas cost to numeric for submission " ++ id)
        (bigIntToNumeric value)
  let update : UpdateTrackingParams :=
    { gasCostAmount := gasCostNumeric
      gasCostUsd := gasCostUSD
      status := executionStatus.status.submissionStatus
      executionError :=
        if executionStatus.errorMessage ≠ "" then some executionStatus.errorMessage else none
      id := submission.id }
  Track.wrapErr ("updating gas costs for submission " ++ id)
    (.mk (.call (.updateTracking update) .done))
  t.recordResolvedSubmissionMetrics submission executionStatus.status gasCostAmount

/-- `trackSubmission` -/
def trackSubmission (submission : Ibcv2RelayerTxSubmission) : Track Unit := do
  let tx := submission.txHash ++ " on chain " ++ submission.chainID
  if ← t.isExpired submission then
    Track.wrapErr ("marking submission " ++ toString submission.id.toInt ++ " expired")
      (.mk (.call (.expirePending submission.id) .done))
  else
    Track.wrapErr ("getting bridge client for chain " ++ submission.chainID)
      (.mk (.call (.getClient submission.chainID) .done))
    let executionStatus ← Track.wrapErr ("getting execution status for tx " ++ tx)
      (.mk (.call (.txExecutionStatus submission.chainID submission.txHash) .done))
    let (gasCostAmount, gasCostUSD) ← Track.wrapErr ("resolving gas costs for tx " ++ tx)
      (t.resolveGasCosts submission)
    t.writeResolved submission executionStatus gasCostAmount gasCostUSD

/-- The loop of `Track`. An error is logged, and the loop goes on. -/
def trackAll : List Ibcv2RelayerTxSubmission → Prog TrackCall.Answer Unit
  | [] => .done ()
  | submission :: submissions => do
    let _ ← translate (A := SubmissionCall.Answer) (B := TrackCall.Answer)
      (fun c => .call (.of submission c) .done) (t.trackSubmission submission).run
    trackAll submissions

/-- `Track` from the point where the submissions are known. -/
def trackUnresolved :
    Except GoError (List Ibcv2RelayerTxSubmission) → Prog TrackCall.Answer (Except GoError Unit)
  | .error err => .done (.error (err.wrap "getting unresolved submitted txs"))
  | .ok submissions => do
    t.trackAll submissions
    return .ok ()

/-- `Track` -/
def track : Prog TrackCall.Answer (Except GoError Unit) :=
  .call (.getUnresolvedIBCV2RelayerTxSubmissions t.batchSize) t.trackUnresolved

end SubmittedTxCostTracker

/-! ## The table and the rounds -/

/-- The rows, what is left of the round that is under way, and all events of the tracker, the latest
first. -/
structure CostTracking where
  rows : List Ibcv2RelayerTxSubmission
  round : Option (Prog TrackCall.Answer (Except GoError Unit)) := none
  log : List TrackEvent := []

namespace CostTracking

inductive Action where
  /-- A batch processor inserts a submission. -/
  | insert (params : InsertSubmissionParams) (id : Int32)
  | start
  /-- The tracker makes its next call. -/
  | call (answer : (c : TrackCall) → c.Answer)
  | finish

/-- A statement that fails changes nothing. -/
def act (rows : List Ibcv2RelayerTxSubmission) :
    (c : TrackCall) → c.Answer → List Ibcv2RelayerTxSubmission
  | .of _ (.updateTracking arg), .ok _ => updateTracking arg rows
  | .of _ (.expirePending id), .ok _ => IbcRelayer.expirePending id rows
  | _, _ => rows

/-- The rows that are read are those of the table. -/
def truthful (rows : List Ibcv2RelayerTxSubmission) : (c : TrackCall) → c.Answer → Bool
  | .getUnresolvedIBCV2RelayerTxSubmissions limit, .ok answer =>
    Unresolved limit.toInt.toNat rows answer
  | _, _ => true

def step (t : SubmittedTxCostTracker) (s : CostTracking) : Action → Option CostTracking
  -- the primary key and the unique constraint of the table
  | .insert params id =>
    if (params.toRow id).id ∉ s.rows.map (·.id) ∧ (params.toRow id).key ∉ s.rows.map (·.key) then
      some { s with rows := s.rows ++ [params.toRow id] }
    else
      none
  -- there is one tracker, which starts the next round when the last one is over
  | .start =>
    match s.round with
    | none => some { s with round := some t.track }
    | some _ => none
  | .call answer =>
    match s.round with
    | some (.call c k) =>
      if truthful s.rows c (answer c) then
        some
          { rows := act s.rows c (answer c)
            round := some (k (answer c))
            log := ⟨c, answer c⟩ :: s.log }
      else
        none
    | _ => none
  | .finish =>
    match s.round with
    | some (.done _) => some { s with round := none }
    | _ => none

/-- What a step does. -/
inductive Step (t : SubmittedTxCostTracker) (s : CostTracking) : Action → CostTracking → Prop where
  | insert {params : InsertSubmissionParams} {id : Int32}
      (hid : (params.toRow id).id ∉ s.rows.map (·.id))
      (hkey : (params.toRow id).key ∉ s.rows.map (·.key)) :
      Step t s (.insert params id) { s with rows := s.rows ++ [params.toRow id] }
  | start (hidle : s.round = none) : Step t s .start { s with round := some t.track }
  | call {c : TrackCall} {k : c.Answer → Prog TrackCall.Answer (Except GoError Unit)}
      {answer : (c : TrackCall) → c.Answer} (hround : s.round = some (.call c k))
      (htruth : truthful s.rows c (answer c) = true) :
      Step t s (.call answer)
        ⟨act s.rows c (answer c), some (k (answer c)), ⟨c, answer c⟩ :: s.log⟩
  | finish {result : Except GoError Unit} (hround : s.round = some (.done result)) :
      Step t s .finish { s with round := none }

/-- Every step of the model is one of `Step`. -/
theorem step_cases {t : SubmittedTxCostTracker} {s s' : CostTracking} {a : Action}
    (h : s.step t a = some s') : Step t s a s' := by
  cases a with
  | insert params id =>
    simp only [step] at h
    split at h
    · cases h
      exact .insert (And.left ‹_›) (And.right ‹_›)
    · cases h
  | start =>
    simp only [step] at h
    split at h
    · cases h
      exact .start ‹_›
    · cases h
  | call answer =>
    simp only [step] at h
    split at h
    · rename_i c k hround
      split at h
      · cases h
        exact .call hround ‹_›
      · cases h
    · cases h
  | finish =>
    simp only [step] at h
    split at h
    · cases h
      exact .finish ‹_›
    · cases h

end CostTracking

end IbcRelayer
