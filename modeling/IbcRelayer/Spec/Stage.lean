import IbcRelayer.Spec.BatchWrapper

/-!
# IbcRelayer — the stages keep their contracts

`Stage.contract` collects what was proved about the processors: a guard, the statements a failure
can leave behind, and the end of the method. `single_meets` and `batch_meets` say that the
processors of a pipeline keep these contracts, and `stage_visit` follows a transfer through any
stage. The state finisher is not wrapped and has a specification of its own (`Finish`).
-/

namespace IbcRelayer

open CallTree Prog IBCV2Transfer

/-! ## The guards of the stages -/

/-- Whether acks of this status are relayed. -/
def PipelineOptions.relays (opts : PipelineOptions) (status : Ibcv2WriteAckStatus) : Bool :=
  (status.isErrorAck && opts.shouldRelayErrorAcks)
    || (status.isSuccessAck && opts.shouldRelaySuccessAcks)

/-- Every status is an error ack or a success ack, so it does not matter that one guard is written
positively and the other negatively. -/
theorem PipelineOptions.relays_eq (opts : PipelineOptions) (status : Ibcv2WriteAckStatus) :
    opts.relays status = !((status.isErrorAck && !opts.shouldRelayErrorAcks)
      || (status.isSuccessAck && !opts.shouldRelaySuccessAcks)) := by
  unfold PipelineOptions.relays
  cases status <;> cases opts.shouldRelayErrorAcks <;> cases opts.shouldRelaySuccessAcks <;> rfl

namespace IBCV2Transfer

/-- Neither received, acknowledged nor timed out, as far as the copy knows. -/
def isOpen (t : IBCV2Transfer) : Bool :=
  t.recvTxHash.isNone && t.ackTxHash.isNone && t.timeoutTxHash.isNone

/-- There is a write ack and its status is relayed. -/
def isRelayedAck (t : IBCV2Transfer) (opts : PipelineOptions) : Bool :=
  t.writeAckTxHash.isSome && t.writeAckStatus.any opts.relays

end IBCV2Transfer

def Stage.guard (pl : Pipeline) : Stage → Guard
  | .checkRecvPacketDelivery => { wants t _ := t.isOpen }
  | .checkInitialPacketCommitment | .checkPostReceivePacketCommitment =>
    { wants t _ := t.ackTxHash.isNone && t.timeoutTxHash.isNone }
  | .checkSendPacketFinality => { wants t _ := t.recvTxHash.isNone }
  | .checkTimeoutTimestampFinality =>
    { wants t now := t.isTimedOut now && t.isOpen
      reader := some .checkTimeoutFinality }
  | .batchTimeoutPacket =>
    { wants t now := t.isTimedOut now && t.isOpen
      reader := some .batchTimeoutPacket }
  | .retryTimeoutPacket => { wants t _ := t.timeoutTxHash.isSome && t.timeoutTxTime.isSome }
  | .timeoutTxGasCalculator =>
    { wants t _ := t.timeoutTxGasCostUSD.isNone && t.timeoutTxHash.isSome }
  | .batchRecvPacket =>
    { wants t now := t.recvTxHash.isNone && !t.isTimedOut now
      reader := some .batchRecvPacket }
  | .retryRecvPacket =>
    { wants t _ := t.recvTxHash.isSome && t.recvTxTime.isSome && t.writeAckTxHash.isNone }
  | .recvTxGasCalculator => { wants t _ := t.recvTxGasCostUSD.isNone && t.recvTxHash.isSome }
  | .waitForWriteAckPacket =>
    { wants t _ := (t.recvTxHash.isSome && t.writeAckTxHash.isNone) && t.timeoutTxHash.isNone }
  | .checkWriteAckFinality =>
    { wants t _ := t.isRelayedAck pl.opts
      warning := some .writeAckFinalityWithoutWriteAckStatus }
  | .batchAckPacket =>
    { wants t _ := t.isRelayedAck pl.opts && (t.ackTxHash.isNone && t.timeoutTxHash.isNone)
      warning := some .deliverAckWithoutWriteAckStatus }
  | .retryAckPacket => { wants t _ := t.ackTxHash.isSome && t.ackTxTime.isSome }
  | .ackTxGasCalculator => { wants t _ := t.ackTxGasCostUSD.isNone && t.ackTxHash.isSome }
  -- the finisher has no guard: it looks at every transfer
  | .stateFinisher => { wants _ _ := true }

/-! ### The guards are what `ShouldProcess` computes -/

theorem asked_pure {g : Guard} {t : IBCV2Transfer} {answer : Bool}
    (h : ∀ now, g.wants t now = answer) (hreader : g.reader = none) :
    (pure answer : Eff Bool).Ensures (Asked g t) :=
  Asked.unread h fun _ => hreader

/-- `BatchRecvPacket` reads the clock only when there is no recv tx; the guard says no at once
otherwise. -/
theorem batchRecv_asked (pl : Pipeline) (t : IBCV2Transfer) :
    (BatchRecvPacketProcessor.shouldProcess t).Ensures
      (Asked (Stage.batchRecvPacket.guard pl) t) := by
  unfold BatchRecvPacketProcessor.shouldProcess
  split
  · rename_i hrecv
    refine .unread (fun now => ?_) (by simp)
    simp [Stage.guard, Option.isSome_iff_ne_none.mp hrecv]
  · rename_i hrecv
    intro time
    have hwants : (!t.isTimedOut time) = (Stage.batchRecvPacket.guard pl).wants t time := by
      simp [Stage.guard, Option.not_isSome_iff_eq_none.mp hrecv]
    show Asked _ t (!t.isTimedOut time) _
    rw [hwants]
    exact .read rfl time

/-- A write ack without a status is refused with a warning. -/
theorem checkWriteAckFinality_asked (pl : Pipeline) (t : IBCV2Transfer) :
    (CheckWriteAckFinalityProcessor.shouldProcess pl.opts.shouldRelaySuccessAcks
      pl.opts.shouldRelayErrorAcks t).Ensures (Asked (Stage.checkWriteAckFinality.guard pl) t) := by
  unfold CheckWriteAckFinalityProcessor.shouldProcess
  split
  · rename_i hhash
    refine .unread (fun now => ?_) (by simp)
    simp [Stage.guard, isRelayedAck, Option.isNone_iff_eq_none.mp hhash]
  · rename_i hhash
    have hhash' : t.writeAckTxHash.isSome = true := by simpa [Option.isSome_iff_ne_none] using hhash
    split
    · rename_i hstatus
      -- the warning is logged, and the answer is no whatever the options are
      refine fun _ => .warned rfl hhash' hstatus fun now => ?_
      simp [Stage.guard, isRelayedAck, hstatus]
    · rename_i status hstatus
      refine .unread (fun now => ?_) fun _ => rfl
      simp [Stage.guard, isRelayedAck, hhash', hstatus, PipelineOptions.relays]

/-- So it is here. The statuses that are not relayed are refused first; `relays_eq` makes that the
positive condition of the guard. -/
theorem batchAck_asked (pl : Pipeline) (t : IBCV2Transfer) :
    (BatchAckPacketProcessor.shouldProcess pl.opts.shouldRelaySuccessAcks
      pl.opts.shouldRelayErrorAcks t).Ensures (Asked (Stage.batchAckPacket.guard pl) t) := by
  unfold BatchAckPacketProcessor.shouldProcess
  split
  · rename_i hhash
    refine .unread (fun now => ?_) (by simp)
    simp [Stage.guard, isRelayedAck, Option.isNone_iff_eq_none.mp hhash]
  · rename_i hhash
    have hhash' : t.writeAckTxHash.isSome = true := by simpa [Option.isSome_iff_ne_none] using hhash
    split
    · rename_i hstatus
      refine fun _ => .warned rfl hhash' hstatus fun now => ?_
      simp [Stage.guard, isRelayedAck, hstatus]
    · rename_i status hstatus
      split
      · rename_i hrelay
        refine .unread (fun now => ?_) (by simp)
        -- the guard of the source is the negation of `relays`
        have : pl.opts.relays status = false := by rw [PipelineOptions.relays_eq, hrelay]; rfl
        simp [Stage.guard, isRelayedAck, hstatus, this]
      · rename_i hrelay
        refine .unread (fun now => ?_) fun _ => rfl
        have : pl.opts.relays status = true := by
          rw [PipelineOptions.relays_eq, Bool.eq_false_iff.mpr hrelay]
          rfl
        simp [Stage.guard, isRelayedAck, hhash', hstatus, this]

/-- The gas calculators want a tx whose cost is not known. -/
theorem gas_asked {p : TxGasCalculator} {g : Guard} {t : IBCV2Transfer}
    (hwants : ∀ now, g.wants t now = ((p.gasCostUSD t).isNone && (p.txHash t).isSome))
    (hreader : g.reader = none) : (p.shouldProcess t).Ensures (Asked g t) := by
  unfold TxGasCalculator.shouldProcess
  split
  · rename_i hcost
    refine .unread (fun now => ?_) (by simp)
    simp [hwants, Option.isSome_iff_ne_none.mp hcost]
  · rename_i hcost
    refine .unread (fun now => ?_) fun _ => hreader
    simp [hwants, Option.not_isSome_iff_eq_none.mp hcost]

/-! ## The contracts of the wrapped stages -/

/-- The end of the check of timeout finality. -/
def CheckTimeoutFinalityOk (offset : Option UInt64) (t t' : IBCV2Transfer)
    (us : List TransferUpdate) (evs : List Event) : Prop :=
  t' = t ∧ us = [] ∧
    ⟨.isTimestampFinalized t.destinationChainID t.packetTimeoutTimestamp offset, .ok true⟩ ∈ evs

def Stage.contract (pl : Pipeline) (stage : Stage) : Option Contract :=
  let guard := stage.guard pl
  match stage with
  | .checkRecvPacketDelivery =>
    some { state := .checkRecvPacketDelivery, guard, queries := Call.asksDelivery
           Ok := CheckRecvOk }
  | .checkInitialPacketCommitment | .checkPostReceivePacketCommitment =>
    some { state := .checkAckPacketDelivery, guard, queries := Call.asksCommitment
           Ok := CheckCommitmentOk }
  | .checkSendPacketFinality =>
    some { state := .awaitingSendFinality, guard, queries := Call.asksTxFinality
           Ok := CheckSendFinalityOk pl.opts.sourceFinalityOffset }
  | .checkTimeoutTimestampFinality =>
    some { state := .awaitingTimeoutFinality, guard, queries := Call.asksTimestampFinality
           Ok := CheckTimeoutFinalityOk pl.opts.destinationFinalityOffset }
  | .batchTimeoutPacket =>
    some (batchContract (IbcRelayer.batchTimeoutPacket pl.route) .deliverTimeoutPacket guard)
  | .retryTimeoutPacket =>
    some { state := .deliverTimeoutPacket, guard, queries := Call.asksRetry
           clears := [.clearTimeoutTx]
           Ok := RetryOk (IbcRelayer.retryTimeoutPacket pl.route.sourceChainID) }
  | .timeoutTxGasCalculator =>
    some { state := .calculatingTimeoutTxGasCost, guard
           Ok := GasOk IbcRelayer.timeoutTxGasCalculator }
  | .batchRecvPacket =>
    some (batchContract (IbcRelayer.batchRecvPacket pl.route) .deliverRecvPacket guard)
  | .retryRecvPacket =>
    some { state := .deliverRecvPacket, guard, queries := Call.asksRetry
           clears := [.clearRecvTx]
           Ok := RetryOk (IbcRelayer.retryRecvPacket pl.route.destinationChainID) }
  | .recvTxGasCalculator =>
    some { state := .calculatingRecvTxGasCost, guard
           Ok := GasOk IbcRelayer.recvTxGasCalculator }
  | .waitForWriteAckPacket =>
    some { state := .waitForWriteAck, guard, queries := Call.asksWriteAck
           clears := [.clearRecvTx]
           Ok t t' us _ := WaitForWriteAckOk t t' us }
  | .checkWriteAckFinality =>
    some { state := .awaitingWriteAckFinality, guard, queries := Call.asksTxFinality
           strays := [RowKey.zero]
           Ok := CheckWriteAckFinalityOk pl.opts.destinationFinalityOffset }
  | .batchAckPacket =>
    some (batchContract (IbcRelayer.batchAckPacket pl.route) .deliverAckPacket guard)
  | .retryAckPacket =>
    some { state := .deliverAckPacket, guard, queries := Call.asksRetry
           clears := [.clearAckTx]
           Ok := RetryOk (IbcRelayer.retryAckPacket pl.route.sourceChainID) }
  | .ackTxGasCalculator =>
    some { state := .calculatingAckTxGasCost, guard
           Ok := GasOk IbcRelayer.ackTxGasCalculator }
  | .stateFinisher => none

/-- Every processor of single transfers keeps the contract of its stage. The guards that read no
clock are what `ShouldProcess` returns, by definition. -/
theorem single_meets {pl : Pipeline} {stage : Stage} {p : IBCV2Processor} {c : Contract}
    (hp : stage.processor pl = .single p) (hc : stage.contract pl = some c) : p.Meets c := by
  have hpure : ∀ {g : Guard} {answer : IBCV2Transfer → Bool}, g.reader = none →
      (∀ t now, g.wants t now = answer t) →
        ∀ t, (pure (answer t) : Eff Bool).Ensures (Asked g t) :=
    fun hreader h t => asked_pure (h t) hreader
  cases stage <;> cases hp <;> cases hc
  case checkRecvPacketDelivery => exact ⟨rfl, rfl, hpure rfl fun _ _ => rfl, checkRecv_spec⟩
  case checkInitialPacketCommitment =>
    exact ⟨rfl, rfl, hpure rfl fun _ _ => rfl, checkCommitment_spec⟩
  case checkPostReceivePacketCommitment =>
    exact ⟨rfl, rfl, hpure rfl fun _ _ => rfl, checkCommitment_spec⟩
  case checkSendPacketFinality =>
    exact ⟨rfl, rfl, hpure rfl fun _ _ => rfl, checkSendFinality_spec _⟩
  case checkTimeoutTimestampFinality =>
    refine ⟨rfl, rfl, fun t time => ?_, checkTimeoutFinality_spec _⟩
    -- the source puts the check for a timeout tx last
    have hwants : (t.isTimedOut time && t.recvTxHash.isNone && t.ackTxHash.isNone
          && t.timeoutTxHash.isNone)
        = (Stage.checkTimeoutTimestampFinality.guard pl).wants t time := by
      simp [Stage.guard, isOpen, Bool.and_assoc]
    show Asked _ t (_ && t.timeoutTxHash.isNone) _
    rw [hwants]
    exact .read rfl time
  case retryTimeoutPacket =>
    exact ⟨rfl, rfl, hpure rfl fun _ _ => rfl,
      retry_spec _ (by simp [retryTimeoutPacket, errRetryingTimeoutPacket]) (by
        simp [retryTimeoutPacket])⟩
  case timeoutTxGasCalculator =>
    exact ⟨rfl, rfl, fun t => gas_asked (fun _ => rfl) rfl, gas_spec _ (by
      simp [timeoutTxGasCalculator]) _ _⟩
  case retryRecvPacket =>
    exact ⟨rfl, rfl, hpure rfl fun _ _ => rfl,
      retry_spec _ (by simp [retryRecvPacket, errRetryingRecvPacket]) (by simp [retryRecvPacket])⟩
  case recvTxGasCalculator =>
    exact ⟨rfl, rfl, fun t => gas_asked (fun _ => rfl) rfl, gas_spec _ (by
      simp [recvTxGasCalculator]) _ _⟩
  case waitForWriteAckPacket =>
    exact ⟨rfl, rfl, hpure rfl fun _ _ => rfl, waitForWriteAck_spec⟩
  case checkWriteAckFinality =>
    exact ⟨rfl, rfl, checkWriteAckFinality_asked pl, checkWriteAckFinality_spec _⟩
  case retryAckPacket =>
    exact ⟨rfl, rfl, hpure rfl fun _ _ => rfl,
      retry_spec _ (by simp [retryAckPacket, errRetryingAckPacket]) (by simp [retryAckPacket])⟩
  case ackTxGasCalculator =>
    exact ⟨rfl, rfl, fun t => gas_asked (fun _ => rfl) rfl, gas_spec _ (by
      simp [ackTxGasCalculator]) _ _⟩

/-- The recv batch records a tx without touching the packet or an error of the copy, and its hash is
always there. -/
theorem batchRecvPacket_lawful (route : Route) : (batchRecvPacket route).Lawful where
  packet _ _ := by constructor <;> rfl
  error _ _ := rfl
  txHash _ _ h := by cases h

theorem batchTimeoutPacket_lawful (route : Route) : (batchTimeoutPacket route).Lawful where
  packet _ _ := by constructor <;> rfl
  error _ _ := rfl
  txHash _ _ h := by cases h

/-- The ack batch is lawful, too: its error for a missing write ack has a text. -/
theorem batchAckPacket_lawful (route : Route) : (batchAckPacket route).Lawful where
  packet _ _ := by constructor <;> rfl
  error _ _ := rfl
  txHash t err h := by
    unfold batchAckPacket at h
    dsimp only at h
    split at h <;> cases h
    simp [GoError.new]

/-- Every batch processor keeps the contract of its stage. -/
theorem batch_meets {pl : Pipeline} {stage : Stage} {q : IBCV2BatchProcessor}
    (hq : stage.processor pl = .batch q) : ∃ p, q.Meets p (stage.guard pl)
      ∧ stage.contract pl = some (batchContract p q.state (stage.guard pl)) := by
  cases stage <;> cases hq
  case batchTimeoutPacket =>
    refine ⟨_, ⟨rfl, fun t time => ?_, batchTimeoutPacket_lawful _⟩, rfl⟩
    have hwants : (t.isTimedOut time && t.recvTxHash.isNone && t.ackTxHash.isNone
          && t.timeoutTxHash.isNone) = (Stage.batchTimeoutPacket.guard pl).wants t time := by
      simp [Stage.guard, isOpen, Bool.and_assoc]
    show Asked _ t (_ && t.timeoutTxHash.isNone) _
    rw [hwants]
    exact .read rfl time
  case batchRecvPacket => exact ⟨_, ⟨rfl, batchRecv_asked pl, batchRecvPacket_lawful _⟩, rfl⟩
  case batchAckPacket => exact ⟨_, ⟨rfl, batchAck_asked pl, batchAckPacket_lawful _⟩, rfl⟩

/-! ## What a stage changes -/

def TransferUpdate.isGasCost : TransferUpdate → Bool
  | .updateTransferRecvTxGasCostUSD _ | .updateTransferAckTxGasCostUSD _
  | .updateTransferTimeoutTxGasCostUSD _ => true
  | _ => false

/-- Only the gas stages can be missing from a pipeline. -/
def Stage.isGas : Stage → Bool
  | .timeoutTxGasCalculator | .recvTxGasCalculator | .ackTxGasCalculator => true
  | _ => false

/-- The stages that record a recv tx, found or submitted. -/
def Stage.recordsRecv (stage : Stage) : Prop :=
  stage = .checkRecvPacketDelivery ∨ stage = .batchRecvPacket

/-- The two commitment checks. -/
def Stage.checksCommitment (stage : Stage) : Prop :=
  stage = .checkInitialPacketCommitment ∨ stage = .checkPostReceivePacketCommitment

/-- The un-errored ends of all stages, sorted by what they change on the copy and on the row. -/
inductive Change (t : IBCV2Transfer) : Stage → IBCV2Transfer → List TransferUpdate → Prop where
  | nothing {stage : Stage} : Change t stage t []
  | recvTx {stage : Stage} (hstage : stage.recordsRecv) (tx : BridgeTx) :
      Change t stage (t.setRecvTx tx)
        [.updateTransferRecvTx (some tx.hash) (some tx.timestamp) (some tx.relayerAddress)]
  | ackTx {stage : Stage} (hstage : stage.checksCommitment ∨ stage = .batchAckPacket)
      (tx : BridgeTx) (address : Option String) :
      Change t stage
        { t with
          ackTxHash := some tx.hash, ackTxTime := some tx.timestamp,
          ackTxRelayerAddress := address }
        [.updateTransferAckTx (some tx.hash) (some tx.timestamp) (some tx.relayerAddress)]
  | timeoutTx {stage : Stage} (hstage : stage.checksCommitment ∨ stage = .batchTimeoutPacket)
      (tx : BridgeTx) (address : Option String) :
      Change t stage
        { t with
          timeoutTxHash := some tx.hash
          timeoutTxTime := some tx.timestamp
          timeoutTxRelayerAddress := address }
        [.updateTransferTimeoutTx (some tx.hash) (some tx.timestamp) (some tx.relayerAddress)]
  | sourceTxFinalized (time : Time) :
      Change t .checkSendPacketFinality { t with sourceTxFinalizedTime := some time }
        [.updateTransferSourceTxFinalizedTime (some time)]
  | writeAck (hash : String) (time : Time) (status : Ibcv2WriteAckStatus)
      (hhash : t.recvTxHash = some hash) :
      Change t .waitForWriteAckPacket
        { t with
          writeAckTxHash := some hash, writeAckTxTime := some time, writeAckStatus := some status }
        [.updateTransferWriteAckTx (some hash) (some time) (some status)]
  | writeAckTxFinalized (time : Time) (htime : t.writeAckTxFinalizedTime = none) :
      Change t .checkWriteAckFinality { t with writeAckTxFinalizedTime := some time }
        (if t.rowKey = RowKey.zero then [.updateTransferWriteAckTxFinalizedTime (some time)]
          else [])
  | gasCost {stage : Stage} (u : TransferUpdate) (hu : u.isGasCost = true)
      (hstage : stage.isGas = true) : Change t stage t [u]
  | marked {stage : Stage} (err : GoError) (htext : err.text ≠ "") : Change t stage (t.fail err) []

/-- Each un-errored end is one of the changes. The many ends of the stages come down to nine of
them, and the results about rows and copies are proved for those. -/
theorem ok_change {pl : Pipeline} {stage : Stage} {c : Contract} {t t' : IBCV2Transfer}
    {us : List TransferUpdate} {evs : List Event} (hc : stage.contract pl = some c)
    (h : c.Ok t t' us evs) : Change t stage t' us := by
  -- stage by stage; the ends of a stage are the constructors of its `Ok`
  cases stage <;> cases hc
  case checkRecvPacketDelivery =>
    cases h with
    | notReceived => exact .nothing
    | received tx => exact .recvTx (Or.inl rfl) tx
  case checkInitialPacketCommitment =>
    cases h with
    | committed => exact .nothing
    | acked tx => exact .ackTx (Or.inl (Or.inl rfl)) tx _
    | timedOut tx => exact .timeoutTx (Or.inl (Or.inl rfl)) tx _
  case checkSendPacketFinality =>
    cases h with
    | timeKnown => exact .nothing
    | timeSet time => exact .sourceTxFinalized time
  case checkTimeoutTimestampFinality =>
    obtain ⟨rfl, rfl, -⟩ := h
    exact .nothing
  case batchTimeoutPacket =>
    cases h with
    | marked err herror => exact .marked err ((batchTimeoutPacket_lawful _).hashError_text herror)
    | recorded tx => exact .timeoutTx (Or.inr rfl) tx _
  case retryTimeoutPacket =>
    cases h
    exact .nothing
  case timeoutTxGasCalculator =>
    obtain ⟨rfl, -, -, -, -, cost, -, -, -, rfl⟩ := h
    exact .gasCost _ rfl rfl
  case batchRecvPacket =>
    cases h with
    | marked err herror => exact .marked err ((batchRecvPacket_lawful _).hashError_text herror)
    | recorded tx => exact .recvTx (Or.inr rfl) tx
  case retryRecvPacket =>
    cases h
    exact .nothing
  case recvTxGasCalculator =>
    obtain ⟨rfl, -, -, -, -, cost, -, -, -, rfl⟩ := h
    exact .gasCost _ rfl rfl
  case waitForWriteAckPacket =>
    cases h with
    | found hash status hhash => exact .writeAck hash _ status hhash
  case checkWriteAckFinality =>
    cases h with
    | timeKnown => exact .nothing
    | timeSet hash time _ _ htime => exact .writeAckTxFinalized time htime
  case checkPostReceivePacketCommitment =>
    cases h with
    | committed => exact .nothing
    | acked tx => exact .ackTx (Or.inl (Or.inr rfl)) tx _
    | timedOut tx => exact .timeoutTx (Or.inl (Or.inr rfl)) tx _
  case batchAckPacket =>
    cases h with
    | marked err herror => exact .marked err ((batchAckPacket_lawful _).hashError_text herror)
    | recorded tx => exact .ackTx (Or.inr rfl) tx _
  case retryAckPacket =>
    cases h
    exact .nothing
  case ackTxGasCalculator =>
    obtain ⟨rfl, -, -, -, -, cost, -, -, -, rfl⟩ := h
    exact .gasCost _ rfl rfl

/-- No stage changes what packet a transfer is about. -/
theorem Change.samePacket {t t' : IBCV2Transfer} {stage : Stage} {us : List TransferUpdate}
    (h : Change t stage t' us) : SamePacket t t' := by
  cases h <;> constructor <;> rfl

/-- An error that a transfer has has a text, so that the next stages see it. -/
def IBCV2Transfer.Honest (t : IBCV2Transfer) : Prop := t.error = "" → t.processingError = none

theorem honest_fail {t : IBCV2Transfer} {err : GoError} (h : err.text ≠ "") :
    (t.fail err).Honest := fun herror => absurd herror h

theorem honest_new (r : Ibcv2Transfer) : (newIBCV2Transfer r).Honest := fun _ => rfl

/-- The errors that a stage sets have a text. -/
theorem Change.honest {t t' : IBCV2Transfer} {stage : Stage} {us : List TransferUpdate}
    (h : Change t stage t' us) (ht : t.Honest) : t'.Honest := by
  cases h with
  | marked err htext => exact honest_fail htext
  | _ => exact ht

/-- The copy that leaves a wrapped stage is about the packet of the copy that came in. -/
theorem Step.samePacket {pl : Pipeline} {stage : Stage} {c : Contract} {t t' : IBCV2Transfer}
    {us : List TransferUpdate} {evs : List Event} (hc : stage.contract pl = some c)
    (h : Step c t (some t') us evs) : SamePacket t t' := by
  cases h with
  | passed => exact SamePacket.refl t
  | refused => exact SamePacket.refl t
  | stateNotSaved err err' => exact samePacket_fail t err'
  -- the copy is on the output, so it was not lost to a canceled context
  | failed _ err _ _ ho =>
    cases ho.resolve_left (by simp)
    exact (samePacket_state t c.state).trans (samePacket_fail _ err)
  | done _ _ us own _ _ hok =>
    exact (samePacket_state t c.state).trans (ok_change hc hok).samePacket

/-- A wrapped stage returns an honest copy: the errors of the wrapper have a text as well. -/
theorem Step.honest {pl : Pipeline} {stage : Stage} {c : Contract} {t t' : IBCV2Transfer}
    {us : List TransferUpdate} {evs : List Event} (hc : stage.contract pl = some c)
    (h : Step c t (some t') us evs) (ht : t.Honest) : t'.Honest := by
  cases h with
  | passed => exact ht
  | refused => exact ht
  | stateNotSaved err err' htext => exact honest_fail htext
  | failed _ err htext _ ho =>
    cases ho.resolve_left (by simp)
    exact honest_fail htext
  | done _ _ us own _ _ hok => exact (ok_change hc hok).honest ht

/-! ## What the guards know -/

theorem contract_packet {pl : Pipeline} {stage : Stage} {c : Contract} {p : BatchPacket}
    (hc : stage.contract pl = some c) (hp : c.packet = some p) :
    (stage = .batchRecvPacket ∧ p = batchRecvPacket pl.route)
      ∨ (stage = .batchTimeoutPacket ∧ p = batchTimeoutPacket pl.route)
      ∨ (stage = .batchAckPacket ∧ p = batchAckPacket pl.route) := by
  cases stage <;> cases hc <;> cases hp <;> simp

/-- The stage that delivers txs of a kind. -/
def TxType.stage : TxType → Stage
  | .recvPacket => .batchRecvPacket
  | .ackPacket => .batchAckPacket
  | .timeoutPacket => .batchTimeoutPacket

theorem stage_of_packet {pl : Pipeline} {stage : Stage} {c : Contract} {p : BatchPacket}
    (hc : stage.contract pl = some c) (hp : c.packet = some p) : stage = p.txType.stage := by
  rcases contract_packet hc hp with ⟨rfl, rfl⟩ | ⟨rfl, rfl⟩ | ⟨rfl, rfl⟩ <;> rfl

section Guards

variable {pl : Pipeline} {stage : Stage} {c : Contract} {t : IBCV2Transfer} {now : Time}

theorem contract_guard (hc : stage.contract pl = some c) : c.guard = stage.guard pl := by
  cases stage <;> cases hc <;> rfl

/-- A wrapped stage never saves a status that ends the life of a transfer. -/
theorem contract_state (hc : stage.contract pl = some c) : c.state.isFinished = false := by
  cases stage <;> cases hc <;> rfl

/-- A stage that records a recv tx is asked for transfers without one. -/
theorem guard_recvTx (hstage : stage.recordsRecv) (h : (stage.guard pl).wants t now = true) :
    t.recvTxHash = none := by
  rcases hstage with rfl | rfl <;> simp [Stage.guard, isOpen] at h
  · exact h.1.1
  · exact h.1

/-- A stage that records an ack tx is asked for transfers with neither an ack nor a timeout tx. -/
theorem guard_ackTx (hstage : stage.checksCommitment ∨ stage = .batchAckPacket)
    (h : (stage.guard pl).wants t now = true) : t.ackTxHash = none ∧ t.timeoutTxHash = none := by
  rcases hstage with (rfl | rfl) | rfl <;> simp [Stage.guard] at h
  · exact h
  · exact h
  · exact h.2

/-- So is a stage that records a timeout tx. -/
theorem guard_timeoutTx (hstage : stage.checksCommitment ∨ stage = .batchTimeoutPacket)
    (h : (stage.guard pl).wants t now = true) : t.ackTxHash = none ∧ t.timeoutTxHash = none := by
  rcases hstage with (rfl | rfl) | rfl <;> simp [Stage.guard, isOpen] at h
  · exact h
  · exact h
  · exact ⟨h.2.1.2, h.2.2⟩

/-- A recv tx is only cleared while its write ack is not known; the stages that clear an ack or a
timeout tx do not look at the other columns. -/
theorem guard_clears (hc : stage.contract pl = some c) {u : TransferUpdate} (hu : u ∈ c.clears)
    (h : (stage.guard pl).wants t now = true) :
    (u = .clearRecvTx ∧ t.writeAckTxHash = none) ∨ u = .clearAckTx ∨ u = .clearTimeoutTx := by
  -- only the retry stages and `WaitForWriteAck` clear anything
  cases stage <;> cases hc <;> simp [batchContract] at hu <;> subst hu <;>
    simp [Stage.guard] at h ⊢
  · exact h.2
  · exact h.1.2

/-- No guard looks at the state, so that it answers the same for the copy in its new state. -/
theorem guard_save (state : Ibcv2RelayStatus) (now : Time) :
    (stage.guard pl).wants { t with state } now = (stage.guard pl).wants t now := by
  cases stage <;> rfl

variable {evs : List Event}

/-- A transfer that the processor got was wanted, by the guard as the stage states it. -/
theorem Taken.wants (hc : stage.contract pl = some c) (h : Taken c t evs) :
    ∃ now, (stage.guard pl).wants t now = true := by
  obtain ⟨now, hwants, -⟩ := h.granted
  rw [contract_guard hc] at hwants
  exact ⟨now, hwants⟩

/-- So is the copy that the processor works on, which has the new state. -/
theorem Taken.wants_saved (hc : stage.contract pl = some c) (h : Taken c t evs) :
    ∃ now, (stage.guard pl).wants { t with state := c.state } now = true := by
  obtain ⟨now, hwants⟩ := h.wants hc
  rw [← guard_save c.state] at hwants
  exact ⟨now, hwants⟩

/-- What a stage that fails can clear of a transfer that it got. -/
theorem Taken.clears (hc : stage.contract pl = some c) (h : Taken c t evs) {u : TransferUpdate}
    (hu : u ∈ c.clears) :
    (u = .clearRecvTx ∧ t.writeAckTxHash = none) ∨ u = .clearAckTx ∨ u = .clearTimeoutTx := by
  obtain ⟨now, hwants⟩ := h.wants hc
  exact guard_clears hc hu hwants

end Guards

end IbcRelayer
