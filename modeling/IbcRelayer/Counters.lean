import IbcRelayer.Lib.Protocol
import IbcRelayer.Spec.Task

/-!
# IbcRelayer — the counters of completed relays

`AddRelayCompleted` is called by two stages, each right before the statement that persists what is
counted: `WaitForWriteAckPacket` before it writes the write ack, and `StateFinisher` before it
writes a final status (`relayer/ibcv2/ibcv2_transfer_metrics.go`).

* `TransferUpdate.persists`, `Ibcv2Transfer.persisted` — what the three relay types stand for.
* `countProtocol` — what the rest of a stage may do: it counts once, under the relay type of the
  stage, and its next call is the statement.
* `runAlone_counts`, `runBatch_counts` — every stage obeys. For `StateFinisher` this is only so if
  the transfer was not timed out: a timeout is counted under the relay type of a recv.
-/

namespace IbcRelayer

open CallTree Prog IBCV2Transfer

/-! ## What is counted -/

/-- The relay type whose completion a statement makes visible on the row. -/
def TransferUpdate.persists : TransferUpdate → Option RelayType
  | .updateTransferState .completeWithTimeout => some .sendToTimeout
  | .updateTransferState .completeWithAck => some .recvToAck
  | .updateTransferWriteAckTx .. => some .sendToRecv
  | _ => none

/-- Whether a row shows that a relay of this type was completed. -/
def Ibcv2Transfer.persisted (r : Ibcv2Transfer) : RelayType → Bool
  | .sendToTimeout => r.status = .completeWithTimeout
  | .recvToAck => r.status = .completeWithAck
  | .sendToRecv => r.writeAckTxHash.isSome

/-- The relay type that a call counts under. -/
def Call.counted : Call → Option RelayType
  | .addRelayCompleted _ _ _ _ relayType => some relayType
  | _ => none

/-- The relay type of a stage that counts. -/
def Stage.relayType : Stage → Option RelayType
  | .waitForWriteAckPacket => some .sendToRecv
  | .stateFinisher => some .recvToAck
  | _ => none

/-- Two stages count, each under one relay type. A timeout has no stage of its own: the finisher
counts it as a recv. -/
theorem relayType_eq_some {stage : Stage} {relayType : RelayType}
    (h : stage.relayType = some relayType) :
    stage = .waitForWriteAckPacket ∧ relayType = .sendToRecv
      ∨ stage = .stateFinisher ∧ relayType = .recvToAck := by
  cases stage <;> cases h
  · exact .inl ⟨rfl, rfl⟩
  · exact .inr ⟨rfl, rfl⟩

/-! ## The protocol -/

/-- A stage may still count, has counted and has to persist, or neither. -/
inductive Phase where
  | ready
  | owes (relayType : RelayType)
  | over
  deriving DecidableEq, Repr

/-- Nothing has to be persisted. -/
def Phase.Clear (g : Phase) : Prop := ∀ relayType, g ≠ .owes relayType

/-- The protocol of a stage that is at work with these transfers. -/
def countProtocol (stage : Stage) (ts : List IBCV2Transfer) : Protocol Call.Answer Phase where
  allows g
    | .addRelayCompleted _ _ _ _ relayType =>
      g = .ready ∧ stage.relayType = some relayType ∧ ∃ t, ts = [t]
    | .update u key =>
      match u.persists with
      | none => g.Clear
      | some relayType => g = .owes relayType ∧ ∃ t, ts = [t] ∧ key = t.rowKey
    | .txCommit _ => g.Clear ∧ stage.relayType = none
    | _ => g.Clear
  next g
    | .addRelayCompleted _ _ _ _ relayType, _ => .owes relayType
    | .update u _, _ => if u.persists.isSome then .over else g
    | _, _ => g

/-- A call that neither counts nor persists. -/
def Call.Plain (stage : Stage) : Call → Prop
  | .addRelayCompleted .. => False
  | .update u _ => u.persists = none
  | .txCommit _ => stage.relayType = none
  | _ => True

section Plain

variable {stage : Stage} {ts : List IBCV2Transfer} {g : Phase} {α β : Type}

/-- A plain call is allowed whenever nothing is owed, and it changes no phase. -/
theorem Call.Plain.allowed {c : Call} (h : c.Plain stage) (ts : List IBCV2Transfer)
    (hg : g.Clear) :
    (countProtocol stage ts).allows g c ∧ ∀ r, (countProtocol stage ts).next g c r = g := by
  cases c with
  | addRelayCompleted => exact h.elim
  | update u key =>
    have hnone : u.persists = none := h
    simp [countProtocol, hnone, hg]
  | txCommit body => exact ⟨⟨hg, h⟩, fun _ => rfl⟩
  | _ => exact ⟨hg, fun _ => rfl⟩

/-- A plain call does not count. -/
theorem Call.Plain.counted {c : Call} (h : c.Plain stage) : c.counted = none := by
  cases c with
  | addRelayCompleted => exact h.elim
  | _ => rfl

/-- A program of plain calls obeys, and ends in the phase it began in. -/
theorem obeys_of_plain {p : Eff α} (h : p.Always (Call.Plain stage)) (hg : g.Clear) :
    (countProtocol stage ts).Obeys p g fun _ g' => g' = g := by
  -- over the calls of the program; the phase does not move
  induction p with
  | done a => rfl
  | call c k ih =>
    obtain ⟨hallows, hnext⟩ := h.1.allowed ts hg
    refine ⟨hallows, fun r => ?_⟩
    rw [hnext r]
    exact ih r (h.2 r)

end Plain

/-! ## The stages that do not count -/

section Stages

variable {stage : Stage}

theorem always_wrapErr {α : Type} {P : Call → Prop} {msg : String} {x : ExceptT GoError Eff α}
    (h : x.run.Always P) : (wrapErr msg x).run.Always P :=
  h.bind fun r => by cases r <;> trivial

/-- A processor whose statements persist nothing that is counted is plain. -/
theorem CallFor.plain {t : IBCV2Transfer} {writes : TransferUpdate → Bool} {c : Call}
    (h : CallFor t writes c) (hwrites : ∀ u, writes u = true → u.persists = none) :
    c.Plain stage := by
  cases h with
  | asks hc => cases c <;> trivial
  | statement hu => exact hwrites _ hu

/-! ### Batches -/

/-- The body of a transaction, from any statements on. -/
def TxPlain {α : Type} (stage : Stage) (x : Tx α) : Prop :=
  ∀ stmts, (x.run stmts).run.Always (Call.Plain stage)

theorem TxPlain.bind {α β : Type} {x : Tx α} {f : α → Tx β} (h : TxPlain stage x)
    (hf : ∀ a, TxPlain stage (f a)) : TxPlain stage (x >>= f) :=
  fun stmts => (h stmts).except_bind fun r => hf r.1 r.2

theorem TxPlain.wrapErr {α : Type} {x : Tx α} (h : TxPlain stage x) (msg : String) :
    TxPlain stage (Tx.wrapErr msg x) :=
  fun stmts => always_wrapErr (h stmts)

/-- A statement inside a transaction is not yet a write: that is the commit. -/
theorem txPlain_exec (stmt : TxStmt) : TxPlain stage (Tx.exec stmt) :=
  fun _ => ⟨trivial, fun r => by cases r <;> trivial⟩

theorem txPlain_updateTxs (p : BatchPacket) (tx : BridgeTx) (ts : List IBCV2Transfer) :
    TxPlain stage (p.updateTxs tx ts) := by
  induction ts with
  | nil => exact fun _ => trivial
  | cons t ts ih => exact ((txPlain_exec _).wrapErr _).bind fun _ => ih

theorem txPlain_insertMappings (submissionID : Int32) (ts : List IBCV2Transfer) :
    TxPlain stage (insertTransferTxSubmissionMappings submissionID ts) := by
  induction ts with
  | nil => exact fun _ => trivial
  | cons t ts ih =>
    unfold insertTransferTxSubmissionMappings
    split
    · exact fun _ => trivial
    · exact ((txPlain_exec _).wrapErr _).bind fun _ => ih

/-- The body of a batch's transaction, with both loops. -/
theorem txPlain_record (p : BatchPacket) (tx : BridgeTx) (ts : List IBCV2Transfer) :
    TxPlain stage (p.record tx ts) := by
  refine (txPlain_updateTxs p tx ts).bind fun _ => ?_
  split
  · exact fun _ => trivial
  · have hinsert : TxPlain stage (Tx.insertSubmission
        { txHash := tx.hash, chainID := p.chainID, txType := p.txType
          relayerAddress := tx.relayerAddress, submittedAt := tx.timestamp }) :=
      fun _ => ⟨trivial, fun r => by cases r <;> trivial⟩
    exact (hinsert.wrapErr _).bind fun id => (txPlain_insertMappings id ts).wrapErr _

/-- A commit is plain for the stages that do not count. -/
theorem execTx_plain (hstage : stage.relayType = none) {body : Tx Unit} (h : TxPlain stage body) :
    (execTx body).run.Always (Call.Plain stage) := by
  refine ⟨trivial, fun r => ?_⟩
  cases r with
  | error err => trivial
  | ok _ =>
    refine (h []).bind fun r => ?_
    cases r with
    | ok r => exact ⟨hstage, fun _ => trivial⟩
    | error err => exact ⟨trivial, fun r => by cases r <;> trivial⟩

/-- A batch neither counts nor persists. -/
theorem batch_plain (hstage : stage.relayType = none) (p : BatchPacket) (ts : List IBCV2Transfer) :
    (p.process ts).run.Always (Call.Plain stage) := by
  unfold BatchPacket.process
  refine always_ask (always_call trivial) fun resp => ?_
  refine always_ask (always_call trivial) fun _ => ?_
  refine always_look (always_call trivial) fun chainType => ?_
  have hdeliver : (p.deliver (p.gather [] ts) resp).run.Always (Call.Plain stage) := by
    refine always_ask (always_call trivial) fun tx => ?_
    exact always_ask (execTx_plain hstage (txPlain_record p tx _)) fun _ => trivial
  split
  · exact always_ask (always_call trivial) fun _ => hdeliver
  · exact hdeliver

/-! ### The wrapper -/

/-- The wrapper saves the state of the stage, which is not a final one. -/
theorem admitTransfer_plain {state : Ibcv2RelayStatus}
    (hstate : (TransferUpdate.updateTransferState state).persists = none)
    {shouldProcess : IBCV2Transfer → Eff Bool} {t : IBCV2Transfer}
    (hasks : (shouldProcess t).Always (Call.Plain stage)) :
    (admitTransfer state shouldProcess t).Always (Call.Plain stage) := by
  unfold admitTransfer
  split
  · trivial
  · split
    · trivial
    · refine hasks.bind fun wanted => ?_
      split
      · trivial
      · exact ⟨hstate, fun r => by cases r <;> trivial⟩

/-- So it does for every transfer of a batch. -/
theorem admitBatch_plain {q : IBCV2BatchProcessor}
    (hstate : (TransferUpdate.updateTransferState q.state).persists = none)
    (hasks : ∀ t, (q.shouldProcess t).Always (Call.Plain stage)) (ts : List IBCV2Transfer) :
    (admitBatch q ts).Always (Call.Plain stage) := by
  induction ts with
  | nil => trivial
  | cons t ts ih =>
    refine (admitTransfer_plain hstate (hasks t)).bind fun admission => ?_
    exact ih.bind fun admissions => trivial

/-- A batch behind its wrapper. -/
theorem runBatch_plain {q : IBCV2BatchProcessor}
    (hstate : (TransferUpdate.updateTransferState q.state).persists = none)
    (hasks : ∀ t, (q.shouldProcess t).Always (Call.Plain stage))
    (hprocess : ∀ ts, (q.process ts).run.Always (Call.Plain stage)) (ts : List IBCV2Transfer) :
    (q.runBatch ts).Always (Call.Plain stage) := by
  unfold IBCV2BatchProcessor.runBatch IBCV2BatchProcessorMW.process
  refine Always.bind ?_ fun r => by cases r <;> trivial
  refine (admitBatch_plain hstate hasks ts).bind fun admissions => ?_
  dsimp only
  split
  · trivial
  · refine (hprocess _).bind fun r => ?_
    cases r with
    | error err => dsimp only; split <;> trivial
    | ok output => trivial

/-- A processor none of whose calls counts or persists. -/
structure PlainProcessor (stage : Stage) (p : IBCV2Processor) : Prop where
  state : (TransferUpdate.updateTransferState p.state).persists = none
  asks : ∀ t, (p.shouldProcess t).Always (Call.Plain stage)
  process : ∀ t, (p.process t).run.Always (Call.Plain stage)

/-- A single stage behind its wrapper. -/
theorem PlainProcessor.runAlone {p : IBCV2Processor} (h : PlainProcessor stage p)
    (t : IBCV2Transfer) : (StageProcessor.runAlone (.single p) t).Always (Call.Plain stage) := by
  refine Always.bind (Always.bind ?_ fun r => by cases r <;> trivial) fun o => trivial
  unfold IBCV2ProcessorMW.process
  refine (admitTransfer_plain h.state (h.asks t)).bind fun admission => ?_
  cases admission with
  | skipped => trivial
  | stateNotUpdated err => trivial
  | admitted =>
    refine (h.process _).bind fun r => ?_
    cases r with
    | error err => dsimp only; split <;> trivial
    | ok t' => trivial

variable {pl : Pipeline}

/-- The guards read the clock or warn, nothing else. -/
theorem asks_plain {g : Guard} {t : IBCV2Transfer} {p : Eff Bool} (h : p.Ensures (Asked g t)) :
    p.Always (Call.Plain stage) := by
  refine (h.mono fun answer evs hasked e he => ?_).always (Sample.obliging .zero Sample.world)
  cases hasked with
  | unread => cases he
  | read =>
    rw [List.mem_singleton.mp he]
    trivial
  | warned =>
    rw [List.mem_singleton.mp he]
    trivial

/-- The router only asks the guard. -/
theorem routeToBatch_plain {q : IBCV2BatchProcessor} (hproc : stage.processor pl = .batch q)
    (t : IBCV2Transfer) : (routeToBatch q t).Always (Call.Plain stage) := by
  obtain ⟨_, hmeets, -⟩ := batch_meets hproc
  unfold routeToBatch
  split
  · trivial
  · exact asks_plain (hmeets.asked t)

theorem plain_of_batch {q : IBCV2BatchProcessor} (hproc : stage.processor pl = .batch q)
    (ts : List IBCV2Transfer) : (q.runBatch ts).Always (Call.Plain stage) := by
  obtain ⟨_, hmeets, -⟩ := batch_meets hproc
  have hasks : ∀ t, (q.shouldProcess t).Always (Call.Plain stage) :=
    fun t => asks_plain (hmeets.asked t)
  cases stage <;> cases hproc <;> exact runBatch_plain rfl hasks (batch_plain rfl _) ts

/-- Every single stage but `WaitForWriteAck` is plain. -/
theorem single_plain (hstage : stage.relayType = none) {p : IBCV2Processor}
    (hproc : stage.processor pl = .single p) : PlainProcessor stage p := by
  have hne : stage ≠ .waitForWriteAckPacket := by
    rintro rfl
    cases hstage
  have hprocess : ∀ t, (p.process t).run.Always (Call.Plain stage) := by
    refine fun t => (single_calls hproc hne t).mono fun c h => h.plain fun u hu => ?_
    -- no statement of these stages is a write ack or a status
    cases stage <;> cases u <;> first | rfl | cases hu
  obtain ⟨c, hc⟩ : ∃ c, stage.contract pl = some c := by
    cases stage <;> cases hproc <;> exact ⟨_, rfl⟩
  refine ⟨?_, fun t => asks_plain ((single_meets hproc hc).asked t), hprocess⟩
  cases stage <;> cases hproc <;> rfl

/-- A stage that does not count is quiet about it, alone or with a batch. -/
theorem runAlone_plain (hstage : stage.relayType = none) (hsingle : stage.isSingle pl)
    (t : IBCV2Transfer) : ((stage.processor pl).runAlone t).Always (Call.Plain stage) := by
  cases hproc : stage.processor pl with
  | single p => exact (single_plain hstage hproc).runAlone t
  | batch q => exact absurd hproc (hsingle q)
  | finisher success error =>
    cases stage <;> cases hproc
    cases hstage

end Stages

/-! ## The stages that count -/

section Counting

variable {stage : Stage} {ts : List IBCV2Transfer} {t u : IBCV2Transfer} {g : Phase} {α β : Type}

theorem clear_ready : Phase.Clear .ready := by
  rintro relayType ⟨⟩

theorem clear_over : Phase.Clear .over := by
  rintro relayType ⟨⟩

/-- What comes before goes on to the rest with the same phase, or ends here. -/
theorem obeys_ask {msg : String} {x : ExceptT GoError Eff α} {f : α → ExceptT GoError Eff β}
    (hx : x.run.Always (Call.Plain stage)) (hg : g.Clear)
    (hf : ∀ a, (countProtocol stage ts).Obeys (f a).run g fun _ g' => g'.Clear) :
    (countProtocol stage ts).Obeys (wrapErr msg x >>= f).run g fun _ g' => g'.Clear :=
  (obeys_of_plain (always_wrapErr hx) hg).except_bind (fun a _ hsame => hsame ▸ hf a)
    fun _ _ hsame => hsame ▸ hg

/-- The same for a call whose answer the method looks at itself. -/
theorem obeys_look {p : Eff α} {f : α → ExceptT GoError Eff β} (hp : p.Always (Call.Plain stage))
    (hg : g.Clear) (hf : ∀ a, (countProtocol stage ts).Obeys (f a).run g fun _ g' => g'.Clear) :
    (countProtocol stage ts).Obeys ((liftM p : ExceptT GoError Eff α) >>= f).run g
      fun _ g' => g'.Clear :=
  (obeys_of_plain hp.except_lift hg).except_bind (fun a _ hsame => hsame ▸ hf a)
    fun _ _ hsame => hsame ▸ hg

/-- The write ack is counted and then written. A statement that fails ends the stage all the same:
the count stays without its row. -/
theorem recordWriteAck_counts (hkey : u.rowKey = t.rowKey) (hash : String)
    (status : Ibcv2WriteAckStatus) :
    (countProtocol .waitForWriteAckPacket [t]).Obeys
      (WaitForWriteAckPacket.recordWriteAck u hash status).run .ready fun _ g' => g'.Clear := by
  refine ⟨⟨rfl, rfl, t, rfl⟩, fun _ => ?_⟩
  -- the next call is the statement
  refine ⟨⟨rfl, t, rfl, hkey⟩, fun r => ?_⟩
  cases r with
  | error err => exact clear_over
  | ok _ => exact clear_over

/-- `WaitForWriteAck` counts on the two paths that record a write ack, and only there. -/
theorem waitForWriteAck_process_counts (hkey : u.rowKey = t.rowKey) :
    (countProtocol .waitForWriteAckPacket [t]).Obeys (WaitForWriteAckPacket.process u).run .ready
      fun _ g' => g'.Clear := by
  unfold WaitForWriteAckPacket.process
  refine obeys_ask (always_call trivial) clear_ready fun _ => ?_
  split
  · rename_i hash _
    refine obeys_look (always_call trivial) clear_ready fun r => ?_
    cases r with
    | ok status => exact recordWriteAck_counts hkey hash status
    | error err =>
      dsimp only
      split
      · exact obeys_ask (always_call rfl) clear_ready fun _ => clear_ready
      · split
        · exact clear_ready
        · exact recordWriteAck_counts hkey hash .unknown
  · exact clear_ready

/-- A transfer that has its write ack is not taken. -/
theorem waitForWriteAck_admits :
    (admitTransfer .waitForWriteAck WaitForWriteAckPacket.shouldProcess t).Ensures fun a _ =>
      a = .admitted → t.error = "" ∧ t.writeAckTxHash = none := by
  unfold admitTransfer
  split
  · rintro ⟨⟩
  · rename_i herror
    split
    · rintro ⟨⟩
    · unfold WaitForWriteAckPacket.shouldProcess
      rw [pure_bind]
      split
      · rintro ⟨⟩
      · rename_i hwants
        intro r
        cases r with
        | error err => rintro ⟨⟩
        | ok _ =>
          intro _
          simp only [Bool.not_eq_true', Bool.not_eq_false, Bool.and_eq_true,
            Option.isNone_iff_eq_none] at hwants
          exact ⟨not_not.mp herror, hwants.1.2⟩

/-- `WaitForWriteAck` behind its wrapper. A copy that has its write ack, or an error, is not taken,
so it need not be `ready` then. -/
theorem waitForWriteAck_counts (hg : g.Clear)
    (hready : t.error = "" → t.writeAckTxHash = none → g = .ready) :
    (countProtocol .waitForWriteAckPacket [t]).Obeys
      (StageProcessor.runAlone (.single waitForWriteAckPacketProcessor) t) g
      fun _ g' => g'.Clear := by
  have hplain : (admitTransfer .waitForWriteAck WaitForWriteAckPacket.shouldProcess t).Always
      (Call.Plain .waitForWriteAckPacket) := admitTransfer_plain rfl trivial
  have hobeys : (countProtocol .waitForWriteAckPacket [t]).Obeys _ g _ := obeys_of_plain hplain hg
  have hadmit := hobeys.and_ensures waitForWriteAck_admits
  refine Protocol.Obeys.bind (Protocol.Obeys.bind (Q := fun _ g' => g'.Clear) ?_ fun r g' hg' => ?_)
    fun o g' hg' => hg'
  · refine hadmit.bind fun admission g' hQ => ?_
    obtain ⟨rfl, -, htaken⟩ := hQ
    cases admission with
    | skipped => exact hg
    | stateNotUpdated err => exact hg
    | admitted =>
      -- the guard wants a transfer without a write ack
      obtain ⟨herror, hnone⟩ := htaken rfl
      obtain rfl := hready herror hnone
      refine (waitForWriteAck_process_counts (t := t) (u := { t with state := .waitForWriteAck })
        rfl).bind fun r g' hg' => ?_
      cases r with
      | error err => dsimp only; split <;> exact hg'
      | ok t' => exact hg'
  · cases r <;> exact hg'

/-! ### `StateFinisher` -/

/-- `IsComplete` warns at most. -/
theorem isComplete_plain (success error : Bool) :
    (t.isComplete success error).Always (Call.Plain stage) := by
  unfold IBCV2Transfer.isComplete
  split
  · trivial
  split
  · trivial
  split
  · trivial
  split
  · trivial
  cases t.writeAckStatus with
  | none => exact ⟨trivial, fun _ => trivial⟩
  | some status => dsimp only; split <;> trivial

/-- The final statuses of a transfer that was not timed out. -/
theorem finalState_of_not_timedOut {state : Ibcv2RelayStatus}
    (hstate : StateFinisher.finalState t = some state) (hnone : t.timeoutTxHash = none) :
    state = .completeWithAck ∨ state = .completeWithWriteAckError
      ∨ state = .completeWithWriteAckSuccess := by
  unfold StateFinisher.finalState at hstate
  rw [hnone] at hstate
  obtain ⟨status, -, rfl⟩ := Option.map_eq_some_iff.mp hstate
  split
  · exact .inl rfl
  · split
    · exact .inr (.inl rfl)
    · exact .inr (.inr rfl)

/-- The statement comes right after the count, if there is one. -/
theorem finish_counts {state : Ibcv2RelayStatus} (hstate : StateFinisher.finalState t = some state)
    (hnone : t.timeoutTxHash = none) {rest : Except GoError Unit → Eff IBCV2Transfer}
    (hrest : ∀ r g, g.Clear →
      (countProtocol .stateFinisher [t]).Obeys (rest r) g fun _ g' => g'.Clear) :
    (countProtocol .stateFinisher [t]).Obeys
      (StateFinisher.recordRelayed t state >>= fun _ =>
        (update (.updateTransferState state) t.rowKey).run >>= rest) .ready
      fun _ g' => g'.Clear := by
  -- only an ack is counted; the two other statuses are written without a count
  rcases finalState_of_not_timedOut hstate hnone with rfl | rfl | rfl
  · exact ⟨⟨rfl, rfl, t, rfl⟩, fun _ => ⟨⟨rfl, t, rfl, rfl⟩, fun r => hrest r _ clear_over⟩⟩
  · exact ⟨clear_ready, fun r => hrest r _ clear_ready⟩
  · exact ⟨clear_ready, fun r => hrest r _ clear_ready⟩

/-- The finisher counts an ack and then writes the final status. With a timeout tx it would count a
recv and persist a timeout, which the protocol forbids. -/
theorem stateFinisher_counts (success error : Bool)
    (hnone : t.error = "" → t.timeoutTxHash = none) :
    (countProtocol .stateFinisher [t]).Obeys
      (StageProcessor.runAlone (.finisher success error) t) .ready fun _ g' => g'.Clear := by
  refine Protocol.Obeys.bind (Protocol.Obeys.bind (Q := fun _ g' => g'.Clear) ?_
    fun r g' hg' => hg') fun o g' hg' => hg'
  unfold StateFinisher.process
  split
  · exact clear_ready
  -- behind the check of the error, so that the hypothesis applies
  rename_i herror
  refine (obeys_of_plain (isComplete_plain success error) clear_ready).bind ?_
  rintro complete _ rfl
  split
  · exact ⟨clear_ready, fun _ => clear_ready⟩
  cases hstate : StateFinisher.finalState t with
  | none => exact ⟨clear_ready, fun _ => clear_ready⟩
  | some state =>
    refine finish_counts hstate (hnone (not_not.mp herror)) fun r g hg => ?_
    cases r <;> exact hg

/-- A stage that gets one transfer obeys. It may count if it has something to persist. -/
theorem runAlone_counts {pl : Pipeline} (hsingle : stage.isSingle pl)
    (htimeout : stage = .stateFinisher → t.error = "" → t.timeoutTxHash = none) :
    ∃ g, (countProtocol stage [t]).Obeys ((stage.processor pl).runAlone t) g (fun _ g' => g'.Clear)
      ∧ (g = .over ∨ g = .ready ∧ stage = .stateFinisher
        ∨ g = .ready ∧ stage = .waitForWriteAckPacket ∧ t.error = ""
          ∧ t.writeAckTxHash = none) := by
  cases hstage : stage.relayType with
  | none =>
    refine ⟨.over, ?_, .inl rfl⟩
    exact (obeys_of_plain (runAlone_plain hstage hsingle t) clear_over).mono
      fun _ _ hsame => hsame ▸ clear_over
  | some relayType =>
    rcases relayType_eq_some hstage with ⟨rfl, -⟩ | ⟨rfl, -⟩
    -- a stage that will refuse the transfer may be taken as over from the start
    · by_cases hwants : t.error = "" ∧ t.writeAckTxHash = none
      · exact ⟨.ready, waitForWriteAck_counts clear_ready fun _ _ => rfl,
          .inr (.inr ⟨rfl, rfl, hwants⟩)⟩
      · refine ⟨.over, waitForWriteAck_counts clear_over fun herror hnone => ?_, .inl rfl⟩
        exact absurd ⟨herror, hnone⟩ hwants
    · exact ⟨.ready, stateFinisher_counts _ _ (htimeout rfl), .inr (.inl ⟨rfl, rfl⟩)⟩

theorem runBatch_counts {pl : Pipeline} {q : IBCV2BatchProcessor}
    (hq : stage.processor pl = .batch q) (ts : List IBCV2Transfer) :
    (countProtocol stage ts).Obeys (q.runBatch ts) .over fun _ g' => g'.Clear :=
  (obeys_of_plain (plain_of_batch hq ts) clear_over).mono fun _ _ hsame => hsame ▸ clear_over

/-! ## The statement that is due -/

/-- The transfer and the relay type of a statement that persists. -/
def Call.due : Call → Option (RowKey × RelayType)
  | .update u key => u.persists.map (key, ·)
  | _ => none

def Prog.due (p : Eff α) : Option (RowKey × RelayType) :=
  match p with
  | .call c _ => c.due
  | .done _ => none

section Due

variable {c : Call} {k : c.Answer → Eff α} {p : Eff α}

/-- A statement that persists is made only when it is owed, and on the row of the transfer. -/
theorem due_of_allows {key : RowKey} {relayType : RelayType}
    (h : (countProtocol stage ts).allows g c) (hdue : c.due = some (key, relayType)) :
    g = .owes relayType ∧ ∃ t, ts = [t] ∧ key = t.rowKey := by
  cases c with
  | update u key' =>
    obtain ⟨relayType', hpersists, heq⟩ := Option.map_eq_some_iff.mp hdue
    cases heq
    simpa [countProtocol, hpersists] using h
  | _ => cases hdue

/-- A call that counts, and what is owed then. -/
theorem counted_of_allows {relayType : RelayType} (h : (countProtocol stage ts).allows g c)
    (hcounted : c.counted = some relayType) :
    g = .ready ∧ stage.relayType = some relayType ∧ (∃ t, ts = [t]) ∧ c.due = none
      ∧ ∀ r, (countProtocol stage ts).next g c r = .owes relayType := by
  cases c with
  | addRelayCompleted =>
    cases hcounted
    exact ⟨h.1, h.2.1, h.2.2, rfl, fun _ => rfl⟩
  | _ => cases hcounted

/-- If nothing is owed, the next call is not such a statement. -/
theorem due_none_of_clear (h : (countProtocol stage ts).Obeys p g fun _ g' => g'.Clear)
    (hg : g.Clear) : Prog.due p = none := by
  cases p with
  | done a => rfl
  | call c k =>
    cases hdue : c.due with
    | none => exact hdue
    | some due => exact absurd (due_of_allows h.1 hdue).1 (hg due.2)

/-- What is owed is what the program does next. -/
theorem due_of_owes {relayType : RelayType}
    (h : (countProtocol stage ts).Obeys p (.owes relayType) fun _ g' => g'.Clear) :
    ∃ t, ts = [t] ∧ Prog.due p = some (t.rowKey, relayType) := by
  cases p with
  -- a program does not end with something owed
  | done a => exact absurd rfl (h relayType)
  | call c k =>
    obtain ⟨hallows, -⟩ := h
    cases c with
    | addRelayCompleted => cases hallows.1
    | update u key =>
      cases hpersists : u.persists with
      | none =>
        simp only [countProtocol, hpersists] at hallows
        exact absurd rfl (hallows relayType)
      | some relayType' =>
        simp only [countProtocol, hpersists] at hallows
        obtain ⟨howes, t, rfl, rfl⟩ := hallows
        cases howes
        refine ⟨t, rfl, ?_⟩
        change u.persists.map _ = _
        rw [hpersists]
        rfl
    | txCommit body => exact absurd rfl (hallows.1 relayType)
    | _ => exact absurd rfl (hallows relayType)

/-- After a call that does not count, nothing is due. -/
theorem next_clear (h : (countProtocol stage ts).allows g c)
    (hcounts : c.counted = none) (r : c.Answer) :
    ((countProtocol stage ts).next g c r).Clear := by
  cases c with
  | addRelayCompleted => cases hcounts
  | update u key =>
    cases hpersists : u.persists with
    | none =>
      simp only [countProtocol, hpersists] at h ⊢
      exact h
    | some relayType =>
      simp only [countProtocol, hpersists]
      exact clear_over
  | txCommit body => exact h.1
  | _ => exact h

/-- A call that neither counts nor persists leaves the phase as it is. -/
theorem next_same (hdue : c.due = none)
    (hcounts : c.counted = none) (r : c.Answer) :
    (countProtocol stage ts).next g c r = g := by
  cases c with
  | addRelayCompleted => cases hcounts
  | update u key =>
    have hpersists : u.persists = none := Option.map_eq_none_iff.mp hdue
    simp [countProtocol, hpersists]
  | _ => rfl

theorem next_due {due : RowKey × RelayType} (hdue : c.due = some due) (r : c.Answer) :
    (countProtocol stage ts).next g c r = .over := by
  cases c with
  | update u key =>
    obtain ⟨relayType, hpersists, -⟩ := Option.map_eq_some_iff.mp hdue
    simp [countProtocol, hpersists]
  | _ => cases hdue

end Due

end Counting

end IbcRelayer
