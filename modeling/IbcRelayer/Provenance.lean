import IbcRelayer.Interleaving
import IbcRelayer.Lib.Protocol

/-!
# IbcRelayer — where the recorded txs come from

A row gets the hash of a recv, ack or timeout tx in two ways: a check finds a tx that somebody has
sent, or a batch sends one. In both cases the tx is the answer of a bridge client, and the statement
that records it is made by another call, later, in a transaction over many rows in the second case.

* `Reports` — a client's answer that a tx is the one of this kind for the packet of a row: it was
  asked for the tx of this packet, on the chain of this kind, or it has delivered a tx there whose
  submission includes the row. `ReportsAck` is the same for a write ack.
* `sources` — the protocol: a statement may record what a client has reported for that row, since
  the stage began. Every stage obeys it (`runAlone_sources`, `runBatch_sources`).
* `tx_provenance` — so in every run, what a row records was reported for this row.
-/

namespace IbcRelayer

open CallTree Prog Protocol IBCV2Transfer

/-! ## Reports -/

/-- The sequence number of a packet as the clients get it. -/
def RowKey.sequence (key : RowKey) : UInt64 := key.packetSequenceNumber.toUInt32.toUInt64

@[simp] theorem rowKey_sequence (t : IBCV2Transfer) : t.rowKey.sequence = t.sequence := rfl

/-- The chain that a tx of this kind is for. -/
def Route.chainOf (route : Route) : TxType → String
  | .recvPacket => route.destinationChainID
  | .ackPacket | .timeoutPacket => route.sourceChainID

/-- A client's answer that `tx` is the tx of this kind for the packet. -/
inductive Reports (route : Route) (key : RowKey) (tx : BridgeTx) : TxType → Event → Prop where
  | foundRecv (timeoutTimestamp : Time) : Reports route key tx .recvPacket
      ⟨.findRecvTx route.destinationChainID route.sourceClientID route.destinationClientID
        key.sequence timeoutTimestamp, .ok tx⟩
  | foundAck : Reports route key tx .ackPacket
      ⟨.findAckTx route.sourceChainID route.sourceClientID route.destinationClientID
        key.sequence, .ok tx⟩
  | foundTimeout : Reports route key tx .timeoutPacket
      ⟨.findTimeoutTx route.sourceChainID route.sourceClientID route.destinationClientID
        key.sequence, .ok tx⟩
  | delivered (bytes : List UInt8) (address : String) (submission : Submission)
      (hincludes : submission.Includes key) : Reports route key tx submission.kind
      ⟨.deliverTx (route.chainOf submission.kind) bytes address submission, .ok tx⟩

/-- A client's answer about the write ack of the packet in the tx `hash`; one that cannot be decoded
has the status `UNKNOWN`. -/
inductive ReportsAck (route : Route) (key : RowKey) (hash : String) :
    Ibcv2WriteAckStatus → Event → Prop where
  | decoded (status : Ibcv2WriteAckStatus) : ReportsAck route key hash status
      ⟨.packetWriteAckStatus route.destinationChainID hash key.sequence route.sourceClientID
        route.destinationClientID, .ok status⟩
  | undecoded (err : GoError) (herr : err.is .errWriteAckDecoding = true) :
      ReportsAck route key hash .unknown
      ⟨.packetWriteAckStatus route.destinationChainID hash key.sequence route.sourceClientID
        route.destinationClientID, .error err⟩

/-- A client's answer that the tx `hash` of this kind, sent at `time`, is to be sent again: it has
failed or expired, or it is a recv tx without the write ack of the packet. -/
inductive Dismisses (route : Route) (key : RowKey) (hash : String) :
    Option Time → TxType → Event → Prop where
  | expired (kind : TxType) (sentTs : Time) : Dismisses route key hash (some sentTs) kind
      ⟨.shouldRetryTx (route.chainOf kind) hash (2 * minute) sentTs, .ok true⟩
  | noWriteAck (time : Option Time) (err : GoError)
      (herr : err.is .errWriteAckNotFoundForPacket = true) :
      Dismisses route key hash time .recvPacket
      ⟨.packetWriteAckStatus route.destinationChainID hash key.sequence route.sourceClientID
        route.destinationClientID, .error err⟩

/-! ## The protocol -/

/-- The statement that records a tx. -/
def TxType.record (tx : BridgeTx) : TxType → TransferUpdate
  | .recvPacket => .updateTransferRecvTx (some tx.hash) (some tx.timestamp) (some tx.relayerAddress)
  | .ackPacket => .updateTransferAckTx (some tx.hash) (some tx.timestamp) (some tx.relayerAddress)
  | .timeoutPacket =>
    .updateTransferTimeoutTx (some tx.hash) (some tx.timestamp) (some tx.relayerAddress)

/-- The statement that takes a tx away again. -/
def TxType.clear : TxType → TransferUpdate
  | .recvPacket => .clearRecvTx
  | .ackPacket => .clearAckTx
  | .timeoutPacket => .clearTimeoutTx

def TransferUpdate.touchesTx : TransferUpdate → Bool
  | .updateTransferRecvTx .. | .updateTransferWriteAckTx .. | .updateTransferAckTx ..
  | .updateTransferTimeoutTx .. | .clearRecvTx | .clearAckTx | .clearTimeoutTx => true
  | _ => false

/-- What a copy knows of a tx. -/
def IBCV2Transfer.tx (t : IBCV2Transfer) : TxType → Option String × Option Time
  | .recvPacket => (t.recvTxHash, t.recvTxTime)
  | .ackPacket => (t.ackTxHash, t.ackTxTime)
  | .timeoutPacket => (t.timeoutTxHash, t.timeoutTxTime)

/-- One of the copies is of the row `key` and has this tx. -/
def Copied (ts : List IBCV2Transfer) (key : RowKey) (kind : TxType) (hash : String)
    (time : Option Time) : Prop :=
  ∃ t ∈ ts, t.rowKey = key ∧ t.tx kind = (some hash, time)

/-- What a statement on the row `key` records is among the reports, and what it clears is a tx of
the copies that was dismissed. -/
inductive Backed (route : Route) (ts : List IBCV2Transfer) (key : RowKey) (log : List Event) :
    TransferUpdate → Prop where
  | tx (kind : TxType) {tx : BridgeTx} {e : Event} (he : e ∈ log)
      (hreports : Reports route key tx kind e) : Backed route ts key log (kind.record tx)
  | writeAck {hash : String} {status : Ibcv2WriteAckStatus} {e : Event} (he : e ∈ log)
      (hreports : ReportsAck route key hash status e) (time : Option Time) :
      Backed route ts key log (.updateTransferWriteAckTx (some hash) time (some status))
  | clear (kind : TxType) {hash : String} {time : Option Time} {e : Event} (he : e ∈ log)
      (hcopied : Copied ts key kind hash time)
      (hdismisses : Dismisses route key hash time kind e) : Backed route ts key log kind.clear
  | other {u : TransferUpdate} (hu : u.touchesTx = false) : Backed route ts key log u

/-- The statements on the row `key` that a call makes, if it succeeds. -/
def Call.updates (key : RowKey) : Call → List TransferUpdate
  | .update u k => if k = key then [u] else []
  | .txCommit body => body.flatMap (TxStmt.updates key)
  | _ => []

/-- What an event does to a row is what its call asks for, or nothing if it failed. -/
theorem updatesOfEvent_subset (key : RowKey) (e : Event) :
    updatesOfEvent key e ⊆ e.call.updates key := by
  obtain ⟨c, answer⟩ := e
  cases c with
  | update u k =>
    cases answer with
    | error err => exact List.nil_subset _
    | ok a => exact List.Subset.refl _
  | txCommit body =>
    cases answer with
    | error err => exact List.nil_subset _
    | ok a => exact List.Subset.refl _
  | _ => exact List.nil_subset _

/-- A statement records what was reported before; `ts` are the copies that the stage has. -/
def sources (route : Route) (ts : List IBCV2Transfer) : Protocol Call.Answer (List Event) where
  allows log c := ∀ key, ∀ u ∈ c.updates key, Backed route ts key log u
  next log c answer := ⟨c, answer⟩ :: log

/-- A call that may record or clear a tx. -/
def Call.touchesTx : Call → Bool
  | .update u _ => u.touchesTx
  | .txCommit _ => true
  | _ => false

section Rules

variable {α ρ : Type} {route : Route} {ts : List IBCV2Transfer} {log : List Event} {c : Call}

/-- A statement is allowed if it is backed. -/
theorem allows_of_update {u : TransferUpdate} {key : RowKey} (h : Backed route ts key log u) :
    (sources route ts).allows log (.update u key) := by
  intro k u' hu'
  rw [Call.updates] at hu'
  split at hu'
  · rename_i hk
    rw [List.mem_singleton.mp hu', ← hk]
    exact h
  · cases hu'

/-- A call that touches no tx is always allowed. -/
theorem allows_of_quiet (h : c.touchesTx = false) (log : List Event) :
    (sources route ts).allows log c := by
  cases c with
  | update u key => exact allows_of_update (.other h)
  | txCommit body => cases h
  | _ =>
    intro key u hu
    cases hu

theorem sources_quiet {p : Eff α} (h : p.Always fun c => c.touchesTx = false) (log : List Event) :
    (sources route ts).Obeys p log fun _ _ => True :=
  obeys_free (h.mono fun _ hc => allows_of_quiet hc) log

/-- Nothing that was reported is forgotten. -/
theorem sources_grows {p : Eff α} (h : (sources route ts).Obeys p log fun _ _ => True) :
    (sources route ts).Obeys p log fun _ log' => log ⊆ log' := by
  induction p generalizing log with
  | done a => exact List.Subset.refl log
  | call c k ih =>
    exact ⟨h.1, fun r => (ih r (h.2 r)).mono fun _ _ hsub =>
      List.Subset.trans (List.subset_cons_self _ log) hsub⟩

/-- A call whose error is wrapped and returned: the rest has its report in the ledger. -/
theorem sources_ask {msg : String} {x : ExceptT GoError Eff α} {f : α → ExceptT GoError Eff ρ}
    {Q : Except GoError α → List Event → Prop} (hx : (sources route ts).Obeys x.run log Q)
    (hf : ∀ a log', Q (.ok a) log' → (sources route ts).Obeys (f a).run log' fun _ _ => True) :
    (sources route ts).Obeys (wrapErr msg x >>= f).run log fun _ _ => True := by
  refine Obeys.except_bind (Q := fun r log' => ∀ a, r = .ok a → Q (.ok a) log') ?_ ?_ ?_
  · unfold wrapErr
    rw [ExceptT.run_mk]
    refine hx.bind fun r log' hQ => ?_
    cases r with
    | error err => exact fun _ h => nomatch h
    | ok a =>
      rintro _ ⟨⟩
      exact hQ
  · exact fun a log' hQ => hf a log' (hQ a rfl)
  · exact fun _ _ _ => trivial

theorem sources_ask_quiet {msg : String} {x : ExceptT GoError Eff α}
    {f : α → ExceptT GoError Eff ρ} (hx : x.run.Always fun c => c.touchesTx = false)
    (hf : ∀ a log', (sources route ts).Obeys (f a).run log' fun _ _ => True) :
    (sources route ts).Obeys (wrapErr msg x >>= f).run log fun _ _ => True :=
  sources_ask (sources_quiet hx log) fun a log' _ => hf a log'

theorem sources_update {msg : String} {u : TransferUpdate} {key : RowKey} {a : ρ}
    (h : Backed route ts key log u) :
    (sources route ts).Obeys (wrapErr msg (update u key) >>= fun _ => pure a).run log
      fun _ _ => True :=
  sources_ask (Q := fun _ _ => True) ⟨allows_of_update h, fun _ => trivial⟩ fun _ _ _ => trivial

end Rules

/-! ## The stages that look -/

section Single

variable {ts : List IBCV2Transfer} {log : List Event} {t : IBCV2Transfer}

/-- The recv tx that `CheckRecvPacketDelivery` records is the answer to its search. -/
theorem checkRecv_sources (t : IBCV2Transfer) (log : List Event) :
    (sources (newPipelineKey t) ts).Obeys (CheckRecvPacketDeliveryProcessor.process t).run log
      fun _ _ => True := by
  refine sources_ask_quiet ⟨rfl, fun _ => trivial⟩ fun _ log => ?_
  refine sources_ask_quiet ⟨rfl, fun _ => trivial⟩ fun received log => ?_
  split
  · trivial
  · refine sources_ask (Q := fun r log' => log' = ⟨.findRecvTx t.destinationChainID
        t.packetSourceClientID t.packetDestinationClientID t.sequence t.packetTimeoutTimestamp, r⟩
          :: log) ⟨allows_of_quiet rfl log, fun r => rfl⟩ ?_
    rintro recvTx _ rfl
    exact sources_update (.tx .recvPacket List.mem_cons_self (.foundRecv _))

/-- The ack or timeout tx that `CheckPacketCommitment` records is the answer to one of its two
searches. -/
theorem checkCommitment_sources (t : IBCV2Transfer) (log : List Event) :
    (sources (newPipelineKey t) ts).Obeys (CheckPacketCommitmentProcessor.process t).run log
      fun _ _ => True := by
  refine sources_ask_quiet ⟨rfl, fun _ => trivial⟩ fun _ log => ?_
  refine sources_ask_quiet ⟨rfl, fun _ => trivial⟩ fun committed log => ?_
  split
  · trivial
  · refine ⟨allows_of_quiet rfl log, fun ackTx => ⟨allows_of_quiet rfl _, fun timeoutTx => ?_⟩⟩
    -- a statement is made when one search has found a tx and the other has not
    rcases ackTx with _ | ackTx <;> rcases timeoutTx with _ | timeoutTx
    · trivial
    · exact sources_update (.tx .timeoutPacket List.mem_cons_self .foundTimeout)
    · exact sources_update
        (.tx .ackPacket (List.mem_cons_of_mem _ List.mem_cons_self) .foundAck)
    · trivial

/-- A write ack is recorded under the recv hash that it was asked for. -/
theorem recordWriteAck_sources {recvHash : String} {status : Ibcv2WriteAckStatus} {e : Event}
    (he : e ∈ log) (hreports : ReportsAck (newPipelineKey t) t.rowKey recvHash status e) :
    (sources (newPipelineKey t) ts).Obeys
      (WaitForWriteAckPacket.recordWriteAck t recvHash status).run log fun _ _ => True :=
  ⟨allows_of_quiet rfl log, fun _ =>
    sources_update (.writeAck (List.mem_cons_of_mem _ he) hreports _)⟩

/-- `WaitForWriteAck` records the status that it was told, and clears a recv tx when it was told
that this tx has no write ack of the packet. -/
theorem waitForWriteAck_sources
    (hcopied : ∀ kind hash time, t.tx kind = (some hash, time) → Copied ts t.rowKey kind hash time)
    (log : List Event) :
    (sources (newPipelineKey t) ts).Obeys (WaitForWriteAckPacket.process t).run log
      fun _ _ => True := by
  unfold WaitForWriteAckPacket.process
  refine sources_ask_quiet ⟨rfl, fun _ => trivial⟩ fun _ log => ?_
  split
  · rename_i recvHash hhash
    refine ⟨allows_of_quiet rfl log, fun answer => ?_⟩
    rcases answer with err | status
    · change (sources _ _).Obeys
        (ExceptT.run (if err.is .errWriteAckNotFoundForPacket then _ else _))
        _ _
      split
      · rename_i hnone
        refine sources_ask (Q := fun _ _ => True) ⟨allows_of_update ?_, fun _ => trivial⟩
          fun _ _ _ => trivial
        exact .clear .recvPacket List.mem_cons_self
          (hcopied .recvPacket recvHash t.recvTxTime (congrArg (·, t.recvTxTime) hhash))
          (.noWriteAck _ err hnone)
      · split
        · trivial
        · rename_i hdecoding
          exact recordWriteAck_sources List.mem_cons_self
            (.undecoded err (by simpa using hdecoding))
    · exact recordWriteAck_sources List.mem_cons_self (.decoded status)
  · trivial

/-- What `sources` needs of a retry processor: it asks about the tx of its kind and clears it. -/
structure RetryPacket.Routed (p : RetryPacket) (route : Route) (kind : TxType) : Prop where
  chainID : p.chainID = route.chainOf kind
  expiry : p.expiry = 2 * minute
  tx : ∀ t, t.tx kind = (p.txHash t, p.txTime t)
  clear : p.clear = kind.clear

/-- A retry processor clears the tx that it has asked about, and no other: its hash is that of the
copy. -/
theorem retry_sources {p : RetryPacket} {route : Route} {kind : TxType} (hp : p.Routed route kind)
    (hcopied : ∀ kind hash time, t.tx kind = (some hash, time) → Copied ts t.rowKey kind hash time)
    (log : List Event) : (sources route ts).Obeys (p.process t).run log fun _ _ => True := by
  unfold RetryPacket.process
  refine sources_ask_quiet ⟨rfl, fun _ => trivial⟩ fun _ log => ?_
  split
  · rename_i txHash hhash
    split
    · rename_i txTime htime
      refine sources_ask (Q := fun r log' => log' = ⟨.shouldRetryTx p.chainID txHash p.expiry
        txTime, r⟩ :: log) ⟨allows_of_quiet rfl log, fun r => rfl⟩ ?_
      rintro retry _ rfl
      cases retry with
      | false => trivial
      | true =>
        refine sources_ask (Q := fun _ _ => True) ⟨allows_of_update ?_, fun _ => trivial⟩
          fun _ _ _ => trivial
        rw [hp.clear, hp.chainID, hp.expiry]
        refine .clear kind List.mem_cons_self (hcopied kind txHash (some txTime) ?_)
          (.expired kind txTime)
        rw [hp.tx, hhash, htime]
    · trivial
  · trivial

/-! ## The stages that touch no tx -/

/-- The checks of finality and the gas calculators write other columns. -/
theorem single_quiet {pl : Pipeline} {stage : Stage} {p : IBCV2Processor}
    (hproc : stage.processor pl = .single p) (hstage : stage ≠ .waitForWriteAckPacket)
    (hquiet : ∀ u, stage.statements u = true → u.touchesTx = false) (t : IBCV2Transfer) :
    (p.process t).run.Always fun c => c.touchesTx = false := by
  refine (single_calls hproc hstage t).mono fun c h => ?_
  cases h with
  | asks hc => cases c <;> first | rfl | cases hc
  | statement hu => exact hquiet _ hu

theorem isComplete_quiet (t : IBCV2Transfer) (success error : Bool) :
    (t.isComplete success error).Always fun c => c.touchesTx = false := by
  unfold IBCV2Transfer.isComplete
  split
  · trivial
  split
  · trivial
  split
  · trivial
  split
  · trivial
  split
  · exact ⟨rfl, fun _ => trivial⟩
  · split <;> trivial

theorem finish_quiet (success error : Bool) (t : IBCV2Transfer) :
    (StateFinisher.process success error t).Always fun c => c.touchesTx = false := by
  unfold StateFinisher.process
  split
  · trivial
  refine (isComplete_quiet t success error).bind fun complete => ?_
  cases complete with
  | false => exact ⟨rfl, fun _ => trivial⟩
  | true =>
    cases hstate : StateFinisher.finalState t with
    | none => exact ⟨rfl, fun _ => trivial⟩
    | some state =>
      have hrelayed : (StateFinisher.recordRelayed t state).Always
          fun c => c.touchesTx = false := by
        cases state <;> first | trivial | exact ⟨rfl, fun _ => trivial⟩
      refine hrelayed.bind fun _ => ⟨rfl, fun answer => ?_⟩
      cases answer <;> trivial

end Single

/-! ## The wrappers -/

/-- A decision of the wrapper touches no tx. -/
theorem OfAdmission.touchesTx {key : RowKey} {e : Event} (h : OfAdmission key e) :
    e.call.touchesTx = false := by
  rcases h with ⟨reader, hc⟩ | ⟨warning, hc⟩ | ⟨state, hc⟩ <;> rw [hc] <;> rfl

/-- The wrapper of single transfers obeys if the processor does, on the copy in its new state. -/
theorem mw_sources {route : Route} {ts : List IBCV2Transfer} {p : IBCV2Processor} {g : Guard}
    {t : IBCV2Transfer}
    (hasked : (p.shouldProcess t).Ensures (Asked g t))
    (hprocess : ∀ log, (sources route ts).Obeys (p.process { t with state := p.state }).run log
      fun _ _ => True) (log : List Event) :
    (sources route ts).Obeys (IBCV2ProcessorMW.process p t) log fun _ _ => True := by
  -- a program all of whose ends have quiet events makes quiet calls only
  have hquiet : (admitTransfer p.state p.shouldProcess t).Always fun c => c.touchesTx = false :=
    ((admitTransfer_admits hasked p.state).mono fun _ _ hadmits e he =>
      (hadmits.ofAdmission e he).touchesTx).always (Sample.obliging .zero Sample.world)
  refine (sources_quiet hquiet log).bind fun a log' _ => ?_
  cases a with
  | skipped => trivial
  | stateNotUpdated err => trivial
  | admitted =>
    refine (hprocess log').bind fun r _ _ => ?_
    cases r with
    | error err => dsimp only; split <;> trivial
    | ok output => trivial

section Alone

variable {pl : Pipeline} {stage : Stage} {ts : List IBCV2Transfer} {t : IBCV2Transfer}

/-- Every processor of single transfers obeys, for a transfer of the pipeline's route. -/
theorem single_sources {p : IBCV2Processor} (hproc : stage.processor pl = .single p)
    (hroute : pl.route = newPipelineKey t)
    (hcopied : ∀ kind hash time, t.tx kind = (some hash, time) → Copied ts t.rowKey kind hash time)
    (log : List Event) : (sources pl.route ts).Obeys (p.process t).run log fun _ _ => True := by
  have hretry : ∀ {p : RetryPacket} (kind : TxType), p.Routed pl.route kind →
      (sources pl.route ts).Obeys (p.process t).run log fun _ _ => True :=
    fun _ hp => retry_sources hp hcopied log
  have hquiet : stage ≠ .waitForWriteAckPacket →
      (∀ u, stage.statements u = true → u.touchesTx = false) →
      (sources pl.route ts).Obeys (p.process t).run log fun _ _ => True :=
    fun hstage hu => sources_quiet (single_quiet hproc hstage hu t) log
  cases stage <;> cases hproc
  case retryTimeoutPacket => exact hretry .timeoutPacket ⟨rfl, rfl, fun _ => rfl, rfl⟩
  case retryRecvPacket => exact hretry .recvPacket ⟨rfl, rfl, fun _ => rfl, rfl⟩
  case retryAckPacket => exact hretry .ackPacket ⟨rfl, rfl, fun _ => rfl, rfl⟩
  case checkRecvPacketDelivery =>
    rw [hroute]
    exact checkRecv_sources t log
  case checkInitialPacketCommitment | checkPostReceivePacketCommitment =>
    rw [hroute]
    exact checkCommitment_sources t log
  case waitForWriteAckPacket =>
    rw [hroute]
    exact waitForWriteAck_sources hcopied log
  all_goals exact hquiet (by simp) fun u hu => by cases u <;> first | rfl | cases hu

/-- A stage that does not batch obeys `sources`, from any ledger. -/
theorem runAlone_sources (hsingle : stage.isSingle pl) (hroute : pl.route = newPipelineKey t)
    (log : List Event) :
    (sources pl.route [t]).Obeys ((stage.processor pl).runAlone t) log fun _ _ => True := by
  suffices h : (sources pl.route [t]).Obeys ((stage.processor pl).run [] [] t) log
      fun _ _ => True from
    h.bind fun _ _ _ => trivial
  cases hproc : stage.processor pl with
  | single p =>
    obtain ⟨c, hc⟩ : ∃ c, stage.contract pl = some c := by
      cases stage <;> cases hproc <;> exact ⟨_, rfl⟩
    refine (mw_sources ((single_meets hproc hc).asked t)
      (single_sources hproc (t := { t with state := p.state }) hroute fun kind hash time htx =>
        ⟨t, List.mem_singleton_self t, rfl, by cases kind <;> exact htx⟩) log).bind fun r _ _ => ?_
    cases r <;> trivial
  | batch q => exact absurd hproc (hsingle q)
  | finisher success error =>
    exact (sources_quiet (finish_quiet success error t) log).bind fun _ _ _ => trivial

end Alone

/-! ## The stages that submit a tx -/

/-- What `sources` needs of a batch processor: it delivers to the chain of its kind and records the
tx there. -/
structure BatchPacket.Routed (p : BatchPacket) (route : Route) : Prop where
  chainID : p.chainID = route.chainOf p.txType
  updateTx : ∀ tx, p.updateTx tx = p.txType.record tx

section Batch

variable {route : Route} {ts : List IBCV2Transfer} {p : BatchPacket} {log : List Event}

theorem touchesTx_of_silent {c : Call} (h : c.isSilent = true) : c.touchesTx = false := by
  cases c <;> first | rfl | cases h

/-- A transaction that commits statements which were reported for. -/
theorem execTx_sources {body : Tx Unit} {P : List TxStmt → Prop} (hbody : TxEnsures body [] P)
    (hP : ∀ stmts log', log ⊆ log' → P stmts → (sources route ts).allows log' (.txCommit stmts)) :
    (sources route ts).Obeys (execTx body).run log fun _ _ => True := by
  refine ⟨allows_of_quiet rfl log, fun answer => ?_⟩
  cases answer with
  | error err => trivial
  | ok a =>
    -- inside the transaction nothing is written; the commit writes all of it
    have hquiet : (body.run []).run.Always fun c => c.touchesTx = false :=
      (hbody.mono fun _ _ h e he => touchesTx_of_silent (h.1 e he)).always
        (Sample.obliging .zero Sample.world)
    have hrun : (sources route ts).Obeys (body.run []).run (⟨.txBegin, .ok a⟩ :: log)
        fun _ _ => True := sources_quiet hquiet _
    refine ((sources_grows hrun).and_ensures hbody).bind fun r log' hend => ?_
    obtain ⟨hsub, _, -, hstmts⟩ := hend
    rcases r with err | ⟨_, stmts⟩
    · refine ⟨allows_of_quiet rfl log', fun rollback => ?_⟩
      cases rollback <;> trivial
    · exact ⟨hP stmts log' (List.Subset.trans (List.subset_cons_self _ log) hsub) (hstmts _ _ rfl),
        fun _ => trivial⟩

/-- The transfers without an error are those of the submission. -/
theorem includes_of_submitted {batch : List IBCV2Transfer} {t : IBCV2Transfer}
    (ht : t ∈ (p.gather [] batch).transfers.filter (·.processingError.isNone)) :
    (p.submission (p.gather [] batch)).Includes t.rowKey := by
  obtain ⟨htransfers, hrequested⟩ := gather_eq p (by simp [Decodable] : Decodable []) batch
  rw [htransfers] at ht
  obtain ⟨ht, hnone⟩ := List.mem_filter.mp ht
  obtain ⟨u, hu, rfl⟩ := List.mem_map.mp ht
  refine ⟨u, ?_, (p.mark_rowKey u).symm⟩
  change u ∈ (p.gather [] batch).requested
  rw [hrequested]
  refine List.mem_filter.mpr ⟨hu, ?_⟩
  unfold BatchPacket.mark at hnone
  -- a marked transfer has an error, and `t` has none
  cases herror : p.hashError u with
  | none => rfl
  | some err =>
    rw [herror] at hnone
    cases hnone

/-- The rows that a batch writes are those of the transfers it was submitted for, and the tx is the
one that was delivered for them. -/
theorem deliver_sources (hp : p.Routed route) (batch : List IBCV2Transfer)
    (resp : RelayByTxResponse) :
    (sources route ts).Obeys (p.deliver (p.gather [] batch) resp).run log fun _ _ => True := by
  refine sources_ask (Q := fun r log' => log' = ⟨.deliverTx p.chainID resp.tx resp.address
    (p.submission (p.gather [] batch)), r⟩ :: log) ⟨allows_of_quiet rfl log, fun r => rfl⟩ ?_
  rintro tx _ rfl
  refine sources_ask (execTx_sources (record_ensures p tx _) ?_) fun _ _ _ => trivial
  intro stmts log' hlog hstmts key u hu
  rw [Call.updates, hstmts key] at hu
  obtain ⟨t, ht, hin⟩ := List.mem_flatMap.mp hu
  split at hin
  · rename_i hkey
    subst hkey
    rw [List.mem_singleton.mp hin, hp.updateTx]
    refine .tx _ (hlog List.mem_cons_self) ?_
    rw [hp.chainID]
    exact .delivered _ _ _ (includes_of_submitted ht)
  · cases hin

/-- A batch processor obeys. -/
theorem batch_sources (hp : p.Routed route) (batch : List IBCV2Transfer) (log : List Event) :
    (sources route ts).Obeys (p.process batch).run log fun _ _ => True := by
  unfold BatchPacket.process
  refine sources_ask_quiet ⟨rfl, fun _ => trivial⟩ fun resp _ => ?_
  refine sources_ask_quiet ⟨rfl, fun _ => trivial⟩ fun _ log => ?_
  refine ⟨allows_of_quiet rfl log, fun chainType => ?_⟩
  cases chainType with
  | evm => exact sources_ask_quiet ⟨rfl, fun _ => trivial⟩ fun _ _ => deliver_sources hp batch resp
  | cosmos => exact deliver_sources hp batch resp
  | svm => exact deliver_sources hp batch resp

/-- All three batches deliver to the chain of their kind, and record the tx under it. -/
theorem batch_routed {pl : Pipeline} {stage : Stage} {q : IBCV2BatchProcessor}
    (hq : stage.processor pl = .batch q) :
    ∃ p : BatchPacket, p.Routed pl.route ∧ q.process = p.process := by
  cases stage <;> cases hq
  case batchTimeoutPacket => exact ⟨_, ⟨rfl, fun _ => rfl⟩, rfl⟩
  case batchRecvPacket => exact ⟨_, ⟨rfl, fun _ => rfl⟩, rfl⟩
  case batchAckPacket => exact ⟨_, ⟨rfl, fun _ => rfl⟩, rfl⟩

/-- A batch behind its wrapper obeys `sources`, from any ledger. -/
theorem runBatch_sources {pl : Pipeline} {stage : Stage} {q : IBCV2BatchProcessor}
    (hq : stage.processor pl = .batch q) (batch ts : List IBCV2Transfer) (log : List Event) :
    (sources pl.route ts).Obeys (q.runBatch batch) log fun _ _ => True := by
  obtain ⟨_, hmeets, -⟩ := batch_meets hq
  obtain ⟨p, hrouted, hprocess⟩ := batch_routed hq
  have hquiet : (admitBatch q batch).Always fun c => c.touchesTx = false := by
    refine ((admitBatch_events hmeets.asked batch).mono fun _ _ h e he => ?_).always
      (Sample.obliging .zero Sample.world)
    obtain ⟨u, -, hof⟩ := h.2 e he
    exact hof.touchesTx
  refine Obeys.bind (Q := fun _ _ => True) ?_ fun r _ _ => by cases r <;> trivial
  refine (sources_quiet hquiet log).bind fun as log' _ => ?_
  dsimp only
  split
  · trivial
  · rw [hprocess]
    refine (batch_sources hrouted _ log').bind fun r _ _ => ?_
    cases r with
    | error err => dsimp only; split <;> trivial
    | ok output => trivial

end Batch

/-! ## Every run -/

/-- The three columns that record a tx. -/
def Ibcv2Transfer.tx (r : Ibcv2Transfer) : TxType → Option String × Option Time × Option String
  | .recvPacket => (r.recvTxHash, r.recvTxTime, r.recvTxRelayerAddress)
  | .ackPacket => (r.ackTxHash, r.ackTxTime, r.ackTxRelayerAddress)
  | .timeoutPacket => (r.timeoutTxHash, r.timeoutTxTime, r.timeoutTxRelayerAddress)

/-- What a row records was reported for the packet of the row. -/
structure Attested (log : List Event) (r : Ibcv2Transfer) : Prop where
  tx : ∀ kind, (r.tx kind).1 ≠ none → ∃ tx, ∃ e ∈ log, Reports r.route r.key tx kind e
    ∧ r.tx kind = (some tx.hash, some tx.timestamp, some tx.relayerAddress)
  writeAck : ∀ hash, r.writeAckTxHash = some hash →
    ∃ status, ∃ e ∈ log, ReportsAck r.route r.key hash status e ∧ r.writeAckStatus = some status

section Attested

variable {ts : List IBCV2Transfer} {log log' : List Event} {r : Ibcv2Transfer}

/-- A report is not forgotten. -/
theorem Attested.mono (h : Attested log r) (hsub : log ⊆ log') : Attested log' r where
  tx kind hkind := by
    obtain ⟨tx, e, he, hreports, htx⟩ := h.tx kind hkind
    exact ⟨tx, e, hsub he, hreports, htx⟩
  writeAck hash hhash := by
    obtain ⟨status, e, he, hreports, hstatus⟩ := h.writeAck hash hhash
    exact ⟨status, e, hsub he, hreports, hstatus⟩

/-- A statement that is backed stays so with a longer log. -/
theorem Backed.mono {route : Route} {key : RowKey} {u : TransferUpdate}
    (h : Backed route ts key log u) (hsub : log ⊆ log') : Backed route ts key log' u := by
  cases h with
  | tx kind he hreports => exact .tx kind (hsub he) hreports
  | writeAck he hreports time => exact .writeAck (hsub he) hreports time
  | clear kind he hcopied hdismisses => exact .clear kind (hsub he) hcopied hdismisses
  | other hu => exact .other hu

theorem Attested.tx_of_same {u : TransferUpdate} (h : Attested log r) {kind : TxType}
    (hsame : (u.apply r).tx kind = r.tx kind) (hkind : ((u.apply r).tx kind).1 ≠ none) :
    ∃ tx, ∃ e ∈ log, Reports (u.apply r).route (u.apply r).key tx kind e
      ∧ (u.apply r).tx kind = (some tx.hash, some tx.timestamp, some tx.relayerAddress) := by
  rw [hsame] at hkind ⊢
  rw [TransferUpdate.apply_route, TransferUpdate.apply_key]
  exact h.tx kind hkind

/-- A backed statement leaves an attested row. Each case is about the columns that the statement
writes; the others are attested as before. -/
theorem Attested.apply {u : TransferUpdate} (h : Attested log r)
    (hu : Backed r.route ts r.key log u) : Attested log (u.apply r) := by
  cases hu with
  | @tx kind tx e he hreports =>
    refine ⟨fun kind' hkind' => ?_, by cases kind <;> exact h.writeAck⟩
    -- the columns of this kind are new, those of the other kinds as they were
    by_cases heq : kind' = kind
    · subst heq
      refine ⟨tx, e, he, ?_, by cases kind' <;> rfl⟩
      rw [TransferUpdate.apply_route, TransferUpdate.apply_key]
      exact hreports
    · refine h.tx_of_same ?_ hkind'
      cases kind <;> cases kind' <;> first | rfl | exact absurd rfl heq
  | @writeAck hash status e he hreports time =>
    refine ⟨fun kind hkind => h.tx_of_same (by cases kind <;> rfl) hkind, ?_⟩
    rintro _ ⟨⟩
    exact ⟨status, e, he, hreports, rfl⟩
  | clear kind =>
    refine ⟨fun kind' hkind' => h.tx_of_same ?_ hkind', by cases kind <;> exact h.writeAck⟩
    cases kind <;> cases kind' <;> first | rfl | exact absurd rfl hkind'
  | other hu =>
    refine ⟨fun kind hkind => h.tx_of_same ?_ hkind, ?_⟩
    · cases u <;> cases kind <;> first | rfl | cases hu
    · cases u <;> first | exact h.writeAck | cases hu

/-- So does a list of them. -/
theorem Attested.applyAll {us : List TransferUpdate} (h : Attested log r)
    (hus : ∀ u ∈ us, Backed r.route ts r.key log u) : Attested log (applyAll us r) := by
  induction us generalizing r with
  | nil => exact h
  | cons u us ih =>
    obtain ⟨hu, hus⟩ := List.forall_mem_cons.mp hus
    rw [applyAll_cons]
    refine ih (h.apply hu) fun u' hu' => ?_
    rw [TransferUpdate.apply_route, TransferUpdate.apply_key]
    exact hus u' hu'

theorem attested_inserted (p : InsertIBCV2TransferParams) (id : Int32) :
    Attested log (p.toRow id) where
  tx kind hkind := by cases kind <;> exact absurd rfl hkind
  writeAck _ hhash := by cases hhash

end Attested

/-- A stage that is at work obeys `sources`, from a ledger that is part of the log. -/
def Task.Sourced (log : List Event) (task : Task) : Prop :=
  ∀ stage ts prog, task.work = .running stage ts prog →
    ∃ past, past ⊆ log ∧ (sources task.pl.route ts).Obeys prog past fun _ _ => True

def System.Sourced (s : System) : Prop := ∀ task ∈ s.tasks, task.Sourced s.world.log

section Run

variable {config : ConfigReader} {priceClient : Bool} {s s' : System} {a : Action}

theorem Task.Sourced.mono {task : Task} {log log' : List Event} (h : task.Sourced log)
    (hsub : log ⊆ log') : task.Sourced log' := by
  intro stage ts prog hwork
  obtain ⟨past, hpast, hobeys⟩ := h stage ts prog hwork
  exact ⟨past, List.Subset.trans hpast hsub, hobeys⟩

/-- A stage begins with an empty ledger. -/
theorem sourced_of_start {Good : List Stage → IBCV2Transfer → Ibcv2Transfer → Prop}
    {task task' : Task} (hsound : task.Sound Good s.world) (hstart : task.start = some task') :
    task'.Sourced s.world.log := by
  rcases System.start_inv hstart with ⟨pl, stage, rest, t, rfl, hsingle, rfl⟩
    | ⟨pl, stage, rest, ts, q, rfl, hq, rfl⟩
  · have hwaits : Waits Good s.world pl (stage :: rest) t := hsound
    rintro _ _ _ ⟨⟩
    exact ⟨[], List.nil_subset _, runAlone_sources hsingle hwaits.route []⟩
  · rintro _ _ _ ⟨⟩
    exact ⟨[], List.nil_subset _, runBatch_sources hq ts ts []⟩

/-- A call of a stage: the ledger and the log get the same event. -/
theorem System.Sourced.call (h : s.Sourced) {i : Nat} {env : Environment}
    (hstep : s.call i env = some s') : s'.Sourced := by
  obtain ⟨pl, rest, stage, ts, c, k, htask, rfl⟩ := System.call_inv hstep
  obtain ⟨past, hpast, -, hobeys⟩ := h _ (List.mem_of_getElem? htask) _ _ _ rfl
  intro task hin
  rcases List.mem_append.mp hin with hin | hin
  · exact (h task (List.mem_of_mem_eraseIdx hin)).mono (List.subset_cons_self _ _)
  · rw [List.mem_singleton.mp hin]
    rintro _ _ _ ⟨⟩
    exact ⟨_, List.cons_subset_cons _ hpast, hobeys _⟩

/-- A step keeps that all stages obey. -/
theorem System.Sourced.step {Good : List Stage → IBCV2Transfer → Ibcv2Transfer → Prop}
    (h : s.Sourced) (hinv : s.Inv Good) (hstep : s.step config priceClient a = some s') :
    s'.Sourced := by
  intro task htask stage ts prog hwork
  have hgrows := log_step hstep
  rcases running_step hstep htask hwork with hin | ⟨old, hold, hstart⟩ | ⟨i, env, rfl⟩
  · exact (h task hin).mono hgrows stage ts prog hwork
  · exact (sourced_of_start (hinv.sound old hold) hstart).mono hgrows stage ts prog hwork
  · exact h.call hstep task htask stage ts prog hwork

/-- So does a run, with the invariant of the system. -/
theorem run_sourced {s₀ : System} (hstart : s₀.Started)
    (hrun : System.Run config priceClient (fun _ _ => True) s₀ s) :
    (s.Inv fun _ _ _ => True) ∧ s.Sourced := by
  have htasks : s₀.Sourced := by
    unfold System.Sourced
    rw [hstart.tasks]
    intro task htask
    cases htask
  refine Machine.Run.inv (I := fun s => (s.Inv fun _ _ _ => True) ∧ s.Sourced) hrun
    ⟨hstart.inv, htasks⟩ ?_
  rintro s a s' ⟨hinv, hsourced⟩ - hstep
  exact ⟨step_inv (fun _ _ _ _ _ _ _ _ _ _ _ => trivial) (fun _ _ _ _ => trivial) hinv
    (pushesOnly_true s a) hstep, hsourced.step hinv hstep⟩

/-- What a stage writes to a row is backed by the log. -/
theorem call_backed {Good : List Stage → IBCV2Transfer → Ibcv2Transfer → Prop} (hinv : s.Inv Good)
    (hsourced : s.Sourced) {pl : Pipeline} {rest : List Stage} {stage : Stage}
    {ts : List IBCV2Transfer} {c : Call} {k : c.Answer → Eff (List IBCV2Transfer)}
    (hmem : ⟨pl, rest, .running stage ts (.call c k)⟩ ∈ s.tasks) (answer : c.Answer) {key : RowKey}
    {r : Ibcv2Transfer} (hr : s.world.row key = some r) :
    ∀ u ∈ updatesOfEvent key ⟨c, answer⟩, Backed r.route ts key s.world.log u := by
  intro u hu
  -- the row belongs to a transfer of the stage, or it would not be written
  have hkey : key ∈ ts.map (·.rowKey) := by
    by_contra hkey
    rw [(hinv.pending hmem answer).frame key hkey (hinv.table.ne_zero hr)] at hu
    cases hu
  obtain ⟨t, ht, rfl⟩ := List.mem_map.mp hkey
  have hway := ((hinv.sound _ hmem).2 t ht).toOnWay
  have hrow := hway.row
  rw [hr] at hrow
  -- so its packet is of the route of the pipeline
  have hroute : r.route = pl.route := (Option.some.inj hrow).trans hway.route.symm
  obtain ⟨past, hpast, hallows, -⟩ := hsourced _ hmem _ _ _ rfl
  rw [hroute]
  exact (hallows _ u (updatesOfEvent_subset _ _ hu)).mono hpast

/-- One step leaves attested rows: a new row records nothing, a mark is not about txs, and a stage
writes what is backed. -/
theorem attested_step (hinv : s.Inv fun _ _ _ => True) (hsourced : s.Sourced)
    (hrows : AllRows (Attested s.world.log) s) (hinv' : s'.Inv fun _ _ _ => True)
    (hstep : s.step config priceClient a = some s') : AllRows (Attested s'.world.log) s' := by
  have hrows' : AllRows (Attested s'.world.log) s := fun r hr => (hrows r hr).mono (log_step hstep)
  refine hrows'.step hinv' attested_inserted (fun r hr => hr.apply (.other rfl : Backed _ [] _ _ _))
    (fun i env hcall => ?_) hstep
  obtain ⟨pl, rest, stage, ts, c, k, htask, rfl⟩ := System.call_inv hcall
  refine .of_row hinv'.table fun key r' hr' => ?_
  change (s.world.next _ _).row key = some r' at hr'
  rw [row_next s.world ⟨c, env s.world c⟩] at hr'
  obtain ⟨r, hr, rfl⟩ := Option.map_eq_some_iff.mp hr'
  have hbacked := call_backed hinv hsourced (List.mem_of_getElem? htask) (env s.world c) hr
  obtain rfl := key_of_row hr
  exact (hrows'.row hr).applyAll fun u hu => (hbacked u hu).mono (List.subset_cons_self _ _)

/-- By induction over the steps of the run. -/
theorem run_attested {s₀ : System} (hstart : s₀.Started)
    (hrows : AllRows (Attested s₀.world.log) s₀)
    (hrun : System.Run config priceClient (fun _ _ => True) s₀ s) :
    AllRows (Attested s.world.log) s := by
  induction hrun with
  | refl => exact hrows
  | tail hrun hstep ih =>
    obtain ⟨a, -, hstep⟩ := hstep
    obtain ⟨hinv, hsourced⟩ := run_sourced hstart hrun
    obtain ⟨hinv', -⟩ := run_sourced hstart (hrun.tail ⟨a, trivial, hstep⟩)
    exact attested_step hinv hsourced ih hinv' hstep

/-- **What a row records was reported for its packet.** In every run from attested rows, each recv,
ack or timeout tx on a row is the answer of a bridge client that was asked for the tx of this
packet, or that has delivered it in a submission with this row; and each write ack is the answer for
this packet and this recv tx. -/
theorem tx_provenance {s₀ s : System} (hstart : s₀.Started)
    (hrows : AllRows (Attested s₀.world.log) s₀)
    (hrun : System.Run config priceClient (fun _ _ => True) s₀ s) :
    AllRows (Attested s.world.log) s :=
  run_attested hstart hrows hrun

end Run

/-- `tx_provenance` when a batch has delivered a recv tx and recorded it. -/
theorem tx_provenance_delivered :
    ∃ s, System.Run Sample.config false (fun _ _ => True) Sample.idle s
      ∧ (∃ r ∈ s.world.transfers, r.recvTxHash = some "0xd1")
      ∧ AllRows (Attested s.world.log) s := by
  have hscript : (Sample.idle.script Sample.config false (fun _ _ => true)
      (Sample.polledTwice ++ Sample.untilRecv (Sample.obliging .zero) ++ [.start 0]
        ++ List.replicate 11 (.call 0 (Sample.obliging .zero)))).any
      (fun s => s.world.transfers.any fun r => r.recvTxHash = some "0xd1") = true := by
    decide +kernel
  obtain ⟨s, hs, hrecorded⟩ := (Option.any_eq_true _ _).mp hscript
  have hrun : System.Run Sample.config false (fun _ _ => True) Sample.idle s :=
    System.run_of_script _ _ (fun _ _ _ => trivial) hs
  obtain ⟨r, hr, hhash⟩ := List.any_eq_true.mp hrecorded
  exact ⟨s, hrun, ⟨r, hr, of_decide_eq_true hhash⟩,
    tx_provenance Sample.started (by simp [AllRows, Sample.idle]) hrun⟩

end IbcRelayer
