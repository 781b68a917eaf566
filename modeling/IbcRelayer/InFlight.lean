import IbcRelayer.Bridge.TxOnce
import IbcRelayer.Interleaving

/-!
# IbcRelayer — what the deduplication sets hold

A key that stays in a deduplication set after its transfer has left the pipeline keeps the packet
from being relayed until a restart. A stage drops a transfer when its processor returns an error
that wraps `context.Canceled`, and only then.

* `Sober` — a processor returns such an error only if a call has answered with one. All the
  processors are sober (`single_sober`, `batch_sober`), so in the absence of such answers a stage
  puts all its transfers on its output (`runAlone_whole`, `runBatch_whole`).
* `in_flight_exactly` — in runs without such answers a set holds the keys of the transfers that are
  on their way, at every moment. When the dispatcher has had its turn with a row, the packet is on
  its way, or its chains are not configured.
-/

namespace IbcRelayer

open CallTree Prog IBCV2Transfer

/-! ## Canceled calls -/

/-- The answer is not an error that wraps `context.Canceled`. -/
def Call.Calm : (c : Call) → c.Answer → Prop
  | .getClient _, r => canceled r = false
  | .isPacketReceived .., r => canceled r = false
  | .isPacketCommitted .., r => canceled r = false
  | .findRecvTx .., r => canceled r = false
  | .findAckTx .., r => canceled r = false
  | .findTimeoutTx .., r => canceled r = false
  | .deliverTx .., r => canceled r = false
  | .packetWriteAckStatus .., r => canceled r = false
  | .shouldRetryTx .., r => canceled r = false
  | .waitForChain _, r => canceled r = false
  | .isTxFinalized .., r => canceled r = false
  | .isTimestampFinalized .., r => canceled r = false
  | .txFee .., r => canceled r = false
  | .getCoinUsdValue .., r => canceled r = false
  | .relayByTx .., r => canceled r = false
  | .update .., r => canceled r = false
  | .txBegin, r => canceled r = false
  | .txExec _, r => canceled r = false
  | .txInsertSubmission _, r => canceled r = false
  | .txRollback, r => canceled r = false
  | .txCommit _, r => canceled r = false
  | .chainType _, _ | .now .., _ | .warn .., _ | .addRelayCompleted .., _ => True

/-- The error of the program, if it ends with one, wraps `context.Canceled` only if an answer does.
-/
def Sober {α : Type} (x : ExceptT GoError Eff α) : Prop :=
  x.run.Given Call.Calm fun r => canceled r = false

section Sober

variable {α ρ : Type} {msg : String} {x : ExceptT GoError Eff α} {f : α → ExceptT GoError Eff ρ}

theorem sober_throw {err : GoError} (h : err.is .contextCanceled = false) :
    Sober (throw err : ExceptT GoError Eff ρ) := h

theorem Sober.bind (hx : Sober x) (hf : ∀ a, Sober (f a)) : Sober (x >>= f) := by
  unfold Sober
  rw [ExceptT.run_bind]
  refine Given.bind hx fun r hr => ?_
  cases r with
  | error err => exact hr
  | ok a => exact hf a

/-- Wrapping keeps what is in the chain of an error, and adds nothing to it. -/
theorem Sober.wrapErr (hx : Sober x) : Sober (wrapErr msg x) := by
  refine Given.bind hx fun r hr => ?_
  cases r with
  | error err => exact hr
  | ok a => exact hr

/-- The rule for a call whose error is wrapped and returned. -/
theorem sober_ask (hx : Sober x) (hf : ∀ a, Sober (f a)) : Sober (wrapErr msg x >>= f) :=
  hx.wrapErr.bind hf

/-- The rule for a call whose answer the method looks at itself. -/
theorem sober_look {p : Eff α} {Q : α → Prop} (hp : p.Given Call.Calm Q)
    (hf : ∀ a, Q a → Sober (f a)) : Sober ((liftM p : ExceptT GoError Eff α) >>= f) := by
  unfold Sober
  rw [ExceptT.run_bind]
  have hlift : (liftM p : ExceptT GoError Eff α).run.Given Call.Calm
      fun r => ∃ a, r = .ok a ∧ Q a := hp.bind fun a ha => ⟨a, rfl, ha⟩
  refine hlift.bind ?_
  rintro _ ⟨a, rfl, ha⟩
  exact hf a ha

end Sober

/-! ## The processors -/

section Processors

variable {t : IBCV2Transfer}

/-- The processors one by one: their own errors are texts and sentinels, and the errors of the calls
are passed on. -/
theorem checkRecv_sober : Sober (CheckRecvPacketDeliveryProcessor.process t) := by
  unfold CheckRecvPacketDeliveryProcessor.process
  refine sober_ask (fun _ h => h) fun _ => ?_
  refine sober_ask (fun _ h => h) fun received => ?_
  split
  · rfl
  · exact sober_ask (fun _ h => h) fun _ => sober_ask (fun _ h => h) fun _ => rfl

theorem checkCommitment_sober : Sober (CheckPacketCommitmentProcessor.process t) := by
  unfold CheckPacketCommitmentProcessor.process
  refine sober_ask (fun _ h => h) fun _ => ?_
  refine sober_ask (fun _ h => h) fun committed => ?_
  split
  · rfl
  · refine sober_look (given_true _) fun ackTx _ => ?_
    refine sober_look (given_true _) fun timeoutTx _ => ?_
    rcases ackTx with _ | ackTx <;> rcases timeoutTx with _ | timeoutTx
    · exact sober_throw rfl
    · exact sober_ask (fun _ h => h) fun _ => rfl
    · exact sober_ask (fun _ h => h) fun _ => rfl
    · exact sober_throw rfl

theorem checkSendFinality_sober {offset : Option UInt64} :
    Sober (CheckSendFinalityProcessor.process offset t) := by
  unfold CheckSendFinalityProcessor.process
  refine sober_ask (fun _ h => h) fun _ => ?_
  refine sober_ask (fun _ h => h) fun finalized => ?_
  cases finalized with
  | false => rfl
  | true =>
    change Sober (if t.sourceTxFinalizedTime.isSome then pure t else _)
    split
    · rfl
    · refine sober_look (given_true _) fun time _ => ?_
      exact sober_ask (fun _ h => h) fun _ => rfl

theorem checkTimeoutFinality_sober {offset : Option UInt64} :
    Sober (CheckTimeoutFinalityProcessor.process offset t) := by
  unfold CheckTimeoutFinalityProcessor.process
  refine sober_ask (fun _ h => h) fun _ => ?_
  refine sober_ask (fun _ h => h) fun finalized => ?_
  split
  · exact sober_throw rfl
  · rfl

theorem recordWriteAck_sober {recvHash : String} {status : Ibcv2WriteAckStatus} :
    Sober (WaitForWriteAckPacket.recordWriteAck t recvHash status) := by
  refine sober_look (given_true _) fun _ _ => ?_
  exact sober_ask (fun _ h => h) fun _ => rfl

/-- An error about the write ack is passed on as it came. -/
theorem waitForWriteAck_sober : Sober (WaitForWriteAckPacket.process t) := by
  unfold WaitForWriteAckPacket.process
  refine sober_ask (fun _ h => h) fun _ => ?_
  split
  · refine sober_look (Q := fun r => canceled r = false) (fun _ h => h) fun r hr => ?_
    rcases r with err | status
    · dsimp only
      split
      · exact sober_ask (fun _ h => h) fun _ => sober_throw rfl
      · split
        · exact sober_throw hr
        · exact recordWriteAck_sober
    · exact recordWriteAck_sober
  · exact sober_throw rfl

theorem checkWriteAckFinality_sober {offset : Option UInt64} :
    Sober (CheckWriteAckFinalityProcessor.process offset t) := by
  unfold CheckWriteAckFinalityProcessor.process
  refine sober_ask (fun _ h => h) fun _ => ?_
  split
  · refine sober_ask (fun _ h => h) fun finalized => ?_
    cases finalized with
    | false => rfl
    | true =>
      change Sober (if t.writeAckTxFinalizedTime.isSome then pure t else _)
      split
      · rfl
      · refine sober_look (given_true _) fun time _ => ?_
        exact sober_ask (fun _ h => h) fun _ => rfl
  · exact sober_throw rfl

/-- The sentinels of the retry processors are other ones. -/
theorem retry_sober {p : RetryPacket} (herr : p.errRetrying.is .contextCanceled = false) :
    Sober (p.process t) := by
  unfold RetryPacket.process
  refine sober_ask (fun _ h => h) fun _ => ?_
  split
  · split
    · refine sober_ask (fun _ h => h) fun retry => ?_
      cases retry with
      | false => rfl
      | true => exact sober_ask (fun _ h => h) fun _ => sober_throw herr
    · exact sober_throw rfl
  · exact sober_throw rfl

theorem gas_sober {p : TxGasCalculator} {coingeckoID : String} {decimals : UInt8} :
    Sober (p.process coingeckoID decimals t) := by
  unfold TxGasCalculator.process
  refine sober_ask (fun _ h => h) fun _ => ?_
  split
  · refine sober_ask (fun _ h => h) fun _ => ?_
    refine sober_ask (fun _ h => h) fun _ => ?_
    exact sober_ask (fun _ h => h) fun _ => rfl
  · exact sober_throw rfl

/-- All processors of single transfers are sober. -/
theorem single_sober {pl : Pipeline} {stage : Stage} {p : IBCV2Processor}
    (hproc : stage.processor pl = .single p) (t : IBCV2Transfer) : Sober (p.process t) := by
  cases stage <;> cases hproc
  case checkRecvPacketDelivery => exact checkRecv_sober
  case checkInitialPacketCommitment => exact checkCommitment_sober
  case checkSendPacketFinality => exact checkSendFinality_sober
  case checkTimeoutTimestampFinality => exact checkTimeoutFinality_sober
  case waitForWriteAckPacket => exact waitForWriteAck_sober
  case checkWriteAckFinality => exact checkWriteAckFinality_sober
  case checkPostReceivePacketCommitment => exact checkCommitment_sober
  case retryTimeoutPacket | retryRecvPacket | retryAckPacket => exact retry_sober rfl
  case timeoutTxGasCalculator | recvTxGasCalculator | ackTxGasCalculator => exact gas_sober

/-! ### Batches -/

/-- `Sober` for the body of a transaction. -/
def TxSober {α : Type} (x : Tx α) : Prop := ∀ stmts, Sober (x.run stmts)

theorem TxSober.bind {α β : Type} {x : Tx α} {f : α → Tx β} (hx : TxSober x)
    (hf : ∀ a, TxSober (f a)) : TxSober (x >>= f) := by
  intro stmts
  exact (hx stmts).bind fun ⟨a, stmts'⟩ => hf a stmts'

theorem txSober_exec (msg : String) (stmt : TxStmt) : TxSober (Tx.wrapErr msg (Tx.exec stmt)) := by
  intro stmts
  refine Sober.wrapErr fun r hr => ?_
  cases r with
  | error err => exact hr
  | ok a => rfl

theorem updateTxs_sober (p : BatchPacket) (tx : BridgeTx) (ts : List IBCV2Transfer) :
    TxSober (p.updateTxs tx ts) := by
  induction ts with
  | nil => exact fun _ => rfl
  | cons t ts ih => exact (txSober_exec _ _).bind fun _ => ih

/-- A missing id is an error of the relayer's own. -/
theorem insertMappings_sober (submissionID : Int32) (ts : List IBCV2Transfer) :
    TxSober (insertTransferTxSubmissionMappings submissionID ts) := by
  induction ts with
  | nil => exact fun _ => rfl
  | cons t ts ih =>
    unfold insertTransferTxSubmissionMappings
    split
    · exact fun _ => sober_throw rfl
    · exact (txSober_exec _ _).bind fun _ => ih

/-- The body of a batch's transaction. -/
theorem record_sober (p : BatchPacket) (tx : BridgeTx) (ts : List IBCV2Transfer) :
    TxSober (p.record tx ts) := by
  refine (updateTxs_sober p tx ts).bind fun _ => ?_
  split
  · exact fun _ => rfl
  · refine TxSober.bind (fun stmts => Sober.wrapErr fun r hr => ?_) fun id stmts =>
      (insertMappings_sober id ts stmts).wrapErr
    cases r with
    | error err => exact hr
    | ok a => rfl

/-- A transaction ends with the error of its body or of the database, or with both. -/
theorem execTx_sober {body : Tx Unit} (h : TxSober body) : Sober (execTx body) := by
  intro r hr
  cases r with
  | error err => exact hr
  | ok _ =>
    have hbody : (body.run []).run.Given Call.Calm fun r => canceled r = false := h []
    refine hbody.bind fun r hr => ?_
    cases r with
    | ok r => exact fun _ h => h
    | error err =>
      -- the error of a failed rollback is added to that of the body
      intro rollback hrollback
      cases rollback with
      | ok _ => exact hr
      | error rollback =>
        have herr : Sentinel.contextCanceled ∉ err.chain := by simpa [canceled, GoError.is] using hr
        have hrb : Sentinel.contextCanceled ∉ rollback.chain := by
          simpa [Call.Calm, canceled, GoError.is] using hrollback
        change (err.chain ++ rollback.chain).contains Sentinel.contextCanceled = false
        simp [herr, hrb]

/-- The batch processors are sober. -/
theorem batch_sober (p : BatchPacket) (ts : List IBCV2Transfer) : Sober (p.process ts) := by
  unfold BatchPacket.process
  refine sober_ask (fun _ h => h) fun resp => ?_
  refine sober_ask (fun _ h => h) fun _ => ?_
  refine sober_look (given_true _) fun chainType _ => ?_
  have hdeliver : Sober (p.deliver (p.gather [] ts) resp) :=
    sober_ask (fun _ h => h) fun tx => sober_ask (execTx_sober (record_sober p tx _)) fun _ => rfl
  split
  · exact sober_ask (fun _ h => h) fun _ => hdeliver
  · exact hdeliver

end Processors

/-! ## The stages -/

/-- A stage that gets one transfer puts it on its output. -/
theorem runAlone_whole {pl : Pipeline} {stage : Stage} (h : stage.isSingle pl) (t : IBCV2Transfer) :
    ((stage.processor pl).runAlone t).Given Call.Calm fun out => out.length = 1 := by
  refine Given.bind (Q := fun o => o.isSome = true) ?_ fun o ho => ?_
  · cases hproc : stage.processor pl with
    | single p =>
      refine Given.bind (Q := fun r => ∃ t', r = .ok t') ?_ ?_
      · unfold IBCV2ProcessorMW.process
        refine (given_true _).bind fun a _ => ?_
        cases a with
        | skipped => exact ⟨_, rfl⟩
        | stateNotUpdated err => exact ⟨_, rfl⟩
        | admitted =>
          refine Given.bind (single_sober hproc _) fun r hr => ?_
          cases r with
          | ok output => exact ⟨_, rfl⟩
          | error err =>
            -- the error does not wrap `context.Canceled`, so it stays on the transfer
            have hcalm : err.is .contextCanceled = false := hr
            dsimp only
            rw [hcalm]
            exact ⟨_, rfl⟩
      · rintro _ ⟨t', rfl⟩
        rfl
    | batch q => exact absurd hproc (h q)
    | finisher success error => exact (given_true _).bind fun _ _ => rfl
  · obtain ⟨t', rfl⟩ := Option.isSome_iff_exists.mp ho
    rfl

/-- A batch comes out whole. -/
theorem runBatch_whole {pl : Pipeline} {stage : Stage} {q : IBCV2BatchProcessor}
    (hproc : stage.processor pl = .batch q) (ts : List IBCV2Transfer) :
    (q.runBatch ts).Given Call.Calm fun out => out.length = ts.length := by
  obtain ⟨p, hq, -⟩ := batch_meets hproc
  unfold IBCV2BatchProcessor.runBatch IBCV2BatchProcessorMW.process
  rw [Prog.bind_assoc]
  refine ((given_true _).and_ensures (admitBatch_events hq.asked ts)).bind ?_
  rintro as ⟨-, evs, hfst, -⟩
  -- the batch falls into the part that is processed and the part that is not
  have hsplit : (toProcess q.state as).length + (notProcessing as).length = ts.length := by
    have hlength := (split_keys q.state as).length_eq
    simpa [← hfst] using hlength
  dsimp only
  split
  · rename_i hempty
    rw [List.isEmpty_iff.mp hempty] at hsplit
    change (notProcessing as).length = ts.length
    simpa using hsplit
  · rw [hq.process, Prog.bind_assoc]
    refine ((batch_sober p _).and_ensures (batch_spec p _ RowKey.zero)).bind ?_
    rintro r ⟨hr, evs', hspec⟩
    rcases r with err | out
    · have hcalm : err.is .contextCanceled = false := hr
      dsimp only
      rw [hcalm]
      change List.length (_ ++ _) = ts.length
      simpa using hsplit
    · obtain ⟨tx, rfl, -⟩ := hspec.ok
      change List.length (_ ++ _) = ts.length
      simpa [BatchPacket.setTxs] using hsplit

/-! ## The sets -/

/-- A transfer with this key is on its way in the pipeline of the route. -/
def System.Carries (s : System) (route : Route) (k : TransferKey) : Prop :=
  ∃ task ∈ s.tasks, ∃ t ∈ task.work.copies, newPipelineKey t = route ∧ newTransferKey t = k

/-- A stage that makes a call gets no answer that wraps `context.Canceled`. -/
def CalmStep (s : System) : Action → Prop
  | .call i env => ∀ pl rest stage ts c k,
      s.tasks[i]? = some ⟨pl, rest, .running stage ts (.call c k)⟩ → c.Calm (env s.world c)
  | _ => True

/-- A stage that is at work will put all its transfers on its output. -/
def Task.Whole (task : Task) : Prop :=
  ∀ stage ts prog, task.work = .running stage ts prog →
    prog.Given Call.Calm fun out => out.length = ts.length

/-- **The invariant**: a key in a set is that of a transfer on its way. The converse is a field of
`System.Inv`. -/
structure Flight (s : System) : Prop where
  inv : s.Inv fun _ _ _ => True
  carried : ∀ d ∈ s.pipelines, ∀ k ∈ d.inPipeline, s.Carries d.pipeline.route k
  whole : ∀ task ∈ s.tasks, task.Whole

/-- A key is added to the set of one pipeline. -/
theorem mem_updatePipeline_added {ds : List PipelineDeduper} {d₀ d : PipelineDeduper}
    {key k : TransferKey}
    (hd : d ∈ updatePipeline d₀.pipeline.route
      (fun _ => { d₀ with inPipeline := key :: d₀.inPipeline }) ds) (hk : k ∈ d.inPipeline) :
    (d.pipeline.route = d₀.pipeline.route ∧ (k = key ∨ k ∈ d₀.inPipeline)) ∨ d ∈ ds := by
  obtain ⟨d₁, hd₁, rfl⟩ := List.mem_map.mp hd
  split at hk
  · rename_i heq
    rw [if_pos heq]
    exact .inl ⟨rfl, List.mem_cons.mp hk⟩
  · rename_i hne
    rw [if_neg hne]
    exact .inr hd₁

/-- What `SubmitTransfer` does to the sets: a key that is new in one is that of the pushed transfer.
-/
theorem submitTransfer_sets (config : ConfigReader) (priceClient : Bool) (ds : List PipelineDeduper)
    (t : IBCV2Transfer) :
    (∃ pl ds', submitTransfer config priceClient ds t = (.pushed pl, ds')
        ∧ ∀ d ∈ ds', ∀ k ∈ d.inPipeline,
          (∃ d₀ ∈ ds, d₀.pipeline.route = d.pipeline.route ∧ k ∈ d₀.inPipeline)
            ∨ d.pipeline.route = newPipelineKey t ∧ k = newTransferKey t)
      ∨ (submitTransfer config priceClient ds t = (.alreadyInPipeline, ds)
        ∧ ∃ d ∈ ds, d.pipeline.route = newPipelineKey t ∧ newTransferKey t ∈ d.inPipeline)
      ∨ ∃ err err', submitTransfer config priceClient ds t = (.failed err, ds)
        ∧ IBCV2PipelineManager.newPipelineForTransfer config priceClient t = .error err' := by
  unfold submitTransfer IBCV2PipelineManager.pipeline
  cases hfind : ds.find? (·.pipeline.route = newPipelineKey t) with
  | some d₀ =>
    have hd₀ := List.mem_of_find?_eq_some hfind
    have hroute : d₀.pipeline.route = newPipelineKey t := by simpa using List.find?_some hfind
    by_cases hin : newTransferKey t ∈ d₀.inPipeline
    · refine .inr (.inl ⟨?_, d₀, hd₀, hroute, hin⟩)
      simp [PipelineDeduper.push, hin]
    · refine .inl ⟨d₀.pipeline, updatePipeline d₀.pipeline.route
        (fun _ => { d₀ with inPipeline := newTransferKey t :: d₀.inPipeline }) ds,
        by simp [PipelineDeduper.push, hin], fun d hd k hk => ?_⟩
      rcases mem_updatePipeline_added hd hk with ⟨heq, rfl | hold⟩ | hd
      · exact .inr ⟨heq.trans hroute, rfl⟩
      · exact .inl ⟨d₀, hd₀, heq.symm, hold⟩
      · exact .inl ⟨d, hd, rfl, hk⟩
  | none =>
    cases hnew : IBCV2PipelineManager.newPipelineForTransfer config priceClient t with
    | error err => exact .inr (.inr ⟨_, err, rfl, rfl⟩)
    | ok d₀ =>
      have hd₀ : d₀.pipeline.route = newPipelineKey t ∧ d₀.inPipeline = [] := by
        unfold IBCV2PipelineManager.newPipelineForTransfer at hnew
        split at hnew
        · cases hnew
        · cases hnew
          exact ⟨rfl, rfl⟩
      have hin : newTransferKey t ∉ d₀.inPipeline := by simp [hd₀.2]
      refine .inl ⟨d₀.pipeline, updatePipeline d₀.pipeline.route
        (fun _ => { d₀ with inPipeline := newTransferKey t :: d₀.inPipeline }) (d₀ :: ds),
        by simp [PipelineDeduper.push, hin], fun d hd k hk => ?_⟩
      -- the set of a pipeline that was just created is empty
      rcases mem_updatePipeline_added hd hk with ⟨heq, rfl | hold⟩ | hd
      · exact .inr ⟨heq.trans hd₀.1, rfl⟩
      · rw [hd₀.2] at hold
        cases hold
      · rcases List.mem_cons.mp hd with rfl | hd
        · rw [hd₀.2] at hk
          cases hk
        · exact .inl ⟨d, hd, rfl, hk⟩

section Run

variable {config : ConfigReader} {priceClient : Bool} {s s' : System} {a : Action} {i : Nat}
  {route : Route} {k : TransferKey}

/-- Some tasks become others, which have their transfers. -/
theorem System.Carries.regroup {old others new : List Task} (h : s.Carries route k)
    (htasks : s.tasks.Perm (old ++ others)) (htasks' : s'.tasks = others ++ new)
    (hnew : ∀ task ∈ old, ∀ t ∈ task.work.copies,
      ∃ task' ∈ new, ∃ u ∈ task'.work.copies, SamePacket t u) : s'.Carries route k := by
  obtain ⟨task, htask, t, ht, hroute, hkey⟩ := h
  unfold System.Carries
  rw [htasks']
  rcases List.mem_append.mp (htasks.mem_iff.mp htask) with hold | hother
  · obtain ⟨task', htask', u, hu, hpacket⟩ := hnew task hold t ht
    exact ⟨task', List.mem_append_right _ htask', u, hu, hpacket.newPipelineKey.trans hroute,
      hpacket.newTransferKey.trans hkey⟩
  · exact ⟨task, List.mem_append_left _ hother, t, ht, hroute, hkey⟩

theorem System.Carries.replace {task : Task} {new : List Task} (h : s.Carries route k)
    (htask : s.tasks[i]? = some task) (htasks' : s'.tasks = s.tasks.eraseIdx i ++ new)
    (hnew : ∀ t ∈ task.work.copies, ∃ task' ∈ new, ∃ u ∈ task'.work.copies, SamePacket t u) :
    s'.Carries route k := by
  refine h.regroup (perm_cons_eraseIdx htask) htasks' fun task' htask' => ?_
  rw [List.mem_singleton.mp htask']
  exact hnew

/-- Calm answers leave every stage whole. -/
theorem whole_step (h : ∀ task ∈ s.tasks, task.Whole) (hcalm : CalmStep s a)
    (hstep : s.step config priceClient a = some s') : ∀ task ∈ s'.tasks, task.Whole := by
  intro task htask stage ts prog hwork
  rcases running_step hstep htask hwork with hin | ⟨old, hold, hstart⟩ | ⟨i, env, rfl⟩
  · exact h task hin stage ts prog hwork
  · rcases System.start_inv hstart with ⟨pl, stage, rest, t, rfl, hsingle, rfl⟩
      | ⟨pl, stage, rest, ts, q, rfl, hq, rfl⟩
    · cases hwork
      exact runAlone_whole hsingle t
    · cases hwork
      exact runBatch_whole hq ts
  · obtain ⟨pl, rest, stage, ts, c, k, hcall, rfl⟩ := System.call_inv hstep
    rcases List.mem_append.mp htask with hin | hin
    · exact h task (List.mem_of_mem_eraseIdx hin) _ _ _ hwork
    · rw [List.mem_singleton.mp hin] at hwork
      cases hwork
      exact h _ (List.mem_of_getElem? hcall) _ _ _ rfl _ (hcalm _ _ _ _ c _ hcall)

/-- A stage that is done hands all its transfers on. -/
theorem Flight.finish (h : Flight s) (hstep : s.finish i = some s') (hk : s.Carries route k) :
    s'.Carries route k := by
  obtain ⟨pl, rest, stage, ts, output, htask, rfl⟩ := System.finish_inv hstep
  have hmem := List.mem_of_getElem? htask
  obtain ⟨⟨-, hkeys⟩, hvisits⟩ := h.inv.sound _ hmem
  have hlength : output.length = ts.length := h.whole _ hmem _ _ _ rfl
  -- the output has the keys of the input: at most these, and as many of them
  have hperm : (output.map (·.rowKey)).Perm (ts.map (·.rowKey)) :=
    hkeys.perm_of_length_le (by simp [hlength])
  refine hk.replace htask rfl fun t ht => ?_
  obtain ⟨u, hfind⟩ : ∃ u, output.find? (·.rowKey = t.rowKey) = some u := by
    obtain ⟨u, hu, hkey⟩ := List.mem_map.mp (hperm.mem_iff.mpr (List.mem_map_of_mem ht))
    exact Option.isSome_iff_exists.mp (List.find?_isSome.mpr ⟨u, hu, by simpa using hkey⟩)
  obtain ⟨keys, past, r₀, -, -, hvisit⟩ := (hvisits t ht).visit
  change StageVisit pl keys t stage (output.find? (·.rowKey = t.rowKey)) ([] ++ past) at hvisit
  rw [hfind] at hvisit
  refine ⟨⟨pl, rest, .waiting u⟩, List.mem_map_of_mem (List.mem_of_find?_eq_some hfind), u, ?_,
    hvisit.samePacket⟩
  exact List.mem_singleton_self u

/-- The watching goroutine takes a key out of a set with the transfer. -/
theorem Flight.watch (h : Flight s) (hstep : s.watch i = some s') :
    ∀ d ∈ s'.pipelines, ∀ k ∈ d.inPipeline, s'.Carries d.pipeline.route k := by
  obtain ⟨pl, t, htask, rfl⟩ := System.watch_inv hstep
  have hwaits : Waits (fun _ _ _ => True) s.world pl [] t :=
    h.inv.sound _ (List.mem_of_getElem? htask)
  intro d' hd' k hk
  obtain ⟨d, hd, rfl⟩ := List.mem_map.mp hd'
  have hroute : (if d.pipeline.route = pl.route then d.delete t else d).pipeline.route
      = d.pipeline.route := by
    split <;> rfl
  -- the key is still in the set, so it is not the one that was deleted
  have hkd : k ∈ d.inPipeline ∧ (d.pipeline.route = pl.route → k ≠ newTransferKey t) := by
    split at hk
    · obtain ⟨hin, hne⟩ := List.mem_filter.mp hk
      exact ⟨hin, fun _ => of_decide_eq_true hne⟩
    · rename_i hne
      exact ⟨hk, fun heq => absurd heq hne⟩
  rw [hroute]
  obtain ⟨task₀, hmem, u, hu, huroute, hukey⟩ := h.carried d hd k hkd.1
  rcases List.mem_append.mp ((perm_cons_eraseIdx htask).mem_iff.mp hmem) with heq | hin
  · -- the transfer that has left is the one whose key has been taken out
    rw [List.mem_singleton.mp heq] at hu
    cases List.mem_singleton.mp hu
    exact absurd hukey.symm (hkd.2 (huroute.symm.trans hwaits.route.symm))
  · exact ⟨task₀, by simpa [System.replace] using hin, u, hu, huroute, hukey⟩

/-- The dispatcher pushes a transfer with its key, or leaves it because its key is in the set. -/
theorem Flight.submit (h : Flight s) {answer : Except GoError Unit} {r : Ibcv2Transfer}
    {rest : List Ibcv2Transfer} (hsnapshot : s.snapshot = r :: rest)
    (hstep : s.submit config priceClient answer = some s') :
    (∀ d ∈ s'.pipelines, ∀ k ∈ d.inPipeline, s'.Carries d.pipeline.route k)
      ∧ (s'.Carries r.route (newTransferKey (newIBCV2Transfer r))
        ∨ ∃ err, IBCV2PipelineManager.newPipelineForTransfer config priceClient (newIBCV2Transfer r)
          = .error err) := by
  unfold System.submit at hstep
  rw [hsnapshot] at hstep
  dsimp only at hstep
  rcases submitTransfer_sets config priceClient s.pipelines (newIBCV2Transfer r) with
    ⟨pl, ds, hsubmit, hsets⟩ | ⟨hsubmit, d₀, hd₀, hroute, hin⟩ | ⟨err, err', hsubmit, hnew⟩
  · rw [hsubmit] at hstep
    cases hstep
    -- the task that the push starts carries the key that the push puts in
    have hpushed : System.Carries { s with
        snapshot := rest
        pipelines := ds
        tasks := s.tasks ++ [⟨pl, newPipeline pl, .waiting (newIBCV2Transfer r)⟩] } r.route
        (newTransferKey (newIBCV2Transfer r)) :=
      ⟨_, List.mem_append_right _ (List.mem_singleton_self _), _, List.mem_singleton_self _, rfl,
        rfl⟩
    refine ⟨fun d hd k hk => ?_, .inl hpushed⟩
    rcases hsets d hd k hk with ⟨d₀, hd₀, hroute, hk₀⟩ | ⟨hroute, rfl⟩
    · obtain ⟨task, htask, hcarries⟩ := h.carried d₀ hd₀ k hk₀
      rw [← hroute]
      exact ⟨task, List.mem_append_left _ htask, hcarries⟩
    · rw [hroute]
      exact hpushed
  · rw [hsubmit] at hstep
    cases hstep
    refine ⟨h.carried, .inl ?_⟩
    have hcarried := h.carried d₀ hd₀ _ hin
    rw [hroute] at hcarried
    exact hcarried
  · rw [hsubmit] at hstep
    cases hstep
    exact ⟨h.carried, .inr ⟨err', hnew⟩⟩

/-- Every step keeps the invariant; the interesting ones are `finish`, `watch` and `submit`. -/
theorem Flight.step (h : Flight s) (hcalm : CalmStep s a)
    (hstep : s.step config priceClient a = some s') : Flight s' := by
  -- `Good` is not used here: only who has which transfer
  refine ⟨?_, ?_, whole_step h.whole hcalm hstep⟩
  · exact step_inv (fun _ _ _ _ _ _ _ _ _ _ _ => trivial) (fun _ _ _ _ => trivial) h.inv
      (pushesOnly_true s a) hstep
  · have hcarried := h.carried
    cases a with
    | relay chainID txHash packets =>
      cases hstep
      exact hcarried
    | poll =>
      obtain ⟨-, rfl⟩ := System.poll_inv hstep
      exact hcarried
    | submit answer =>
      obtain ⟨r, rest, hsnapshot, -⟩ := System.submit_inv hstep
      exact (h.submit hsnapshot hstep).1
    | route i env j =>
      obtain ⟨pl, stage, rest, t, q, wanted, world, htask, -, -, hend⟩ := System.route_inv hstep
      rcases hend with ⟨-, rfl⟩ | ⟨-, rfl⟩ | ⟨-, j, ts, hbatch, rfl⟩
      · intro d hd k hk
        exact (hcarried d hd k hk).replace htask rfl fun t ht =>
          ⟨_, List.mem_singleton_self _, t, ht, .refl t⟩
      · intro d hd k hk
        exact (hcarried d hd k hk).replace htask rfl fun t ht =>
          ⟨_, List.mem_singleton_self _, t, ht, .refl t⟩
      · -- two tasks become one: the batch and the transfer that joins it
        have htasks := (perm_cons_eraseIdx htask).trans
          ((perm_cons_eraseIdx hbatch).append_left [⟨pl, stage :: rest, .waiting t⟩])
        rw [← List.append_assoc] at htasks
        intro d hd k hk
        refine (hcarried d hd k hk).regroup htasks rfl fun task hin u hu =>
          ⟨_, List.mem_singleton_self _, u, ?_, .refl u⟩
        rcases List.mem_cons.mp hin with rfl | hin
        · exact List.mem_append_right _ hu
        · rw [List.mem_singleton.mp hin] at hu
          exact List.mem_append_left _ hu
    | start i =>
      obtain ⟨task, task', htask, hstart, rfl⟩ := System.step_start_inv hstep
      intro d hd k hk
      refine (hcarried d hd k hk).replace htask rfl fun t ht =>
        ⟨task', List.mem_singleton_self _, t, ?_, .refl t⟩
      rcases System.start_inv hstart with
        ⟨_, _, _, _, rfl, -, rfl⟩ | ⟨_, _, _, _, _, rfl, -, rfl⟩ <;>
        exact ht
    | call i env =>
      obtain ⟨pl, rest, stage, ts, c, k, htask, rfl⟩ := System.call_inv hstep
      intro d hd k hk
      exact (hcarried d hd k hk).replace htask rfl fun t ht =>
        ⟨_, List.mem_singleton_self _, t, ht, .refl t⟩
    | finish i =>
      obtain ⟨pl, rest, stage, ts, output, -, hs'⟩ := System.finish_inv hstep
      intro d hd k hk
      rw [hs'] at hd
      exact h.finish hstep (hcarried d hd k hk)
    | watch i => exact h.watch hstep

/-- At the start there is neither a set nor a task. -/
theorem System.Started.flight (h : s.Started) : Flight s where
  inv := h.inv
  carried d hd := by
    rw [h.pipelines] at hd
    cases hd
  whole task htask := by
    rw [h.tasks] at htask
    cases htask

/-- **A deduplication set holds the keys of the transfers that are on their way**, at every moment
of a run without canceled calls. And when the dispatcher has had its turn with a row of its poll,
the packet is on its way, unless no pipeline can be made for it. -/
theorem in_flight_exactly {s₀ : System} (hstart : s₀.Started)
    (hrun : System.Run config priceClient CalmStep s₀ s) :
    (∀ d ∈ s.pipelines, ∀ k, k ∈ d.inPipeline ↔ s.Carries d.pipeline.route k)
      ∧ ∀ r rest answer s', s.snapshot = r :: rest →
        s.step config priceClient (.submit answer) = some s' →
        s'.Carries r.route (newTransferKey (newIBCV2Transfer r))
          ∨ ∃ err, IBCV2PipelineManager.newPipelineForTransfer config priceClient
            (newIBCV2Transfer r) = .error err := by
  have hflight : Flight s :=
    Machine.Run.inv hrun hstart.flight fun h hcalm hstep => h.step hcalm hstep
  refine ⟨fun d hd k => ⟨hflight.carried d hd k, ?_⟩, ?_⟩
  -- a transfer of a task is known to the set of its route, and the route has one pipeline
  · rintro ⟨task, htask, t, ht, hroute, rfl⟩
    obtain ⟨d', hd', hroute', hkey⟩ := hflight.inv.admitted task htask t ht
    rwa [eq_of_route hflight.inv.routes hd hd' (hroute.symm.trans hroute'.symm)]
  · intro r rest answer s' hsnapshot hstep
    exact (hflight.submit hsnapshot hstep).2

end Run

/-- A list of actions that are known, each of which has passed the check `ok`. -/
theorem System.run_of_actions {config : ConfigReader} {priceClient : Bool}
    {ok : System → Action → Bool} {P : System → Action → Prop} {as : List Action} {s s' : System}
    (hP : ∀ a ∈ as, ∀ s, ok s a = true → P s a)
    (h : s.script config priceClient ok as = some s') : System.Run config priceClient P s s' := by
  induction as generalizing s with
  | nil =>
    cases h
    exact .refl
  | cons a as ih =>
    obtain ⟨ha, has⟩ := List.forall_mem_cons.mp hP
    rw [System.script] at h
    split at h
    · rename_i hok
      obtain ⟨s₁, hstep, h⟩ := Option.bind_eq_some_iff.mp h
      exact .head ⟨a, ha s hok, hstep⟩ (ih has h)
    · cases h

/-- The unsure environment answers with errors, but none of them is a cancellation. -/
theorem Sample.unsure_calm (w : World) (c : Call) : c.Calm (Sample.unsure w c) := by
  cases c <;> first | rfl | trivial

/-- `in_flight_exactly` after a pass that has failed: the key has left the set, and the packet is
pushed again. -/
theorem in_flight_exactly_again :
    ∃ s s' r rest, System.Run Sample.config false CalmStep Sample.idle s
      ∧ s.snapshot = r :: rest ∧ s.tasks.length = 0 ∧ s.pipelines ≠ []
      ∧ s.step Sample.config false (.submit (.ok ())) = some s'
      ∧ (∀ d ∈ s.pipelines, ∀ k, k ∈ d.inPipeline ↔ s.Carries d.pipeline.route k)
      ∧ s'.Carries r.route (newTransferKey (newIBCV2Transfer r)) := by
  have hscript : (Sample.idle.script Sample.config false (fun _ _ => true)
      (Sample.polledTwice ++ Sample.failedPass ++ [.watch 0])).any (fun s =>
        s.snapshot = [Sample.row] && s.tasks.length = 0 && s.pipelines ≠ []
          && (s.step Sample.config false (.submit (.ok ()))).isSome) = true := by decide +kernel
  obtain ⟨s, hs, h⟩ := (Option.any_eq_true _ _).mp hscript
  simp only [Bool.and_eq_true, decide_eq_true_eq] at h
  obtain ⟨⟨⟨hsnapshot, htasks⟩, hpipelines⟩, hsubmit⟩ := h
  obtain ⟨s', hstep⟩ := Option.isSome_iff_exists.mp hsubmit
  have hrun : System.Run Sample.config false CalmStep Sample.idle s := by
    refine System.run_of_actions (fun a ha s _ => ?_) hs
    cases a with
    | call i env =>
      have henv : env = Sample.unsure := by
        simp [Sample.polledTwice, Sample.failedPass, Sample.untilRecv, Sample.work] at ha
        grind
      rw [henv]
      exact fun _ _ _ _ c _ _ => Sample.unsure_calm _ c
    | _ => trivial
  obtain ⟨hsets, hpolled⟩ := in_flight_exactly Sample.started hrun
  refine ⟨s, s', _, _, hrun, hsnapshot, htasks, hpipelines, hstep, hsets, ?_⟩
  refine (hpolled _ _ _ _ hsnapshot hstep).resolve_right ?_
  rintro ⟨err, herr⟩
  have hok : (IBCV2PipelineManager.newPipelineForTransfer Sample.config false
      (newIBCV2Transfer Sample.row)).isOk = true := by decide +kernel
  rw [herr] at hok
  cases hok

end IbcRelayer
