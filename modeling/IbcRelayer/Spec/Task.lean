import Mathlib.Data.List.Nodup
import Mathlib.Data.List.Perm.Subperm
import IbcRelayer.Dispatcher
import IbcRelayer.Spec.Pass

/-!
# IbcRelayer — a stage at work among others

What a stage does for a transfer is its visit (`StageVisit`). When stages work at the same time it
also matters what a stage does not do:

* `Owned` — an event writes no row but those of the transfers that the stage was given, it submits a
  tx for no other transfer, a request is the one of the stage for these transfers, and a question
  about a packet is about the transfer of a stage that has only one;
* `Kept` — the events of a stage are owned, and it puts no other transfer on its output;
* `CallFor` — the questions and the statements of a stage that has one transfer, which
  `single_calls` goes through once for all of them.

`runAlone_kept`, `runBatch_kept` and their `_visit` counterparts say both of the programs that the
tasks of a `System` run.
-/

namespace IbcRelayer

open CallTree Prog IBCV2Transfer

/-! ## Questions about a packet -/

/-- The sequence number in a question to a chain. -/
def Call.sequenceNumber : Call → Option UInt64
  | .isPacketReceived _ _ n | .isPacketCommitted _ _ n | .findRecvTx _ _ _ n _ | .findAckTx _ _ _ n
  | .findTimeoutTx _ _ _ n | .packetWriteAckStatus _ _ n _ _ => some n
  | _ => none

/-- The call is not about a packet with another sequence number. -/
def Call.Concerns (n : UInt64) (c : Call) : Prop := ∀ m, c.sequenceNumber = some m → m = n

section Concerns

variable {n : UInt64} {c : Call}

theorem concerns_none (h : c.sequenceNumber = none) : c.Concerns n := by
  intro m hm
  rw [h] at hm
  cases hm

theorem concerns_some (h : c.sequenceNumber = some n) : c.Concerns n := by
  intro m hm
  rw [h] at hm
  cases hm
  rfl

/-- The rule for a call whose error is wrapped and returned: every call of the rest has to have the
property, too. -/
theorem always_ask {α ρ : Type} {P : Call → Prop} {msg : String} {x : ExceptT GoError Eff α}
    {f : α → ExceptT GoError Eff ρ} (hx : x.run.Always P) (hf : ∀ a, (f a).run.Always P) :
    (wrapErr msg x >>= f).run.Always P := by
  refine Always.except_bind ?_ hf
  unfold wrapErr
  rw [ExceptT.run_mk]
  refine hx.bind fun r => ?_
  cases r <;> trivial

/-- The rule for a call whose answer the method looks at itself. -/
theorem always_look {α ρ : Type} {P : Call → Prop} {p : Eff α} {f : α → ExceptT GoError Eff ρ}
    (hp : p.Always P) (hf : ∀ a, (f a).run.Always P) :
    ((liftM p : ExceptT GoError Eff α) >>= f).run.Always P :=
  hp.except_lift.except_bind hf

/-- A call that is made and whose answer is returned. -/
theorem always_call {α : Type} {P : Call → Prop} {k : c.Answer → α} (h : P c) :
    (Prog.call c fun r => .done (k r) : Eff α).Always P :=
  ⟨h, fun _ => trivial⟩

/-- Recording a write ack asks nothing about a packet. -/
theorem recordWriteAck_concerns (t : IBCV2Transfer) (recvHash : String)
    (status : Ibcv2WriteAckStatus) :
    (WaitForWriteAckPacket.recordWriteAck t recvHash status).run.Always (Call.Concerns n) := by
  refine always_look ⟨concerns_none rfl, fun _ => trivial⟩ fun _ => ?_
  exact always_ask ⟨concerns_none rfl, fun _ => trivial⟩ fun _ => trivial

/-- The question of `WaitForWriteAck` is about the packet of the transfer. -/
theorem waitForWriteAck_concerns (t : IBCV2Transfer) :
    (WaitForWriteAckPacket.process t).run.Always (Call.Concerns t.sequence) := by
  unfold WaitForWriteAckPacket.process
  refine always_ask ⟨concerns_none rfl, fun _ => trivial⟩ fun _ => ?_
  split
  · refine always_look ⟨concerns_some rfl, fun _ => trivial⟩ fun r => ?_
    rcases r with err | status
    · dsimp only
      split
      · exact always_ask ⟨concerns_none rfl, fun _ => trivial⟩ fun _ => trivial
      · split
        · trivial
        · exact recordWriteAck_concerns t _ _
    · exact recordWriteAck_concerns t _ _
  · trivial

end Concerns

/-! ## The calls of a processor -/

/-- The call writes no row and counts nothing. -/
def Call.asks : Call → Bool
  | .update .. | .txCommit _ | .addRelayCompleted .. => false
  | _ => true

/-- What a processor may call for the transfer `t`: it asks, about no other packet, and its
statements are those of `writes`. -/
inductive CallFor (t : IBCV2Transfer) (writes : TransferUpdate → Bool) : Call → Prop where
  | asks {c : Call} (hc : c.asks = true) (h : c.Concerns t.sequence) : CallFor t writes c
  | statement {u : TransferUpdate} {key : RowKey} (hu : writes u = true) :
      CallFor t writes (.update u key)

section Calls

variable {t : IBCV2Transfer} {writes : TransferUpdate → Bool} {c : Call}

theorem CallFor.concerns (h : CallFor t writes c) : c.Concerns t.sequence := by
  cases h with
  | asks _ h => exact h
  | statement => exact concerns_none rfl

theorem callFor_none (hc : c.asks = true) (h : c.sequenceNumber = none) : CallFor t writes c :=
  .asks hc (concerns_none h)

theorem callFor_some (hc : c.asks = true) (h : c.sequenceNumber = some t.sequence) :
    CallFor t writes c :=
  .asks hc (concerns_some h)

/-- The processors of single transfers are followed call by call, once for all that has to be known
about their calls. -/
theorem checkRecv_calls (hwrites : ∀ hash time relayer,
    writes (.updateTransferRecvTx hash time relayer) = true) :
    (CheckRecvPacketDeliveryProcessor.process t).run.Always (CallFor t writes) := by
  refine always_ask (always_call (callFor_none rfl rfl)) fun _ => ?_
  refine always_ask (always_call (callFor_some rfl rfl)) fun received => ?_
  split
  · trivial
  · refine always_ask (always_call (callFor_some rfl rfl)) fun tx => ?_
    exact always_ask (always_call (.statement (hwrites _ _ _))) fun _ => trivial

theorem checkCommitment_calls
    (hack : ∀ hash time relayer, writes (.updateTransferAckTx hash time relayer) = true)
    (htimeout : ∀ hash time relayer, writes (.updateTransferTimeoutTx hash time relayer) = true) :
    (CheckPacketCommitmentProcessor.process t).run.Always (CallFor t writes) := by
  refine always_ask (always_call (callFor_none rfl rfl)) fun _ => ?_
  refine always_ask (always_call (callFor_some rfl rfl)) fun committed => ?_
  split
  · trivial
  · refine always_look (always_call (callFor_some rfl rfl)) fun ackTx => ?_
    refine always_look (always_call (callFor_some rfl rfl)) fun timeoutTx => ?_
    -- one of the two is recorded, if exactly one was found
    rcases ackTx with _ | ackTx <;> rcases timeoutTx with _ | timeoutTx
    · trivial
    · exact always_ask (always_call (.statement (htimeout _ _ _))) fun _ => trivial
    · exact always_ask (always_call (.statement (hack _ _ _))) fun _ => trivial
    · trivial

theorem checkSendFinality_calls {offset : Option UInt64}
    (hwrites : ∀ time, writes (.updateTransferSourceTxFinalizedTime time) = true) :
    (CheckSendFinalityProcessor.process offset t).run.Always (CallFor t writes) := by
  refine always_ask (always_call (callFor_none rfl rfl)) fun _ => ?_
  refine always_ask (always_call (callFor_none rfl rfl)) fun finalized => ?_
  cases finalized with
  | false => split <;> trivial
  | true =>
    split
    · trivial
    · refine always_look (always_call (callFor_none rfl rfl)) fun time => ?_
      exact always_ask (always_call (.statement (hwrites _))) fun _ => trivial

theorem checkTimeoutFinality_calls {offset : Option UInt64} :
    (CheckTimeoutFinalityProcessor.process offset t).run.Always (CallFor t writes) := by
  refine always_ask (always_call (callFor_none rfl rfl)) fun _ => ?_
  refine always_ask (always_call (callFor_none rfl rfl)) fun finalized => ?_
  split <;> trivial

theorem checkWriteAckFinality_calls {offset : Option UInt64}
    (hwrites : ∀ time, writes (.updateTransferWriteAckTxFinalizedTime time) = true) :
    (CheckWriteAckFinalityProcessor.process offset t).run.Always (CallFor t writes) := by
  unfold CheckWriteAckFinalityProcessor.process
  refine always_ask (always_call (callFor_none rfl rfl)) fun _ => ?_
  split
  · refine always_ask (always_call (callFor_none rfl rfl)) fun finalized => ?_
    cases finalized with
    | false => split <;> trivial
    | true =>
      split
      · trivial
      · refine always_look (always_call (callFor_none rfl rfl)) fun time => ?_
        exact always_ask (always_call (.statement (hwrites _))) fun _ => trivial
  · trivial

theorem retry_calls {p : RetryPacket} (hclear : writes p.clear = true) :
    (p.process t).run.Always (CallFor t writes) := by
  unfold RetryPacket.process
  refine always_ask (always_call (callFor_none rfl rfl)) fun _ => ?_
  split
  · split
    · refine always_ask (always_call (callFor_none rfl rfl)) fun retry => ?_
      split
      · trivial
      · exact always_ask (always_call (.statement hclear)) fun _ => trivial
    · trivial
  · trivial

theorem gas_calls {p : TxGasCalculator} {coingeckoID : String} {decimals : UInt8}
    (hwrites : ∀ cost, writes (p.updateGasCostUSD cost) = true) :
    (p.process coingeckoID decimals t).run.Always (CallFor t writes) := by
  unfold TxGasCalculator.process
  refine always_ask (always_call (callFor_none rfl rfl)) fun _ => ?_
  split
  · refine always_ask (always_call (callFor_none rfl rfl)) fun fee => ?_
    refine always_ask (always_call (callFor_none rfl rfl)) fun usd => ?_
    exact always_ask (always_call (.statement (hwrites usd))) fun _ => trivial
  · trivial

end Calls

/-- The statements of a processor of single transfers. `WaitForWriteAck` is not among them: it also
counts. -/
def Stage.statements : Stage → TransferUpdate → Bool
  | .checkRecvPacketDelivery, .updateTransferRecvTx .. => true
  | .checkInitialPacketCommitment, .updateTransferAckTx .. => true
  | .checkInitialPacketCommitment, .updateTransferTimeoutTx .. => true
  | .checkSendPacketFinality, .updateTransferSourceTxFinalizedTime _ => true
  | .retryTimeoutPacket, .clearTimeoutTx => true
  | .timeoutTxGasCalculator, .updateTransferTimeoutTxGasCostUSD _ => true
  | .retryRecvPacket, .clearRecvTx => true
  | .recvTxGasCalculator, .updateTransferRecvTxGasCostUSD _ => true
  | .checkWriteAckFinality, .updateTransferWriteAckTxFinalizedTime _ => true
  | .checkPostReceivePacketCommitment, .updateTransferAckTx .. => true
  | .checkPostReceivePacketCommitment, .updateTransferTimeoutTx .. => true
  | .retryAckPacket, .clearAckTx => true
  | .ackTxGasCalculator, .updateTransferAckTxGasCostUSD _ => true
  | _, _ => false

/-- What the processors of single transfers call, but for `WaitForWriteAck`. -/
theorem single_calls {pl : Pipeline} {stage : Stage} {p : IBCV2Processor}
    (hproc : stage.processor pl = .single p) (hstage : stage ≠ .waitForWriteAckPacket)
    (t : IBCV2Transfer) : (p.process t).run.Always (CallFor t stage.statements) := by
  cases stage <;> cases hproc
  case checkRecvPacketDelivery => exact checkRecv_calls fun _ _ _ => rfl
  case checkInitialPacketCommitment =>
    exact checkCommitment_calls (fun _ _ _ => rfl) fun _ _ _ => rfl
  case checkSendPacketFinality => exact checkSendFinality_calls fun _ => rfl
  case checkTimeoutTimestampFinality => exact checkTimeoutFinality_calls
  case waitForWriteAckPacket => exact absurd rfl hstage
  case checkWriteAckFinality => exact checkWriteAckFinality_calls fun _ => rfl
  case checkPostReceivePacketCommitment =>
    exact checkCommitment_calls (fun _ _ _ => rfl) fun _ _ _ => rfl
  case retryTimeoutPacket | retryRecvPacket | retryAckPacket => exact retry_calls rfl
  case timeoutTxGasCalculator | recvTxGasCalculator | ackTxGasCalculator =>
    exact gas_calls fun _ => rfl

/-! ## Owned events -/

/-- An event of the stage `stage` with the transfers `ts`. The zero key is the one that
`CheckWriteAckFinality` names; no row has it. -/
structure Owned (pl : Pipeline) (stage : Stage) (ts : List IBCV2Transfer) (e : Event) :
    Prop where
  frame : ∀ k, k ∉ ts.map (·.rowKey) → k ≠ RowKey.zero → updatesOfEvent k e = []
  submission : ∀ s, e.call.submission = some s → ∀ u ∈ s.transfers, ∃ t ∈ ts, SamePacket t u
  request : ∀ req s, e.call = .relayByTx req s → ∃ c p txIDs, stage.contract pl = some c
    ∧ c.packet = some p ∧ s.kind = p.txType
    ∧ req = p.request txIDs (s.transfers.map IBCV2Transfer.sequence)
  query : ∀ n, e.call.sequenceNumber = some n → ∃ t, ts = [t] ∧ n = t.sequence

section Owned

variable {pl : Pipeline} {stage : Stage} {ts : List IBCV2Transfer} {t : IBCV2Transfer} {e : Event}

/-- An event that submits nothing is owned if it writes no other row and asks about no other packet.
-/
theorem owned_of_silent
    (hframe : ∀ k, k ∉ ts.map (·.rowKey) → k ≠ RowKey.zero → updatesOfEvent k e = [])
    (hsubmission : e.call.submission = none)
    (hquery : ∀ n, e.call.sequenceNumber = some n → ∃ t, ts = [t] ∧ n = t.sequence) :
    Owned pl stage ts e where
  frame := hframe
  submission s hs := by
    rw [hsubmission] at hs
    cases hs
  request req s hc := by
    rw [hc] at hsubmission
    cases hsubmission
  query := hquery

theorem sequenceNumber_of_not_query {c : Call} (h : c.isQuery = false) :
    c.sequenceNumber = none := by
  cases c <;> first | rfl | cases h

/-- The events of a decision are owned by the transfer that it is about. -/
theorem OfAdmission.owned (h : OfAdmission t.rowKey e) (ht : t ∈ ts) : Owned pl stage ts e := by
  refine owned_of_silent (fun _ hk _ => h.frame fun heq => hk (heq ▸ List.mem_map_of_mem ht))
    h.submission fun n hn => ?_
  rw [sequenceNumber_of_not_query h.query] at hn
  cases hn

/-- So are those of a processor of single transfers; the only row that it hits besides that of the
transfer is the zero key. -/
theorem Harmless.owned {queries : Call → Bool} {key : RowKey} {strays : List RowKey}
    (h : Harmless queries (key :: strays) e) (hkey : key = t.rowKey)
    (hstrays : strays ⊆ [RowKey.zero]) (hconcerns : e.call.Concerns t.sequence) :
    Owned pl stage [t] e := by
  refine owned_of_silent (fun k hk hzero => h.frame k fun hin => ?_) h.submission
    fun n hn => ⟨t, rfl, hconcerns n hn⟩
  rcases List.mem_cons.mp hin with rfl | hin
  · exact hk (List.mem_singleton.mpr hkey)
  · exact hzero (List.mem_singleton.mp (hstrays hin))

/-- The events of a batch are owned by the transfers of the batch, and its request has their
sequence numbers. -/
theorem BatchAllowed.owned {p : BatchPacket} {state : Ibcv2RelayStatus}
    {inputs : List IBCV2Transfer} (h : BatchAllowed p inputs e)
    (hc : stage.contract pl = some (batchContract p state (stage.guard pl)))
    (hinputs : ∀ u ∈ inputs, ∃ t ∈ ts, SamePacket t u) : Owned pl stage ts e where
  frame k hk _ := h.frame k fun hin => hk <| by
    obtain ⟨u, hu, rfl⟩ := List.mem_map.mp hin
    obtain ⟨t, ht, hpacket⟩ := hinputs u hu
    rw [hpacket.rowKey]
    exact List.mem_map_of_mem ht
  submission s hs u hu := by
    rw [h.submission s hs, requested_eq] at hu
    exact hinputs u (List.mem_filter.mp hu).1
  request req s hcall := by
    -- a request is a submission, so it is for the transfers of the loop
    have hs : s = p.submission (p.gather [] inputs) := h.submission s (by rw [hcall]; rfl)
    refine ⟨_, p, (p.gather [] inputs).txIDs, hc, rfl, by rw [hs]; rfl, ?_⟩
    rw [h.request req s hcall, hs, gather_sequences]
    rfl
  query n hn := by
    rw [sequenceNumber_of_not_query h.query] at hn
    cases hn

/-- The events of the finisher are owned by its transfer. -/
theorem Finish.owned {opts : PipelineOptions} {t' : IBCV2Transfer} {evs : List Event}
    (h : Finish opts t t' evs) : ∀ e ∈ evs, Owned pl stage [t] e := by
  intro e he
  refine owned_of_silent
    (fun _ hk _ => h.frame (fun heq => hk (heq ▸ List.mem_singleton_self _)) he) (h.submission he)
    fun n hn => ?_
  rw [sequenceNumber_of_not_query (h.query he)] at hn
  cases hn

end Owned

/-! ## The programs of the stages -/

/-- The events of a stage are owned by the transfers that it was given, and its output is made of
these transfers. -/
def Kept (pl : Pipeline) (stage : Stage) (ts out : List IBCV2Transfer) (evs : List Event) : Prop :=
  (∀ e ∈ evs, Owned pl stage ts e) ∧ (out.map (·.rowKey)).Subperm (ts.map (·.rowKey))

/-- The processors ask about the packet of the transfer they were given. -/
theorem single_concerns {pl : Pipeline} {stage : Stage} {p : IBCV2Processor}
    (hproc : stage.processor pl = .single p) (t : IBCV2Transfer) :
    (p.process t).run.Ensures fun _ evs => ∀ e ∈ evs, e.call.Concerns t.sequence := by
  by_cases hstage : stage = .waitForWriteAckPacket
  · subst hstage
    cases hproc
    exact (waitForWriteAck_concerns t).ensures
  · exact ((single_calls hproc hstage t).mono fun _ h => h.concerns).ensures

/-- The wrapper of single transfers does nothing for other transfers, whatever it decides. -/
theorem mw_owned {p : IBCV2Processor} {c : Contract} (hp : p.Meets c)
    (hstrays : c.strays ⊆ [RowKey.zero])
    (hconcerns : ∀ t, (p.process t).run.Ensures fun _ evs => ∀ e ∈ evs, e.call.Concerns t.sequence)
    (pl : Pipeline) (stage : Stage) (t : IBCV2Transfer) :
    (IBCV2ProcessorMW.process p t).Ensures fun _ evs =>
      ∀ e ∈ evs, Owned pl stage [t] e := by
  unfold IBCV2ProcessorMW.process
  rw [hp.state]
  refine (admitTransfer_admits (hp.asked t) c.state).bind fun a adm hadmits => ?_
  have hadm : ∀ e ∈ adm, Owned pl stage [t] e :=
    fun e he => (hadmits.ofAdmission e he).owned (List.mem_singleton_self _)
  cases a with
  | skipped => exact hadm
  | stateNotUpdated err => exact hadm
  | admitted =>
    refine ((hp.process { t with state := c.state }).and (hconcerns _)).bind ?_
    rintro r proc ⟨hproc, hconcerns⟩
    have hall : ∀ e ∈ proc ++ adm, Owned pl stage [t] e :=
      List.forall_mem_append.mpr
        ⟨fun e he => (hproc.1 e he).owned rfl hstrays (hconcerns e he), hadm⟩
    rcases r with err | t'
    · dsimp only
      split <;> exact hall
    · exact hall

/-- The two parts of a batch have the keys of the batch. -/
theorem split_keys (state : Ibcv2RelayStatus) (as : List (IBCV2Transfer × Admission)) :
    ((toProcess state as).map (·.rowKey) ++ (notProcessing as).map (·.rowKey)).Perm
      (as.map (·.1.rowKey)) := by
  induction as with
  | nil => exact List.Perm.refl _
  | cons a as ih =>
    obtain ⟨t, a⟩ := a
    cases a with
    | admitted => exact ih.cons t.rowKey
    | skipped => exact List.perm_middle.trans (ih.cons t.rowKey)
    | stateNotUpdated err => exact List.perm_middle.trans (ih.cons t.rowKey)

/-- A batch writes the rows of its own transfers, and every transfer on its output is one that it
was given, at most once. -/
theorem runBatch_kept {pl : Pipeline} {stage : Stage} {q : IBCV2BatchProcessor}
    (hproc : stage.processor pl = .batch q) (ts : List IBCV2Transfer) :
    (q.runBatch ts).Ensures (Kept pl stage ts) := by
  obtain ⟨p, hq, hc⟩ := batch_meets hproc
  unfold IBCV2BatchProcessor.runBatch IBCV2BatchProcessorMW.process
  rw [Prog.bind_assoc]
  refine (admitBatch_events hq.asked ts).bind ?_
  rintro as adm ⟨hfst, hevents⟩
  have hkeys : as.map (·.1.rowKey) = ts.map (·.rowKey) := by
    rw [← hfst, List.map_map]
    rfl
  have hadm : ∀ e ∈ adm, Owned pl stage ts e := by
    intro e he
    obtain ⟨u, hu, hof⟩ := hevents e he
    exact hof.owned hu
  have hsplit := split_keys q.state as
  rw [hkeys] at hsplit
  have hinputs : ∀ u ∈ toProcess q.state as, ∃ t ∈ ts, SamePacket t u := by
    intro u hu
    obtain ⟨⟨t, a⟩, ha, hu⟩ := List.mem_filterMap.mp hu
    refine ⟨t, hfst ▸ List.mem_map_of_mem ha, ?_⟩
    cases a <;> cases hu
    exact samePacket_state t q.state
  dsimp only
  split
  · exact ⟨hadm, (List.sublist_append_right _ _).subperm.trans hsplit.subperm⟩
  · rw [hq.process, Prog.bind_assoc]
    refine (batch_spec p _ RowKey.zero).bind fun r proc hproc => ?_
    have hall : ∀ e ∈ proc ++ adm, Owned pl stage ts e :=
      List.forall_mem_append.mpr ⟨fun e he => (hproc.1 e he).owned hc hinputs, hadm⟩
    -- a canceled context returns nothing; otherwise both parts of the batch are on the output
    rcases r with err | out
    · dsimp only
      split
      · exact ⟨hall, List.nil_subperm⟩
      · refine ⟨hall, ?_⟩
        rw [List.map_append, List.map_map]
        exact hsplit.subperm
    · obtain ⟨tx, rfl, -⟩ := hproc.ok
      refine ⟨hall, ?_⟩
      have hrecorded : (p.setTxs tx ((toProcess q.state as).map p.mark)).map (·.rowKey)
          = (toProcess q.state as).map (·.rowKey) := by
        rw [setTxs_eq, List.map_map]
        exact List.map_congr_left fun t _ => hq.lawful.recorded_rowKey tx t
      rw [List.map_append, hrecorded]
      exact hsplit.subperm

section Alone

variable {pl : Pipeline} {stage : Stage} {t : IBCV2Transfer}

/-- A stage that does not batch. -/
def Stage.isSingle (pl : Pipeline) (stage : Stage) : Prop := ∀ q, stage.processor pl ≠ .batch q

/-- A transfer is alone in a stage that does not batch. -/
theorem keys_of_single (h : stage.isSingle pl) {key : RowKey} (mates : Mates key) :
    stage.keys pl mates = [key] := by
  unfold Stage.keys
  split
  · rename_i q hq
    exact absurd hq (h q)
  · rfl

/-- A stage that does not batch works for its transfer only. -/
theorem run_owned (h : stage.isSingle pl) (ht : t.Honest) :
    ((stage.processor pl).run [] [] t).Ensures fun _ evs =>
      ∀ e ∈ evs, Owned pl stage [t] e := by
  cases hproc : stage.processor pl with
  | single p =>
    obtain ⟨c, hc⟩ : ∃ c, stage.contract pl = some c := by
      cases stage <;> cases hproc <;> exact ⟨_, rfl⟩
    have hstrays : c.strays ⊆ [RowKey.zero] := by
      cases stage <;> cases hc <;> simp [batchContract]
    refine (mw_owned (single_meets hproc hc) hstrays (single_concerns hproc) pl stage t).bind
      fun r evs howned => ?_
    cases r <;> exact howned
  | batch q => exact absurd hproc (h q)
  | finisher success error =>
    cases stage <;> cases hproc
    exact (finish_spec ht pl.opts).bind fun t' evs hfinish => hfinish.owned

theorem find_toList {o : Option IBCV2Transfer} (h : ∀ t', o = some t' → t'.rowKey = t.rowKey) :
    o.toList.find? (·.rowKey = t.rowKey) = o := by
  cases o with
  | none => rfl
  | some t' => simp [h t' rfl]

/-- A transfer alone in its stage: what the stage does for it, and that it does nothing else. -/
theorem runAlone_spec (h : stage.isSingle pl) (ht : t.Honest) :
    ((stage.processor pl).runAlone t).Ensures fun out evs => Kept pl stage [t] out evs
      ∧ StageVisit pl [t.rowKey] t stage (out.find? (·.rowKey = t.rowKey)) evs := by
  have hvisit := stage_visit pl stage ({} : Mates t.rowKey) rfl ht
  rw [keys_of_single h] at hvisit
  refine ((run_owned h ht).and hvisit).bind ?_
  rintro o evs ⟨howned, hvisit⟩
  have hkey : ∀ t', o = some t' → t'.rowKey = t.rowKey := by
    rintro t' rfl
    exact hvisit.samePacket.rowKey
  refine ⟨⟨howned, ?_⟩, ?_⟩
  · cases o with
    | none => exact List.nil_subperm
    | some t' =>
      change [t'.rowKey].Subperm [t.rowKey]
      rw [hkey t' rfl]
  · show StageVisit pl _ t stage (o.toList.find? _) _
    rw [find_toList hkey]
    exact hvisit

end Alone

/-- A batch makes a visit for each of its transfers, if they have different keys. -/
theorem runBatch_visit {pl : Pipeline} {stage : Stage} {q : IBCV2BatchProcessor}
    (hq : stage.processor pl = .batch q) {ts : List IBCV2Transfer} {t : IBCV2Transfer}
    (hmem : t ∈ ts) (hnodup : (ts.map (·.rowKey)).Nodup) (ht : t.Honest) :
    (q.runBatch ts).Ensures fun out evs =>
      StageVisit pl (ts.map (·.rowKey)) t stage (out.find? (·.rowKey = t.rowKey)) evs := by
  obtain ⟨p, hmeets, hc⟩ := batch_meets hq
  obtain ⟨before, after, rfl⟩ := List.append_of_mem hmem
  -- different keys: the others of the batch are not on the row of `t`
  have hothers : ∀ u ∈ before ++ after, u.rowKey ≠ t.rowKey := by
    rw [List.map_append, List.map_cons, List.nodup_middle, ← List.map_append] at hnodup
    exact fun u hu heq => (List.nodup_cons.mp hnodup).1 (heq ▸ List.mem_map_of_mem hu)
  refine (batchMw_visit hmeets hothers ht).bind fun r evs hvisit => ?_
  cases r <;> exact .wrapped hc hvisit

end IbcRelayer
