import IbcRelayer.Delivery
import IbcRelayer.Passage

/-!
# IbcRelayer — how a pass ends

The finisher decides by the hashes that a transfer has. What is behind these hashes, and whether a
pass without an error always leaves enough of them, depends on all the stages before.

* `finished_confirmed` — every final status is sound, and the tx behind it was confirmed by a chain
  in the same pass;
* `pass_completes_iff` — a pass without an error ends complete, but for one combination: a packet
  past its timeout that is acknowledged and, as far as the relayer knows, not received (`DeadEnd`).
-/

namespace IbcRelayer

open CallTree Prog IBCV2Transfer

/-! ## Confirmed txs -/

section Confirmed

variable {pl : Pipeline} {key : RowKey} {mates : Stage → Mates key} {stages : List Stage}
  {r : Ibcv2Transfer} {t u : IBCV2Transfer} {evs : List Event} {hash : String}

/-- An ack tx that is there at the end was confirmed in this pass: `RetryAckPacket` asks for every
ack tx that it gets, a tx that has to be sent again ends the pass with an error, and no later stage
sets one. -/
theorem Passage.ackConfirmed (h : Passage pl mates r stages t u evs)
    (hretry : .retryAckPacket ∈ stages) (hack : u.ackTxHash = some hash) :
    ∃ expiry time, ⟨.shouldRetryTx pl.route.sourceChainID hash expiry time, .ok false⟩ ∈ evs := by
  obtain ⟨before, after, v, v', evs₁, evs₂, evs₃, rfl, hbefore, hvisit, ⟨_, hfrom⟩, ⟨_, hafter⟩,
    rfl⟩ := h.stop hretry
  -- the stages that set an ack tx are before `RetryAckPacket`, so that it had this one
  have hack' : v.ackTxHash = some hash := by
    rcases hfrom.trace.ackTxHash h.error with heq | ⟨-, s, hs, hset⟩
    · exact heq.symm.trans hack
    · have hrank : Stage.retryAckPacket.rank ≤ s.rank := by
        rcases List.mem_cons.mp hs with rfl | hs
        · exact Nat.le_refl _
        · exact Nat.le_of_lt (rank_after h.sorted hs)
      rcases hset with (rfl | rfl) | rfl <;> exact absurd hrank (by decide)
  have htime := ackTxTime_of_hash hbefore.tracked_end hbefore.live_end (by rw [hack']; rfl)
  obtain ⟨us, own, -, hown, -, hok⟩ := hvisit.done rfl hbefore.live_end.state hafter.live.error
    ⟨.zero, by simp [Stage.guard, hack', htime]⟩ (by simp [Stage.guard])
  cases hok with
  | confirmed hash' time hhash' htime' hin =>
    cases hack'.symm.trans hhash'
    exact ⟨_, time, List.mem_append_right _ (List.mem_append_left _ (hown hin))⟩

/-- A timeout tx that is there at the end was confirmed in this pass by `RetryTimeoutPacket`, or was
found after that stage, by the second commitment check. -/
theorem Passage.timeoutConfirmed (h : Passage pl mates r stages t u evs)
    (hretry : .retryTimeoutPacket ∈ stages) (htimeout : u.timeoutTxHash = some hash) :
    (∃ expiry time, ⟨.shouldRetryTx pl.route.sourceChainID hash expiry time, .ok false⟩ ∈ evs)
      ∨ ∃ tx, tx.hash = hash ∧ ⟨.findTimeoutTx t.sourceChainID t.packetSourceClientID
        t.packetDestinationClientID t.sequence, .ok tx⟩ ∈ evs := by
  obtain ⟨before, after, v, v', evs₁, evs₂, evs₃, rfl, hbefore, hvisit, ⟨_, hfrom⟩, ⟨_, hafter⟩,
    rfl⟩ := h.stop hretry
  cases hv : v.timeoutTxHash with
  -- a timeout tx is never forgotten, and so `RetryTimeoutPacket` asked for this one
  | some hash' =>
    left
    have heq : hash' = hash := by
      have hkept := hfrom.timeoutTxHash_some (by rw [hv]; rfl)
      rw [htimeout, hv] at hkept
      exact (Option.some.inj hkept).symm
    have htime := timeoutTxTime_of_hash hbefore.tracked_end hbefore.live_end (by rw [hv]; rfl)
    obtain ⟨us, own, -, hown, -, hok⟩ := hvisit.done rfl hbefore.live_end.state hafter.live.error
      ⟨.zero, by simp [Stage.guard, hv, htime]⟩ (by simp [Stage.guard])
    cases hok with
    | confirmed hash'' time hhash'' htime'' hin =>
      cases hv.symm.trans hhash''
      rw [← heq]
      exact ⟨_, time, List.mem_append_right _ (List.mem_append_left _ (hown hin))⟩
  | none =>
    right
    -- no stage is left that would submit it
    have hlate : .batchTimeoutPacket ∉ .retryTimeoutPacket :: after := by
      intro hin
      rcases List.mem_cons.mp hin with heq | hin
      · cases heq
      · exact absurd (rank_after h.sorted hin) (by decide)
    have hpacket := hbefore.trace.samePacket rfl
    rcases hfrom.trace.timeoutFound hlate rfl h.error with heq | ⟨tx, hhash, hin⟩
    · rw [htimeout, hv] at heq
      cases heq
    · rw [hpacket.sourceChainID, hpacket.packetSourceClientID, hpacket.packetDestinationClientID,
        hpacket.sequence] at hin
      refine ⟨tx, Option.some.inj (hhash.symm.trans htimeout), ?_⟩
      rw [← List.append_assoc]
      exact List.mem_append_left _ hin

end Confirmed

/-! ## Final statuses -/

/-- What stands behind a final status of the transfer `t`: its row at the end of the pass, and the
answers of the pass. -/
def Ibcv2RelayStatus.Justified (pl : Pipeline) (t : IBCV2Transfer) (r : Ibcv2Transfer)
    (evs : List Event) : Ibcv2RelayStatus → Prop
  | .completeWithAck =>
    r.recvTxHash.isSome = true ∧ r.writeAckTxHash.isSome = true ∧ r.timeoutTxHash = none
      ∧ ∃ hash expiry time, r.ackTxHash = some hash
        ∧ ⟨.shouldRetryTx pl.route.sourceChainID hash expiry time, .ok false⟩ ∈ evs
  | .completeWithTimeout =>
    ∃ hash, r.timeoutTxHash = some hash
      ∧ ((∃ expiry time, ⟨.shouldRetryTx pl.route.sourceChainID hash expiry time, .ok false⟩ ∈ evs)
        ∨ ∃ tx, tx.hash = hash ∧ ⟨.findTimeoutTx t.sourceChainID t.packetSourceClientID
          t.packetDestinationClientID t.sequence, .ok tx⟩ ∈ evs)
  | .completeWithWriteAckSuccess =>
    r.recvTxHash.isSome = true ∧ r.writeAckTxHash.isSome = true ∧ r.ackTxHash = none
      ∧ r.timeoutTxHash = none ∧ r.writeAckStatus = some .success
      ∧ pl.opts.shouldRelaySuccessAcks = false
  | .completeWithWriteAckError =>
    r.recvTxHash.isSome = true ∧ r.writeAckTxHash.isSome = true ∧ r.ackTxHash = none
      ∧ r.timeoutTxHash = none
      ∧ (r.writeAckStatus = some .error ∨ r.writeAckStatus = some .unknown)
      ∧ pl.opts.shouldRelayErrorAcks = false
  | _ => True

/-- What the finisher looks at when it chooses a status. -/
inductive Chosen (opts : PipelineOptions) (t : IBCV2Transfer) : Ibcv2RelayStatus → Prop where
  | timeout {hash : String} (h : t.timeoutTxHash = some hash) : Chosen opts t .completeWithTimeout
  | ack {hash : String} (htimeout : t.timeoutTxHash = none) (hrecv : t.recvTxHash.isSome = true)
      (hwriteAck : t.writeAckTxHash.isSome = true) (hack : t.ackTxHash = some hash) :
      Chosen opts t .completeWithAck
  | writeAck {status : Ibcv2WriteAckStatus} (htimeout : t.timeoutTxHash = none)
      (hrecv : t.recvTxHash.isSome = true) (hwriteAck : t.writeAckTxHash.isSome = true)
      (hack : t.ackTxHash = none) (hstatus : t.writeAckStatus = some status)
      (hrelays : opts.relays status = false) :
      Chosen opts t (if status.isErrorAck then .completeWithWriteAckError
        else .completeWithWriteAckSuccess)

/-- The status that the finisher chooses for a complete transfer, read back from the order of its
tests: the timeout tx comes first, and the ack tx before the write ack. -/
theorem chosen_of_complete {opts : PipelineOptions} {t : IBCV2Transfer} {state : Ibcv2RelayStatus}
    (hcomplete : t.complete opts = true) (hstate : StateFinisher.finalState t = some state) :
    Chosen opts t state := by
  unfold StateFinisher.finalState at hstate
  cases htimeout : t.timeoutTxHash with
  | some hash =>
    rw [htimeout] at hstate
    cases hstate
    exact .timeout htimeout
  | none =>
    rw [htimeout] at hstate
    obtain ⟨status, hstatus, rfl⟩ := Option.map_eq_some_iff.mp hstate
    simp only [IBCV2Transfer.complete, htimeout, hstatus, Option.isSome_none, Bool.false_or,
      Bool.and_eq_true, Bool.or_eq_true, Option.any_some, Bool.not_eq_true'] at hcomplete
    obtain ⟨⟨hrecv, hwriteAck⟩, hack⟩ := hcomplete
    cases hhash : t.ackTxHash with
    | some hash => exact .ack htimeout hrecv hwriteAck hhash
    | none =>
      rw [hhash] at hack
      exact .writeAck htimeout hrecv hwriteAck hhash hstatus (hack.resolve_left (by simp))

section Justified

variable {pl : Pipeline} {key : RowKey} {mates : Stage → Mates key} {r : Ibcv2Transfer}
  {t u t' : IBCV2Transfer} {state : Ibcv2RelayStatus} {evs evs' : List Event}

/-- The hashes that the finisher looks at are on the row, and their txs were confirmed. -/
theorem Passage.justified (h : Passage pl mates r (wrappedStages pl) t u evs)
    (hchosen : Chosen pl.opts u state) :
    state.Justified pl t (applyAll (updatesOf key evs) r) evs := by
  have hm := h.tracked_end.mirrors h.error
  cases hchosen with
  | timeout htimeout =>
    have hconfirmed := h.timeoutConfirmed (mem_wrappedStages rfl (by simp)) htimeout
    exact ⟨_, hm.timeoutTxHash.trans htimeout, hconfirmed⟩
  | ack htimeout hrecv hwriteAck hack =>
    obtain ⟨expiry, time, hconfirmed⟩ := h.ackConfirmed (mem_wrappedStages rfl (by simp)) hack
    rw [← hm.recvTxHash] at hrecv
    rw [← hm.writeAckTxHash] at hwriteAck
    exact ⟨hrecv, hwriteAck, hm.timeoutTxHash.trans htimeout, _, expiry, time,
      hm.ackTxHash.trans hack, hconfirmed⟩
  | @writeAck status htimeout hrecv hwriteAck hack hstatus hrelays =>
    rw [← hm.recvTxHash] at hrecv
    rw [← hm.writeAckTxHash] at hwriteAck
    have hack' := hm.ackTxHash.trans hack
    have htimeout' := hm.timeoutTxHash.trans htimeout
    have hstatus' := hm.writeAckStatus.trans hstatus
    cases status with
    -- an ack that is not to be relayed ends the life; its status says which option is off
    | success => exact ⟨hrecv, hwriteAck, hack', htimeout', hstatus', hrelays⟩
    | error =>
      have hoff : pl.opts.shouldRelayErrorAcks = false := by
        simpa [PipelineOptions.relays, Ibcv2WriteAckStatus.isErrorAck,
          Ibcv2WriteAckStatus.isSuccessAck] using hrelays
      exact ⟨hrecv, hwriteAck, hack', htimeout', Or.inl hstatus', hoff⟩
    | unknown =>
      have hoff : pl.opts.shouldRelayErrorAcks = false := by
        simpa [PipelineOptions.relays, Ibcv2WriteAckStatus.isErrorAck,
          Ibcv2WriteAckStatus.isSuccessAck] using hrelays
      exact ⟨hrecv, hwriteAck, hack', htimeout', Or.inr hstatus', hoff⟩

/-- What justifies a status is an answer that was given, so that later events do not take it away.
-/
theorem Ibcv2RelayStatus.Justified.mono (h : state.Justified pl t r evs) (hsub : evs ⊆ evs') :
    state.Justified pl t r evs' := by
  cases state with
  | completeWithAck =>
    obtain ⟨hrecv, hwriteAck, htimeout, hash, expiry, time, hack, hin⟩ := h
    exact ⟨hrecv, hwriteAck, htimeout, hash, expiry, time, hack, hsub hin⟩
  | completeWithTimeout =>
    obtain ⟨hash, hhash, hconfirmed⟩ := h
    refine ⟨hash, hhash, hconfirmed.imp ?_ ?_⟩
    · exact Exists.imp fun expiry => Exists.imp fun time hin => hsub hin
    · exact Exists.imp fun tx => And.imp_right fun hin => hsub hin
  | _ => exact h

theorem Ibcv2RelayStatus.Justified.save (h : state.Justified pl t r evs)
    (status : Ibcv2RelayStatus) :
    state.Justified pl t ((TransferUpdate.updateTransferState status).apply r) evs := by
  cases state <;> exact h

/-- The finisher saves a status only when the transfer is complete. -/
theorem Finish.chosen {opts : PipelineOptions} (h : Finish opts t t' evs)
    {answer : Except GoError Unit} (hin : saveEvent state key answer ∈ evs) :
    t.error = "" ∧ Chosen opts t state := by
  have hcounted : ∀ {counted : List Event}, (∀ e ∈ counted, e.call.isSilent = true) →
      saveEvent state key answer ∉ counted :=
    fun hsilent hin => absurd (hsilent _ hin) (by simp [saveEvent, Call.isSilent])
  cases h with
  | passed => cases hin
  | notComplete _ _ warned hwarned =>
    rcases List.mem_cons.mp hin with heq | hin
    · cases heq
    · rcases hwarned with rfl | ⟨rfl, -⟩
      · cases hin
      · cases List.mem_singleton.mp hin
  | withoutStatus => cases List.mem_singleton.mp hin
  -- the save is the last event, and the counters before it save nothing
  | finished herror hcomplete state' hstate counted hsilent =>
    rcases List.mem_cons.mp hin with heq | hin
    · cases heq
      exact ⟨herror, chosen_of_complete hcomplete hstate⟩
    · exact absurd hin (hcounted hsilent)
  | notSaved herror hcomplete state' hstate counted hsilent =>
    rcases List.mem_cons.mp hin with heq | hin
    · cases heq
      exact ⟨herror, chosen_of_complete hcomplete hstate⟩
    · exact absurd hin (hcounted hsilent)

/-- Only the final statuses have to be justified. -/
theorem justified_of_not_finished (h : state.isFinished = false) : state.Justified pl t r evs := by
  cases state <;> trivial

end Justified

/-- **Final statuses are sound and confirmed.** In a pass over a well-formed row that is not
`FAILED`, whatever is answered, a final status is saved only when the row has what the status says,
and the ack or timeout tx behind it was confirmed by the source client in the same pass, or found by
it. -/
theorem finished_confirmed {key : RowKey} {w : World} {r : Ibcv2Transfer}
    (hrow : w.row key = some r) (hwf : WellFormed r) (hstatus : r.status ≠ .failed) (pl : Pipeline)
    (mates : Stage → Mates key) (env : Environment) : ∃ evs r',
    (execute env (pass pl mates (newIBCV2Transfer r)) w).2.log = evs ++ w.log
      ∧ (execute env (pass pl mates (newIBCV2Transfer r)) w).2.row key = some r'
      ∧ ∀ state answer, saveEvent state key answer ∈ evs →
        state.Justified pl (newIBCV2Transfer r) r' evs := by
  have hkey := rowKey_new hrow
  obtain ⟨evs, htrace, hw, -⟩ := execute_trace pl mates (newPipeline pl) hkey (honest_new r) env w
  change (execute env (pass pl mates (newIBCV2Transfer r)) w).2 = _ at hw
  refine ⟨evs, applyAll (updatesOf key evs) r, by rw [hw, World.after_log], ?_, ?_⟩
  · rw [hw, row_after, hrow]
    rfl
  intro state answer hin
  -- a transfer that was lost on the way has no final status saved
  rcases htrace.to_finisher with ⟨-, hlost⟩ | ⟨v, t', evs₁, evs₂, hbefore, hfinish, -, rfl⟩
  · exact justified_of_not_finished ((hlost.not_finished hkey finisher_not_wrapped).1 hin)
  rcases List.mem_append.mp hin with hin | hin
  · obtain ⟨herror, hchosen⟩ := hfinish.chosen hin
    have hpassage := passage_to_finisher hbefore hkey (tracked_new hwf) hstatus herror
    have hjustified := (hpassage.justified hchosen).mono (List.subset_append_right evs₂ evs₁)
    rw [updatesOf_append, applyAll_append]
    have hvkey : v.rowKey = key := (hbefore.samePacket rfl).rowKey.trans hkey
    rw [← hvkey] at hjustified ⊢
    -- the finisher writes the status and nothing else
    rcases updatesOf_finish hfinish with ⟨hus, -⟩ | ⟨status, -, -, -, -, hus⟩
    · rw [hus]
      exact hjustified
    · rw [hus]
      exact hjustified.save status
  · exact justified_of_not_finished ((hbefore.not_finished hkey finisher_not_wrapped).1 hin)

/-- `finished_confirmed` for a pass in which the packet is received and acknowledged. -/
theorem finished_confirmed_acked : ∃ evs r' answer,
    (execute (Sample.obliging .zero) (pass Sample.pipeline Sample.alone
        (newIBCV2Transfer Sample.row)) Sample.world).2.row Sample.row.key = some r'
      ∧ saveEvent .completeWithAck Sample.row.key answer ∈ evs
      ∧ Ibcv2RelayStatus.completeWithAck.Justified Sample.pipeline (newIBCV2Transfer Sample.row) r'
        evs := by
  have hrow : Sample.world.row Sample.row.key = some Sample.row := by decide +kernel
  obtain ⟨evs, r', hlog, hrow', hjustified⟩ := finished_confirmed hrow
    (wellFormed_inserted Sample.packet 1) (by decide) Sample.pipeline Sample.alone
    (Sample.obliging .zero)
  have hsaved : evs.any (fun e => decide
      (e.call = .update (.updateTransferState .completeWithAck) Sample.row.key)) = true := by
    refine any_of_append hlog ?_ rfl
    decide +kernel
  obtain ⟨⟨call, answer⟩, he, hcall⟩ := List.any_eq_true.mp hsaved
  cases of_decide_eq_true hcall
  exact ⟨evs, r', answer, hrow', he, hjustified _ answer he⟩

/-! ## Passes that end complete -/

/-- A batch that leaves no error on a transfer has recorded its tx. -/
theorem BatchMemberOk.tx_recorded {p : BatchPacket} (hp : p.Lawful) {t t' : IBCV2Transfer}
    {us : List TransferUpdate} (h : BatchMemberOk p t t' us) (herror : t'.error = "") :
    ∃ tx, t' = p.setTx tx t := by
  cases h with
  | marked err hhash => exact absurd herror (hp.hashError_text hhash)
  | recorded tx => exact ⟨tx, rfl⟩

/-- Every reading of the clock for the transfer is on the same side of its timeout as `clock`. -/
def Steady (t : IBCV2Transfer) (clock : Time) (evs : List Event) : Prop :=
  ∀ reader now, ⟨.now reader t.rowKey, now⟩ ∈ evs → t.isTimedOut now = t.isTimedOut clock

theorem Steady.mono {t : IBCV2Transfer} {clock : Time} {evs evs' : List Event}
    (h : Steady t clock evs') (hsub : evs ⊆ evs') : Steady t clock evs :=
  fun reader now hin => h reader now (hsub hin)

/-- A stage leaves the key and the timeout of a transfer as they are. -/
theorem Steady.samePacket {t t' : IBCV2Transfer} {clock : Time} {evs : List Event}
    (h : Steady t clock evs) (hpacket : SamePacket t t') : Steady t' clock evs := by
  intro reader now hin
  rw [hpacket.rowKey] at hin
  rw [hpacket.isTimedOut, hpacket.isTimedOut]
  exact h reader now hin

section Complete

variable {pl : Pipeline} {key : RowKey} {mates : Stage → Mates key} {stages : List Stage}
  {r : Ibcv2Transfer} {t u : IBCV2Transfer} {evs : List Event} {clock : Time}

/-- A timeout tx alone makes a transfer complete. -/
theorem complete_of_timeout {opts : PipelineOptions} (h : u.timeoutTxHash.isSome = true) :
    u.complete opts = true := by
  rw [IBCV2Transfer.complete, h, Bool.true_or]

/-- The write ack of a received transfer is there after `WaitForWriteAck`. -/
theorem Passage.writeAck_of_received (h : Passage pl mates r stages t u evs)
    (hwait : .waitForWriteAckPacket ∈ stages) (hrecv : t.recvTxHash.isSome = true)
    (htimeout : u.timeoutTxHash = none) : ∃ before after r' v' evs',
      stages = before ++ .waitForWriteAckPacket :: after ∧ Passage pl mates r' after v' u evs'
        ∧ v'.writeAckTxHash.isSome = true := by
  obtain ⟨before, after, v, v', evs₁, evs₂, evs₃, rfl, hbefore, hvisit, ⟨_, hfrom⟩,
    ⟨r', hafter⟩, -⟩ := h.stop hwait
  refine ⟨before, after, r', v', evs₃, rfl, hafter, ?_⟩
  have hrecv' : v.recvTxHash.isSome = true := by rw [hbefore.recvTxHash_some hrecv]; exact hrecv
  have htimeout' : v.timeoutTxHash = none := hfrom.timeoutTxHash_none htimeout
  cases hwriteAck : v.writeAckTxHash with
  -- the stage wants the transfer, and is done with it only when it has found the write ack
  | none =>
    obtain ⟨us, own, -, -, -, hok⟩ := hvisit.done rfl hbefore.live_end.state hafter.live.error
      ⟨.zero, by simp [Stage.guard, hrecv', hwriteAck, htimeout']⟩ (by simp [Stage.guard])
    cases hok
    rfl
  | some hash =>
    rcases (hvisit.flow hafter.live.error).writeAck with ⟨hkept, -⟩ | ⟨hnone, -⟩
    · rw [hkept, hwriteAck]
      rfl
    · rw [hnone] at hwriteAck
      cases hwriteAck

/-- A write ack that is relayed is acknowledged after `BatchAckPacket`. -/
theorem Passage.acked_of_relayed (h : Passage pl mates r stages t u evs)
    (hbatch : .batchAckPacket ∈ stages) (hwait : .waitForWriteAckPacket ∉ stages)
    (hrelayed : u.isRelayedAck pl.opts = true) (htimeout : u.timeoutTxHash = none) :
    u.ackTxHash.isSome = true := by
  obtain ⟨before, after, v, v', evs₁, evs₂, evs₃, rfl, hbefore, hvisit, ⟨_, hfrom⟩, ⟨_, hafter⟩,
    -⟩ := h.stop hbatch
  cases hack : v.ackTxHash with
  | some hash =>
    rw [hfrom.ackTxHash_some (by rw [hack]; rfl), hack]
    rfl
  | none =>
    -- the write ack, and with it whether to relay it, is no longer changed
    have hwriteAck : u.writeAck = v.writeAck := by
      refine (hfrom.trace.writeAck h.error).resolve_right fun hset => ?_
      obtain ⟨-, s, hs, rfl⟩ := hset
      exact hwait (List.mem_append_right _ hs)
    have hrelayed' : v.isRelayedAck pl.opts = true := by
      rw [isRelayedAck_eq, ← hwriteAck, ← isRelayedAck_eq]
      exact hrelayed
    have htimeout' := hfrom.timeoutTxHash_none htimeout
    obtain ⟨us, own, -, -, -, hok⟩ := hvisit.done rfl hbefore.live_end.state hafter.live.error
      ⟨.zero, by simp [batchContract, Stage.guard, hrelayed', hack, htimeout']⟩
      (by simp [batchContract, Stage.guard])
    obtain ⟨tx, rfl⟩ := hok.tx_recorded (batchAckPacket_lawful _) hafter.live.error
    rw [hafter.ackTxHash_some rfl]
    rfl

/-- A transfer that is received before the write ack is waited for ends complete: the write ack is
waited for, and if its outcome is to be relayed then so is the ack. A timeout tx, which only another
relayer could have sent by then, would make it complete as well. -/
theorem Passage.received_completes (h : Passage pl mates r stages t u evs)
    (hwait : .waitForWriteAckPacket ∈ stages) (hbatch : .batchAckPacket ∈ stages)
    (hrecv : t.recvTxHash.isSome = true) : u.complete pl.opts = true := by
  cases htimeout : u.timeoutTxHash with
  | some hash => exact complete_of_timeout (by rw [htimeout]; rfl)
  | none =>
    obtain ⟨before, after, r', v', evs', hsplit, hafter, hwriteAck⟩ :=
      h.writeAck_of_received hwait hrecv htimeout
    have hsorted := h.sorted
    rw [hsplit] at hsorted
    have hbatch' : .batchAckPacket ∈ after := by
      rw [hsplit] at hbatch
      exact mem_after hsorted hbatch (by decide)
    have hwait' : .waitForWriteAckPacket ∉ after :=
      fun hin => Nat.lt_irrefl _ (rank_after hsorted hin)
    have hkept : u.writeAckTxHash.isSome = true := by
      have hwriteAck' : v'.writeAck.isSome = true := by
        rw [IBCV2Transfer.writeAck, Option.isSome_map]
        exact hwriteAck
      rw [← hafter.writeAck_some hwriteAck', IBCV2Transfer.writeAck, Option.isSome_map]
        at hwriteAck'
      exact hwriteAck'
    have hrecv' : u.recvTxHash.isSome = true := by rw [h.recvTxHash_some hrecv]; exact hrecv
    obtain ⟨status, hstatus⟩ := Option.isSome_iff_exists.mp
      (writeAckStatus_of_hash h.tracked_end h.live_end hkept)
    -- an outcome that is not to be relayed needs no ack
    cases hrelays : pl.opts.relays status with
    | false => simp [IBCV2Transfer.complete, hrecv', hkept, hstatus, hrelays]
    | true =>
      have hrelayed : u.isRelayedAck pl.opts = true := by
        simp [IBCV2Transfer.isRelayedAck, hkept, hstatus, hrelays]
      have hack := hafter.acked_of_relayed hbatch' hwait' hrelayed htimeout
      simp [IBCV2Transfer.complete, hrecv', hkept, hack]

/-- The stages of a whole passage are before or after a stage by their ranks. -/
theorem mem_wrapped_after {before after : List Stage} {stage s : Stage}
    (hsplit : wrappedStages pl = before ++ stage :: after) (hgas : s.isGas = false)
    (hfinisher : s ≠ .stateFinisher) (hlt : stage.rank < s.rank) : s ∈ after := by
  have hsorted := wrappedStages_sorted pl
  rw [hsplit] at hsorted
  refine mem_after hsorted ?_ hlt
  rw [← hsplit]
  exact mem_wrappedStages hgas hfinisher

/-- Before its timeout, a transfer that is not yet received is received by `BatchRecvPacket`, and
ends complete. The clock is read several times in a pass, hence the assumption that it stays on one
side of the timeout. -/
theorem Passage.timely_completes (h : Passage pl mates r (wrappedStages pl) t u evs)
    (hclock : Steady t clock evs) (htimely : t.isTimedOut clock = false) :
    u.complete pl.opts = true := by
  have hstage : .batchRecvPacket ∈ wrappedStages pl := mem_wrappedStages rfl (by simp)
  obtain ⟨before, after, v, v', evs₁, evs₂, evs₃, hsplit, hbefore, hvisit, ⟨_, hfrom⟩,
    ⟨_, hafter⟩, rfl⟩ := h.stop hstage
  have hwait : .waitForWriteAckPacket ∈ after :=
    mem_wrapped_after hsplit rfl (by simp) (by decide)
  have hbatch : .batchAckPacket ∈ after := mem_wrapped_after hsplit rfl (by simp) (by decide)
  cases hrecv : v.recvTxHash with
  | some hash =>
    refine hfrom.received_completes ?_ ?_ (by rw [hrecv]; rfl)
    · exact List.mem_cons_of_mem _ hwait
    · exact List.mem_cons_of_mem _ hbatch
  -- the stage wants the transfer at each reading of the clock, and records its recv tx
  | none =>
    have hpacket := hbefore.trace.samePacket rfl
    have hwants : ∀ now, t.isTimedOut now = false →
        (Stage.batchRecvPacket.guard pl).wants v now = true := by
      intro now hnow
      simp [Stage.guard, hrecv, hpacket.isTimedOut, hnow]
    obtain ⟨us, own, -, -, -, hok⟩ := hvisit.done rfl hbefore.live_end.state hafter.live.error
      ⟨clock, hwants clock htimely⟩ fun reader now hreader hin => by
        rw [hpacket.rowKey] at hin
        exact hwants now ((hclock reader now (by simp [hin])).trans htimely)
    obtain ⟨tx, rfl⟩ := hok.tx_recorded (batchRecvPacket_lawful _) hafter.live.error
    exact hafter.received_completes hwait hbatch rfl

/-- After its timeout, a transfer is received by no stage but the first: `BatchRecvPacket`, the only
other stage that records a recv tx, does not want it. -/
theorem Passage.unreceived (h : Passage pl mates r stages t u evs)
    (hcheck : .checkRecvPacketDelivery ∉ stages) (hclock : Steady t clock evs)
    (htimedOut : t.isTimedOut clock = true) (hnone : t.recvTxHash = none) :
    u.recvTxHash = none := by
  rcases h.trace.recvTxHash h.error with heq | ⟨-, s, hs, hset⟩
  · exact heq.trans hnone
  obtain rfl : s = .batchRecvPacket := hset.resolve_left fun heq => hcheck (heq ▸ hs)
  obtain ⟨before, after, v, v', evs₁, evs₂, evs₃, rfl, hbefore, hvisit, -, ⟨_, hafter⟩, rfl⟩ :=
    h.stop hs
  have hpacket := hbefore.trace.samePacket rfl
  have hv : v.recvTxHash = none := by
    rcases hbefore.trace.recvTxHash hbefore.error with heq | ⟨-, s, hs', rfl | rfl⟩
    · exact heq.trans hnone
    · exact absurd (List.mem_append_left _ hs') hcheck
    · exact absurd (rank_before h.sorted hs') (Nat.lt_irrefl _)
  -- it reads a clock after the timeout, and leaves the transfer as it is
  obtain rfl : v' = v := by
    refine hvisit.skipped rfl hafter.live.error fun now hread => ?_
    have hin := hread .batchRecvPacket rfl
    rw [hpacket.rowKey] at hin
    have htimedOut' : v.isTimedOut now = true := by
      rw [hpacket.isTimedOut, hclock .batchRecvPacket now (by simp [hin])]
      exact htimedOut
    simp [batchContract, Stage.guard, htimedOut']
  rcases hafter.trace.recvTxHash h.error with heq | ⟨-, s, hs', rfl | rfl⟩
  · exact heq.trans hv
  · exact absurd (List.mem_append_right _ (List.mem_cons_of_mem _ hs')) hcheck
  · exact absurd (rank_after h.sorted hs') (Nat.lt_irrefl _)

/-! ### The dead end -/

/-- A packet past its timeout that is acknowledged and not received, as far as the relayer is told:
the ack tx is on the row already, or this pass finds it after the destination client has denied that
the packet is received. -/
def DeadEnd (t : IBCV2Transfer) (clock : Time) (evs : List Event) : Prop :=
  t.isTimedOut clock = true ∧ t.recvTxHash = none ∧ t.timeoutTxHash = none
    ∧ (t.ackTxHash.isSome = true
      ∨ (⟨.isPacketReceived t.destinationChainID t.packetDestinationClientID t.sequence, .ok false⟩
          ∈ evs
        ∧ ∃ tx, ⟨.findAckTx t.sourceChainID t.packetSourceClientID t.packetDestinationClientID
          t.sequence, .ok tx⟩ ∈ evs))

/-- The first stage and the others. -/
theorem Passage.first (h : Passage pl mates r (wrappedStages pl) t u evs) :
    ∃ rest r' t' evs₁ evs₂, wrappedStages pl = .checkRecvPacketDelivery :: rest
      ∧ StageVisit pl (Stage.checkRecvPacketDelivery.keys pl (mates .checkRecvPacketDelivery)) t
        .checkRecvPacketDelivery (some t') evs₁
      ∧ Passage pl mates r' rest t' u evs₂ ∧ evs = evs₂ ++ evs₁ := by
  have hstage : .checkRecvPacketDelivery ∈ wrappedStages pl := mem_wrappedStages rfl (by simp)
  obtain ⟨before, after, v, v', evs₁, evs₂, evs₃, hsplit, hbefore, hvisit, -, ⟨r', hafter⟩, rfl⟩ :=
    h.stop hstage
  obtain rfl : before = [] := by
    have hsorted := h.sorted
    rw [hsplit] at hsorted
    refine List.eq_nil_iff_forall_not_mem.mpr fun s hs => ?_
    exact absurd (rank_before hsorted hs) (Nat.not_lt_zero _)
  cases hbefore.trace
  exact ⟨after, r', v', evs₂, evs₃, hsplit, hvisit, hafter, by simp⟩

/-- **Only the dead end is incomplete.** A transfer that is incomplete at the finisher, without an
error, has no timeout tx, was not received, or it would have been acknowledged, and is past its
timeout, or it would have been received. `BatchTimeoutPacket` submits a timeout for such a transfer,
unless it has an ack tx by then: from the row, or found by the commitment check before that stage.
-/
theorem Passage.deadEnd_of_incomplete (h : Passage pl mates r (wrappedStages pl) t u evs)
    (hclock : Steady t clock evs) (hincomplete : u.complete pl.opts = false) :
    DeadEnd t clock evs := by
  -- each property that would make the transfer complete is excluded
  have hcontra : ∀ {p : Prop}, u.complete pl.opts = true → p := fun hcomplete => by
    rw [hcomplete] at hincomplete
    cases hincomplete
  have htimeout : u.timeoutTxHash = none := by
    cases hhash : u.timeoutTxHash with
    | none => rfl
    | some hash => exact hcontra (complete_of_timeout (by rw [hhash]; rfl))
  have hrecv : t.recvTxHash = none := by
    cases hhash : t.recvTxHash with
    | none => rfl
    | some hash =>
      exact hcontra (h.received_completes (mem_wrappedStages rfl (by simp))
        (mem_wrappedStages rfl (by simp)) (by rw [hhash]; rfl))
  have htimedOut : t.isTimedOut clock = true := by
    cases htimely : t.isTimedOut clock with
    | true => rfl
    | false => exact hcontra (h.timely_completes hclock htimely)
  refine ⟨htimedOut, hrecv, h.timeoutTxHash_none htimeout, ?_⟩
  cases hack : t.ackTxHash with
  | some hash => exact Or.inl rfl
  | none =>
    refine Or.inr ⟨?_, ?_⟩
    · -- the first stage asked, and did not find the packet received
      obtain ⟨rest, r', t', evs₁, evs₂, hstages, hvisit, hrest, rfl⟩ := h.first
      obtain ⟨us, own, -, hown, -, hok⟩ := hvisit.done rfl h.live.state hrest.live.error
        ⟨.zero, by simp [Stage.guard, isOpen, hrecv, hack, h.timeoutTxHash_none htimeout]⟩
        (by simp [Stage.guard])
      cases hok with
      | notReceived hin => exact List.mem_append_right _ (hown hin)
      | received tx =>
        have hsplit : wrappedStages pl = [] ++ .checkRecvPacketDelivery :: rest := hstages
        exact hcontra (hrest.received_completes (mem_wrapped_after hsplit rfl (by simp) (by decide))
          (mem_wrapped_after hsplit rfl (by simp) (by decide)) rfl)
    · -- an open packet would have been timed out
      have hstage : .batchTimeoutPacket ∈ wrappedStages pl := mem_wrappedStages rfl (by simp)
      obtain ⟨before, after, v, v', evs₁, evs₂, evs₃, hsplit, hbefore, hvisit, ⟨_, hfrom⟩,
        ⟨_, hafter⟩, rfl⟩ := h.stop hstage
      have hpacket := hbefore.trace.samePacket rfl
      have hlate : .batchAckPacket ∉ before := by
        intro hin
        have hsorted := h.sorted
        rw [hsplit] at hsorted
        exact absurd (rank_before hsorted hin) (by decide)
      -- the ack tx is still missing when `BatchTimeoutPacket` gets the transfer, or was found on
      -- the way
      rcases hbefore.trace.ackFound hlate rfl hbefore.error with heq | ⟨tx, hin⟩
      · have hwants : ∀ now, t.isTimedOut now = true → v.recvTxHash = none →
            (Stage.batchTimeoutPacket.guard pl).wants v now = true := by
          intro now hnow hvrecv
          simp [Stage.guard, isOpen, hpacket.isTimedOut, hnow, hvrecv, heq, hack,
            hfrom.timeoutTxHash_none htimeout]
        have hvrecv : v.recvTxHash = none := by
          cases hhash : v.recvTxHash with
          | none => rfl
          | some hash =>
            refine hcontra (hfrom.received_completes ?_ ?_ (by rw [hhash]; rfl))
            · exact List.mem_cons_of_mem _ (mem_wrapped_after hsplit rfl (by simp) (by decide))
            · exact List.mem_cons_of_mem _ (mem_wrapped_after hsplit rfl (by simp) (by decide))
        obtain ⟨us, own, -, -, -, hok⟩ := hvisit.done rfl hbefore.live_end.state
          hafter.live.error ⟨clock, hwants clock htimedOut hvrecv⟩ fun reader now hreader hin => by
            rw [hpacket.rowKey] at hin
            exact hwants now ((hclock reader now (by simp [hin])).trans htimedOut) hvrecv
        obtain ⟨tx, rfl⟩ := hok.tx_recorded (batchTimeoutPacket_lawful _) hafter.live.error
        refine hcontra (complete_of_timeout ?_)
        rw [hafter.timeoutTxHash_some rfl]
        rfl
      · exact ⟨tx, List.mem_append_right _ (List.mem_append_right _ hin)⟩

/-- The first stage records no recv tx for an acknowledged packet, or when it is told that there is
none. -/
theorem unreceived_of_first {keys : List RowKey} {t' : IBCV2Transfer}
    (h : StageVisit pl keys t .checkRecvPacketDelivery (some t') evs) (herror : t'.error = "")
    (hnone : t.recvTxHash = none) (hdenied : t.ackTxHash.isSome = true
      ∨ ⟨.isPacketReceived t.destinationChainID t.packetDestinationClientID t.sequence, .ok false⟩
        ∈ evs) : t'.recvTxHash = none := by
  rcases h.settled rfl herror with ⟨rfl, -⟩ | ⟨us, own, htaken, -, hquery, hok⟩
  · exact hnone
  · cases hok with
    | notReceived => exact hnone
    | received tx hno =>
      -- the stage leaves out a packet with an ack tx, and asks only once
      rcases hdenied with hack | hin
      · obtain ⟨now, hwants, -⟩ := htaken.granted
        simp only [Stage.guard, isOpen, Bool.and_eq_true, Option.isNone_iff_eq_none] at hwants
        rw [hwants.1.2] at hack
        cases hack
      · exact absurd (hquery _ hin rfl) hno

/-- Only the first stage asks whether the packet is received. -/
theorem StageVisit.asksDelivery {keys : List RowKey} {stage : Stage} {o : Option IBCV2Transfer}
    (h : StageVisit pl keys t stage o evs) {chainID clientID : String} {sequence : UInt64}
    {answer : Except GoError Bool}
    (hin : ⟨.isPacketReceived chainID clientID sequence, answer⟩ ∈ evs) :
    stage = .checkRecvPacketDelivery := by
  cases h with
  | wrapped hc h =>
    have hquery := (h.query _ hin rfl).1
    cases stage <;> cases hc <;> first | rfl | cases hquery
  | finisher h => cases h.query hin

/-- Only the commitment checks look for an ack tx. -/
theorem StageVisit.asksCommitment {keys : List RowKey} {stage : Stage} {o : Option IBCV2Transfer}
    (h : StageVisit pl keys t stage o evs) {chainID source destination : String} {sequence : UInt64}
    {answer : Except GoError BridgeTx}
    (hin : ⟨.findAckTx chainID source destination sequence, answer⟩ ∈ evs) :
    stage.checksCommitment := by
  cases h with
  | wrapped hc h =>
    have hquery := (h.query _ hin rfl).1
    cases stage <;> cases hc <;> first | exact Or.inl rfl | exact Or.inr rfl | cases hquery
  | finisher h => cases h.query hin

/-- An ack tx that a commitment check found stays on the transfer. -/
theorem Passage.acked_of_found (h : Passage pl mates r stages t u evs) {tx : BridgeTx}
    (hin : ⟨.findAckTx t.sourceChainID t.packetSourceClientID t.packetDestinationClientID
      t.sequence, .ok tx⟩ ∈ evs) : u.ackTxHash.isSome = true := by
  obtain ⟨before, stage, after, v, v', evs₁, evs₂, evs₃, rfl, hbefore, hvisit, hin', hafter, rfl⟩ :=
    h.trace.visited_of_mem hin
  obtain ⟨-, -, _, hpassage⟩ := h.parts hbefore hvisit hafter
  have hpacket := hbefore.samePacket rfl
  rw [← hpacket.sourceChainID, ← hpacket.packetSourceClientID, ← hpacket.packetDestinationClientID,
    ← hpacket.sequence] at hin'
  -- the check ends without an error, and thus used what it found
  cases hvisit.commitmentChecked (hvisit.asksCommitment hin') hpassage.live.error with
  | unchanged _ _ hno => exact absurd hin' (hno tx)
  | timedOut _ _ _ _ hno => exact absurd hin' (hno tx)
  | acked tx' hack =>
    rw [hpassage.ackTxHash_some (by rw [hack]; rfl), hack]
    rfl

/-- **The dead end is incomplete.** The ack tx stays, and so the packet is not timed out. The first
stage has not recorded a recv tx, and past the timeout no other stage does; without one, an ack tx
does not make a transfer complete. -/
theorem Passage.incomplete_of_deadEnd (h : Passage pl mates r (wrappedStages pl) t u evs)
    (hclock : Steady t clock evs) (hdead : DeadEnd t clock evs) : u.complete pl.opts = false := by
  obtain ⟨htimedOut, hrecv, -, hclosed⟩ := hdead
  have hack : u.ackTxHash.isSome = true := by
    rcases hclosed with hack | ⟨-, tx, hin⟩
    · rw [h.ackTxHash_some hack]
      exact hack
    · exact h.acked_of_found hin
  have htimeout : u.timeoutTxHash = none := timeoutTxHash_of_ack h.tracked_end h.live_end hack
  obtain ⟨rest, r', t', evs₁, evs₂, hstages, hvisit, hrest, rfl⟩ := h.first
  have hlate : .checkRecvPacketDelivery ∉ rest := by
    intro hin
    have hsorted := h.sorted
    rw [hstages] at hsorted
    exact Nat.lt_irrefl _ ((List.pairwise_cons.mp hsorted).1 _ hin)
  -- the denial that is in the events is the answer to the first stage, which alone asks
  have hfirst : t'.recvTxHash = none := by
    refine unreceived_of_first hvisit hrest.live.error hrecv (hclosed.imp_right fun hdenied => ?_)
    refine (List.mem_append.mp hdenied.1).resolve_left fun hin => ?_
    obtain ⟨before, stage, after, v, v', f₁, f₂, f₃, rfl, -, hvisit', hin', -⟩ :=
      hrest.trace.visited_of_mem hin
    obtain rfl := hvisit'.asksDelivery hin'
    exact hlate (by simp)
  -- nor is it received later
  have hsteady := (hclock.mono (List.subset_append_left _ _)).samePacket hvisit.samePacket
  have hunreceived := hrest.unreceived hlate hsteady
    (by rw [hvisit.samePacket.isTimedOut]; exact htimedOut) hfirst
  simp [IBCV2Transfer.complete, htimeout, hunreceived]

end Complete

/-- The finisher warns of an incomplete transfer exactly when it gets one. -/
theorem Finish.warns_iff {opts : PipelineOptions} {t t' : IBCV2Transfer} {evs : List Event}
    (h : Finish opts t t' evs) (herror : t.error = "") :
    ⟨.warn .finishNotComplete t.rowKey, ()⟩ ∈ evs ↔ t.complete opts = false := by
  have hcounted : ∀ {state answer} {counted : List Event},
      (∀ e ∈ counted, e.call.isSilent = true) →
      ⟨.warn .finishNotComplete t.rowKey, ()⟩ ∉ saveEvent state t.rowKey answer :: counted := by
    intro state answer counted hsilent hin
    rcases List.mem_cons.mp hin with heq | hin
    · cases heq
    · cases hsilent _ hin
  cases h with
  | passed herror' => exact absurd herror herror'
  | notComplete _ hcomplete => exact iff_of_true List.mem_cons_self hcomplete
  | withoutStatus _ hcomplete =>
    refine iff_of_false (fun hin => ?_) (by simp [hcomplete])
    cases List.mem_singleton.mp hin
  | finished _ hcomplete _ _ _ hsilent =>
    exact iff_of_false (hcounted hsilent) (by simp [hcomplete])
  | notSaved _ hcomplete _ _ _ hsilent =>
    exact iff_of_false (hcounted hsilent) (by simp [hcomplete])

theorem DeadEnd.of_queries {t : IBCV2Transfer} {clock : Time} {evs evs' : List Event}
    (h : DeadEnd t clock evs) (hevs : ∀ e ∈ evs, e.call.isQuery = true → e ∈ evs') :
    DeadEnd t clock evs' := by
  obtain ⟨htimedOut, hrecv, htimeout, hclosed⟩ := h
  refine ⟨htimedOut, hrecv, htimeout, hclosed.imp_right ?_⟩
  rintro ⟨hdenied, tx, hfound⟩
  exact ⟨hevs _ hdenied rfl, tx, hevs _ hfound rfl⟩

/-- **The one dead end.** Let a row have any life behind it, and let the clock stand still during a
pass that ends without an error. The finisher gets a complete transfer, and does not warn, exactly
when the pass did not run into the dead end: a packet past its timeout that is known as acknowledged
and not as received. -/
theorem pass_completes_iff {key : RowKey} {w : World} {r : Ibcv2Transfer} (h : History key w)
    (hrow : w.row key = some r) (pl : Pipeline) (mates : Stage → Mates key) (env : Environment)
    (clock : Time) (hclock : ∀ w' reader k, env w' (.now reader k) = clock) {t' : IBCV2Transfer}
    (hend : (execute env (pass pl mates (newIBCV2Transfer r)) w).1 = some t')
    (herror : t'.processingError = none) : ∃ evs,
    (execute env (pass pl mates (newIBCV2Transfer r)) w).2.log = evs ++ w.log
      ∧ (⟨.warn .finishNotComplete key, ()⟩ ∉ evs ↔ ¬ DeadEnd (newIBCV2Transfer r) clock evs) := by
  have hkey := rowKey_new hrow
  obtain ⟨r', hrow', hwf, hstatus⟩ := history_row h
  cases hrow.symm.trans hrow'
  obtain ⟨evs, htrace, hw, hanswers⟩ :=
    execute_trace pl mates (newPipeline pl) hkey (honest_new r) env w
  change (execute env (pass pl mates (newIBCV2Transfer r)) w).2 = _ at hw
  refine ⟨evs, by rw [hw, World.after_log], not_congr ?_⟩
  have hsteady : Steady (newIBCV2Transfer r) clock evs := by
    intro reader now hin
    obtain ⟨w', hanswer⟩ := hanswers _ hin
    rw [show now = clock from hanswer.trans (hclock w' reader _)]
  rcases htrace.to_finisher with ⟨hlost, -⟩ | ⟨v, t'', evs₁, evs₂, hbefore, hfinish, hend', rfl⟩
  · cases hlost.symm.trans hend
  cases hend.symm.trans hend'
  -- an error before the finisher would still be there
  have hverror : v.error = "" := by
    have hvisit : StageVisit pl [] v .stateFinisher (some t') evs₂ := .finisher hfinish
    exact hvisit.error_before (by rw [IBCV2Transfer.error, herror])
  have hvkey : v.rowKey = key := (hbefore.samePacket rfl).rowKey.trans hkey
  have hpassage := passage_to_finisher hbefore hkey (tracked_new hwf) hstatus hverror
  have hsteady' := hsteady.mono (List.subset_append_right evs₂ evs₁)
  have hwarns : ⟨.warn .finishNotComplete key, ()⟩ ∈ evs₂ ++ evs₁ ↔ v.complete pl.opts = false := by
    rw [← hfinish.warns_iff hverror, hvkey, List.mem_append]
    exact or_iff_left (hbefore.not_finished hkey finisher_not_wrapped).2
  rw [hwarns]
  constructor
  · intro hincomplete
    exact (hpassage.deadEnd_of_incomplete hsteady' hincomplete).of_queries
      fun e he _ => List.mem_append_right _ he
  · intro hdead
    refine hpassage.incomplete_of_deadEnd hsteady' (hdead.of_queries fun e he hquery => ?_)
    refine (List.mem_append.mp he).resolve_left fun hin => ?_
    rw [hfinish.query hin] at hquery
    cases hquery

theorem Sample.history : History Sample.row.key Sample.world :=
  .inserted Sample.packet 1 (by decide +kernel)

theorem ended_of_any {o : Option IBCV2Transfer} (h : o.any (·.processingError.isNone) = true) :
    ∃ t', o = some t' ∧ t'.processingError = none := by
  obtain ⟨t', ho, hnone⟩ := (Option.any_eq_true _ _).mp h
  exact ⟨t', ho, Option.isNone_iff_eq_none.mp hnone⟩

/-- `pass_completes_iff` for a packet that is received and acknowledged before its timeout. -/
theorem pass_completes_iff_in_time : ∃ evs,
    (execute (Sample.obliging .zero) (pass Sample.pipeline Sample.alone
        (newIBCV2Transfer Sample.row)) Sample.world).2.log = evs ++ Sample.world.log
      ∧ ⟨.warn .finishNotComplete Sample.row.key, ()⟩ ∉ evs := by
  obtain ⟨t', hend, herror⟩ := ended_of_any (o := (execute (Sample.obliging .zero)
    (pass Sample.pipeline Sample.alone (newIBCV2Transfer Sample.row)) Sample.world).1)
    (by decide +kernel)
  obtain ⟨evs, hlog, hiff⟩ := pass_completes_iff Sample.history (by decide +kernel) Sample.pipeline
    Sample.alone (Sample.obliging .zero) .zero (fun _ _ _ => rfl) hend herror
  exact ⟨evs, hlog, hiff.mpr fun hdead => absurd hdead.1 (by decide)⟩

/-- Another relayer has acknowledged the packet, the destination client lags, and the clock stands
after the timeout: the pass has no error, and the finisher gets an incomplete transfer. -/
theorem acknowledged_packet_incomplete : ∃ t' evs,
    History Sample.row.key Sample.world
      ∧ (∀ w' reader k, Sample.ackedElsewhere { unixNano := 2000 } w' (.now reader k)
        = { unixNano := 2000 })
      ∧ (execute (Sample.ackedElsewhere { unixNano := 2000 }) (pass Sample.pipeline Sample.alone
        (newIBCV2Transfer Sample.row)) Sample.world).1 = some t'
      ∧ t'.processingError = none
      ∧ (execute (Sample.ackedElsewhere { unixNano := 2000 }) (pass Sample.pipeline Sample.alone
        (newIBCV2Transfer Sample.row)) Sample.world).2.log = evs ++ Sample.world.log
      ∧ ⟨.warn .finishNotComplete Sample.row.key, ()⟩ ∈ evs := by
  obtain ⟨left, hleft⟩ : ∃ left, execute (Sample.ackedElsewhere { unixNano := 2000 })
      (pass Sample.pipeline Sample.alone (newIBCV2Transfer Sample.row)) Sample.world = left :=
    ⟨_, rfl⟩
  obtain ⟨t', hend, herror⟩ := ended_of_any (o := left.1) (by rw [← hleft]; decide +kernel)
  have hwarned : left.2.log.any (fun e => decide
      (e.call = .warn .finishNotComplete Sample.row.key)) = true := by
    rw [← hleft]
    decide +kernel
  obtain ⟨⟨call, answer⟩, he, hcall⟩ := List.any_eq_true.mp hwarned
  cases of_decide_eq_true hcall
  rw [hleft]
  exact ⟨t', left.2.log, Sample.history, fun _ _ _ => rfl, hend, herror,
    (List.append_nil _).symm, he⟩

end IbcRelayer
