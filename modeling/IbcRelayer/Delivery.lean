import IbcRelayer.Spec.Flow

/-!
# IbcRelayer — what is known when a tx is delivered

A tx is proved to the other chain by something that has to be final: the send tx, the write ack, the
timestamp of a block. The finality stages are guarded by other conditions than the stages that
deliver, and the results here say how the two fit.

* `delivered_after_finality` — a recv, timeout or ack tx is delivered only after the check of the tx
  that it is proved from;
* `timeout_after_finality_iff` — the check of the timeout's own finality is skipped when the packet
  times out between two readings of the clock;
* `closed_not_received_iff` — whether a packet that is known to be acknowledged or timed out is
  received again depends on the recv hash and on the clock only.
-/

namespace IbcRelayer

open CallTree Prog IBCV2Transfer

/-! ## The stage that submits -/

/-- The hash that `BatchAckPacket` requests by is the one of the write ack tx. -/
theorem batchAckPacket_txHash {route : Route} {t : IBCV2Transfer} {hash : String}
    (h : (batchAckPacket route).txHash t = .ok hash) : t.writeAckTxHash = some hash := by
  unfold batchAckPacket at h
  dsimp only at h
  split at h
  · rename_i hhash
    cases h
    exact hhash
  · cases h

section Submission

variable {pl : Pipeline} {key : RowKey} {mates : Stage → Mates key} {stages : List Stage}
  {t : IBCV2Transfer} {o : Option IBCV2Transfer} {evs post pre : List Event} {e : Event}
  {s : Submission}

/-- A submission for the followed transfer is made by a stage whose processor got it. -/
theorem Trace.submission (h : Trace pl mates stages t o evs) (hkey : t.rowKey = key)
    (hevs : evs = post ++ e :: pre) (hs : e.call.submission = some s) (hincludes : s.Includes key) :
    ∃ before stage after v c p o' evs₁ evs₂ pre', stages = before ++ stage :: after
      ∧ Trace pl mates before t (some v) evs₁ ∧ stage.contract pl = some c
      ∧ Visit c (stage.keys pl (mates stage)) v o' evs₂ ∧ Taken c v evs₂
      ∧ Submits c v s e.call pre' p ∧ pre' ⊆ evs₂ ∧ pre = pre' ++ evs₁
      ∧ ∃ later, evs = later ++ (evs₂ ++ evs₁) := by
  obtain ⟨before, stage, after, v, o', evs₁, later, post', pre', rfl, hbefore, hvisit, rfl, rfl⟩ :=
    h.at_event hevs
  have hkey' : v.rowKey = key := (hbefore.samePacket rfl).rowKey.trans hkey
  cases hvisit with
  | wrapped hc hvisit =>
    obtain ⟨htaken, p, hsubmits⟩ := hvisit.submission post' e pre' s rfl hs (hkey' ▸ hincludes)
    refine ⟨before, stage, after, v, _, p, o', evs₁, _, pre', rfl, hbefore, hc, hvisit, htaken,
      hsubmits, ?_, rfl, later, by simp [hevs]⟩
    intro e' he'
    simp [he']
  -- the finisher submits nothing
  | finisher h =>
    rw [h.submission (by simp)] at hs
    cases hs

end Submission

/-! ## The checks before a stage -/

section Checks

variable {pl : Pipeline} {key : RowKey} {mates : Stage → Mates key} {before after : List Stage}
  {stage check : Stage} {t v : IBCV2Transfer} {evs : List Event}

/-- A live transfer has come by every earlier stage of the pipeline, and was live there. Errors and
the status `FAILED` are never taken back, which is why the state at the later stage tells about the
earlier one. -/
theorem Trace.came_by (h : Trace pl mates before t (some v) evs)
    (hstages : newPipeline pl = before ++ stage :: after) (hlive : v.Live)
    (hcheck : check.isGas = false) (hrank : check.rank < stage.rank) :
    ∃ between u u' evs₁ evs₂ evs₃,
      StageVisit pl (check.keys pl (mates check)) u check (some u') evs₂
      ∧ Trace pl mates between u' (some v) evs₃ ∧ evs = evs₃ ++ (evs₂ ++ evs₁)
      ∧ SamePacket t u ∧ u.Live ∧ u'.error = ""
      ∧ ∀ s ∈ between, check.rank < s.rank ∧ s.rank < stage.rank := by
  have hsorted := newPipeline_sorted pl
  rw [hstages] at hsorted
  -- the stages come in the order of their ranks
  have hmem : check ∈ before := by
    refine mem_before hsorted ?_ hrank
    rw [← hstages]
    exact mem_newPipeline pl hcheck
  obtain ⟨earlier, between, u, u', evs₁, evs₂, evs₃, rfl, hearlier, hvisit, hbetween, rfl⟩ :=
    h.visited hmem
  have hsorted' := (List.pairwise_append.mp hsorted).1
  have hfinisher := finisher_not_mem_before hstages
  have hlive' : u'.Live := hbetween.live_before (fun hin => hfinisher (by simp [hin])) rfl hlive
  have hlive'' : u.Live := hvisit.live_before (fun heq => hfinisher (by simp [heq])) hlive'
  refine ⟨between, u, u', evs₁, evs₂, evs₃, hvisit, hbetween, rfl, hearlier.samePacket rfl,
    hlive'', hlive'.error, fun s hs => ?_⟩
  exact ⟨rank_after hsorted' hs, rank_before hsorted (by simp [hs])⟩

/-- A transfer that comes to a stage without a recv tx had none at an earlier stage. -/
theorem recvTxHash_before {u u' : IBCV2Transfer} {keys : List RowKey} {between : List Stage}
    {evs₂ evs₃ : List Event} (hvisit : StageVisit pl keys u check (some u') evs₂)
    (hbetween : Trace pl mates between u' (some v) evs₃) (herror : v.error = "")
    (hnone : v.recvTxHash = none) : u.recvTxHash = none := by
  have hnone' : u'.recvTxHash = none := by
    rcases hbetween.recvTxHash herror with heq | ⟨hnone', -⟩
    · exact heq.symm.trans hnone
    · exact hnone'
  rcases (hvisit.flow (hbetween.error_before rfl herror)).recvTxHash with heq | ⟨hnone'', -⟩
  · exact heq.symm.trans hnone'
  · exact hnone''

/-- A live transfer without a recv tx has passed the check of the send tx: that check is guarded by
the recv tx only, and a recv tx is never taken back without an error. -/
theorem Trace.sendFinalized (h : Trace pl mates before t (some v) evs)
    (hstages : newPipeline pl = before ++ stage :: after) (hlive : v.Live)
    (hrank : Stage.checkSendPacketFinality.rank < stage.rank) (hnone : v.recvTxHash = none) :
    ⟨.isTxFinalized t.sourceChainID t.sourceTxHash pl.opts.sourceFinalityOffset, .ok true⟩
      ∈ evs := by
  obtain ⟨between, u, u', evs₁, evs₂, evs₃, hvisit, hbetween, rfl, hpacket, hlive', herror, -⟩ :=
    h.came_by hstages hlive rfl hrank
  have hunone := recvTxHash_before hvisit hbetween hlive.error hnone
  -- the check wanted the transfer, and left no error
  obtain ⟨us, own, -, hown, -, hok⟩ := hvisit.done rfl hlive'.state herror
    ⟨.zero, by simp [Stage.guard, hunone]⟩ (by simp [Stage.guard])
  have hasked := CheckSendFinalityOk.finalized hok
  have hfinal : ⟨.isTxFinalized u.sourceChainID u.sourceTxHash pl.opts.sourceFinalityOffset,
    .ok true⟩ ∈ evs₂ := hown hasked
  rw [hpacket.sourceChainID, hpacket.sourceTxHash] at hfinal
  exact List.mem_append_right _ (List.mem_append_left _ hfinal)

/-- Whether the ack is relayed depends on the write ack alone. -/
theorem isRelayedAck_eq (t : IBCV2Transfer) (opts : PipelineOptions) :
    t.isRelayedAck opts = t.writeAck.any fun ack => ack.2.any opts.relays := by
  unfold IBCV2Transfer.isRelayedAck IBCV2Transfer.writeAck
  cases t.writeAckTxHash <;> rfl

/-- A live transfer with a write ack that is relayed has passed the check of the write ack tx. -/
theorem Trace.writeAckFinalized (h : Trace pl mates before t (some v) evs)
    (hstages : newPipeline pl = before ++ stage :: after) (hlive : v.Live)
    (hrank : Stage.checkWriteAckFinality.rank < stage.rank)
    (hrelayed : v.isRelayedAck pl.opts = true) {hash : String}
    (hhash : v.writeAckTxHash = some hash) :
    ⟨.isTxFinalized t.destinationChainID hash pl.opts.destinationFinalityOffset, .ok true⟩
      ∈ evs := by
  obtain ⟨between, u, u', evs₁, evs₂, evs₃, hvisit, hbetween, rfl, hpacket, hlive', herror,
    hranks⟩ := h.came_by hstages hlive rfl hrank
  -- the write ack is set by one stage, which is before both
  have hwriteAck : u'.writeAck = v.writeAck := by
    rcases hbetween.writeAck hlive.error with heq | ⟨-, s, hs, rfl⟩
    · exact heq.symm
    · exact absurd (hranks _ hs).1 (by decide)
  have hflow : u'.writeAckTxHash = u.writeAckTxHash ∧ u'.writeAckStatus = u.writeAckStatus :=
    (hvisit.flow herror).writeAck.resolve_right (by simp)
  have hwriteAck' : u.writeAck = v.writeAck := by
    rw [← hwriteAck, IBCV2Transfer.writeAck, IBCV2Transfer.writeAck, hflow.1, hflow.2]
  have hurelayed : u.isRelayedAck pl.opts = true := by
    rw [isRelayedAck_eq, hwriteAck', ← isRelayedAck_eq]
    exact hrelayed
  have huhash : u.writeAckTxHash = some hash := by
    have := congrArg (Option.map Prod.fst) hwriteAck'
    simpa [IBCV2Transfer.writeAck, hhash, Function.comp_def] using this
  obtain ⟨us, own, -, hown, -, hok⟩ := hvisit.done rfl hlive'.state herror
    ⟨.zero, hurelayed⟩ (by simp [Stage.guard])
  obtain ⟨hash', hhash', hfinal⟩ := CheckWriteAckFinalityOk.finalized hok
  cases huhash.symm.trans hhash'
  have hfinal' : ⟨.isTxFinalized u.destinationChainID hash pl.opts.destinationFinalityOffset,
    .ok true⟩ ∈ evs₂ := hown hfinal
  rw [hpacket.destinationChainID] at hfinal'
  exact List.mem_append_right _ (List.mem_append_left _ hfinal')

end Checks

/-! ## Finality before delivery -/

/-- **Nothing is relayed before its proof source is final.** Whatever the clients, the storage and
the clock answer in a pass: before a recv or a timeout tx is delivered for the transfer, the source
client has answered that its send tx is final, and before an ack tx is delivered, the destination
client has answered this for the write ack tx whose bytes are in the request. -/
theorem delivered_after_finality (pl : Pipeline) (r : Ibcv2Transfer) (mates : Stage → Mates r.key)
    (env : Environment) (w : World) : ∃ evs,
    (execute env (pass pl mates (newIBCV2Transfer r)) w).2.log = evs ++ w.log
      ∧ ∀ post pre chainID tx address s answer,
        evs = post ++ ⟨.deliverTx chainID tx address s, answer⟩ :: pre → s.Includes r.key →
        (s.kind ≠ .ackPacket →
          ⟨.isTxFinalized r.sourceChainID r.sourceTxHash pl.opts.sourceFinalityOffset, .ok true⟩
            ∈ pre)
        ∧ (s.kind = .ackPacket → ∃ u hash bytes req reply,
          (u ∈ s.transfers ∧ u.rowKey = r.key ∧ u.writeAckTxHash = some hash)
            ∧ ⟨.relayByTx req s, reply⟩ ∈ pre ∧ decodeString (trimHexMark hash) = .ok bytes
            ∧ bytes ∈ req.sourceTxIds
            ∧ ⟨.isTxFinalized r.destinationChainID hash pl.opts.destinationFinalityOffset,
              .ok true⟩ ∈ pre) := by
  have hkey := newIBCV2Transfer_rowKey r
  obtain ⟨evs, htrace, hw, -⟩ := execute_trace pl mates (newPipeline pl) hkey (honest_new r) env w
  refine ⟨evs, ?_, ?_⟩
  · change World.log (execute env (runStages pl mates (newPipeline pl) _) w).2 = _
    rw [hw, World.after_log]
  intro post pre chainID tx address s answer hevs hincludes
  obtain ⟨before, stage, after, v, c, p, o', evs₁, evs₂, pre', hstages, hbefore, hc, -, htaken,
    hsubmits, -, rfl, -⟩ := htrace.submission hkey hevs rfl hincludes
  obtain ⟨now, hwants⟩ := htaken.wants hc
  have hsend : Stage.checkSendPacketFinality.rank < stage.rank → v.recvTxHash = none →
      ⟨.isTxFinalized r.sourceChainID r.sourceTxHash pl.opts.sourceFinalityOffset, .ok true⟩
        ∈ pre' ++ evs₁ :=
    fun hrank hnone =>
      List.mem_append_right _ (hbefore.sendFinalized hstages htaken.live hrank hnone)
  -- three stages submit: for a recv, a timeout and an ack
  rcases contract_packet hc hsubmits.packet with ⟨rfl, rfl⟩ | ⟨rfl, rfl⟩ | ⟨rfl, rfl⟩
  · refine ⟨fun _ => hsend (by decide) (guard_recvTx (Or.inr rfl) hwants), fun hkind => ?_⟩
    rw [hsubmits.kind] at hkind
    cases hkind
  · refine ⟨fun _ => hsend (by decide) ?_, fun hkind => ?_⟩
    · simp [Stage.guard, isOpen] at hwants
      exact hwants.2.1.1
    · rw [hsubmits.kind] at hkind
      cases hkind
  · refine ⟨fun hkind => absurd hsubmits.kind hkind, fun _ => ?_⟩
    obtain ⟨hash, bytes, txIDs, sequences, hhash, hbytes, hin, hrequest⟩ := hsubmits.request
    obtain ⟨reply, hreply⟩ := hrequest.resolve_left (by simp)
    have hhash' : v.writeAckTxHash = some hash := (batchAckPacket_txHash hhash :)
    have hrelayed : v.isRelayedAck pl.opts = true := (Bool.and_eq_true_iff.mp hwants).1
    have hfinal := hbefore.writeAckFinalized hstages htaken.live (by decide) hrelayed hhash'
    refine ⟨_, hash, bytes, _, reply, ⟨hsubmits.mem, ?_, hhash'⟩, List.mem_append_left _ hreply,
      hbytes, hin, List.mem_append_right _ hfinal⟩
    exact (hbefore.samePacket rfl).rowKey.trans hkey

/-! ## The finality of a timeout -/

section TimeoutFinality

variable {pl : Pipeline} {key : RowKey} {mates : Stage → Mates key} {before after : List Stage}
  {stage : Stage} {t v : IBCV2Transfer} {keys : List RowKey} {o : Option IBCV2Transfer}
  {evs : List Event}

/-- Only `CheckTimeoutFinality` asks for the finality of a timestamp, for a transfer that has timed
out at its reading of the clock. -/
theorem StageVisit.timestampAsked (h : StageVisit pl keys v stage o evs) {chainID : String}
    {timestamp : Time} {offset : Option UInt64} {answer : Except GoError Bool}
    (hin : ⟨.isTimestampFinalized chainID timestamp offset, answer⟩ ∈ evs) :
    ∃ now, ⟨.now .checkTimeoutFinality v.rowKey, now⟩ ∈ evs ∧ v.isTimedOut now = true := by
  cases h with
  | wrapped hc h =>
    obtain ⟨hquery, htaken⟩ := h.query _ hin rfl
    -- every other stage makes no query of this kind
    cases stage <;> cases hc <;> cases hquery
    obtain ⟨now, hwants, hread⟩ := htaken.granted
    exact ⟨now, hread _ rfl, (Bool.and_eq_true_iff.mp hwants).1⟩
  | finisher h => cases h.query hin

/-- Only `CheckTimeoutFinality` makes its reading of the clock. -/
theorem StageVisit.stage_of_reading (h : StageVisit pl keys v stage o evs) {now : Time}
    (hin : ⟨.now .checkTimeoutFinality v.rowKey, now⟩ ∈ evs) :
    stage = .checkTimeoutTimestampFinality := by
  cases h with
  | wrapped hc h =>
    have hreader := h.reading _ now hin rfl
    rw [contract_guard hc] at hreader
    cases stage <;> first | rfl | cases hreader
  | finisher h => cases h.reading hin

/-- A transfer that is open at some stage was open before. -/
theorem Flow.isOpen_before {u u' : IBCV2Transfer} (h : Flow stage u u') (hopen : u'.isOpen = true) :
    u.isOpen = true := by
  simp only [IBCV2Transfer.isOpen, Bool.and_eq_true, Option.isNone_iff_eq_none] at hopen ⊢
  refine ⟨⟨?_, ?_⟩, ?_⟩
  · exact h.recvTxHash.elim (fun heq => heq.symm.trans hopen.1.1) And.left
  · exact h.ackTxHash.elim (fun heq => heq.symm.trans hopen.1.2) And.left
  · exact h.timeoutTxHash.elim (fun heq => heq.symm.trans hopen.2) And.left

/-- A transfer that is open at the end of a trace was open at its start. -/
theorem Trace.isOpen_before {stages : List Stage} (h : Trace pl mates stages t o evs)
    (ho : o = some v) (herror : v.error = "") (hopen : v.isOpen = true) : t.isOpen = true := by
  induction h with
  | nil t =>
    cases ho
    exact hopen
  | lost => cases ho
  | cons h hrest ih => exact (h.flow (hrest.error_before ho herror)).isOpen_before (ih ho)

/-- What `CheckTimeoutFinality` asked, and when, for a transfer that is still open at a later stage:
it asked if the transfer had timed out at its reading of the clock, and only then. -/
theorem Trace.timeoutFinalized_iff (h : Trace pl mates before t (some v) evs)
    (hkey : t.rowKey = key) (hstages : newPipeline pl = before ++ .batchTimeoutPacket :: after)
    (hlive : v.Live) (hopen : v.isOpen = true) :
    ⟨.isTimestampFinalized t.destinationChainID t.packetTimeoutTimestamp
        pl.opts.destinationFinalityOffset, .ok true⟩ ∈ evs
      ↔ ∃ now, ⟨.now .checkTimeoutFinality key, now⟩ ∈ evs ∧ t.isTimedOut now = true := by
  constructor
  -- the question is asked after the clock is read, in the same visit
  · intro hin
    obtain ⟨earlier, stage, later, u, u', evs₁, evs₂, evs₃, -, hearlier, hvisit, hin', -, rfl⟩ :=
      h.visited_of_mem hin
    have hpacket := hearlier.samePacket rfl
    obtain ⟨now, hreading, htimedOut⟩ := hvisit.timestampAsked hin'
    rw [hpacket.rowKey, hkey] at hreading
    rw [hpacket.isTimedOut] at htimedOut
    exact ⟨now, by simp [hreading], htimedOut⟩
  · rintro ⟨now, hreading, htimedOut⟩
    obtain ⟨earlier, stage, later, u, u', evs₁, evs₂, evs₃, rfl, hearlier, hvisit, hreading',
      hlater, rfl⟩ := h.visited_of_mem hreading
    have hpacket := hearlier.samePacket rfl
    rw [← hkey, ← hpacket.rowKey] at hreading'
    -- only one stage reads this clock; the packet is open later, so it was open then, and wanted
    obtain rfl := hvisit.stage_of_reading hreading'
    have herror : u'.error = "" := hlater.error_before rfl hlive.error
    have hopen' : u.isOpen = true :=
      (hvisit.flow herror).isOpen_before (hlater.isOpen_before rfl hlive.error hopen)
    have hwants : (Stage.checkTimeoutTimestampFinality.guard pl).wants u now = true := by
      simp [Stage.guard, hpacket.isTimedOut, htimedOut, hopen']
    rcases hvisit.settled rfl herror with
      ⟨rfl, hfailed | ⟨-, hreadings⟩⟩ | ⟨us, own, -, hown, -, hok⟩
    · -- a failed transfer would still be failed at the later stage
      have hfinisher := finisher_not_mem_before hstages
      have hlive' := hlater.live_before (fun hin => hfinisher (by simp [hin])) rfl hlive
      exact absurd hfailed hlive'.state
    · rw [hreadings rfl _ now hreading'] at hwants
      cases hwants
    · obtain ⟨-, -, hfinal⟩ := hok
      have hfinal' : ⟨.isTimestampFinalized u.destinationChainID u.packetTimeoutTimestamp
        pl.opts.destinationFinalityOffset, .ok true⟩ ∈ evs₂ := hown hfinal
      rw [hpacket.destinationChainID, hpacket.packetTimeoutTimestamp] at hfinal'
      exact List.mem_append_right _ (List.mem_append_left _ hfinal')

end TimeoutFinality

/-- **Timeouts and destination finality.** When a timeout tx is delivered for the transfer, the
destination client has answered before, in the same pass, that the packet's timeout is final exactly
when the packet had already timed out at the reading of the clock that `CheckTimeoutFinality` made.
-/
theorem timeout_after_finality_iff (pl : Pipeline) (r : Ibcv2Transfer)
    (mates : Stage → Mates r.key) (env : Environment) (w : World) : ∃ evs,
    (execute env (pass pl mates (newIBCV2Transfer r)) w).2.log = evs ++ w.log
      ∧ ∀ post pre chainID tx address s answer,
        evs = post ++ ⟨.deliverTx chainID tx address s, answer⟩ :: pre → s.Includes r.key →
        s.kind = .timeoutPacket →
        (⟨.isTimestampFinalized r.destinationChainID r.packetTimeoutTimestamp
            pl.opts.destinationFinalityOffset, .ok true⟩ ∈ pre
          ↔ ∃ now, ⟨.now .checkTimeoutFinality r.key, now⟩ ∈ pre
            ∧ now.after r.packetTimeoutTimestamp = true) := by
  have hkey := newIBCV2Transfer_rowKey r
  obtain ⟨evs, htrace, hw, -⟩ := execute_trace pl mates (newPipeline pl) hkey (honest_new r) env w
  refine ⟨evs, ?_, ?_⟩
  · change World.log (execute env (runStages pl mates (newPipeline pl) _) w).2 = _
    rw [hw, World.after_log]
  intro post pre chainID tx address s answer hevs hincludes hkind
  obtain ⟨before, stage, after, v, c, p, o', evs₁, evs₂, pre', hstages, hbefore, hc, hvisit, htaken,
    hsubmits, hpre, rfl, -⟩ := htrace.submission hkey hevs rfl hincludes
  -- only one stage submits timeouts, and it wants open transfers only
  obtain ⟨rfl, -⟩ : stage = .batchTimeoutPacket ∧ p = batchTimeoutPacket pl.route := by
    rcases contract_packet hc hsubmits.packet with ⟨-, rfl⟩ | h | ⟨-, rfl⟩
    · cases hsubmits.kind.symm.trans hkind
    · exact h
    · cases hsubmits.kind.symm.trans hkind
  obtain ⟨now, hwants⟩ := htaken.wants hc
  have hopen : v.isOpen = true := (Bool.and_eq_true_iff.mp hwants).2
  have hiff := hbefore.timeoutFinalized_iff hkey hstages htaken.live hopen
  have hstage := StageVisit.wrapped hc hvisit
  have hvkey : v.rowKey = r.key := (hbefore.samePacket rfl).rowKey.trans hkey
  constructor
  · intro hin
    -- `BatchTimeoutPacket` itself does not ask for finality
    rcases List.mem_append.mp hin with hin | hin
    · cases hc
      cases (hvisit.query _ (hpre hin) rfl).1
    · obtain ⟨now, hreading, htimedOut⟩ := hiff.mp hin
      exact ⟨now, List.mem_append_right _ hreading, htimedOut⟩
  · rintro ⟨now, hreading, htimedOut⟩
    rcases List.mem_append.mp hreading with hin | hin
    · rw [← hvkey] at hin
      cases hstage.stage_of_reading (hpre hin)
    · exact List.mem_append_right _ (hiff.mpr ⟨now, hin, htimedOut⟩)

/-- Whether an event submits a tx of this kind for the transfer. -/
def submits (kind : TxType) (key : RowKey) (e : Event) : Bool :=
  e.call.submission.any fun s => decide (s.kind = kind) && s.transfers.any (·.rowKey = key)

/-- Whether an event delivers a tx. -/
def delivers (e : Event) : Bool :=
  match e.call with
  | .deliverTx .. => true
  | _ => false

theorem includes_of_submits {kind : TxType} {key : RowKey} {e : Event} {s : Submission}
    (hs : e.call.submission = some s) (h : submits kind key e = true) :
    s.Includes key ∧ s.kind = kind := by
  rw [submits, hs, Option.any_some, Bool.and_eq_true, decide_eq_true_iff, List.any_eq_true] at h
  obtain ⟨hkind, u, hu, hkey⟩ := h
  exact ⟨⟨u, hu, by simpa using hkey⟩, hkind⟩

/-- A log that passes the test has a delivery, with events before and after it. -/
theorem exists_delivery {kind : TxType} {key : RowKey} {evs : List Event}
    (h : evs.any (fun e => delivers e && submits kind key e) = true) :
    ∃ post pre chainID tx address s answer,
      evs = post ++ ⟨.deliverTx chainID tx address s, answer⟩ :: pre ∧ s.Includes key
        ∧ s.kind = kind := by
  obtain ⟨⟨call, answer⟩, he, htest⟩ := List.any_eq_true.mp h
  obtain ⟨hdelivers, hsubmits⟩ := Bool.and_eq_true_iff.mp htest
  unfold delivers at hdelivers
  split at hdelivers
  · rename_i chainID tx address s hcall
    cases hcall
    obtain ⟨post, pre, rfl⟩ := List.append_of_mem he
    exact ⟨post, pre, chainID, tx, address, s, answer, rfl, includes_of_submits rfl hsubmits⟩
  · cases hdelivers

/-- The reading of the clock that an event makes. -/
def readingOf : Event → Option Time
  | ⟨.now _ _, time⟩ => some time
  | _ => none

/-- The clock does not go back; the latest reading comes first. -/
def Nondecreasing (evs : List Event) : Prop :=
  (evs.filterMap readingOf).Pairwise fun later earlier => earlier.unixNano ≤ later.unixNano

instance (evs : List Event) : Decidable (Nondecreasing evs) :=
  inferInstanceAs (Decidable (List.Pairwise _ _))

/-- The sample packet times out, at 1000, between the reading of `CheckTimeoutFinality` and those of
`BatchTimeoutPacket`. -/
def Sample.crossing : Environment := fun w c =>
  match c with
  | .now .sourceTxFinalizedTime _ => ({ unixNano := 500 } : Time)
  | .now .checkTimeoutFinality _ => ({ unixNano := 900 } : Time)
  | .now _ _ => ({ unixNano := 2000 } : Time)
  | c => Sample.obliging .zero w c

/-- The clock passes the timeout between two stages: the timeout tx is delivered, and nobody has
asked whether the timeout is final. -/
theorem timeout_without_finality : ∃ evs post pre chainID tx address s answer,
    (execute Sample.crossing (pass Sample.pipeline Sample.alone (newIBCV2Transfer Sample.row))
        Sample.world).2.log = evs ++ Sample.world.log
      ∧ evs = post ++ ⟨.deliverTx chainID tx address s, answer⟩ :: pre
      ∧ s.Includes Sample.row.key ∧ s.kind = .timeoutPacket ∧ Nondecreasing evs
      ∧ ⟨.isTimestampFinalized Sample.row.destinationChainID Sample.row.packetTimeoutTimestamp
          Sample.pipeline.opts.destinationFinalityOffset, .ok true⟩ ∉ pre := by
  obtain ⟨evs, hevs⟩ : ∃ evs, (execute Sample.crossing
      (pass Sample.pipeline Sample.alone (newIBCV2Transfer Sample.row)) Sample.world).2.log = evs :=
    ⟨_, rfl⟩
  have hdelivers : evs.any (fun e => delivers e && submits .timeoutPacket Sample.row.key e)
      = true := by
    rw [← hevs]
    decide +kernel
  have hclock : Nondecreasing evs := by
    rw [← hevs]
    decide +kernel
  have hasked : evs.any (·.call.asksTimestampFinality) = false := by
    rw [← hevs]
    decide +kernel
  obtain ⟨post, pre, chainID, tx, address, s, answer, hsplit, hincludes, hkind⟩ :=
    exists_delivery hdelivers
  refine ⟨evs, post, pre, chainID, tx, address, s, answer, ?_, hsplit, hincludes, hkind, hclock, ?_⟩
  · rw [hevs]
    exact (List.append_nil evs).symm
  · intro hin
    have hmem := List.mem_append_right post (List.mem_cons_of_mem
      (⟨.deliverTx chainID tx address s, answer⟩ : Event) hin)
    rw [← hsplit] at hmem
    exact absurd rfl (List.any_eq_false.mp hasked _ hmem)

/-! ## A closed packet -/

namespace IBCV2Transfer

/-- The packet is known to be acknowledged or timed out. -/
def isClosed (t : IBCV2Transfer) : Bool := t.ackTxHash.isSome || t.timeoutTxHash.isSome

/-- What keeps `BatchRecvPacket` from requesting a recv tx: that the packet is closed is not
among it. -/
def SparedRecv (pl : Pipeline) (t : IBCV2Transfer) (evs : List Event) : Prop :=
  t.error ≠ "" ∨ t.state = .failed ∨ t.recvTxHash.isSome = true
    ∨ (∃ now, ⟨.now .batchRecvPacket t.rowKey, now⟩ ∈ evs ∧ t.isTimedOut now = true)
    ∨ (∃ err, saveEvent .deliverRecvPacket t.rowKey (.error err) ∈ evs)
    ∨ ((batchRecvPacket pl.route).hashError t).isSome = true

end IBCV2Transfer

section BatchRecv

variable {pl : Pipeline} {keys : List RowKey} {u : IBCV2Transfer} {o : Option IBCV2Transfer}
  {evs : List Event}

/-- `ShouldProcess` refuses a transfer that has a recv tx, or has timed out at its reading of the
clock. -/
theorem sparedRecv_of_refused (h : (Stage.batchRecvPacket.guard pl).Refused u evs) :
    u.SparedRecv pl evs := by
  cases hrecv : u.recvTxHash with
  | some hash => exact Or.inr (Or.inr (Or.inl (by rw [hrecv]; rfl)))
  | none =>
    refine Or.inr (Or.inr (Or.inr (Or.inl ?_)))
    rcases h with hnever | ⟨reader, now, hreader, hin, hfalse⟩
    · -- at the timeout itself the packet has not timed out
      have := hnever u.packetTimeoutTimestamp
      simp [Stage.guard, hrecv, IBCV2Transfer.isTimedOut, Time.after] at this
    · cases hreader
      refine ⟨now, hin, ?_⟩
      simpa [Stage.guard, hrecv] using hfalse

/-- A transfer that the processor did not get had an error, was `FAILED`, was refused, or its state
could not be saved. -/
theorem sparedRecv_of_untaken {c : Contract} (hc : Stage.batchRecvPacket.contract pl = some c)
    (h : Untaken c u evs) : u.SparedRecv pl evs := by
  cases hc
  rcases h with (herror | hstate) | hrefused | hsave
  · exact Or.inl herror
  · exact Or.inr (Or.inl hstate)
  · exact sparedRecv_of_refused hrefused
  · exact Or.inr (Or.inr (Or.inr (Or.inr (Or.inl hsave))))

/-- A transfer that the processor got is requested, unless its hash has no bytes. -/
theorem requested_or_spared {c : Contract} (hc : Stage.batchRecvPacket.contract pl = some c)
    (h : Taken c u evs) :
    (∃ req s answer, ⟨.relayByTx req s, answer⟩ ∈ evs ∧ s.Includes u.rowKey)
      ∨ u.SparedRecv pl evs := by
  cases hc
  cases herror : (batchRecvPacket pl.route).hashError u with
  | some err =>
    exact Or.inr (Or.inr (Or.inr (Or.inr (Or.inr (Or.inr (by rw [herror]; rfl))))))
  | none =>
    obtain ⟨req, s, answer, hin, -, hincludes⟩ := h.requested _ rfl herror
    exact Or.inl ⟨req, s, answer, hin, hincludes⟩

/-- The stage leaves a transfer out of its request exactly for the reasons in `SparedRecv`, whether
the packet is closed or not. -/
theorem visit_requested_iff (h : StageVisit pl keys u .batchRecvPacket o evs) :
    (∀ req s answer, ⟨.relayByTx req s, answer⟩ ∈ evs → ¬ s.Includes u.rowKey)
      ↔ u.SparedRecv pl evs := by
  cases h with
  | @wrapped _ c _ _ hc h =>
    constructor
    · intro hnever
      have htaken : Taken c u evs → u.SparedRecv pl evs := by
        intro htaken
        rcases requested_or_spared hc htaken with ⟨req, s, answer, hin, hincludes⟩ | hspared
        · exact absurd hincludes (hnever req s answer hin)
        · exact hspared
      have hstep := h.step
      generalize updatesOf u.rowKey evs = us at hstep
      cases hstep with
      | passed hpassed => exact sparedRecv_of_untaken hc (Or.inl hpassed)
      | refused hrefused => exact sparedRecv_of_untaken hc (Or.inr (Or.inl hrefused))
      | stateNotSaved err _ _ hsave =>
        exact sparedRecv_of_untaken hc (Or.inr (Or.inr ⟨err, hsave⟩))
      | lost huntaken => exact sparedRecv_of_untaken hc huntaken
      | failed htaken' => exact htaken htaken'
      | done htaken' => exact htaken htaken'
    -- a submission for the transfer shows that the processor got it, against each of the reasons
    · intro hspared req s answer hin hincludes
      obtain ⟨post, pre, rfl⟩ := List.append_of_mem hin
      obtain ⟨htaken, p, hsubmits⟩ := h.submission post _ pre s rfl rfl hincludes
      cases hc
      cases hsubmits.packet
      obtain ⟨now, hwants, hread⟩ := htaken.granted
      rcases hspared with herror | hstate | hrecv | ⟨now', hin', htimedOut⟩ | ⟨err, hin'⟩ | herror
      · exact herror htaken.error
      · exact htaken.state hstate
      · have hwants' : (Stage.batchRecvPacket.guard pl).wants u now = true := hwants
        rw [guard_recvTx (Or.inr rfl) hwants'] at hrecv
        cases hrecv
      · have hwants' := htaken.readings _ now' hin' rfl
        simp [batchContract, Stage.guard, htimedOut] at hwants'
      · cases htaken.saves _ hin'
      · rw [show (batchRecvPacket pl.route).hashError u = none from hsubmits.hashError] at herror
        cases herror

end BatchRecv

/-- **A closed packet and `BatchRecvPacket`.** A transfer that comes to the stage with an ack or a
timeout hash is not put into a `RelayByTx` request exactly when something else keeps it out: an
error, the status `FAILED`, a recv hash, a reading of the clock after the timeout, a state that
could not be saved, or a hash that has no bytes. -/
theorem closed_not_received_iff {pl : Pipeline} {r : Ibcv2Transfer} {mates : Stage → Mates r.key}
    {env : Environment} {w w₁ w₂ : World} {u : IBCV2Transfer} {o : Option IBCV2Transfer}
    (h : VisitedAt pl mates env w (newIBCV2Transfer r) .batchRecvPacket u w₁ o w₂) :
    ∃ evs, w₂.log = evs ++ w₁.log
      ∧ ((u.isClosed = true → ∀ req s answer, ⟨.relayByTx req s, answer⟩ ∈ evs →
          ¬ s.Includes r.key)
        ↔ (u.isClosed = true → u.SparedRecv pl evs)) := by
  obtain ⟨evs, hvisit, rfl, hkey, -, -⟩ := h.visit (newIBCV2Transfer_rowKey r) (honest_new r)
  refine ⟨evs, World.after_log w₁ evs, ?_⟩
  rw [← hkey]
  exact imp_congr_right fun _ => visit_requested_iff hvisit

namespace Sample

/-- Another relayer has received the packet and acknowledged it, and the destination client, which
lags, answers that it is not received. -/
def ackedElsewhere (clock : Time) : Environment := fun w c =>
  match c with
  | .isPacketCommitted .. => .ok false
  | .findAckTx .. => .ok ⟨"0xa2", { unixNano := 400 }, "other relayer"⟩
  | c => obliging clock w c

/-- The stages before `BatchRecvPacket`. -/
def beforeRecv : List Stage :=
  [.checkRecvPacketDelivery, .checkInitialPacketCommitment, .checkSendPacketFinality,
    .checkTimeoutTimestampFinality, .batchTimeoutPacket, .retryTimeoutPacket]

/-- The sample packet as it comes to `BatchRecvPacket` when it was acknowledged elsewhere. -/
def acked (clock : Time) : IBCV2Transfer :=
  { newIBCV2Transfer row with
    state := .awaitingSendFinality
    sourceTxFinalizedTime := some clock
    ackTxHash := some "0xa2"
    ackTxTime := some { unixNano := 400 }
    ackTxRelayerAddress := some "other relayer" }

end Sample

/-- The sample packet, acknowledged elsewhere, comes to `BatchRecvPacket`. -/
theorem Sample.visited_recv (clock : Time)
    (harrived : (execute (ackedElsewhere clock) (runStages pipeline alone beforeRecv
      (newIBCV2Transfer row)) world).1 = some (acked clock)) :
    ∃ w₁ left, (execute (ackedElsewhere clock) (runStages pipeline alone beforeRecv
        (newIBCV2Transfer row)) world).2 = w₁
      ∧ execute (ackedElsewhere clock)
        ((Stage.batchRecvPacket.processor pipeline).run [] [] (acked clock)) w₁ = left
      ∧ VisitedAt pipeline alone (ackedElsewhere clock) world (newIBCV2Transfer row)
        .batchRecvPacket (acked clock) w₁ left.1 left.2 := by
  have hstages : newPipeline pipeline = beforeRecv ++ .batchRecvPacket :: [.retryRecvPacket,
      .waitForWriteAckPacket, .checkWriteAckFinality, .checkPostReceivePacketCommitment,
      .batchAckPacket, .retryAckPacket, .stateFinisher] := by decide
  exact ⟨_, _, rfl, rfl, visitedAt_of_execute hstages rfl harrived rfl⟩

theorem any_of_append {log evs past : List Event} {test : Event → Bool} (hlog : log = evs ++ past)
    (hafter : log.any test = true) (hbefore : past.any test = false) : evs.any test = true := by
  rw [hlog, List.any_append, hbefore, Bool.or_false] at hafter
  exact hafter

/-- A reading of the clock by `BatchRecvPacket`, after the timeout of the transfer. -/
def readsTimedOut (t : IBCV2Transfer) : Event → Bool
  | ⟨.now .batchRecvPacket key, now⟩ => decide (key = t.rowKey) && t.isTimedOut now
  | _ => false

/-- `closed_not_received_iff` for a closed packet that has timed out: it is not requested. -/
theorem closed_not_received_iff_timed_out : ∃ w₁ o w₂ evs,
    VisitedAt Sample.pipeline Sample.alone (Sample.ackedElsewhere { unixNano := 2000 }) Sample.world
        (newIBCV2Transfer Sample.row) .batchRecvPacket (Sample.acked { unixNano := 2000 }) w₁ o w₂
      ∧ w₂.log = evs ++ w₁.log ∧ (Sample.acked { unixNano := 2000 }).isClosed = true
      ∧ ∀ req s answer, ⟨.relayByTx req s, answer⟩ ∈ evs → ¬ s.Includes Sample.row.key := by
  obtain ⟨w₁, left, hw₁, hleft, hvisited⟩ :=
    Sample.visited_recv { unixNano := 2000 } (by decide +kernel)
  obtain ⟨evs, hlog, hiff⟩ := closed_not_received_iff hvisited
  refine ⟨w₁, left.1, left.2, evs, hvisited, hlog, rfl, hiff.mpr (fun _ => ?_) rfl⟩
  have hread : evs.any (readsTimedOut (Sample.acked { unixNano := 2000 })) = true := by
    refine any_of_append hlog ?_ ?_
    · rw [← hleft, ← hw₁]
      decide +kernel
    · rw [← hw₁]
      decide +kernel
  -- the reading is among the events of the stage
  obtain ⟨e, he, htest⟩ := List.any_eq_true.mp hread
  unfold readsTimedOut at htest
  split at htest
  · rename_i key now
    rw [Bool.and_eq_true, decide_eq_true_iff] at htest
    rw [htest.1] at he
    exact Or.inr (Or.inr (Or.inr (Or.inl ⟨now, he, htest.2⟩)))
  · cases htest

/-- The ack tx of the packet was found by the commitment check of the same pass, the clock is before
the timeout, and a recv tx is requested and delivered for it. -/
theorem closed_packet_received : ∃ w₁ o w₂ evs,
    VisitedAt Sample.pipeline Sample.alone (Sample.ackedElsewhere .zero) Sample.world
        (newIBCV2Transfer Sample.row) .batchRecvPacket (Sample.acked .zero) w₁ o w₂
      ∧ w₂.log = evs ++ w₁.log ∧ (Sample.acked .zero).isClosed = true ∧ Nondecreasing w₂.log
      ∧ ∃ req s reply chainID tx address answer, ⟨.relayByTx req s, reply⟩ ∈ evs
        ∧ ⟨.deliverTx chainID tx address s, answer⟩ ∈ evs ∧ s.kind = .recvPacket
        ∧ s.Includes Sample.row.key := by
  obtain ⟨w₁, left, hw₁, hleft, hvisited⟩ := Sample.visited_recv .zero (by decide +kernel)
  obtain ⟨evs, hvisit, hw₂, hkey, -, -⟩ :=
    hvisited.visit (newIBCV2Transfer_rowKey Sample.row) (honest_new Sample.row)
  have hlog : left.2.log = evs ++ w₁.log := by rw [hw₂, World.after_log]
  have hclock : Nondecreasing left.2.log := by
    rw [← hleft, ← hw₁]
    decide +kernel
  have hdelivers : evs.any (fun e => delivers e && submits .recvPacket Sample.row.key e)
      = true := by
    refine any_of_append hlog ?_ ?_
    · rw [← hleft, ← hw₁]
      decide +kernel
    · rw [← hw₁]
      decide +kernel
  obtain ⟨post, pre, chainID, tx, address, s, answer, rfl, hincludes, hkind⟩ :=
    exists_delivery hdelivers
  refine ⟨w₁, left.1, left.2, _, hvisited, hlog, rfl, hclock, ?_⟩
  cases hvisit with
  | wrapped hc h =>
    obtain ⟨-, p, hsubmits⟩ := h.submission post _ pre s rfl rfl hincludes
    obtain ⟨hash, bytes, txIDs, sequences, -, -, -, hrequest⟩ := hsubmits.request
    obtain ⟨reply, hreply⟩ := hrequest.resolve_left (by simp)
    exact ⟨_, s, reply, chainID, tx, address, answer, by simp [hreply], by simp, hkind, hincludes⟩

end IbcRelayer
