import IbcRelayer.LifeCycle

/-!
# IbcRelayer — runs of stages that leave no error

Most of what a check is good for comes from its place in the order of the stages: what was found
before it, and what no stage after it can change.

* `Passage` — a run of stages that leaves no error, over a transfer that mirrors a well-formed row;
  `Passage.stop` takes it apart at a stage;
* `Trace.to_finisher` — a whole pass is a run of the wrapped stages and the finisher;
* `CommitmentChecked`, `Trace.ackFound`, `Trace.timeoutFound` — a tx that is not submitted by the
  relayer was found by a commitment check.
-/

namespace IbcRelayer

open CallTree Prog IBCV2Transfer

/-! ## Passages -/

/-- A run of stages over a live transfer that mirrors a well-formed row; it leaves no error. -/
structure Passage (pl : Pipeline) {key : RowKey} (mates : Stage → Mates key) (r : Ibcv2Transfer)
    (stages : List Stage) (t u : IBCV2Transfer) (evs : List Event) : Prop where
  trace : Trace pl mates stages t (some u) evs
  sorted : stages.Pairwise (·.rank < ·.rank)
  key : t.rowKey = key
  tracked : Tracked r t
  live : t.Live
  error : u.error = ""

section Passage

variable {pl : Pipeline} {key : RowKey} {mates : Stage → Mates key} {r : Ibcv2Transfer}
  {stages : List Stage} {stage : Stage} {t u : IBCV2Transfer} {evs : List Event}

/-- The transfer is live at the end, too: the wrapped stages never set it to `FAILED`. -/
theorem Passage.live_end (h : Passage pl mates r stages t u evs) : u.Live :=
  ⟨h.error, h.trace.not_failed rfl h.error h.live.state⟩

/-- The transfer mirrors its row at the end of the passage as at its start. -/
theorem Passage.tracked_end (h : Passage pl mates r stages t u evs) :
    Tracked (applyAll (updatesOf key evs) r) u :=
  trace_tracked h.trace h.key h.tracked rfl

/-- The parts of a passage that its trace is taken apart into. -/
theorem Passage.parts {before after : List Stage} {v v' : IBCV2Transfer}
    {evs₁ evs₂ evs₃ : List Event}
    (h : Passage pl mates r (before ++ stage :: after) t u evs)
    (hbefore : Trace pl mates before t (some v) evs₁)
    (hvisit : StageVisit pl (stage.keys pl (mates stage)) v stage (some v') evs₂)
    (hafter : Trace pl mates after v' (some u) evs₃) :
    Passage pl mates r before t v evs₁
      ∧ (∃ r', Passage pl mates r' (stage :: after) v u (evs₃ ++ evs₂))
      ∧ ∃ r', Passage pl mates r' after v' u evs₃ := by
  obtain ⟨hsorted, hsorted', -⟩ := List.pairwise_append.mp h.sorted
  have herror' : v'.error = "" := hafter.error_before rfl h.error
  have hpassage : Passage pl mates r before t v evs₁ :=
    ⟨hbefore, hsorted, h.key, h.tracked, h.live, hvisit.error_before herror'⟩
  -- every visit returns the same packet, live, and tracked
  have hkey : v.rowKey = key := (hbefore.samePacket rfl).rowKey.trans h.key
  have hlive' : v'.Live := ⟨herror', hvisit.not_failed herror' hpassage.live_end.state⟩
  exact ⟨hpassage,
    ⟨_, .cons hvisit hafter, hsorted', hkey, hpassage.tracked_end, hpassage.live_end, h.error⟩,
    ⟨_, hafter, (List.pairwise_cons.mp hsorted').2, hvisit.samePacket.rowKey.trans hkey,
      visit_tracked hvisit hpassage.tracked_end, hlive', h.error⟩⟩

/-- The visit to one of the stages, between two passages; the second one also with the visit. -/
theorem Passage.stop (h : Passage pl mates r stages t u evs) (hstage : stage ∈ stages) :
    ∃ before after v v' evs₁ evs₂ evs₃, stages = before ++ stage :: after
      ∧ Passage pl mates r before t v evs₁
      ∧ StageVisit pl (stage.keys pl (mates stage)) v stage (some v') evs₂
      ∧ (∃ r', Passage pl mates r' (stage :: after) v u (evs₃ ++ evs₂))
      ∧ (∃ r', Passage pl mates r' after v' u evs₃) ∧ evs = evs₃ ++ (evs₂ ++ evs₁) := by
  obtain ⟨before, after, v, v', evs₁, evs₂, evs₃, rfl, hbefore, hvisit, hafter, rfl⟩ :=
    h.trace.visited hstage
  obtain ⟨hpassage, hfrom, hafter'⟩ := h.parts hbefore hvisit hafter
  exact ⟨before, after, v, v', evs₁, evs₂, evs₃, rfl, hpassage, hvisit, hfrom, hafter', rfl⟩

/-! ### Hashes along a passage -/

/-- A recv hash that is there stays. A stage that clears it leaves an error. The same holds of the
ack, the timeout and the write ack below. -/
theorem Passage.recvTxHash_some (h : Passage pl mates r stages t u evs)
    (hsome : t.recvTxHash.isSome = true) : u.recvTxHash = t.recvTxHash :=
  (h.trace.recvTxHash h.error).resolve_right fun hnone => by
    rw [hnone.1] at hsome
    cases hsome

theorem Passage.ackTxHash_some (h : Passage pl mates r stages t u evs)
    (hsome : t.ackTxHash.isSome = true) : u.ackTxHash = t.ackTxHash :=
  (h.trace.ackTxHash h.error).resolve_right fun hnone => by
    rw [hnone.1] at hsome
    cases hsome

theorem Passage.timeoutTxHash_some (h : Passage pl mates r stages t u evs)
    (hsome : t.timeoutTxHash.isSome = true) : u.timeoutTxHash = t.timeoutTxHash :=
  (h.trace.timeoutTxHash h.error).resolve_right fun hnone => by
    rw [hnone.1] at hsome
    cases hsome

theorem Passage.writeAck_some (h : Passage pl mates r stages t u evs)
    (hsome : t.writeAck.isSome = true) : u.writeAck = t.writeAck :=
  (h.trace.writeAck h.error).resolve_right fun hnone => by
    rw [hnone.1] at hsome
    cases hsome

/-- A transfer without a timeout tx at the end had none at the start. -/
theorem Passage.timeoutTxHash_none (h : Passage pl mates r stages t u evs)
    (hnone : u.timeoutTxHash = none) : t.timeoutTxHash = none :=
  (h.trace.timeoutTxHash h.error).elim (fun heq => heq.symm.trans hnone) And.left

/-- A hash comes with its time, on the copy as on the row. -/
theorem ackTxTime_of_hash (h : Tracked r t) (hlive : t.Live) (hhash : t.ackTxHash.isSome = true) :
    t.ackTxTime.isSome = true := by
  have hm := h.mirrors hlive.error
  rw [Option.isSome_iff_ne_none] at hhash ⊢
  rw [← hm.ackTxTime]
  rw [← hm.ackTxHash] at hhash
  exact fun hnone => hhash (h.wellFormed.ackTx.mpr hnone)

theorem timeoutTxTime_of_hash (h : Tracked r t) (hlive : t.Live)
    (hhash : t.timeoutTxHash.isSome = true) : t.timeoutTxTime.isSome = true := by
  have hm := h.mirrors hlive.error
  rw [Option.isSome_iff_ne_none] at hhash ⊢
  rw [← hm.timeoutTxTime]
  rw [← hm.timeoutTxHash] at hhash
  exact fun hnone => hhash (h.wellFormed.timeoutTx.mpr hnone)

theorem writeAckStatus_of_hash (h : Tracked r t) (hlive : t.Live)
    (hhash : t.writeAckTxHash.isSome = true) : t.writeAckStatus.isSome = true := by
  have hm := h.mirrors hlive.error
  obtain ⟨hash, hhash⟩ := Option.isSome_iff_exists.mp hhash
  rw [← hm.writeAckStatus]
  exact (h.wellFormed.writeAck hash (hm.writeAckTxHash.trans hhash)).2

/-- A transfer that is acknowledged is not timed out. -/
theorem timeoutTxHash_of_ack (h : Tracked r t) (hlive : t.Live)
    (hack : t.ackTxHash.isSome = true) : t.timeoutTxHash = none := by
  have hm := h.mirrors hlive.error
  rw [← hm.timeoutTxHash]
  refine h.wellFormed.exclusive.resolve_left fun hnone => ?_
  rw [← hm.ackTxHash, hnone] at hack
  cases hack

end Passage

/-! ## A pass and its last stage -/

/-- The stages before the finisher. -/
def wrappedStages (pl : Pipeline) : List Stage := (newPipeline pl).dropLast

theorem newPipeline_eq (pl : Pipeline) : newPipeline pl = wrappedStages pl ++ [.stateFinisher] := by
  unfold wrappedStages newPipeline onlyIf
  cases pl.sourceGas <;> cases pl.destinationGas <;> rfl

section Pass

variable {pl : Pipeline} {key : RowKey} {mates : Stage → Mates key} {stages : List Stage}
  {r : Ibcv2Transfer} {t t' u : IBCV2Transfer} {o : Option IBCV2Transfer} {evs : List Event}

/-- All stages but the gas calculators, which depend on the configuration, are in every pipeline. -/
theorem mem_wrappedStages {stage : Stage} (hgas : stage.isGas = false)
    (hfinisher : stage ≠ .stateFinisher) : stage ∈ wrappedStages pl := by
  have hmem := mem_newPipeline pl hgas
  rw [newPipeline_eq] at hmem
  exact (List.mem_append.mp hmem).resolve_right fun h => hfinisher (List.mem_singleton.mp h)

theorem finisher_not_wrapped : .stateFinisher ∉ wrappedStages pl :=
  finisher_not_mem_before (newPipeline_eq pl)

theorem wrappedStages_sorted (pl : Pipeline) : (wrappedStages pl).Pairwise (·.rank < ·.rank) := by
  have hsorted := newPipeline_sorted pl
  rw [newPipeline_eq] at hsorted
  exact (List.pairwise_append.mp hsorted).1

/-- A pass is lost on its way, or it comes to the finisher. -/
theorem Trace.to_finisher (h : Trace pl mates (newPipeline pl) t o evs) :
    (o = none ∧ Trace pl mates (wrappedStages pl) t none evs)
      ∨ ∃ v t' evs₁ evs₂, Trace pl mates (wrappedStages pl) t (some v) evs₁
        ∧ Finish pl.opts v t' evs₂ ∧ o = some t' ∧ evs = evs₂ ++ evs₁ := by
  rw [newPipeline_eq] at h
  rcases h.append with hlost | ⟨v, evs₁, evs', hbefore, hlast, rfl⟩
  · exact Or.inl hlost
  · cases hlast with
    | lost hvisit =>
      cases hvisit with
      -- the finisher has no contract, and never loses a transfer
      | wrapped hc => cases hc
    | cons hvisit hnil =>
      cases hnil
      cases hvisit with
      | wrapped hc => cases hc
      | finisher hfinish => exact Or.inr ⟨v, _, evs₁, _, hbefore, hfinish, rfl, rfl⟩

/-- The wrapped stages save no final status and do not warn of an incomplete transfer. -/
theorem Trace.not_finished (h : Trace pl mates stages t o evs) (hkey : t.rowKey = key)
    (hstages : .stateFinisher ∉ stages) :
    (∀ {state answer}, saveEvent state key answer ∈ evs → state.isFinished = false)
      ∧ ⟨.warn .finishNotComplete key, ()⟩ ∉ evs := by
  have hvisit : ∀ {stage keys u o evs}, stage ≠ .stateFinisher → u.rowKey = key →
      StageVisit pl keys u stage o evs →
      (∀ {state answer}, saveEvent state key answer ∈ evs → state.isFinished = false)
        ∧ ⟨.warn .finishNotComplete key, ()⟩ ∉ evs := by
    rintro stage keys u o evs hne rfl (⟨hc, h⟩ | h)
    · constructor
      · intro state answer hin
        rw [h.save state answer hin]
        exact contract_state hc
      · intro hin
        have hwarning := (h.warning _ hin).2.1
        rw [contract_guard hc] at hwarning
        cases stage <;> cases hwarning
    -- the other kind of visit is that of the finisher
    · exact absurd rfl hne
  induction h with
  | nil t => simp
  | @lost stage rest t evs h => exact hvisit (fun heq => hstages (by simp [heq])) hkey h
  | @cons stage rest t t' o evs evs' h _ ih =>
    have hhere := hvisit (fun heq => hstages (by simp [heq])) hkey h
    have hrest := ih (h.samePacket.rowKey.trans hkey) fun hin => hstages (by simp [hin])
    constructor
    · intro state answer hin
      exact (List.mem_append.mp hin).elim hrest.1 hhere.1
    · intro hin
      exact (List.mem_append.mp hin).elim hrest.2 hhere.2

/-- The passage of a polled row up to the finisher. -/
theorem passage_to_finisher (h : Trace pl mates (wrappedStages pl) t (some u) evs)
    (hkey : t.rowKey = key) (ht : Tracked r t) (hstate : t.state ≠ .failed)
    (herror : u.error = "") : Passage pl mates r (wrappedStages pl) t u evs :=
  ⟨h, wrappedStages_sorted pl, hkey, ht, ⟨h.error_before rfl herror, hstate⟩, herror⟩

end Pass

/-! ## Txs that a commitment check found -/

/-- What a commitment check leaves, and what its client answered. -/
inductive CommitmentChecked (t t' : IBCV2Transfer) (evs : List Event) : Prop where
  | unchanged (hack : t'.ackTxHash = t.ackTxHash) (htimeout : t'.timeoutTxHash = t.timeoutTxHash)
      (h : ∀ tx, ⟨.findAckTx t.sourceChainID t.packetSourceClientID t.packetDestinationClientID
        t.sequence, .ok tx⟩ ∉ evs)
  | acked (tx : BridgeTx) (hack : t'.ackTxHash = some tx.hash)
      (htimeout : t'.timeoutTxHash = t.timeoutTxHash)
      (h : ⟨.findAckTx t.sourceChainID t.packetSourceClientID t.packetDestinationClientID
        t.sequence, .ok tx⟩ ∈ evs)
  | timedOut (tx : BridgeTx) (htimeout : t'.timeoutTxHash = some tx.hash)
      (hack : t'.ackTxHash = t.ackTxHash)
      (h : ⟨.findTimeoutTx t.sourceChainID t.packetSourceClientID t.packetDestinationClientID
        t.sequence, .ok tx⟩ ∈ evs)
      (hno : ∀ tx, ⟨.findAckTx t.sourceChainID t.packetSourceClientID t.packetDestinationClientID
        t.sequence, .ok tx⟩ ∉ evs)

section Found

variable {pl : Pipeline} {key : RowKey} {mates : Stage → Mates key} {keys : List RowKey}
  {stages : List Stage} {stage : Stage} {c : Contract} {t t' u : IBCV2Transfer}
  {o : Option IBCV2Transfer} {evs : List Event}

/-- A stage that let the transfer by has asked nothing. -/
theorem StageVisit.not_query (h : StageVisit pl keys t stage o evs)
    (hc : stage.contract pl = some c) (hreader : c.guard.reader = none)
    (huntaken : t.state = .failed ∨ c.guard.Refused t evs) {e : Event} (he : e ∈ evs) :
    e.call.isQuery = false := by
  cases h with
  | finisher h => exact h.query he
  | wrapped hc' h =>
    rw [hc] at hc'
    cases hc'
    refine Bool.eq_false_iff.mpr fun hquery => ?_
    obtain ⟨-, htaken⟩ := h.query e he hquery
    obtain ⟨now, hwants, -⟩ := htaken.granted
    -- the transfer was taken, by the query, and was not, by assumption
    rcases huntaken with hfailed | hnever | ⟨reader, _, hreader', -⟩
    · exact htaken.state hfailed
    · rw [hnever now] at hwants
      cases hwants
    · rw [hreader] at hreader'
      cases hreader'

/-- What a commitment check leaves, from its contract. A check that lets the transfer by has asked
nothing, so its events have no ack tx either. -/
theorem StageVisit.commitmentChecked (h : StageVisit pl keys t stage (some t') evs)
    (hstage : stage.checksCommitment) (herror : t'.error = "") : CommitmentChecked t t' evs := by
  obtain ⟨c, hc, hreader, hOk⟩ : ∃ c, stage.contract pl = some c ∧ c.guard.reader = none
      ∧ c.Ok = CheckCommitmentOk := by
    rcases hstage with rfl | rfl <;> exact ⟨_, rfl, rfl, rfl⟩
  rcases h.settled hc herror with ⟨rfl, huntaken⟩ | ⟨us, own, -, hown, hquery, hok⟩
  · refine .unchanged rfl rfl fun tx hin => ?_
    cases h.not_query hc hreader (huntaken.imp_right And.left) hin
  · rw [hOk] at hok
    cases hok with
    | committed hno => exact .unchanged rfl rfl fun tx hin => hno tx (hquery _ hin rfl)
    | acked tx hin => exact .acked tx rfl rfl (hown hin)
    | timedOut tx hin hno =>
      exact .timedOut tx rfl rfl (hown hin) fun tx' hin' => hno tx' (hquery _ hin' rfl)

/-- A timeout tx that `BatchTimeoutPacket` has not submitted was found. -/
theorem StageVisit.timeoutFound (h : StageVisit pl keys t stage (some t') evs)
    (hstage : stage ≠ .batchTimeoutPacket) (herror : t'.error = "") :
    t'.timeoutTxHash = t.timeoutTxHash ∨ ∃ tx, t'.timeoutTxHash = some tx.hash
      ∧ ⟨.findTimeoutTx t.sourceChainID t.packetSourceClientID t.packetDestinationClientID
        t.sequence, .ok tx⟩ ∈ evs := by
  rcases (h.flow herror).timeoutTxHash with heq | ⟨-, hset⟩
  · exact Or.inl heq
  · cases h.commitmentChecked (hset.resolve_right hstage) herror with
    | unchanged _ htimeout => exact Or.inl htimeout
    | acked _ _ htimeout => exact Or.inl htimeout
    | timedOut tx htimeout _ hin => exact Or.inr ⟨tx, htimeout, hin⟩

/-- An ack tx that `BatchAckPacket` has not submitted was found. -/
theorem StageVisit.ackFound (h : StageVisit pl keys t stage (some t') evs)
    (hstage : stage ≠ .batchAckPacket) (herror : t'.error = "") :
    t'.ackTxHash = t.ackTxHash ∨ ∃ tx, ⟨.findAckTx t.sourceChainID t.packetSourceClientID
      t.packetDestinationClientID t.sequence, .ok tx⟩ ∈ evs := by
  rcases (h.flow herror).ackTxHash with heq | ⟨-, hset⟩
  · exact Or.inl heq
  · cases h.commitmentChecked (hset.resolve_right hstage) herror with
    | unchanged hack => exact Or.inl hack
    | acked tx _ _ hin => exact Or.inr ⟨tx, hin⟩
    | timedOut _ _ hack => exact Or.inl hack

/-- `StageVisit.timeoutFound` for a run of stages without `BatchTimeoutPacket`. -/
theorem Trace.timeoutFound (h : Trace pl mates stages t o evs)
    (hstages : .batchTimeoutPacket ∉ stages) (ho : o = some u) (herror : u.error = "") :
    u.timeoutTxHash = t.timeoutTxHash ∨ ∃ tx, u.timeoutTxHash = some tx.hash
      ∧ ⟨.findTimeoutTx t.sourceChainID t.packetSourceClientID t.packetDestinationClientID
        t.sequence, .ok tx⟩ ∈ evs := by
  induction h with
  | nil t =>
    cases ho
    exact Or.inl rfl
  | lost => cases ho
  | @cons stage rest t t' o evs₁ evs₂ h hrest ih =>
    subst ho
    have hpacket := h.samePacket
    have hne : stage ≠ .batchTimeoutPacket := fun heq => hstages (by simp [heq])
    -- by a later stage, or by this one; the query is for the same packet
    rcases ih (fun hin => hstages (by simp [hin])) rfl with heq | ⟨tx, hhash, hin⟩
    · rcases h.timeoutFound hne (hrest.error_before rfl herror) with heq' | ⟨tx, hhash, hin⟩
      · exact Or.inl (heq.trans heq')
      · exact Or.inr ⟨tx, heq.trans hhash, List.mem_append_right _ hin⟩
    · rw [hpacket.sourceChainID, hpacket.packetSourceClientID, hpacket.packetDestinationClientID,
        hpacket.sequence] at hin
      exact Or.inr ⟨tx, hhash, List.mem_append_left _ hin⟩

/-- `StageVisit.ackFound` for a run of stages without `BatchAckPacket`. -/
theorem Trace.ackFound (h : Trace pl mates stages t o evs) (hstages : .batchAckPacket ∉ stages)
    (ho : o = some u) (herror : u.error = "") :
    u.ackTxHash = t.ackTxHash ∨ ∃ tx, ⟨.findAckTx t.sourceChainID t.packetSourceClientID
      t.packetDestinationClientID t.sequence, .ok tx⟩ ∈ evs := by
  induction h with
  | nil t =>
    cases ho
    exact Or.inl rfl
  | lost => cases ho
  | @cons stage rest t t' o evs₁ evs₂ h hrest ih =>
    subst ho
    have hpacket := h.samePacket
    have hne : stage ≠ .batchAckPacket := fun heq => hstages (by simp [heq])
    rcases ih (fun hin => hstages (by simp [hin])) rfl with heq | ⟨tx, hin⟩
    · rcases h.ackFound hne (hrest.error_before rfl herror) with heq' | ⟨tx, hin⟩
      · exact Or.inl (heq.trans heq')
      · exact Or.inr ⟨tx, List.mem_append_right _ hin⟩
    · rw [hpacket.sourceChainID, hpacket.packetSourceClientID, hpacket.packetDestinationClientID,
        hpacket.sequence] at hin
      exact Or.inr ⟨tx, List.mem_append_left _ hin⟩

end Found

end IbcRelayer
