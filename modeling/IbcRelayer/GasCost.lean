import IbcRelayer.LifeCycle

/-!
# IbcRelayer — the tx that a gas cost belongs to

A gas calculator asks for the fee of the tx that the copy names and writes the cost to the row,
where it stays: a row with a cost is not calculated again. The `Clear` statements null the hash of a
tx and leave its cost, so a cost belongs to the recorded tx for as long as no tx is cleared that has
one.

* `CostsRecorded` — every cost on a row is the cost of the tx that is recorded beside it;
* `UncostedClears` — the statements of a pass clear no tx whose cost is known;
* `visit_costs`, `trace_costs` — a visit and a pass keep `CostsRecorded` if they meet
  `UncostedClears`; `trace_uncosted` is the converse;
* `CostHistory` — the life of a row in passes that meet it.
-/

namespace IbcRelayer

open CallTree Prog IBCV2Transfer

/-! ## The columns of a kind of tx -/

namespace TxType

def txHash : TxType → Ibcv2Transfer → Option String
  | .recvPacket, r => r.recvTxHash
  | .ackPacket, r => r.ackTxHash
  | .timeoutPacket, r => r.timeoutTxHash

def gasCostUsd : TxType → Ibcv2Transfer → Option Numeric
  | .recvPacket, r => r.recvTxGasCostUsd
  | .ackPacket, r => r.ackTxGasCostUsd
  | .timeoutPacket, r => r.timeoutTxGasCostUsd

/-- The chain that the tx is on. -/
def chainID : TxType → Ibcv2Transfer → String
  | .recvPacket, r => r.destinationChainID
  | .ackPacket, r => r.sourceChainID
  | .timeoutPacket, r => r.sourceChainID

/-- What is on a row about a tx of this kind. -/
def columns (kind : TxType) (r : Ibcv2Transfer) : Option Numeric × Option String × String :=
  (kind.gasCostUsd r, kind.txHash r, kind.chainID r)

end TxType

/-- The kind of tx that a statement clears. -/
def TransferUpdate.cleared : TransferUpdate → Option TxType
  | .clearRecvTx => some .recvPacket
  | .clearAckTx => some .ackPacket
  | .clearTimeoutTx => some .timeoutPacket
  | _ => none

section Cleared

variable {u : TransferUpdate} {kind : TxType}

/-- A `Clear` statement nulls the hash of its kind. -/
theorem txHash_cleared (h : u.cleared = some kind) (r : Ibcv2Transfer) :
    kind.txHash (u.apply r) = none := by
  cases u <;> cases h <;> rfl

/-- It leaves all costs, also that of its kind. -/
theorem gasCostUsd_cleared (h : u.cleared = some kind) (r : Ibcv2Transfer) (kind' : TxType) :
    kind'.gasCostUsd (u.apply r) = kind'.gasCostUsd r := by
  cases u <;> cases h <;> cases kind' <;> rfl

/-- It leaves everything about the other kinds. -/
theorem columns_cleared (h : u.cleared = some kind) (r : Ibcv2Transfer) {kind' : TxType}
    (hne : kind' ≠ kind) : kind'.columns (u.apply r) = kind'.columns r := by
  cases u <;> cases h <;> cases kind' <;> first | rfl | exact absurd rfl hne

end Cleared

/-- The cost is the value of the fee of this tx. -/
def CostOf (log : List Event) (chainID hash : String) (cost : Numeric) : Prop :=
  ∃ fee coingeckoID decimals, ⟨.txFee chainID hash, .ok fee⟩ ∈ log
    ∧ ⟨.getCoinUsdValue coingeckoID decimals fee, .ok (some cost)⟩ ∈ log

/-- The cost of this kind, if there is one, belongs to the tx of this kind. -/
def CostRecorded (log : List Event) (kind : TxType) (r : Ibcv2Transfer) : Prop :=
  ∀ cost, kind.gasCostUsd r = some cost →
    ∃ hash, kind.txHash r = some hash ∧ CostOf log (kind.chainID r) hash cost

/-- Every cost on the row belongs to the tx that is recorded beside it. -/
def CostsRecorded (log : List Event) (r : Ibcv2Transfer) : Prop :=
  ∀ kind, CostRecorded log kind r

/-- Statements on a row, in order, that clear no tx whose cost is on the row. -/
def UncostedClears : List TransferUpdate → Ibcv2Transfer → Prop
  | [], _ => True
  | u :: us, r => (∀ kind ∈ u.cleared, kind.gasCostUsd r = none) ∧ UncostedClears us (u.apply r)

instance decidableUncostedClears : (us : List TransferUpdate) → (r : Ibcv2Transfer) →
    Decidable (UncostedClears us r)
  | [], _ => .isTrue trivial
  | u :: us, r =>
    have := decidableUncostedClears us (u.apply r)
    inferInstanceAs (Decidable (_ ∧ _))

section Row

variable {log log' : List Event} {r r' : Ibcv2Transfer} {kind : TxType}

theorem CostOf.mono {chainID hash : String} {cost : Numeric} (h : CostOf log chainID hash cost)
    (hlog : log ⊆ log') : CostOf log' chainID hash cost := by
  obtain ⟨fee, coingeckoID, decimals, hfee, hvalue⟩ := h
  exact ⟨fee, coingeckoID, decimals, hlog hfee, hlog hvalue⟩

theorem CostsRecorded.mono (h : CostsRecorded log r) (hlog : log ⊆ log') :
    CostsRecorded log' r := by
  intro kind cost hcost
  obtain ⟨hash, hhash, hof⟩ := h kind cost hcost
  exact ⟨hash, hhash, hof.mono hlog⟩

/-- Whether a cost is recorded is a matter of the columns of its kind. -/
theorem CostRecorded.congr (h : CostRecorded log kind r)
    (hsame : kind.columns r' = kind.columns r) :
    CostRecorded log kind r' := by
  obtain ⟨hcost, hhash, hchain⟩ : kind.gasCostUsd r' = kind.gasCostUsd r
      ∧ kind.txHash r' = kind.txHash r ∧ kind.chainID r' = kind.chainID r := by
    simpa [TxType.columns] using hsame
  unfold CostRecorded
  rw [hcost, hhash, hchain]
  exact h

theorem CostRecorded.of_none (h : kind.gasCostUsd r = none) : CostRecorded log kind r := by
  intro cost hcost
  rw [h] at hcost
  cases hcost

/-- A tx that is not recorded has no cost. -/
theorem CostsRecorded.uncosted (h : CostsRecorded log r) (hhash : kind.txHash r = none) :
    kind.gasCostUsd r = none := by
  cases hcost : kind.gasCostUsd r with
  | none => rfl
  | some cost =>
    obtain ⟨hash, hhash', -⟩ := h kind cost hcost
    rw [hhash] at hhash'
    cases hhash'

theorem CostsRecorded.congr (h : CostsRecorded log r)
    (hsame : ∀ kind : TxType, kind.columns r' = kind.columns r) : CostsRecorded log r' :=
  fun kind => (h kind).congr (hsame kind)

/-- A statement that is about one kind of tx only. -/
theorem CostsRecorded.set (h : CostsRecorded log r)
    (hothers : ∀ kind', kind' ≠ kind → kind'.columns r' = kind'.columns r)
    (hkind : CostRecorded log kind r') : CostsRecorded log r' := by
  intro kind'
  by_cases heq : kind' = kind
  · rw [heq]
    exact hkind
  · exact (h kind').congr (hothers kind' heq)

/-- A tx can be cleared that has no cost. -/
theorem CostsRecorded.clear (h : CostsRecorded log r) {u : TransferUpdate}
    (hu : u.cleared = some kind) (hnone : kind.gasCostUsd r = none) :
    CostsRecorded log (u.apply r) :=
  h.set (fun _ hne => columns_cleared hu r hne)
    (.of_none ((gasCostUsd_cleared hu r kind).trans hnone))

theorem costsRecorded_inserted (p : InsertIBCV2TransferParams) (id : Int32) :
    CostsRecorded log (p.toRow id) := by
  intro kind
  refine .of_none ?_
  cases kind <;> rfl

theorem uncostedClears_append (us vs : List TransferUpdate) (r : Ibcv2Transfer) :
    UncostedClears (us ++ vs) r ↔ UncostedClears us r ∧ UncostedClears vs (applyAll us r) := by
  induction us generalizing r with
  | nil => simp [UncostedClears]
  | cons u us ih => simp [UncostedClears, ih, and_assoc]

end Row

/-! ## One visit -/

/-- The copy names the chains of the row. -/
structure SameChains (r : Ibcv2Transfer) (t : IBCV2Transfer) : Prop where
  sourceChainID : t.sourceChainID = r.sourceChainID
  destinationChainID : t.destinationChainID = r.destinationChainID

theorem sameChains_new (r : Ibcv2Transfer) : SameChains r (newIBCV2Transfer r) := ⟨rfl, rfl⟩

/-- No statement changes the chains of a row. -/
theorem applyAll_chains (us : List TransferUpdate) (r : Ibcv2Transfer) :
    (applyAll us r).sourceChainID = r.sourceChainID
      ∧ (applyAll us r).destinationChainID = r.destinationChainID := by
  induction us generalizing r with
  | nil => exact ⟨rfl, rfl⟩
  | cons u us ih =>
    rw [applyAll_cons]
    obtain ⟨hsource, hdestination⟩ := ih (u.apply r)
    exact ⟨hsource.trans (by cases u <;> rfl), hdestination.trans (by cases u <;> rfl)⟩

/-- A stage that returns the packet it was given keeps the chains together. -/
theorem SameChains.step {r : Ibcv2Transfer} {t t' : IBCV2Transfer} (h : SameChains r t)
    (hpacket : SamePacket t t') (us : List TransferUpdate) : SameChains (applyAll us r) t' := by
  obtain ⟨hsource, hdestination⟩ := applyAll_chains us r
  exact ⟨(hpacket.sourceChainID.trans h.sourceChainID).trans hsource.symm,
    (hpacket.destinationChainID.trans h.destinationChainID).trans hdestination.symm⟩

section Visit

variable {pl : Pipeline} {stage : Stage} {c : Contract} {keys : List RowKey} {r : Ibcv2Transfer}
  {t t' : IBCV2Transfer} {o : Option IBCV2Transfer} {us : List TransferUpdate}
  {evs own log : List Event}

theorem clears_kind (hc : stage.contract pl = some c) {u : TransferUpdate} (hu : u ∈ c.clears) :
    ∃ kind, u.cleared = some kind := by
  cases stage <;> cases hc <;> simp [batchContract] at hu <;> subst hu
  · exact ⟨.timeoutPacket, rfl⟩
  · exact ⟨.recvPacket, rfl⟩
  · exact ⟨.recvPacket, rfl⟩
  · exact ⟨.ackPacket, rfl⟩

/-- Only a processor that fails clears a tx. -/
theorem change_uncosted (h : Change t stage t' us) : UncostedClears us r := by
  have hone : ∀ u : TransferUpdate, u.cleared = none → UncostedClears [u] r := by
    intro u hu
    refine ⟨fun kind hkind => ?_, trivial⟩
    rw [hu] at hkind
    cases hkind
  cases h with
  | nothing => trivial
  | marked => trivial
  | writeAckTxFinalized time =>
    split
    · exact hone _ rfl
    · trivial
  | gasCost u hu => exact hone u (by cases u <;> first | rfl | cases hu)
  | _ => exact hone _ rfl

/-- The end of a gas stage: its cost is that of the tx on the row. -/
theorem gas_costs (hc : stage.contract pl = some c) (hstage : stage.isGas = true)
    (hok : c.Ok t t' us own) (hm : Mirrors r t) (hchains : SameChains r t)
    (hcosts : CostsRecorded log r) (hown : own ⊆ log) : CostsRecorded log (applyAll us r) := by
  -- the same for the three calculators: the fee was asked for with the hash on the row
  have hset : ∀ (kind : TxType) (u : Option Numeric → TransferUpdate)
      {hash fee coingeckoID decimals}
      {cost : Option Numeric}, kind.txHash r = some hash →
      ⟨.txFee (kind.chainID r) hash, .ok fee⟩ ∈ own →
      ⟨.getCoinUsdValue coingeckoID decimals fee, .ok cost⟩ ∈ own →
      (∀ kind', kind' ≠ kind → kind'.columns ((u cost).apply r) = kind'.columns r) →
      kind.columns ((u cost).apply r) = (cost, kind.txHash r, kind.chainID r) →
      CostsRecorded log (applyAll [u cost] r) := by
    intro kind u hash fee coingeckoID decimals cost hhash hfee hvalue hothers hcolumns
    obtain ⟨hcost', hhash', hchain'⟩ : kind.gasCostUsd ((u cost).apply r) = cost
        ∧ kind.txHash ((u cost).apply r) = kind.txHash r
        ∧ kind.chainID ((u cost).apply r) = kind.chainID r := by
      simpa [TxType.columns] using hcolumns
    refine hcosts.set hothers fun value hvalue' => ?_
    rw [applyAll_cons, applyAll_nil, hcost'] at hvalue'
    subst hvalue'
    refine ⟨hash, hhash'.trans hhash, fee, coingeckoID, decimals, ?_, hown hvalue⟩
    rw [applyAll_cons, applyAll_nil, hchain']
    exact hown hfee
  cases stage <;> cases hstage <;> cases hc <;>
    obtain ⟨rfl, hash, fee, coingeckoID, decimals, cost, hhash, hfee, hvalue, rfl⟩ := hok
  case timeoutTxGasCalculator =>
    refine hset .timeoutPacket _ (hm.timeoutTxHash.trans hhash) ?_ hvalue ?_ rfl
    · rw [TxType.chainID, ← hchains.sourceChainID]
      exact hfee
    · intro kind' hne
      cases kind' <;> first | rfl | exact absurd rfl hne
  case recvTxGasCalculator =>
    refine hset .recvPacket _ (hm.recvTxHash.trans hhash) ?_ hvalue ?_ rfl
    · rw [TxType.chainID, ← hchains.destinationChainID]
      exact hfee
    · intro kind' hne
      cases kind' <;> first | rfl | exact absurd rfl hne
  case ackTxGasCalculator =>
    refine hset .ackPacket _ (hm.ackTxHash.trans hhash) ?_ hvalue ?_ rfl
    · rw [TxType.chainID, ← hchains.sourceChainID]
      exact hfee
    · intro kind' hne
      cases kind' <;> first | rfl | exact absurd rfl hne

/-- The end of a stage keeps the costs: a tx is recorded only where none was, and then there is no
cost yet. -/
theorem ok_costs (hc : stage.contract pl = some c) (hok : c.Ok t t' us own) {now : Time}
    (hwants : (stage.guard pl).wants t now = true) (hm : Mirrors r t) (hchains : SameChains r t)
    (hcosts : CostsRecorded log r) (hown : own ⊆ log) : CostsRecorded log (applyAll us r) := by
  -- a tx is recorded where there was none, hence no cost
  have hset : ∀ (kind : TxType) {u : TransferUpdate}, kind.txHash r = none →
      (∀ kind', kind' ≠ kind → kind'.columns (u.apply r) = kind'.columns r) →
      kind.gasCostUsd (u.apply r) = kind.gasCostUsd r → CostsRecorded log (applyAll [u] r) :=
    fun kind u hnone hothers hsame =>
      hcosts.set hothers (.of_none (hsame.trans (hcosts.uncosted hnone)))
  cases ok_change hc hok with
  | nothing => exact hcosts
  | marked => exact hcosts
  | recvTx hstage tx =>
    refine hset .recvPacket (hm.recvTxHash.trans (guard_recvTx hstage hwants)) ?_ rfl
    intro kind' hne
    cases kind' <;> first | rfl | exact absurd rfl hne
  | ackTx hstage tx address =>
    refine hset .ackPacket (hm.ackTxHash.trans (guard_ackTx hstage hwants).1) ?_ rfl
    intro kind' hne
    cases kind' <;> first | rfl | exact absurd rfl hne
  | timeoutTx hstage tx address =>
    refine hset .timeoutPacket (hm.timeoutTxHash.trans (guard_timeoutTx hstage hwants).2) ?_ rfl
    intro kind' hne
    cases kind' <;> first | rfl | exact absurd rfl hne
  | sourceTxFinalized time => exact hcosts.congr fun kind => by cases kind <;> rfl
  | writeAck hash time status => exact hcosts.congr fun kind => by cases kind <;> rfl
  | writeAckTxFinalized time =>
    split
    · exact hcosts.congr fun kind => by cases kind <;> rfl
    · exact hcosts
  | gasCost u hu hstage => exact gas_costs hc hstage hok hm hchains hcosts hown

theorem CostsRecorded.save (h : CostsRecorded log r) (state : Ibcv2RelayStatus) :
    CostsRecorded log ((TransferUpdate.updateTransferState state).apply r) :=
  h.congr fun kind => by cases kind <;> rfl

theorem uncostedClears_save {state : Ibcv2RelayStatus} :
    UncostedClears (.updateTransferState state :: us) r
      ↔ UncostedClears us ((TransferUpdate.updateTransferState state).apply r) :=
  and_iff_right fun _ hkind => by cases hkind

/-- A wrapped stage keeps the costs, if it clears no tx that has one. -/
theorem step_costs (hc : stage.contract pl = some c) (h : Step c t o us evs)
    (hm : t.error = "" → Mirrors r t) (hchains : SameChains r t) (hcosts : CostsRecorded log r)
    (hclears : UncostedClears us r) : CostsRecorded (evs ++ log) (applyAll us r) := by
  have hlog : CostsRecorded (evs ++ log) r := hcosts.mono (List.subset_append_right evs log)
  cases h with
  | passed => exact hlog
  | refused => exact hlog
  | stateNotSaved => exact hlog
  | lost => exact hlog
  -- only a processor that fails clears, and by the condition not a tx with a cost
  | failed htaken err htext o ho us' hus =>
    rw [applyAll_cons]
    rcases hus with rfl | ⟨u, hu, rfl⟩
    · exact hlog.save c.state
    · obtain ⟨kind, hkind⟩ := clears_kind hc hu
      exact (hlog.save c.state).clear hkind ((uncostedClears_save.mp hclears).1 kind hkind)
  | done htaken t' us' own hown _ hok =>
    obtain ⟨now, hwants⟩ := htaken.wants_saved hc
    rw [applyAll_cons]
    exact ok_costs hc hok hwants ((hm htaken.error).save c.state)
      ⟨hchains.sourceChainID, hchains.destinationChainID⟩ (hlog.save c.state)
      (List.subset_append_of_subset_left log hown)

/-- A visit keeps the costs, under the condition. -/
theorem visit_costs (h : StageVisit pl keys t stage o evs) (hm : t.error = "" → Mirrors r t)
    (hchains : SameChains r t) (hcosts : CostsRecorded log r)
    (hclears : UncostedClears (updatesOf t.rowKey evs) r) :
    CostsRecorded (evs ++ log) (applyAll (updatesOf t.rowKey evs) r) := by
  cases h with
  | wrapped hc h => exact step_costs hc h.step hm hchains hcosts hclears
  | finisher h =>
    have hlog : CostsRecorded (evs ++ log) r := hcosts.mono (List.subset_append_right evs log)
    rcases updatesOf_finish h with ⟨hus, -⟩ | ⟨state, -, -, -, -, hus⟩
    · rw [hus]
      exact hlog
    · rw [hus]
      exact hlog.save state

/-- A visit clears a tx that has a cost, and then its row shows it and no later stage mends it; or
it meets the condition. -/
theorem visit_uncosted (h : StageVisit pl keys t stage o evs) :
    UncostedClears (updatesOf t.rowKey evs) r
      ∨ (∃ kind : TxType, kind.txHash (applyAll (updatesOf t.rowKey evs) r) = none
          ∧ kind.gasCostUsd (applyAll (updatesOf t.rowKey evs) r) ≠ none)
        ∧ ∀ t', o = some t' → t'.error ≠ "" := by
  cases h with
  | finisher h =>
    left
    rcases updatesOf_finish h with ⟨hus, -⟩ | ⟨state, -, -, -, -, hus⟩
    · rw [hus]
      trivial
    · rw [hus]
      exact uncostedClears_save.mpr trivial
  | wrapped hc h =>
    have hstep := h.step
    generalize updatesOf t.rowKey evs = us at hstep
    cases hstep with
    | failed htaken err htext o ho us' hus =>
      rcases hus with rfl | ⟨u, hu, rfl⟩
      · exact Or.inl (uncostedClears_save.mpr trivial)
      · obtain ⟨kind, hkind⟩ := clears_kind hc hu
        rw [uncostedClears_save, applyAll_cons]
        generalize (TransferUpdate.updateTransferState _).apply r = r'
        -- the cost decides, on the row as it is when the statement is made
        cases hcost : kind.gasCostUsd r' with
        | none =>
          refine Or.inl ⟨fun kind' hkind' => ?_, trivial⟩
          rw [hkind] at hkind'
          cases hkind'
          exact hcost
        | some cost =>
          refine Or.inr ⟨⟨kind, txHash_cleared hkind r', ?_⟩, ?_⟩
          · rw [applyAll_cons, applyAll_nil, gasCostUsd_cleared hkind, hcost]
            simp
          · rintro t' rfl
            cases ho.resolve_left (by simp)
            exact htext
    | done htaken t' us' own _ _ hok =>
      exact Or.inl (uncostedClears_save.mpr (change_uncosted (ok_change hc hok)))
    | _ => exact Or.inl trivial

/-- A copy with an error is passed through: no stage makes a statement for it. -/
theorem StageVisit.errored_updates (h : StageVisit pl keys t stage o evs) (herror : t.error ≠ "") :
    updatesOf t.rowKey evs = [] := by
  cases h with
  | wrapped hc h =>
    have hstep := h.step
    generalize updatesOf t.rowKey evs = us at hstep
    cases hstep with
    | failed htaken => exact absurd htaken.error herror
    | done htaken => exact absurd htaken.error herror
    | _ => rfl
  | finisher h =>
    rcases updatesOf_finish h with ⟨hus, -⟩ | ⟨_, -, -, herror', -, -⟩
    · exact hus
    · exact absurd herror' herror

end Visit

/-! ## A pass -/

section Pass

variable {pl : Pipeline} {key : RowKey} {mates : Stage → Mates key} {stages : List Stage}
  {r : Ibcv2Transfer} {t : IBCV2Transfer} {o : Option IBCV2Transfer} {evs log : List Event}

/-- The rest of a pass makes no statement for a copy with an error. -/
theorem Trace.errored_updates (h : Trace pl mates stages t o evs) (hkey : t.rowKey = key)
    (herror : t.error ≠ "") : updatesOf key evs = [] := by
  induction h with
  | nil t => rfl
  | lost h =>
    rw [← hkey]
    exact h.errored_updates herror
  | cons h _ ih =>
    have hhere := h.errored_updates herror
    rw [hkey] at hhere
    rw [updatesOf_append, hhere]
    exact ih (h.samePacket.rowKey.trans hkey) fun herror' => herror (h.error_before herror')

/-- A pass keeps the costs, under the condition. -/
theorem trace_costs (h : Trace pl mates stages t o evs) (hkey : t.rowKey = key)
    (hm : t.error = "" → Mirrors r t) (hchains : SameChains r t) (hcosts : CostsRecorded log r)
    (hclears : UncostedClears (updatesOf key evs) r) :
    CostsRecorded (evs ++ log) (applyAll (updatesOf key evs) r) := by
  induction h generalizing r log with
  | nil t => exact hcosts
  | lost h =>
    subst hkey
    exact visit_costs h hm hchains hcosts hclears
  | @cons stage rest t t' o evs₁ evs₂ h _ ih =>
    subst hkey
    rw [updatesOf_append] at hclears ⊢
    -- the condition, for this stage and for the rest of the pass
    obtain ⟨hclears₁, hclears₂⟩ := (uncostedClears_append _ _ _).mp hclears
    have hcosts' := visit_costs h hm hchains hcosts hclears₁
    rw [applyAll_append, List.append_assoc]
    exact ih h.samePacket.rowKey (visit_mirrors h hm) (hchains.step h.samePacket _) hcosts' hclears₂

/-- A pass that leaves the costs recorded has cleared no tx with a cost. -/
theorem trace_uncosted (h : Trace pl mates stages t o evs) (hkey : t.rowKey = key)
    (hend : CostsRecorded log (applyAll (updatesOf key evs) r)) :
    UncostedClears (updatesOf key evs) r := by
  induction h generalizing r with
  | nil t => trivial
  | lost h =>
    subst hkey
    refine (visit_uncosted h).resolve_right ?_
    rintro ⟨⟨kind, hhash, hcost⟩, -⟩
    exact hcost (hend.uncosted hhash)
  | @cons stage rest t t' o evs₁ evs₂ h hrest ih =>
    subst hkey
    have hkey' := h.samePacket.rowKey
    rw [updatesOf_append, applyAll_append] at hend
    rw [updatesOf_append, uncostedClears_append]
    refine ⟨(visit_uncosted h).resolve_right ?_, ih hkey' hend⟩
    rintro ⟨⟨kind, hhash, hcost⟩, herror⟩
    -- the error keeps every later stage from the row
    rw [hrest.errored_updates hkey' (herror t' rfl)] at hend
    exact hcost (hend.uncosted hhash)

end Pass

/-! ## The life of a row -/

/-- What a pass over the row leaves. -/
def afterPass (env : Environment) (pl : Pipeline) {key : RowKey} (mates : Stage → Mates key)
    (r : Ibcv2Transfer) (w : World) : World :=
  (execute env (pass pl mates (newIBCV2Transfer r)) w).2

/-- The worlds in the life of the row `key` in which no pass cleared a tx with a cost: `History`,
with the log kept by what happens elsewhere. -/
inductive CostHistory (key : RowKey) : World → Prop where
  | inserted {w : World} (p : InsertIBCV2TransferParams) (id : Int32)
      (hrow : w.row key = some (p.toRow id)) : CostHistory key w
  | passed {w : World} {r : Ibcv2Transfer} (h : CostHistory key w) (hrow : w.row key = some r)
      (pl : Pipeline) (mates : Stage → Mates key) (env : Environment) (evs : List Event)
      (hevs : (afterPass env pl mates r w).log = evs ++ w.log)
      (hclears : UncostedClears (updatesOf key evs) r) :
      CostHistory key (afterPass env pl mates r w)
  | elsewhere {w w' : World} (h : CostHistory key w) (hrow : w'.row key = w.row key)
      (hlog : w.log ⊆ w'.log) : CostHistory key w'

/-- The trace of a pass over a row. -/
theorem afterPass_trace {key : RowKey} {w : World} {r : Ibcv2Transfer} (hrow : w.row key = some r)
    (pl : Pipeline) (mates : Stage → Mates key) (env : Environment) :
    ∃ o evs, Trace pl mates (newPipeline pl) (newIBCV2Transfer r) o evs
      ∧ (afterPass env pl mates r w).log = evs ++ w.log
      ∧ (afterPass env pl mates r w).row key = some (applyAll (updatesOf key evs) r) := by
  obtain ⟨evs, htrace, hw, -⟩ :=
    execute_trace pl mates (newPipeline pl) (rowKey_new hrow) (honest_new r) env w
  refine ⟨_, evs, htrace, ?_, ?_⟩
  · change World.log (execute env (runStages pl mates (newPipeline pl) _) w).2 = _
    rw [hw, World.after_log]
  · change World.row (execute env (runStages pl mates (newPipeline pl) _) w).2 key = _
    rw [hw, row_after, hrow]
    rfl

/-- In such a life the costs are recorded at every moment. -/
theorem costHistory_row {key : RowKey} {w : World} (h : CostHistory key w) :
    ∃ r, w.row key = some r ∧ CostsRecorded w.log r := by
  induction h with
  | inserted p id hrow => exact ⟨_, hrow, costsRecorded_inserted p id⟩
  | @passed w r _ hrow pl mates env evs hevs hclears ih =>
    obtain ⟨r', hrow', hcosts⟩ := ih
    rw [hrow] at hrow'
    cases hrow'
    obtain ⟨o, evs', htrace, hlog, hrow'⟩ := afterPass_trace hrow pl mates env
    -- the events of the history are those of the trace
    cases List.append_cancel_right (hevs.symm.trans hlog)
    refine ⟨_, hrow', ?_⟩
    rw [hlog]
    exact trace_costs htrace (rowKey_new hrow) (fun _ => mirrors_new r) (sameChains_new r) hcosts
      hclears
  | elsewhere _ hrow hlog ih =>
    obtain ⟨r, hrow', hcosts⟩ := ih
    exact ⟨r, hrow.trans hrow', hcosts.mono hlog⟩

/-- **The gas cost belongs to the recorded tx** as long as no tx is cleared that has a cost: in such
a life every cost on the row is the value of the fee of the tx whose hash is beside it, and a
further pass leaves it so if and only if it, too, clears no tx that has a cost. -/
theorem gas_cost_of_recorded_tx {key : RowKey} {w : World} (h : CostHistory key w) :
    ∃ r, w.row key = some r ∧ CostsRecorded w.log r
      ∧ ∀ (pl : Pipeline) (mates : Stage → Mates key) (env : Environment), ∃ evs r',
        (afterPass env pl mates r w).log = evs ++ w.log
          ∧ (afterPass env pl mates r w).row key = some r'
          ∧ (CostsRecorded (afterPass env pl mates r w).log r'
            ↔ UncostedClears (updatesOf key evs) r) := by
  obtain ⟨r, hrow, hcosts⟩ := costHistory_row h
  refine ⟨r, hrow, hcosts, fun pl mates env => ?_⟩
  obtain ⟨o, evs, htrace, hlog, hrow'⟩ := afterPass_trace hrow pl mates env
  refine ⟨evs, _, hlog, hrow', ?_⟩
  rw [hlog]
  constructor
  · exact trace_uncosted htrace (rowKey_new hrow)
  · exact trace_costs htrace (rowKey_new hrow) (fun _ => mirrors_new r) (sameChains_new r) hcosts

/-- The gas token of the destination chain is configured, and there is a price client. -/
def Sample.pricedPipeline : Pipeline where
  route := Sample.pipeline.route
  opts := { Sample.opts with
    destinationChainGasTokenCoingeckoID := "ethereum"
    destinationChainGasTokenDecimals := 18 }
  priceClient := true

/-- `Sample.obliging` with a price, the hash of the tx that is delivered, and the answer to the
question for its write ack. -/
def Sample.pricing (hash : String) (ack : Except GoError Ibcv2WriteAckStatus) : Environment :=
  fun w c =>
    match c with
    | .getCoinUsdValue .. => .ok (some ⟨3, 0⟩)
    | .deliverTx .. => .ok ⟨hash, { unixNano := 500 }, "relayer"⟩
    | .packetWriteAckStatus .. => ack
    | c => Sample.obliging .zero w c

/-- The recv tx is delivered, its cost is stored, and it has a write ack. -/
def Sample.costed : World :=
  afterPass (Sample.pricing "0xd1" (.ok .success)) Sample.pricedPipeline Sample.alone Sample.row
    Sample.world

/-- `gas_cost_of_recorded_tx` for a row with a recv tx and its cost. -/
theorem gas_cost_of_recorded_tx_delivered :
    CostHistory Sample.row.key Sample.costed
      ∧ ∃ r, Sample.costed.row Sample.row.key = some r ∧ r.recvTxHash = some "0xd1"
        ∧ r.recvTxGasCostUsd = some ⟨3, 0⟩ ∧ CostsRecorded Sample.costed.log r := by
  have hrow : Sample.world.row Sample.row.key = some Sample.row := by
    decide +kernel
  have hhistory : CostHistory Sample.row.key Sample.costed :=
    (CostHistory.inserted Sample.packet 1 hrow).passed hrow _ _ _ Sample.costed.log
      (List.append_nil _).symm (by decide +kernel)
  have htx : (Sample.costed.row Sample.row.key).all (fun r =>
      r.recvTxHash == some "0xd1" && r.recvTxGasCostUsd == some ⟨3, 0⟩) = true := by
    decide +kernel
  obtain ⟨r, hr, hcosts, -⟩ := gas_cost_of_recorded_tx hhistory
  rw [hr] at htx
  simp only [Option.all_some, Bool.and_eq_true, beq_iff_eq] at htx
  exact ⟨hhistory, r, hr, htx.1, htx.2, hcosts⟩

/-- The recv tx is delivered and its cost is stored, but it has no write ack for the packet. -/
def Sample.cleared : World :=
  afterPass
    (Sample.pricing "0xd1" (.error ⟨"write ack not found", [.errWriteAckNotFoundForPacket]⟩))
    Sample.pricedPipeline Sample.alone Sample.row Sample.world

/-- Another recv tx is delivered in the next pass. -/
def Sample.resubmitted : World :=
  afterPass (Sample.pricing "0xd2" (.ok .success)) Sample.pricedPipeline Sample.alone
    ((Sample.cleared.row Sample.row.key).getD Sample.row) Sample.cleared

/-- `WaitForWriteAck` clears a recv tx and leaves its cost; the cost then stands beside the hash of
the next recv tx, for whose fee nobody has asked. -/
theorem cleared_tx_leaves_its_cost :
    (∃ r, Sample.cleared.row Sample.row.key = some r ∧ r.recvTxHash = none
        ∧ r.recvTxGasCostUsd = some ⟨3, 0⟩ ∧ ¬ CostsRecorded Sample.cleared.log r)
      ∧ ∃ r, Sample.resubmitted.row Sample.row.key = some r ∧ r.recvTxHash = some "0xd2"
        ∧ r.recvTxGasCostUsd = some ⟨3, 0⟩ ∧ ¬ CostsRecorded Sample.resubmitted.log r := by
  have hcleared : (Sample.cleared.row Sample.row.key).any (fun r =>
      r.recvTxHash == none && r.recvTxGasCostUsd == some ⟨3, 0⟩) = true := by
    decide +kernel
  have hresubmitted : (Sample.resubmitted.row Sample.row.key).any (fun r =>
      r.recvTxHash == some "0xd2" && r.recvTxGasCostUsd == some ⟨3, 0⟩) = true := by
    decide +kernel
  have hasked : (Sample.resubmitted.log.all fun e =>
      match e.call with
      | .txFee _ hash => hash != "0xd2"
      | _ => true) = true := by
    decide +kernel
  simp only [Option.any_eq_true, Bool.and_eq_true, beq_iff_eq] at hcleared hresubmitted
  obtain ⟨r₁, hrow₁, hhash₁, hcost₁⟩ := hcleared
  obtain ⟨r₂, hrow₂, hhash₂, hcost₂⟩ := hresubmitted
  refine ⟨⟨r₁, hrow₁, hhash₁, hcost₁, fun hcosts => ?_⟩,
    r₂, hrow₂, hhash₂, hcost₂, fun hcosts => ?_⟩
  · have hnone : TxType.recvPacket.gasCostUsd r₁ = none := hcosts.uncosted hhash₁
    change r₁.recvTxGasCostUsd = none at hnone
    rw [hcost₁] at hnone
    cases hnone
  -- the fee of the second tx would have been asked for
  · obtain ⟨hash, hhash, fee, -, -, hfee, -⟩ := hcosts .recvPacket _ hcost₂
    change r₂.recvTxHash = some hash at hhash
    rw [hhash₂] at hhash
    cases hhash
    exact absurd (List.all_eq_true.mp hasked _ hfee) (by simp)

end IbcRelayer
