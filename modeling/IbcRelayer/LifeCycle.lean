import IbcRelayer.Spec.Flow

/-!
# IbcRelayer — rows stay well-formed

Hashes are set by six stages and cleared by four, each with a statement of its own, and a pass can
end between any two statements. The invariant has two parts:

* `WellFormed` — of a row, whatever becomes of the copy: a hash comes with its time, a write ack
  with its recv tx and its status, and a packet is not both acknowledged and timed out;
* `Mirrors` — of a row and a copy without an error: they hold the same. It is what lets the guard of
  a stage, which looks at the copy, speak about the row.

`visit_tracked` says that a visit to any stage keeps both, `trace_tracked` that a pass does, and
`history_wellFormed` is the whole life of a row, from its insertion on.
-/

namespace IbcRelayer

open CallTree Prog IBCV2Transfer

/-! ## The two parts of the invariant -/

/-- A row whose columns fit together. -/
structure WellFormed (r : Ibcv2Transfer) : Prop where
  recvTx : r.recvTxHash = none ↔ r.recvTxTime = none
  writeAckTx : r.writeAckTxHash = none ↔ r.writeAckTxTime = none
  ackTx : r.ackTxHash = none ↔ r.ackTxTime = none
  timeoutTx : r.timeoutTxHash = none ↔ r.timeoutTxTime = none
  writeAck : ∀ hash, r.writeAckTxHash = some hash →
    r.recvTxHash = some hash ∧ r.writeAckStatus.isSome = true
  exclusive : r.ackTxHash = none ∨ r.timeoutTxHash = none

/-- The row and the copy hold the same, but for the time at which the write ack was seen to be
final. -/
structure Mirrors (r : Ibcv2Transfer) (t : IBCV2Transfer) : Prop where
  state : r.status = t.state
  recvTxHash : r.recvTxHash = t.recvTxHash
  recvTxTime : r.recvTxTime = t.recvTxTime
  writeAckTxHash : r.writeAckTxHash = t.writeAckTxHash
  writeAckTxTime : r.writeAckTxTime = t.writeAckTxTime
  writeAckStatus : r.writeAckStatus = t.writeAckStatus
  ackTxHash : r.ackTxHash = t.ackTxHash
  ackTxTime : r.ackTxTime = t.ackTxTime
  timeoutTxHash : r.timeoutTxHash = t.timeoutTxHash
  timeoutTxTime : r.timeoutTxTime = t.timeoutTxTime
  sourceTxFinalizedTime : r.sourceTxFinalizedTime = t.sourceTxFinalizedTime

theorem mirrors_new (r : Ibcv2Transfer) : Mirrors r (newIBCV2Transfer r) := by
  constructor <;> rfl

theorem wellFormed_inserted (p : InsertIBCV2TransferParams) (id : Int32) :
    WellFormed (p.toRow id) := by
  constructor <;> simp [InsertIBCV2TransferParams.toRow]

/-! ### The statements -/

section Statements

variable {r : Ibcv2Transfer} {t : IBCV2Transfer}

theorem Mirrors.save (h : Mirrors r t) (state : Ibcv2RelayStatus) :
    Mirrors ((TransferUpdate.updateTransferState state).apply r) { t with state } :=
  { h with state := rfl }

theorem WellFormed.save (h : WellFormed r) (state : Ibcv2RelayStatus) :
    WellFormed ((TransferUpdate.updateTransferState state).apply r) :=
  { h with }

/-- A new recv tx must not come while there is a write ack: it would be that of another tx. -/
theorem WellFormed.updateTransferRecvTx (h : WellFormed r) (hack : r.writeAckTxHash = none)
    (hash : String) (time : Time) (relayer : Option String) :
    WellFormed ((TransferUpdate.updateTransferRecvTx (some hash) (some time) relayer).apply r) :=
  { h with
    recvTx := by simp [TransferUpdate.apply]
    -- vacuous, without a write ack
    writeAck := fun hash' hhash' => by
      change r.writeAckTxHash = some hash' at hhash'
      rw [hack] at hhash'
      cases hhash' }

/-- An ack tx must not come after a timeout tx. -/
theorem WellFormed.updateTransferAckTx (h : WellFormed r) (htimeout : r.timeoutTxHash = none)
    (hash : String) (time : Time) (relayer : Option String) :
    WellFormed ((TransferUpdate.updateTransferAckTx (some hash) (some time) relayer).apply r) :=
  { h with
    ackTx := by simp [TransferUpdate.apply]
    exclusive := Or.inr htimeout }

/-- A timeout tx must not come after an ack tx. -/
theorem WellFormed.updateTransferTimeoutTx (h : WellFormed r) (hack : r.ackTxHash = none)
    (hash : String) (time : Time) (relayer : Option String) :
    WellFormed ((TransferUpdate.updateTransferTimeoutTx (some hash) (some time) relayer).apply r) :=
  { h with
    timeoutTx := by simp [TransferUpdate.apply]
    exclusive := Or.inl hack }

/-- A write ack comes with the recv tx that has written it. -/
theorem WellFormed.updateTransferWriteAckTx (h : WellFormed r) {hash : String}
    (hrecv : r.recvTxHash = some hash) (time : Time) (status : Ibcv2WriteAckStatus) :
    WellFormed ((TransferUpdate.updateTransferWriteAckTx (some hash) (some time)
      (some status)).apply r) :=
  { h with
    writeAckTx := by simp [TransferUpdate.apply]
    writeAck := fun hash' hhash' => by
      cases hhash'
      exact ⟨hrecv, rfl⟩ }

/-- The recv tx can be cleared as long as there is no write ack. -/
theorem WellFormed.clearRecvTx (h : WellFormed r) (hack : r.writeAckTxHash = none) :
    WellFormed (TransferUpdate.clearRecvTx.apply r) :=
  { h with
    recvTx := by simp [TransferUpdate.apply]
    writeAck := fun hash' hhash' => by
      change r.writeAckTxHash = some hash' at hhash'
      rw [hack] at hhash'
      cases hhash' }

/-- The ack tx and the timeout tx can be cleared at any time. -/
theorem WellFormed.clearAckTx (h : WellFormed r) :
    WellFormed (TransferUpdate.clearAckTx.apply r) :=
  { h with
    ackTx := by simp [TransferUpdate.apply]
    exclusive := Or.inl rfl }

theorem WellFormed.clearTimeoutTx (h : WellFormed r) :
    WellFormed (TransferUpdate.clearTimeoutTx.apply r) :=
  { h with
    timeoutTx := by simp [TransferUpdate.apply]
    exclusive := Or.inr rfl }

/-- The columns of the gas costs are in neither part of the invariant. -/
theorem WellFormed.gasCost (h : WellFormed r) {u : TransferUpdate} (hu : u.isGasCost = true) :
    WellFormed (u.apply r) := by
  cases u <;> first | exact { h with } | cases hu

theorem Mirrors.gasCost (h : Mirrors r t) {u : TransferUpdate} (hu : u.isGasCost = true) :
    Mirrors (u.apply r) t := by
  cases u <;> first | exact { h with } | cases hu

end Statements

/-! ## One visit -/

/-- The row is well-formed, and mirrored by the copy as long as the copy has no error. -/
structure Tracked (r : Ibcv2Transfer) (t : IBCV2Transfer) : Prop where
  wellFormed : WellFormed r
  mirrors : t.error = "" → Mirrors r t

section Tracked

variable {pl : Pipeline} {stage : Stage} {c : Contract} {keys : List RowKey} {r : Ibcv2Transfer}
  {t t' : IBCV2Transfer} {o : Option IBCV2Transfer} {us : List TransferUpdate} {evs : List Event}

/-- What a stage records on the copy, it records on the row. -/
theorem change_mirrors (hm : Mirrors r t) (h : Change t stage t' us) (herror : t'.error = "") :
    Mirrors (applyAll us r) t' := by
  cases h with
  | nothing => exact hm
  | recvTx hstage tx => exact { hm with recvTxHash := rfl, recvTxTime := rfl }
  | ackTx hstage tx address => exact { hm with ackTxHash := rfl, ackTxTime := rfl }
  | timeoutTx hstage tx address => exact { hm with timeoutTxHash := rfl, timeoutTxTime := rfl }
  | sourceTxFinalized time => exact { hm with sourceTxFinalizedTime := rfl }
  | writeAck hash time status hhash =>
    exact { hm with writeAckTxHash := rfl, writeAckTxTime := rfl, writeAckStatus := rfl }
  | writeAckTxFinalized time htime => split <;> exact { hm with }
  | gasCost u hu => exact hm.gasCost hu
  -- a processor that marks the copy sets an error on it
  | marked err htext => exact absurd herror htext

/-- The end of a stage keeps the row well-formed, because of the guard of the stage. -/
theorem change_wellFormed (hwf : WellFormed r) (hm : Mirrors r t) {now : Time}
    (hwants : (stage.guard pl).wants t now = true) (h : Change t stage t' us) :
    WellFormed (applyAll us r) := by
  cases h with
  | nothing => exact hwf
  | recvTx hstage tx =>
    have hrecv : r.recvTxHash = none := hm.recvTxHash.trans (guard_recvTx hstage hwants)
    -- a write ack would come with a recv tx
    have hack : r.writeAckTxHash = none := by
      cases hhash : r.writeAckTxHash with
      | none => rfl
      | some hash =>
        rw [(hwf.writeAck hash hhash).1] at hrecv
        cases hrecv
    exact hwf.updateTransferRecvTx hack _ _ _
  | ackTx hstage tx address =>
    have htimeout := hm.timeoutTxHash.trans (guard_ackTx hstage hwants).2
    exact hwf.updateTransferAckTx htimeout _ _ _
  | timeoutTx hstage tx address =>
    have hack := hm.ackTxHash.trans (guard_timeoutTx hstage hwants).1
    exact hwf.updateTransferTimeoutTx hack _ _ _
  | sourceTxFinalized time => exact { hwf with }
  | writeAck hash time status hhash =>
    exact hwf.updateTransferWriteAckTx (hm.recvTxHash.trans hhash) _ _
  | writeAckTxFinalized time htime => split <;> exact { hwf with }
  | gasCost u hu => exact hwf.gasCost hu
  | marked err htext => exact hwf

/-- A stage that returns the copy without an error has recorded the same on both. -/
theorem step_mirrors (hc : stage.contract pl = some c) (h : Step c t (some t') us evs)
    (hm : t.error = "" → Mirrors r t) (herror : t'.error = "") : Mirrors (applyAll us r) t' := by
  cases h with
  | passed => exact hm herror
  | refused => exact hm herror
  | stateNotSaved err err' htext => exact absurd herror htext
  | failed _ err htext o ho =>
    cases ho.resolve_left (by simp)
    exact absurd herror htext
  -- the state was saved before the processor was called
  | done htaken _ us' own _ _ hok =>
    rw [applyAll_cons]
    exact change_mirrors ((hm htaken.error).save c.state) (ok_change hc hok) herror

/-- A stage keeps the row well-formed, also when it fails or loses the copy. -/
theorem step_wellFormed (hc : stage.contract pl = some c) (h : Step c t o us evs)
    (ht : Tracked r t) : WellFormed (applyAll us r) := by
  cases h with
  | passed => exact ht.wellFormed
  | refused => exact ht.wellFormed
  | stateNotSaved => exact ht.wellFormed
  | lost => exact ht.wellFormed
  -- a failed processor may have cleared the tx that it looked at
  | failed htaken err htext o ho us' hus =>
    have hm := ht.mirrors htaken.error
    have hsaved := ht.wellFormed.save c.state
    rcases hus with rfl | ⟨u, hu, rfl⟩
    · exact hsaved
    -- the guard says which tx a stage may clear
    · rcases htaken.clears hc hu with ⟨rfl, hack⟩ | rfl | rfl
      · exact hsaved.clearRecvTx (hm.writeAckTxHash.trans hack)
      · exact hsaved.clearAckTx
      · exact hsaved.clearTimeoutTx
  | done htaken t' us' own _ _ hok =>
    obtain ⟨now, hwants⟩ := htaken.wants_saved hc
    rw [applyAll_cons]
    exact change_wellFormed (ht.wellFormed.save c.state)
      ((ht.mirrors htaken.error).save c.state) hwants (ok_change hc hok)

/-- What the finisher does to the row. -/
theorem updatesOf_finish {opts : PipelineOptions} (h : Finish opts t t' evs) :
    updatesOf t.rowKey evs = [] ∧ (t' = t ∨ t'.error ≠ "")
      ∨ ∃ state, StateFinisher.finalState t = some state ∧ t.complete opts = true ∧ t.error = ""
        ∧ t' = { t with state } ∧ updatesOf t.rowKey evs = [.updateTransferState state] := by
  have hsilent : ∀ counted : List Event, (∀ e ∈ counted, e.call.isSilent = true) →
      updatesOf t.rowKey counted = [] :=
    fun counted h => updatesOf_eq_nil fun e he => updatesOfEvent_silent (h e he) _
  cases h with
  | passed => exact Or.inl ⟨rfl, Or.inl rfl⟩
  | notComplete herror hcomplete warned hwarned =>
    refine Or.inl ⟨?_, Or.inl rfl⟩
    rcases hwarned with rfl | ⟨rfl, -⟩ <;> rfl
  | withoutStatus => exact Or.inl ⟨rfl, Or.inl rfl⟩
  | finished herror hcomplete state hstate counted hcounted =>
    refine Or.inr ⟨state, hstate, hcomplete, herror, rfl, ?_⟩
    rw [updatesOf_cons, hsilent counted hcounted]
    simp [saveEvent, updatesOfEvent]
  | notSaved herror hcomplete state hstate counted hcounted err err' htext =>
    refine Or.inl ⟨?_, Or.inr htext⟩
    rw [updatesOf_cons, hsilent counted hcounted]
    rfl

/-- `step_mirrors` for all stages, the finisher included. -/
theorem visit_mirrors (h : StageVisit pl keys t stage (some t') evs)
    (hm : t.error = "" → Mirrors r t) (herror : t'.error = "") :
    Mirrors (applyAll (updatesOf t.rowKey evs) r) t' := by
  cases h with
  | wrapped hc h => exact step_mirrors hc h.step hm herror
  | finisher h =>
    rcases updatesOf_finish h with ⟨hus, hend⟩ | ⟨state, -, -, herror', rfl, hus⟩
    · rw [hus]
      rcases hend with rfl | hend
      · exact hm herror
      · exact absurd herror hend
    · rw [hus]
      exact (hm herror').save state

/-- `step_wellFormed` for all stages, the finisher included. -/
theorem visit_wellFormed (h : StageVisit pl keys t stage o evs) (ht : Tracked r t) :
    WellFormed (applyAll (updatesOf t.rowKey evs) r) := by
  cases h with
  | wrapped hc h => exact step_wellFormed hc h.step ht
  | finisher h =>
    rcases updatesOf_finish h with ⟨hus, -⟩ | ⟨state, -, -, -, -, hus⟩
    · rw [hus]
      exact ht.wellFormed
    · rw [hus]
      exact ht.wellFormed.save state

/-- A visit to any stage keeps both parts. -/
theorem visit_tracked (h : StageVisit pl keys t stage (some t') evs) (ht : Tracked r t) :
    Tracked (applyAll (updatesOf t.rowKey evs) r) t' :=
  ⟨visit_wellFormed h ht, visit_mirrors h ht.mirrors⟩

/-! ### The status -/

/-- What a processor records is not the status; that is the wrapper's and the finisher's. -/
theorem Change.status (h : Change t stage t' us) : (applyAll us r).status = r.status := by
  cases h with
  | writeAckTxFinalized time htime => split <;> rfl
  | gasCost u hu => cases u <;> first | rfl | cases hu
  | _ => rfl

/-- A wrapped stage leaves the status, or sets it to its own. -/
theorem step_status (hc : stage.contract pl = some c) (h : Step c t o us evs) :
    (applyAll us r).status = r.status ∨ (applyAll us r).status = c.state := by
  cases h with
  | failed htaken err htext o ho us' hus =>
    right
    rcases hus with rfl | ⟨u, hu, rfl⟩
    · rfl
    · rcases htaken.clears hc hu with ⟨rfl, -⟩ | rfl | rfl <;> rfl
  | done htaken t' us' own _ _ hok =>
    rw [applyAll_cons]
    exact Or.inr (ok_change hc hok).status
  | _ => exact Or.inl rfl

/-- A stage leaves the status, sets one that is not final, or is the finisher, which sets the final
status of the copy. -/
theorem visit_status (h : StageVisit pl keys t stage o evs) :
    (applyAll (updatesOf t.rowKey evs) r).status = r.status
      ∨ (applyAll (updatesOf t.rowKey evs) r).status.isFinished = false
      ∨ StateFinisher.finalState t = some (applyAll (updatesOf t.rowKey evs) r).status := by
  cases h with
  | wrapped hc h =>
    refine (step_status hc h.step).imp_right fun heq => Or.inl ?_
    rw [heq]
    exact contract_state hc
  | finisher h =>
    rcases updatesOf_finish h with ⟨hus, -⟩ | ⟨state, hfinal, -, -, -, hus⟩
    · rw [hus]
      exact Or.inl rfl
    · rw [hus]
      exact Or.inr (Or.inr hfinal)

/-- No stage sets the status to `FAILED`. -/
theorem visit_status_ne_failed (h : StageVisit pl keys t stage o evs) (hr : r.status ≠ .failed) :
    (applyAll (updatesOf t.rowKey evs) r).status ≠ .failed := by
  rcases visit_status (r := r) h with heq | hfinished | hfinal
  · rw [heq]
    exact hr
  · intro hfailed
    rw [hfailed] at hfinished
    cases hfinished
  · exact finalState_ne_failed hfinal

/-- A copy of a well-formed row does not make a stage warn of a bug. -/
theorem visit_warning_free (h : StageVisit pl keys t stage o evs) (ht : Tracked r t)
    {warning : Warning} (hbug : warning ≠ .finishNotComplete) :
    ⟨.warn warning t.rowKey, ()⟩ ∉ evs := by
  -- the bugs in question are a write ack without a status
  have hstatus : t.error = "" → t.writeAckTxHash.isSome = true → t.writeAckStatus ≠ none := by
    intro herror hhash
    obtain ⟨hash, hhash⟩ := Option.isSome_iff_exists.mp hhash
    have hm := ht.mirrors herror
    rw [← hm.writeAckStatus]
    exact Option.isSome_iff_ne_none.mp
      (ht.wellFormed.writeAck hash (hm.writeAckTxHash.trans hhash)).2
  intro hin
  cases h with
  | wrapped hc h =>
    obtain ⟨herror, -, hhash, hnone⟩ := h.warning warning hin
    exact hstatus herror hhash hnone
  | finisher h =>
    have hcounted : ∀ {state answer} {counted : List Event},
        (∀ e ∈ counted, e.call.isSilent = true) →
        ⟨.warn warning t.rowKey, ()⟩ ∉ saveEvent state t.rowKey answer :: counted := by
      intro state answer counted hcounted hin
      rcases List.mem_cons.mp hin with heq | hin
      · cases heq
      · cases hcounted _ hin
    cases h with
    | passed => cases hin
    | notComplete herror _ warned hwarned =>
      rcases List.mem_cons.mp hin with heq | hin
      · cases heq
        exact hbug rfl
      · rcases hwarned with rfl | ⟨-, hhash, hnone⟩
        · cases hin
        · exact hstatus herror hhash hnone
    | withoutStatus herror _ hhash hnone => exact hstatus herror hhash hnone
    | finished _ _ _ _ _ hsilent => exact hcounted hsilent hin
    | notSaved _ _ _ _ _ hsilent => exact hcounted hsilent hin

end Tracked

/-! ## A pass -/

section Pass

variable {pl : Pipeline} {key : RowKey} {mates : Stage → Mates key} {stages : List Stage}
  {r : Ibcv2Transfer} {t : IBCV2Transfer} {o : Option IBCV2Transfer} {evs : List Event}

/-- A pass keeps the row well-formed, wherever it ends. -/
theorem trace_wellFormed (h : Trace pl mates stages t o evs) (hkey : t.rowKey = key)
    (ht : Tracked r t) : WellFormed (applyAll (updatesOf key evs) r) := by
  induction h generalizing r with
  | nil t => exact ht.wellFormed
  -- the pass ends here, between two statements
  | lost h =>
    rw [← hkey]
    exact visit_wellFormed h ht
  | cons h _ ih =>
    have htracked := visit_tracked h ht
    rw [hkey] at htracked
    rw [updatesOf_append, applyAll_append]
    exact ih (h.samePacket.rowKey.trans hkey) htracked

/-- A pass keeps both parts, if the copy comes out of it. -/
theorem trace_tracked (h : Trace pl mates stages t o evs) (hkey : t.rowKey = key)
    (ht : Tracked r t) {t' : IBCV2Transfer} (ho : o = some t') :
    Tracked (applyAll (updatesOf key evs) r) t' := by
  induction h generalizing r with
  | nil t =>
    cases ho
    exact ht
  | lost h => cases ho
  | cons h _ ih =>
    have htracked := visit_tracked h ht
    rw [hkey] at htracked
    rw [updatesOf_append, applyAll_append]
    exact ih (h.samePacket.rowKey.trans hkey) htracked ho

/-- A pass does not set the status to `FAILED`. -/
theorem trace_status_ne_failed (h : Trace pl mates stages t o evs) (hkey : t.rowKey = key)
    (hr : r.status ≠ .failed) : (applyAll (updatesOf key evs) r).status ≠ .failed := by
  induction h generalizing r with
  | nil t => exact hr
  | lost h =>
    rw [← hkey]
    exact visit_status_ne_failed h hr
  | cons h _ ih =>
    have hstatus := visit_status_ne_failed h hr
    rw [hkey] at hstatus
    rw [updatesOf_append, applyAll_append]
    exact ih (h.samePacket.rowKey.trans hkey) hstatus

/-- A pass from a well-formed row warns of no bug. -/
theorem trace_warning_free (h : Trace pl mates stages t o evs) (hkey : t.rowKey = key)
    (ht : Tracked r t) {warning : Warning} (hbug : warning ≠ .finishNotComplete) :
    ⟨.warn warning key, ()⟩ ∉ evs := by
  induction h generalizing r with
  | nil t => simp
  | lost h =>
    rw [← hkey]
    exact visit_warning_free h ht hbug
  | cons h _ ih =>
    have hkey' := h.samePacket.rowKey.trans hkey
    have hhere := visit_warning_free h ht hbug
    rw [hkey] at hhere
    intro hin
    rcases List.mem_append.mp hin with hin | hin
    · exact ih hkey' (visit_tracked h ht) hin
    · exact hhere hin

end Pass

theorem tracked_new {r : Ibcv2Transfer} (h : WellFormed r) : Tracked r (newIBCV2Transfer r) :=
  ⟨h, fun _ => mirrors_new r⟩

/-! ## The life of a row -/

/-- The worlds in the life of the row `key`: it was inserted by `Relay`, complete passes were made
over its current contents, and other things happened that leave it as it is. -/
inductive History (key : RowKey) : World → Prop where
  | inserted {w : World} (p : InsertIBCV2TransferParams) (id : Int32)
      (hrow : w.row key = some (p.toRow id)) : History key w
  | passed {w : World} {r : Ibcv2Transfer} (h : History key w) (hrow : w.row key = some r)
      (pl : Pipeline) (mates : Stage → Mates key) (env : Environment) :
      History key (execute env (pass pl mates (newIBCV2Transfer r)) w).2
  | elsewhere {w w' : World} (h : History key w) (hrow : w'.row key = w.row key) : History key w'

theorem rowKey_new {w : World} {key : RowKey} {r : Ibcv2Transfer} (h : w.row key = some r) :
    (newIBCV2Transfer r).rowKey = key := by
  rw [newIBCV2Transfer_rowKey]
  exact key_of_row h

/-- The row is there for its whole life, well-formed and never `FAILED`. By induction on the
history; a pass is `trace_wellFormed`. -/
theorem history_row {key : RowKey} {w : World} (h : History key w) :
    ∃ r, w.row key = some r ∧ WellFormed r ∧ r.status ≠ .failed := by
  induction h with
  | inserted p id hrow =>
    exact ⟨_, hrow, wellFormed_inserted p id, by simp [InsertIBCV2TransferParams.toRow]⟩
  | @passed w r _ hrow pl mates env ih =>
    obtain ⟨r', hrow', hwf, hstatus⟩ := ih
    rw [hrow] at hrow'
    -- the pass was made over the current contents of the row
    cases hrow'
    have hkey := rowKey_new hrow
    obtain ⟨evs, htrace, hw, -⟩ := execute_trace pl mates (newPipeline pl) hkey (honest_new r) env w
    refine ⟨applyAll (updatesOf key evs) r, ?_, trace_wellFormed htrace hkey (tracked_new hwf),
      trace_status_ne_failed htrace hkey hstatus⟩
    change World.row (execute env (runStages pl mates (newPipeline pl) _) w).2 key = _
    rw [hw, row_after, hrow]
    rfl
  | elsewhere _ hrow ih =>
    obtain ⟨r, hr, hwf, hstatus⟩ := ih
    exact ⟨r, hrow.trans hr, hwf, hstatus⟩

/-- **Rows stay well-formed.** Over the whole life of a row, whatever the chains, the proof API and
the storage answer, a hash comes with its time, a write ack with its recv tx and a status, and a
packet is not both acknowledged and timed out; and no pass over the row takes one of the branches
that log a bug. -/
theorem history_wellFormed {key : RowKey} {w : World} (h : History key w) :
    ∃ r, w.row key = some r ∧ WellFormed r
      ∧ ∀ (pl : Pipeline) (mates : Stage → Mates key) (env : Environment), ∃ evs,
        (execute env (pass pl mates (newIBCV2Transfer r)) w).2.log = evs ++ w.log
          ∧ ∀ warning, warning ≠ .finishNotComplete → ⟨.warn warning key, ()⟩ ∉ evs := by
  obtain ⟨r, hrow, hwf, -⟩ := history_row h
  refine ⟨r, hrow, hwf, fun pl mates env => ?_⟩
  have hkey := rowKey_new hrow
  obtain ⟨evs, htrace, hw, -⟩ := execute_trace pl mates (newPipeline pl) hkey (honest_new r) env w
  refine ⟨evs, ?_, fun warning hbug => trace_warning_free htrace hkey (tracked_new hwf) hbug⟩
  change World.log (execute env (runStages pl mates (newPipeline pl) _) w).2 = _
  rw [hw, World.after_log]

/-- `history_wellFormed` for a row that was inserted and went through one pass. -/
theorem history_wellFormed_after_pass :
    History Sample.row.key (execute (Sample.obliging .zero)
        (pass Sample.pipeline Sample.alone (newIBCV2Transfer Sample.row)) Sample.world).2
      ∧ ∃ r, (execute (Sample.obliging .zero)
          (pass Sample.pipeline Sample.alone (newIBCV2Transfer Sample.row))
          Sample.world).2.row Sample.row.key = some r ∧ WellFormed r := by
  have hrow : Sample.world.row Sample.row.key = some Sample.row := by
    decide +kernel
  have hhistory := (History.inserted Sample.packet 1 hrow).passed hrow Sample.pipeline
    Sample.alone (Sample.obliging .zero)
  exact ⟨hhistory, (history_wellFormed hhistory).imp fun r h => ⟨h.1, h.2.1⟩⟩

end IbcRelayer
