import IbcRelayer.LifeCycle
import IbcRelayer.Spec.System

/-!
# IbcRelayer — the age of the dispatcher's rows

The dispatcher reads all unfinished rows at once and pushes them one by one. A row can be pushed
long after it was read: while it waits for its turn, the copy of an earlier poll can come to the end
of its pipeline and leave the deduplication set. The copy that is then pushed does not know what the
earlier pass did.

Two things rest on the copies being fresh: no recv tx is submitted for a packet that has one
(`recv_submitted_once`), and a status that ends the life of a transfer stays
(`finished_status_stays`). Both hold in runs that push no outdated row; the examples after them are
runs that push one.
-/

namespace IbcRelayer

open CallTree Prog IBCV2Transfer

/-! ## One recv tx at a time -/

/-- The row of the poll has a recv tx if the current row has one. -/
def RecvKnown (polled current : Ibcv2Transfer) : Prop :=
  polled.recvTxHash = none → current.recvTxHash = none

/-- What a copy without an error and without a recv tx says about its row. -/
def RecvFree (_ : List Stage) (t : IBCV2Transfer) (r : Ibcv2Transfer) : Prop :=
  t.error = "" → t.recvTxHash = none → r.recvTxHash = none

/-- A copy that leaves a stage without a recv tx had none before, and its row was not given one. -/
theorem change_recvTxHash {stage : Stage} {t t' : IBCV2Transfer} {us : List TransferUpdate}
    {r : Ibcv2Transfer} (h : Change t stage t' us) (hnone : t'.recvTxHash = none) :
    t.recvTxHash = none ∧ (applyAll us r).recvTxHash = r.recvTxHash := by
  cases h with
  | recvTx hstage tx => cases hnone
  | writeAckTxFinalized time htime =>
    refine ⟨hnone, ?_⟩
    split <;> rfl
  | gasCost u hu =>
    refine ⟨hnone, ?_⟩
    cases u <;> first | rfl | cases hu
  | _ => exact ⟨hnone, rfl⟩

/-- A column that is empty on a copy without an error is empty on its row, if this is so after the
un-errored end of a stage. -/
theorem keeps_free (copy : IBCV2Transfer → Option String) (column : Ibcv2Transfer → Option String)
    (hcopy : ∀ (t : IBCV2Transfer) (state : Ibcv2RelayStatus), copy { t with state } = copy t)
    (hsave : ∀ status r, column ((TransferUpdate.updateTransferState status).apply r) = column r)
    (hchange : ∀ {stage t t' us r}, Change t stage t' us → copy t' = none →
      copy t = none ∧ column (applyAll us r) = column r) :
    Keeps fun _ t r => t.error = "" → copy t = none → column r = none := by
  intro pl keys stage rest t t' evs r _ hvisit hfree herror hnone
  cases hvisit with
  | finisher h =>
    rcases updatesOf_finish h with ⟨hus, hend⟩ | ⟨state, -, -, herror', rfl, hus⟩
    · rcases hend with rfl | hend
      · rw [hus]
        exact hfree herror hnone
      · exact absurd herror hend
    · rw [hus]
      exact (hsave state r).trans (hfree herror' ((hcopy t state).symm.trans hnone))
  | @wrapped _ c _ _ hc h =>
    have hstep := h.step
    generalize updatesOf t.rowKey evs = us at hstep ⊢
    cases hstep with
    | passed => exact hfree herror hnone
    | refused => exact hfree herror hnone
    | stateNotSaved err err' htext => exact absurd herror htext
    | failed _ err htext o ho =>
      cases ho.resolve_left (by simp)
      exact absurd herror htext
    -- the processor has left the column empty, so it was empty before and the row has not changed
    | done htaken _ us' own _ _ hok =>
      rw [applyAll_cons]
      obtain ⟨hnone', heq⟩ := hchange (r := (TransferUpdate.updateTransferState
        c.state).apply r) (ok_change hc hok) hnone
      rw [heq, hsave]
      exact hfree htaken.error ((hcopy t c.state).symm.trans hnone')

/-- The stages keep `RecvFree`. -/
theorem keeps_recvFree : Keeps RecvFree :=
  keeps_free (·.recvTxHash) (·.recvTxHash) (fun _ _ => rfl) (fun _ _ => rfl) change_recvTxHash

/-- **No recv tx is submitted twice.** In a run in which every row that is pushed without a recv tx
has none at that time, a recv tx is delivered for transfers whose current rows have none. -/
theorem recv_submitted_once {config : ConfigReader} {priceClient : Bool} {s₀ s : System}
    (hstart : s₀.Started) (hrun : System.Run config priceClient (PushesOnly RecvKnown) s₀ s)
    {pl : Pipeline} {stage : Stage} {rest : List Stage} {ts : List IBCV2Transfer} {chainID : String}
    {tx : List UInt8} {address : String} {submission : Submission}
    {k : Except GoError BridgeTx → Eff (List IBCV2Transfer)}
    (htask : ⟨pl, rest, .running stage ts (.call (.deliverTx chainID tx address submission) k)⟩
      ∈ s.tasks)
    (hkind : submission.kind = .recvPacket) :
    ∀ u ∈ submission.transfers, ∃ r, s.world.row u.rowKey = some r ∧ r.recvTxHash = none := by
  intro u hu
  have hinv : s.Inv RecvFree := run_inv keeps_recvFree (fun _ _ _ h _ => h) hstart.inv hrun
  obtain ⟨hkept, hvisits⟩ := hinv.sound _ htask
  obtain ⟨-, howned⟩ := Kept.resume hkept (.error (.new ""))
  obtain ⟨t, ht, hpacket⟩ := howned.submission submission rfl u hu
  obtain ⟨-, keys, past, r₀, hfree, hrow, hprog⟩ := hvisits t ht
  -- however the stage goes on, this call was a submission for the transfer
  obtain ⟨out, evs, hvisit⟩ :=
    (hprog.resume (.error (.new ""))).exists_end (Sample.obliging .zero Sample.world)
  generalize out.find? (·.rowKey = t.rowKey) = o at hvisit
  cases hvisit with
  | wrapped hc h =>
    obtain ⟨htaken, p, hsubmits⟩ :=
      h.submission evs _ past submission rfl rfl ⟨u, hu, hpacket.rowKey⟩
    -- a recv tx is submitted by one stage only
    have hstage : stage = .batchRecvPacket := by
      rw [stage_of_packet hc hsubmits.packet, ← hsubmits.kind, hkind]
      rfl
    obtain ⟨now, hwants⟩ := htaken.wants hc
    have hnone := guard_recvTx (Or.inr hstage) hwants
    rw [hpacket.rowKey]
    refine ⟨_, hrow, ?_⟩
    -- the stage has written only its state so far
    rw [hsubmits.updates]
    exact hfree htaken.error hnone
  | finisher h =>
    have hnone := h.submission (List.mem_append_right _ List.mem_cons_self)
    cases hnone

theorem Sample.started : Sample.idle.Started := by
  refine ⟨⟨?_, ?_⟩, rfl, rfl, rfl⟩ <;> simp [Sample.idle]

/-- A check of a push by which the current row has what `fresh` asks for. -/
def Sample.pushes (fresh : Ibcv2Transfer → Ibcv2Transfer → Bool) (s : System) : Action → Bool
  | .submit _ => s.snapshot.head?.all fun r => (s.world.row r.key).all (fresh r)
  | _ => true

/-- The check implies `PushesOnly`. -/
theorem Sample.pushesOnly {fresh : Ibcv2Transfer → Ibcv2Transfer → Bool}
    {Fresh : Ibcv2Transfer → Ibcv2Transfer → Prop} (h : ∀ r r', fresh r r' = true → Fresh r r')
    (s : System) (a : Action) (hpushes : Sample.pushes fresh s a = true) :
    PushesOnly Fresh s a := by
  cases a with
  | submit answer =>
    intro r rest hsnapshot _ r' hr'
    rw [Sample.pushes, hsnapshot] at hpushes
    refine h r r' ?_
    simpa [hr'] using hpushes
  | _ => trivial

/-- A stage is about to make a call that passes the test. -/
def Sample.calling (test : Call → Bool) (s : System) : Bool :=
  s.tasks.any fun task =>
    match task.work with
    | .running _ _ (.call c _) => test c
    | _ => false

/-- Such a stage is one of the tasks. -/
theorem Sample.calling_spec {test : Call → Bool} {s : System}
    (h : Sample.calling test s = true) : ∃ pl rest stage ts c k,
      ⟨pl, rest, .running stage ts (.call c k)⟩ ∈ s.tasks ∧ test c = true := by
  obtain ⟨⟨pl, rest, work⟩, htask, h⟩ := List.any_eq_true.mp h
  dsimp only at h
  split at h
  · exact ⟨_, _, _, _, _, _, htask, h⟩
  · cases h

/-- A recv tx is about to be delivered; `test` is asked about the rows of its transfers. -/
def Sample.delivering (test : Ibcv2Transfer → Bool) (s : System) : Bool :=
  Sample.calling (fun c =>
    match c with
    | .deliverTx _ _ _ submission => submission.kind = .recvPacket
        && submission.transfers.any fun u => (s.world.row u.rowKey).any test
    | _ => false) s

/-- The check, in the terms of the theorem. -/
theorem Sample.delivering_spec {test : Ibcv2Transfer → Bool} {s : System}
    (h : Sample.delivering test s = true) :
    ∃ pl rest stage ts chainID tx address submission k u r,
      ⟨pl, rest, .running stage ts (.call (.deliverTx chainID tx address submission) k)⟩ ∈ s.tasks
        ∧ submission.kind = .recvPacket ∧ u ∈ submission.transfers
        ∧ s.world.row u.rowKey = some r ∧ test r = true := by
  obtain ⟨pl, rest, stage, ts, c, k, htask, h⟩ := Sample.calling_spec h
  split at h
  · obtain ⟨hkind, h⟩ := Bool.and_eq_true_iff.mp h
    obtain ⟨u, hu, h⟩ := List.any_eq_true.mp h
    obtain ⟨r, hrow, h⟩ := (Option.any_eq_true _ _).mp h
    exact ⟨_, _, _, _, _, _, _, _, _, u, r, htask, of_decide_eq_true hkind, hu, hrow, h⟩
  · cases h

/-- `recv_submitted_once` when the packet is pushed for the first time. -/
theorem recv_submitted_once_pushed :
    ∃ s, System.Run Sample.config false (PushesOnly RecvKnown) Sample.idle s
      ∧ ∃ pl rest stage ts chainID tx address submission k,
        ⟨pl, rest, .running stage ts (.call (.deliverTx chainID tx address submission) k)⟩ ∈ s.tasks
          ∧ submission.kind = .recvPacket ∧ submission.transfers ≠ []
          ∧ ∀ u ∈ submission.transfers, ∃ r, s.world.row u.rowKey = some r
            ∧ r.recvTxHash = none := by
  have hscript : (Sample.idle.script Sample.config false
      (Sample.pushes fun polled current => polled.recvTxHash.isSome || current.recvTxHash.isNone)
      (Sample.polledTwice ++ Sample.untilRecv (Sample.obliging .zero) ++ [.start 0]
        ++ List.replicate 5 (.call 0 (Sample.obliging .zero)))).any
      (Sample.delivering fun _ => true) = true := by decide +kernel
  obtain ⟨s, hs, hdelivering⟩ := (Option.any_eq_true _ _).mp hscript
  have hrun : System.Run Sample.config false (PushesOnly RecvKnown) Sample.idle s := by
    refine System.run_of_script _ _ (Sample.pushesOnly fun r r' h => ?_) hs
    intro hnone
    simpa [hnone] using h
  obtain ⟨pl, rest, stage, ts, chainID, tx, address, submission, k, u, r, htask, hkind, hu, -⟩ :=
    Sample.delivering_spec hdelivering
  exact ⟨s, hrun, pl, rest, stage, ts, chainID, tx, address, submission, k, htask, hkind,
    List.ne_nil_of_mem hu, recv_submitted_once Sample.started hrun htask hkind⟩

namespace Sample

/-- As `obliging`, but the destination chain cannot be asked about txs. -/
def unsure : Environment := fun w c =>
  match c with
  | .shouldRetryTx .. => .error (.new "rpc unavailable")
  | c => obliging .zero w c

/-- A pass that submits the recv tx and then fails. -/
def failedPass : List Action :=
  untilRecv unsure ++ work unsure 11 ++ work unsure 3 ++ work unsure 0 ++ work unsure 0
    ++ work unsure 0 ++ [.route 0 unsure none] ++ work unsure 0 ++ work unsure 0

end Sample

/-- The packet is polled a second time while its first pass is going on. The pass records a recv tx
and ends with an error, the key leaves the set, and the row of the second poll is pushed: it has no
recv tx, so a second one is delivered. -/
theorem outdated_row_resubmitted :
    ∃ s, System.Run Sample.config false (fun _ _ => True) Sample.idle s
      ∧ ∃ pl rest stage ts chainID tx address submission k u r,
        ⟨pl, rest, .running stage ts (.call (.deliverTx chainID tx address submission) k)⟩ ∈ s.tasks
          ∧ submission.kind = .recvPacket ∧ u ∈ submission.transfers
          ∧ s.world.row u.rowKey = some r ∧ r.recvTxHash ≠ none := by
  have hscript : (Sample.idle.script Sample.config false (fun _ _ => true)
      (Sample.polledTwice ++ Sample.failedPass ++ [.watch 0, .submit (.ok ())]
        ++ Sample.untilRecv Sample.unsure ++ [.start 0]
        ++ List.replicate 5 (.call 0 Sample.unsure))).any
      (Sample.delivering fun r => r.recvTxHash.isSome) = true := by decide +kernel
  obtain ⟨s, hs, hdelivering⟩ := (Option.any_eq_true _ _).mp hscript
  obtain ⟨pl, rest, stage, ts, chainID, tx, address, submission, k, u, r, htask, hkind, hu, hrow,
    hrecv⟩ := Sample.delivering_spec hdelivering
  exact ⟨s, System.run_of_script _ _ (fun _ _ _ => trivial) hs, pl, rest, stage, ts, chainID, tx,
    address, submission, k, u, r, htask, hkind, hu, hrow, Option.isSome_iff_ne_none.mp hrecv⟩

/-! ## A finished status stays -/

/-- The current row is not finished. -/
def StillOpen (_ current : Ibcv2Transfer) : Prop := current.status.isFinished = false

/-- A row is not finished while its transfer still has stages before it. -/
def OpenBefore (stages : List Stage) (_ : IBCV2Transfer) (r : Ibcv2Transfer) : Prop :=
  stages ≠ [] → r.status.isFinished = false

/-- Nothing comes after the finisher. -/
theorem finisher_last {pl : Pipeline} {rest : List Stage}
    (h : .stateFinisher :: rest <:+ newPipeline pl) : rest = [] := by
  obtain ⟨before, hsplit⟩ := h
  cases rest with
  | nil => rfl
  | cons stage rest =>
    have hsplit' : newPipeline pl = (before ++ [.stateFinisher]) ++ stage :: rest := by
      simp [← hsplit]
    exact absurd (by simp) (finisher_not_mem_before hsplit')

/-- The stages before the finisher do not finish a row. -/
theorem keeps_openBefore : Keeps OpenBefore := by
  intro pl keys stage rest t t' evs r hsuffix hvisit hopen hrest
  have hr := hopen (by simp)
  cases hvisit with
  | finisher h => exact absurd (finisher_last hsuffix) hrest
  | wrapped hc h =>
    rcases step_status (r := r) hc h.step with heq | heq
    · rw [heq]
      exact hr
    · rw [heq]
      exact contract_state hc

/-- A status was there before or is saved by one of the statements. -/
theorem applyAll_status (us : List TransferUpdate) (r : Ibcv2Transfer) :
    (applyAll us r).status = r.status
      ∨ .updateTransferState (applyAll us r).status ∈ us := by
  induction us generalizing r with
  | nil => exact Or.inl rfl
  | cons u us ih =>
    rw [applyAll_cons]
    rcases ih (u.apply r) with heq | hin
    · cases u with
      | updateTransferState status =>
        right
        rw [heq]
        exact List.mem_cons_self
      | _ => exact Or.inl heq
    · exact Or.inr (List.mem_cons_of_mem _ hin)

theorem change_saves {stage : Stage} {t t' : IBCV2Transfer} {us : List TransferUpdate}
    (h : Change t stage t' us) (status : Ibcv2RelayStatus) : .updateTransferState status ∉ us := by
  cases h with
  | writeAckTxFinalized time htime => split <;> simp
  | gasCost u hu => cases u <;> simp [TransferUpdate.isGasCost] at hu ⊢
  | _ => simp

/-- A wrapped stage saves its own state only. -/
theorem step_saves {pl : Pipeline} {stage : Stage} {c : Contract} {t : IBCV2Transfer}
    {o : Option IBCV2Transfer} {us : List TransferUpdate} {evs : List Event}
    (hc : stage.contract pl = some c) (h : Step c t o us evs) {status : Ibcv2RelayStatus}
    (hin : .updateTransferState status ∈ us) : status = c.state := by
  cases h with
  | failed htaken err htext o ho us' hus =>
    rcases List.mem_cons.mp hin with heq | hin
    · exact TransferUpdate.updateTransferState.inj heq
    · rcases hus with rfl | ⟨u, hu, rfl⟩
      · cases hin
      · cases List.mem_singleton.mp hin
        rcases htaken.clears hc hu with ⟨heq, -⟩ | heq | heq <;> cases heq
  | done htaken t' us' own _ _ hok =>
    rcases List.mem_cons.mp hin with heq | hin
    · exact TransferUpdate.updateTransferState.inj heq
    · exact absurd hin (change_saves (ok_change hc hok) status)
  | _ => cases hin

/-- Within a visit that began with an open row, nothing is saved after a status that is finished. -/
theorem visit_status_stays {pl : Pipeline} {keys : List RowKey} {stage : Stage}
    {t : IBCV2Transfer} {o : Option IBCV2Transfer} {evs past : List Event} {e : Event}
    {r : Ibcv2Transfer} (h : StageVisit pl keys t stage o (evs ++ e :: past))
    (hopen : r.status.isFinished = false)
    (hfinished : (applyAll (updatesOf t.rowKey past) r).status.isFinished = true) :
    updatesOfEvent t.rowKey e = [] := by
  cases h with
  | @wrapped _ c _ _ hc h =>
    -- a finished status of an open row was saved by one of the past statements
    rcases applyAll_status (updatesOf t.rowKey past) r with heq | hin
    · rw [heq, hopen] at hfinished
      cases hfinished
    · -- a stage that is wrapped saves no such status
      have hall : .updateTransferState (applyAll (updatesOf t.rowKey past) r).status
          ∈ updatesOf t.rowKey (evs ++ e :: past) := by
        rw [updatesOf_append, updatesOf_cons]
        exact List.mem_append_left _ (List.mem_append_left _ hin)
      rw [step_saves hc h.step hall, contract_state hc] at hfinished
      cases hfinished
  | finisher h =>
    -- the finisher makes at most one statement
    have hpast : updatesOf t.rowKey past ≠ [] := by
      intro hnil
      rw [hnil, applyAll_nil, hopen] at hfinished
      cases hfinished
    rcases updatesOf_finish h with ⟨hus, -⟩ | ⟨state, -, -, -, -, hus⟩ <;>
      rw [updatesOf_append, updatesOf_cons, List.append_assoc] at hus
    · exact absurd (List.append_eq_nil_iff.mp hus).1 hpast
    · rcases List.append_eq_singleton_iff.mp hus with ⟨hnil, -⟩ | ⟨-, hnil⟩
      · exact absurd hnil hpast
      · exact (List.append_eq_nil_iff.mp hnil).1

section Finished

variable {config : ConfigReader} {priceClient : Bool} {s₀ s s' : System} {key : RowKey}
  {r : Ibcv2Transfer}

/-- A call of a stage leaves a finished row: a visit that began with an open row has nothing left to
save, and a visit of another transfer does not write this row. -/
theorem call_status_stays (hinv : s.Inv OpenBefore) {i : Nat} {env : Environment}
    (hstep : s.call i env = some s') (hrow : s.world.row key = some r)
    (hfinished : r.status.isFinished = true) : s'.world.row key = some r := by
  obtain ⟨pl, rest, stage, ts, c, k, htask, rfl⟩ := System.call_inv hstep
  obtain ⟨hkept, hvisits⟩ := hinv.sound _ (List.mem_of_getElem? htask)
  generalize env s.world c = answer
  have hnil : updatesOfEvent key ⟨c, answer⟩ = [] := by
    by_cases hkey : key ∈ ts.map (·.rowKey)
    · obtain ⟨t, ht, rfl⟩ := List.mem_map.mp hkey
      obtain ⟨-, keys, past, r₀, hopen, hrow', hprog⟩ := hvisits t ht
      cases hrow'.symm.trans hrow
      obtain ⟨out, evs, hvisit⟩ :=
        (hprog.resume answer).exists_end (Sample.obliging .zero Sample.world)
      exact visit_status_stays hvisit (hopen (by simp)) hfinished
    · exact (Kept.resume hkept answer).2.frame key hkey (hinv.table.ne_zero hrow)
  exact (row_next_of_nil (e := ⟨c, answer⟩) hnil).trans hrow

/-- Every step leaves a finished row as it is. -/
theorem step_status_stays (hinv : s.Inv OpenBefore) {a : Action}
    (hstep : s.step config priceClient a = some s') (hrow : s.world.row key = some r)
    (hfinished : r.status.isFinished = true) : s'.world.row key = some r := by
  cases step_writes hstep with
  | added h =>
    rw [World.row, h]
    exact row_append hrow
  | silent hworld hsilent =>
    rw [hworld, row_after_of_nil (hsilent key)]
    exact hrow
  | @marked r' answer hr hnone hworld =>
    -- a row that is marked is one that no pipeline ever had
    have hne : r'.key ≠ key := by
      rintro rfl
      rw [hinv.unfinished r' hr hnone r hrow] at hfinished
      cases hfinished
    rw [hworld]
    refine Eq.trans (row_next_of_nil (w := s.world)
      (e := ⟨.update (.updateTransferState .failed) r'.key, answer⟩) ?_) hrow
    cases answer with
    | error err => rfl
    | ok a => simp [updatesOfEvent, hne]
  | called h => exact call_status_stays hinv h hrow hfinished

/-- **A finished status stays.** In a run in which no row is pushed that is finished at that time,
the status of a finished row does not change any more. -/
theorem finished_status_stays (hstart : s₀.Started)
    (hrun : System.Run config priceClient (PushesOnly StillOpen) s₀ s)
    (hrun' : System.Run config priceClient (PushesOnly StillOpen) s s')
    (hrow : s.world.row key = some r) (hfinished : r.status.isFinished = true) :
    ∃ r', s'.world.row key = some r' ∧ r'.status = r.status := by
  have hfresh : ∀ pl r r', StillOpen r r' → OpenBefore (newPipeline pl) (newIBCV2Transfer r) r' :=
    fun _ _ _ hopen _ => hopen
  have hinv : s.Inv OpenBefore := run_inv keeps_openBefore hfresh hstart.inv hrun
  suffices hstays : s'.Inv OpenBefore ∧ s'.world.row key = some r from ⟨r, hstays.2, rfl⟩
  -- the invariant and the row go through the second run together
  induction hrun' with
  | refl => exact ⟨hinv, hrow⟩
  | tail _ hstep ih =>
    obtain ⟨a, honly, hstep⟩ := hstep
    obtain ⟨hinv', hrow'⟩ := ih
    exact ⟨step_inv keeps_openBefore hfresh hinv' honly hstep,
      step_status_stays hinv' hstep hrow' hfinished⟩

end Finished

namespace Sample

/-- A pass that relays the packet and its ack. -/
def completePass : List Action :=
  let env := obliging .zero
  untilRecv env ++ work env 11 ++ work env 3 ++ work env 5 ++ work env 5 ++ work env 3
    ++ [.route 0 env none] ++ work env 10 ++ work env 3 ++ work env 2

/-- The status of the sample packet. -/
def hasStatus (status : Ibcv2RelayStatus) (s : System) : Bool :=
  (s.world.row Sample.row.key).any fun r => r.status = status

theorem hasStatus_spec {status : Ibcv2RelayStatus} {s : System} (h : hasStatus status s = true) :
    ∃ r, s.world.row Sample.row.key = some r ∧ r.status = status := by
  obtain ⟨r, hrow, hstatus⟩ := (Option.any_eq_true _ _).mp h
  exact ⟨r, hrow, of_decide_eq_true hstatus⟩

end Sample

/-- `finished_status_stays` after a pass that relays the packet and its ack. -/
theorem finished_status_stays_acked :
    ∃ s s', System.Run Sample.config false (PushesOnly StillOpen) Sample.idle s
      ∧ System.Run Sample.config false (PushesOnly StillOpen) s s'
      ∧ ∃ r r', s.world.row Sample.row.key = some r ∧ r.status = .completeWithAck
        ∧ s'.world.row Sample.row.key = some r' ∧ r'.status = r.status := by
  have hscript : (Sample.idle.script Sample.config false
      (Sample.pushes fun _ current => !current.status.isFinished)
      (Sample.polledTwice ++ Sample.completePass)).any (fun s =>
        Sample.hasStatus .completeWithAck s && (s.script Sample.config false
          (Sample.pushes fun _ current => !current.status.isFinished) [.watch 0]).isSome)
      = true := by decide +kernel
  have hpushes : ∀ s a, Sample.pushes (fun _ current => !current.status.isFinished) s a = true →
      PushesOnly StillOpen s a := Sample.pushesOnly fun r r' h => by simpa [StillOpen] using h
  obtain ⟨s, hs, h⟩ := (Option.any_eq_true _ _).mp hscript
  obtain ⟨hstatus, h⟩ := Bool.and_eq_true_iff.mp h
  obtain ⟨s', hs'⟩ := Option.isSome_iff_exists.mp h
  have hrun := System.run_of_script _ _ hpushes hs
  have hrun' := System.run_of_script _ _ hpushes hs'
  obtain ⟨r, hrow, hstatus⟩ := Sample.hasStatus_spec hstatus
  obtain ⟨r', hrow', heq⟩ :=
    finished_status_stays Sample.started hrun hrun' hrow (by rw [hstatus]; rfl)
  exact ⟨s, s', hrun, hrun', r, r', hrow, hstatus, hrow', heq⟩

/-- The packet is polled a second time while its first pass is going on. The pass relays it and its
ack, the key leaves the set, and the row of the second poll is pushed: the first stage saves its
state over the status of the complete transfer. -/
theorem outdated_row_reopened :
    ∃ s s', System.Run Sample.config false (fun _ _ => True) Sample.idle s
      ∧ System.Run Sample.config false (fun _ _ => True) s s'
      ∧ ∃ r r', s.world.row Sample.row.key = some r ∧ r.status = .completeWithAck
        ∧ s'.world.row Sample.row.key = some r' ∧ r'.status = .checkRecvPacketDelivery := by
  have hscript : (Sample.idle.script Sample.config false (fun _ _ => true)
      (Sample.polledTwice ++ Sample.completePass)).any (fun s =>
        Sample.hasStatus .completeWithAck s && (s.script Sample.config false (fun _ _ => true)
          [.watch 0, .submit (.ok ()), .start 0, .call 0 (Sample.obliging .zero)]).any
            (Sample.hasStatus .checkRecvPacketDelivery)) = true := by decide +kernel
  obtain ⟨s, hs, h⟩ := (Option.any_eq_true _ _).mp hscript
  obtain ⟨hstatus, h⟩ := Bool.and_eq_true_iff.mp h
  obtain ⟨s', hs', hstatus'⟩ := (Option.any_eq_true _ _).mp h
  obtain ⟨r, hrow, hstatus⟩ := Sample.hasStatus_spec hstatus
  obtain ⟨r', hrow', hstatus'⟩ := Sample.hasStatus_spec hstatus'
  exact ⟨s, s', System.run_of_script _ _ (fun _ _ _ => trivial) hs,
    System.run_of_script _ _ (fun _ _ _ => trivial) hs', r, r', hrow, hstatus, hrow', hstatus'⟩

end IbcRelayer
