import IbcRelayer.Spec.Processor

/-!
# IbcRelayer — what the batch processors do

The specification of `BatchPacket.process`, in the order of the method:

* `gather_eq` — the loop over the batch marks exactly the transfers whose hash has no bytes
  (`hashError`) and requests the others, and every requested hash is in the request;
* `record_ensures`, `execTx_ensures` — the transaction makes one statement on each transfer that
  was submitted, and nothing is written unless it commits;
* `batch_spec` — the whole method.
-/

namespace IbcRelayer

open CallTree Prog

/-! ## The request -/

/-- Why the bytes of a transfer's hash cannot be put into the request. -/
def BatchPacket.hashError (p : BatchPacket) (t : IBCV2Transfer) : Option GoError :=
  match p.txHash t with
  | .error err => some err
  | .ok hash =>
    match decodeString (trimHexMark hash) with
    | .error err =>
      some (err.wrap ("decoding hex " ++ p.txHashName ++ " tx hash " ++ hash ++ " to bytes"))
    | .ok _ => none

/-- A transfer after the loop. -/
def BatchPacket.mark (p : BatchPacket) (t : IBCV2Transfer) : IBCV2Transfer :=
  match p.hashError t with
  | none => t
  | some err => t.fail err

@[simp] theorem BatchPacket.mark_rowKey (p : BatchPacket) (t : IBCV2Transfer) :
    (p.mark t).rowKey = t.rowKey := by
  unfold BatchPacket.mark
  split <;> rfl

/-- The hashes of the set have bytes, which is why a hash is only looked up. -/
def Decodable (txSet : List String) : Prop :=
  ∀ hash ∈ txSet, ∃ bytes, decodeString (trimHexMark hash) = .ok bytes

/-- The loop, transfer by transfer. -/
theorem gather_eq (p : BatchPacket) {txSet : List String} (hset : Decodable txSet)
    (batch : List IBCV2Transfer) :
    (p.gather txSet batch).transfers = batch.map p.mark
      ∧ (p.gather txSet batch).requested = batch.filter (fun t => (p.hashError t).isNone) := by
  -- the set of known hashes grows along the batch; that all of them have bytes is what carries the
  -- induction
  induction batch generalizing txSet with
  | nil => exact ⟨rfl, rfl⟩
  | cons t rest ih =>
    unfold BatchPacket.gather
    cases hhash : p.txHash t with
    | error err =>
      obtain ⟨htransfers, hrequested⟩ := ih hset
      simp [Gathered.consFailed, BatchPacket.mark, BatchPacket.hashError, hhash, htransfers,
        hrequested]
    | ok hash =>
      -- a hash that was seen before is not decoded again
      by_cases hmem : hash ∈ txSet
      · obtain ⟨bytes, hbytes⟩ := hset hash hmem
        obtain ⟨htransfers, hrequested⟩ := ih hset
        simp [Gathered.consRequested, BatchPacket.mark, BatchPacket.hashError, hhash, hmem, hbytes,
          htransfers, hrequested]
      · cases hbytes : decodeString (trimHexMark hash) with
        | error err =>
          obtain ⟨htransfers, hrequested⟩ := ih hset
          simp [Gathered.consFailed, BatchPacket.mark, BatchPacket.hashError, hhash, hmem, hbytes,
            htransfers, hrequested]
        | ok bytes =>
          have hset' : Decodable (hash :: txSet) :=
            List.forall_mem_cons.mpr ⟨⟨bytes, hbytes⟩, hset⟩
          obtain ⟨htransfers, hrequested⟩ := ih hset'
          simp [Gathered.consRequested, BatchPacket.mark, BatchPacket.hashError, hhash, hmem,
            hbytes, htransfers, hrequested]

/-- The sequence numbers of the request are those of the requested transfers. -/
theorem gather_sequences (p : BatchPacket) (txSet : List String) (batch : List IBCV2Transfer) :
    (p.gather txSet batch).sequences
      = (p.gather txSet batch).requested.map IBCV2Transfer.sequence := by
  induction batch generalizing txSet with
  | nil => rfl
  | cons t rest ih =>
    unfold BatchPacket.gather
    split
    · exact ih txSet
    · split
      · simp [Gathered.consRequested, ih]
      · split
        · exact ih txSet
        · simp [Gathered.consRequested, ih]

/-- The bytes of every requested hash are in the request, unless they were before the loop. -/
theorem gather_txIDs (p : BatchPacket) {txSet : List String} (batch : List IBCV2Transfer)
    {t : IBCV2Transfer} (ht : t ∈ (p.gather txSet batch).requested) :
    ∃ hash, p.txHash t = .ok hash ∧ (hash ∈ txSet ∨
      ∃ bytes, decodeString (trimHexMark hash) = .ok bytes
        ∧ bytes ∈ (p.gather txSet batch).txIDs) := by
  induction batch generalizing txSet with
  | nil => simp [BatchPacket.gather] at ht
  | cons u rest ih =>
    unfold BatchPacket.gather at ht ⊢
    cases hhash : p.txHash u with
    | error err =>
      rw [hhash] at ht
      exact ih ht
    | ok hash =>
      rw [hhash] at ht
      by_cases hmem : hash ∈ txSet
      · simp only [hmem, if_true, Gathered.consRequested] at ht ⊢
        rcases List.mem_cons.mp ht with rfl | ht
        · exact ⟨hash, hhash, Or.inl hmem⟩
        · exact ih ht
      · cases hbytes : decodeString (trimHexMark hash) with
        | error err =>
          simp only [hmem, if_false, hbytes, Gathered.consFailed] at ht ⊢
          exact ih ht
        | ok bytes =>
          simp only [hmem, if_false, hbytes, Gathered.consRequested] at ht ⊢
          rcases List.mem_cons.mp ht with rfl | ht
          · exact ⟨hash, hhash, Or.inr ⟨bytes, hbytes, List.mem_cons_self⟩⟩
          · obtain ⟨hash', hhash', hcase⟩ := ih ht
            refine ⟨hash', hhash', ?_⟩
            -- `txIDs` of the rest of the loop was gathered with `hash` in the set
            rcases hcase with hmem' | ⟨bytes', hbytes', hin⟩
            · rcases List.mem_cons.mp hmem' with rfl | hmem'
              · exact Or.inr ⟨bytes, hbytes, List.mem_cons_self⟩
              · exact Or.inl hmem'
            · exact Or.inr ⟨bytes', hbytes', List.mem_cons_of_mem _ hin⟩

/-! ## The transaction -/

/-- The body of a transaction, started after the statements `stmts`: it makes silent calls, and
when it succeeds the statements it leaves satisfy `P`. -/
def TxEnsures {α : Type} (x : Tx α) (stmts : List TxStmt) (P : List TxStmt → Prop) : Prop :=
  (x.run stmts).run.Ensures fun r evs =>
    (∀ e ∈ evs, e.call.isSilent = true) ∧ ∀ a stmts', r = .ok (a, stmts') → P stmts'

section TxRules

variable {α β : Type} {stmts : List TxStmt} {P Q : List TxStmt → Prop}

/-- A body that ends leaves the statements that were made. -/
theorem TxEnsures.pure {a : α} (h : P stmts) : TxEnsures (Pure.pure a) stmts P := by
  refine ⟨by simp, ?_⟩
  rintro a stmts' ⟨⟩
  exact h

/-- A body that fails promises nothing about its statements: they are rolled back. -/
theorem TxEnsures.throw {err : GoError} :
    TxEnsures (MonadExcept.throw err : Tx α) stmts P :=
  ⟨by simp, by rintro a stmts' ⟨⟩⟩

/-- A statement is kept for the commit once the database has taken it. -/
theorem TxEnsures.exec {stmt : TxStmt} (h : P (stmts ++ [stmt])) :
    TxEnsures (Tx.exec stmt) stmts P := by
  rintro (err | a)
  · exact ⟨by simp [Call.isSilent, Call.isQuery], by rintro a stmts' ⟨⟩⟩
  · refine ⟨by simp [Call.isSilent, Call.isQuery], ?_⟩
    rintro a stmts' ⟨⟩
    exact h

/-- So is the insert of a submission, which also returns an id. -/
theorem TxEnsures.insertSubmission {params : InsertSubmissionParams}
    (h : P (stmts ++ [.insertIBCV2RelayerTxSubmission params])) :
    TxEnsures (Tx.insertSubmission params) stmts P := by
  rintro (err | a)
  · exact ⟨by simp [Call.isSilent, Call.isQuery], by rintro a stmts' ⟨⟩⟩
  · refine ⟨by simp [Call.isSilent, Call.isQuery], ?_⟩
    rintro a stmts' ⟨⟩
    exact h

/-- Only the text of an error changes. -/
theorem TxEnsures.wrapErr {msg : String} {x : Tx α} (h : TxEnsures x stmts P) :
    TxEnsures (Tx.wrapErr msg x) stmts P := by
  change (IbcRelayer.wrapErr msg (x.run stmts)).run.Ensures _
  rw [ensures_wrapErr]
  refine h.mono ?_
  rintro (err | a) evs ⟨hsilent, hP⟩
  · exact ⟨hsilent, by rintro a stmts' ⟨⟩⟩
  · exact ⟨hsilent, hP⟩

/-- Two parts of a body, the second started after the statements of the first. -/
theorem TxEnsures.bind {x : Tx α} {f : α → Tx β} (hx : TxEnsures x stmts Q)
    (hf : ∀ a stmts', Q stmts' → TxEnsures (f a) stmts' P) : TxEnsures (x >>= f) stmts P := by
  change (x.run stmts >>= fun r => (f r.1).run r.2).run.Ensures _
  rw [ensures_except_bind]
  refine hx.mono ?_
  rintro (err | ⟨a, stmts'⟩) evs ⟨hsilent, hQ⟩
  · exact ⟨hsilent, by rintro a stmts' ⟨⟩⟩
  · refine (hf a stmts' (hQ a stmts' rfl)).mono fun r evs' h => ?_
    refine ⟨fun e he => ?_, h.2⟩
    rcases List.mem_append.mp he with he | he
    · exact h.1 e he
    · exact hsilent e he

end TxRules

/-- The loop of the transaction makes one statement for each transfer, in the order of the batch. -/
theorem updateTxs_ensures (p : BatchPacket) (tx : BridgeTx) (submitted : List IBCV2Transfer)
    (stmts : List TxStmt) :
    TxEnsures (p.updateTxs tx submitted) stmts fun stmts' =>
      stmts' = stmts ++ submitted.map fun t => .update (p.updateTx tx) t.rowKey := by
  induction submitted generalizing stmts with
  | nil => exact TxEnsures.pure (by simp)
  | cons t rest ih =>
    refine TxEnsures.bind (TxEnsures.wrapErr (TxEnsures.exec rfl)) ?_
    rintro _ stmts' rfl
    refine (ih _).mono fun r evs h => ⟨h.1, fun a stmts' hr => ?_⟩
    rw [h.2 a stmts' hr]
    simp

/-- The mappings write to no transfer. -/
theorem insertMappings_ensures (submissionID : Int32) (submitted : List IBCV2Transfer)
    (stmts : List TxStmt) :
    TxEnsures (insertTransferTxSubmissionMappings submissionID submitted) stmts fun stmts' =>
      ∀ key, stmts'.flatMap (TxStmt.updates key) = stmts.flatMap (TxStmt.updates key) := by
  induction submitted generalizing stmts with
  | nil => exact TxEnsures.pure fun _ => rfl
  | cons t rest ih =>
    unfold insertTransferTxSubmissionMappings
    -- a transfer that has no id in the database fails the whole transaction
    split
    · exact TxEnsures.bind (Q := fun _ => False) TxEnsures.throw fun _ _ h => h.elim
    · refine TxEnsures.bind (TxEnsures.wrapErr (TxEnsures.exec rfl)) ?_
      rintro _ stmts' rfl
      refine (ih _).mono fun r evs h => ⟨h.1, fun a stmts' hr key => ?_⟩
      rw [h.2 a stmts' hr key]
      simp [TxStmt.updates]

/-- What the transaction of a batch does to the row `key`. -/
theorem record_ensures (p : BatchPacket) (tx : BridgeTx) (submitted : List IBCV2Transfer) :
    TxEnsures (p.record tx submitted) [] fun stmts =>
      ∀ key, stmts.flatMap (TxStmt.updates key)
        = submitted.flatMap fun t => if t.rowKey = key then [p.updateTx tx] else [] := by
  have hupdates : ∀ key,
      (submitted.map fun t => TxStmt.update (p.updateTx tx) t.rowKey).flatMap
          (TxStmt.updates key)
        = submitted.flatMap fun t => if t.rowKey = key then [p.updateTx tx] else [] := by
    intro key
    rw [List.flatMap_map]
    rfl
  refine TxEnsures.bind (updateTxs_ensures p tx submitted []) ?_
  rintro _ stmts rfl
  rw [List.nil_append]
  -- without a transfer there is no submission to insert
  split
  · exact TxEnsures.pure hupdates
  · refine TxEnsures.bind (TxEnsures.wrapErr (TxEnsures.insertSubmission rfl)) ?_
    rintro submissionID stmts rfl
    refine TxEnsures.wrapErr ?_
    refine (insertMappings_ensures submissionID submitted _).mono fun r evs h =>
      ⟨h.1, fun a stmts hr key => ?_⟩
    rw [h.2 a stmts hr key, List.flatMap_append, hupdates key]
    simp [TxStmt.updates]

/-- A transaction is committed with the statements of its body, or writes nothing. -/
theorem execTx_ensures {body : Tx Unit} {P : List TxStmt → Prop} (h : TxEnsures body [] P) :
    (execTx body).run.Ensures fun r evs =>
      (∃ stmts past, P stmts ∧ (∀ e ∈ past, e.call.isSilent = true)
        ∧ evs = ⟨.txCommit stmts, r⟩ :: past)
      ∨ (∃ err, r = .error err) ∧ ∀ e ∈ evs, e.call.isSilent = true := by
  rintro (err | a)
  · exact Or.inr ⟨⟨err, rfl⟩, by simp [Call.isSilent, Call.isQuery]⟩
  · change ((body.run []).run >>= _).Ensures _
    rw [ensures_bind]
    refine h.mono ?_
    rintro r past ⟨hpast, hP⟩
    have hbegin : ∀ e ∈ past ++ [(⟨.txBegin, .ok a⟩ : Event)], e.call.isSilent = true :=
      List.forall_mem_append.mpr ⟨hpast, by simp [Call.isSilent, Call.isQuery]⟩
    -- a failed body is rolled back, and a rollback that fails only adds to the error
    rcases r with err | ⟨_, stmts⟩
    · have hrollback : ∀ r, ∀ e ∈ (⟨.txRollback, r⟩ : Event) :: (past ++ [⟨.txBegin, .ok a⟩]),
          e.call.isSilent = true := by
        intro r e he
        rcases List.mem_cons.mp he with rfl | he
        · rfl
        · exact hbegin e he
      rintro (rollback | _)
      · exact Or.inr ⟨⟨_, rfl⟩, hrollback (.error rollback)⟩
      · exact Or.inr ⟨⟨_, rfl⟩, hrollback (.ok ())⟩
    · intro r
      exact Or.inl ⟨stmts, past ++ [⟨.txBegin, .ok a⟩], hP _ _ rfl, hbegin, by simp⟩

/-- The transaction that ends the work of a method. -/
theorem Runs.transaction {ρ : Type} {A : Event → Prop} {key : RowKey} {past : List Event}
    {Ok : ρ → List Event → Prop} {msg : String} {body : Tx Unit} {P : List TxStmt → Prop}
    {result : ρ} (hbody : TxEnsures body [] P) (hsilent : ∀ e, e.call.isSilent = true → A e)
    (hcommit : ∀ stmts r, P stmts → A ⟨.txCommit stmts, r⟩)
    (hok : ∀ stmts evs, P stmts → updatesOf key evs = stmts.flatMap (TxStmt.updates key) →
      Ok result evs) :
    Runs A key [] past (wrapErr msg (execTx body) >>= fun _ => Pure.pure result) Ok := by
  intro hpast
  have hallowed : ∀ evs : List Event, (∀ e ∈ evs, e.call.isSilent = true) →
      ∀ e ∈ evs ++ past, Past A e := by
    intro evs hevs e he
    rcases List.mem_append.mp he with he | he
    · exact ⟨hsilent e (hevs e he), updatesOfEvent_silent (hevs e he)⟩
    · exact hpast e he
  rw [ensures_except_bind, ensures_wrapErr]
  refine (execTx_ensures hbody).mono ?_
  rintro r evs (⟨stmts, pre, hP, hpre, rfl⟩ | ⟨⟨err, rfl⟩, hevs⟩)
  · -- the commit was made; its answer decides
    have hA : ∀ e ∈ (⟨.txCommit stmts, r⟩ : Event) :: (pre ++ past), A e :=
      List.forall_mem_cons.mpr ⟨hcommit stmts r hP, fun e he => (hallowed pre hpre e he).allowed⟩
    have hpre' : updatesOf key (pre ++ past) = [] := updatesOf_past (hallowed pre hpre) key
    have horderly : Orderly ((⟨.txCommit stmts, r⟩ : Event) :: (pre ++ past)) :=
      (orderly_past (hallowed pre hpre)).append (E := [⟨.txCommit stmts, r⟩])
        (by simp [Call.submission])
    rcases r with err | a
    · refine ⟨hA, horderly, by simp, Or.inl ?_⟩
      change updatesOf key (pre ++ past) ++ [] = []
      rw [hpre', List.append_nil]
    · refine ⟨hA, horderly, hok stmts _ hP ?_⟩
      change updatesOf key (pre ++ past) ++ stmts.flatMap (TxStmt.updates key) = _
      rw [hpre', List.nil_append]
  -- without a commit nothing is on the row
  · exact ⟨fun e he => (hallowed evs hevs e he).allowed, orderly_past (hallowed evs hevs), by simp,
      Or.inl (updatesOf_past (hallowed evs hevs) key)⟩

/-! ## The method -/

/-- The events of a batch: what is submitted is the request of the loop, and only rows of the batch
are written. -/
structure BatchAllowed (p : BatchPacket) (batch : List IBCV2Transfer) (e : Event) : Prop
    extends Quiet e where
  submission : ∀ s, e.call.submission = some s → s = p.submission (p.gather [] batch)
  request : ∀ req s, e.call = .relayByTx req s →
    req = p.request (p.gather [] batch).txIDs (p.gather [] batch).sequences
  query : e.call.isQuery = false
  frame : ∀ k, k ∉ batch.map (·.rowKey) → updatesOfEvent k e = []

/-- The calls between the request, the delivery and the commit. -/
theorem batchAllowed_silent (p : BatchPacket) (batch : List IBCV2Transfer) {e : Event}
    (h : e.call.isSilent = true) : BatchAllowed p batch e where
  toQuiet := quiet_silent h
  submission s hs := by
    rw [submission_silent h] at hs
    cases hs
  request req s hc := by
    rw [hc] at h
    cases h
  query := query_silent h
  frame k _ := updatesOfEvent_silent h k

/-- The transfers that the tx is recorded for. -/
def BatchPacket.submitted (p : BatchPacket) (batch : List IBCV2Transfer) : List IBCV2Transfer :=
  (batch.map p.mark).filter (·.processingError.isNone)

/-- The result of a batch, with what was written to the row `key`. -/
def BatchOk (p : BatchPacket) (batch : List IBCV2Transfer) (key : RowKey)
    (out : List IBCV2Transfer) (evs : List Event) : Prop :=
  ∃ tx, out = p.setTxs tx (batch.map p.mark)
    ∧ updatesOf key evs
      = (p.submitted batch).flatMap fun t => if t.rowKey = key then [p.updateTx tx] else []

/-- The end of the method. The tx is delivered for the transfers of the request, and the transaction
writes to the rows of those that have no error. -/
theorem deliver_runs (p : BatchPacket) (batch : List IBCV2Transfer) (key : RowKey)
    (resp : RelayByTxResponse) (past : List Event) :
    Runs (BatchAllowed p batch) key [] past (p.deliver (p.gather [] batch) resp)
      (BatchOk p batch key) := by
  have htransfers : (p.gather [] batch).transfers = batch.map p.mark :=
    (gather_eq p (by simp [Decodable]) batch).1
  refine Runs.ask (E := fun r => ⟨.deliverTx _ _ _ _, r⟩) (fun _ => rfl) (fun r => ?_) fun tx => ?_
  · refine ⟨⟨⟨by simp, by simp, by simp⟩, ?_, by simp, rfl, fun _ _ => rfl⟩, fun _ => rfl⟩
    rintro s ⟨⟩
    rfl
  · rw [htransfers]
    refine Runs.transaction (record_ensures p tx _) (fun e => batchAllowed_silent p batch) ?_ ?_
    · intro stmts r hstmts
      refine ⟨⟨by simp, by simp, by simp⟩, by simp [Call.submission], by simp, rfl,
        fun k hk => ?_⟩
      cases r with
      | error err => rfl
      | ok a =>
        change stmts.flatMap (TxStmt.updates k) = []
        rw [hstmts k, List.flatMap_eq_nil_iff]
        intro t ht
        obtain ⟨u, hu, rfl⟩ := List.mem_map.mp (List.mem_filter.mp ht).1
        -- a row that is written belongs to a transfer of the batch
        have hne : (p.mark u).rowKey ≠ k := by
          rintro rfl
          exact hk (by simpa using List.mem_map_of_mem (f := (·.rowKey)) hu)
        rw [if_neg hne]
    · intro stmts evs hstmts hus
      exact ⟨tx, rfl, hus.trans (hstmts key)⟩

/-- The whole method, with what it does to the row `key`: the request is that of the loop, and it is
either recorded in one transaction or nothing is written at all. -/
theorem batch_spec (p : BatchPacket) (batch : List IBCV2Transfer) (key : RowKey) :
    (p.process batch).run.Ensures
      (Outcome (BatchAllowed p batch) key [] (BatchOk p batch key)) := by
  refine Runs.ensures ?_
  have hsilent : ∀ e : Event, e.call.isSilent = true → Past (BatchAllowed p batch) e :=
    fun e h => ⟨batchAllowed_silent p batch h, updatesOfEvent_silent h⟩
  refine Runs.ask (E := fun r => ⟨.relayByTx _ _, r⟩) (fun _ => rfl) (fun r => ?_) fun resp => ?_
  · refine ⟨⟨⟨by simp, by simp, by simp⟩, ?_, ?_, rfl, fun _ _ => rfl⟩, fun _ => rfl⟩
    · rintro s ⟨⟩
      rfl
    · rintro req s ⟨⟩
      rfl
  · refine Runs.ask (E := fun r => ⟨.getClient _, r⟩) (fun _ => rfl) (fun _ => hsilent _ rfl) ?_
    intro _
    refine Runs.look (E := fun r => ⟨.chainType _, r⟩) (fun _ => rfl) (fun _ => hsilent _ rfl) ?_
    intro chainType
    dsimp only
    split
    · refine Runs.ask (E := fun r => ⟨.waitForChain _, r⟩) (fun _ => rfl)
        (fun _ => hsilent _ rfl) fun _ => ?_
      exact deliver_runs p batch key resp _
    · exact deliver_runs p batch key resp _

/-! ### A batch is delivered once -/

/-- The number of deliveries among the events is at most `n`. -/
def DeliversAtMost (n : Nat) (evs : List Event) : Prop := evs.countP (·.call.isDelivery) ≤ n

/-- Before the only delivery there is none. -/
theorem DeliversAtMost.first {post pre : List Event} {e : Event}
    (h : DeliversAtMost 1 (post ++ e :: pre)) (he : e.call.isDelivery = true) :
    ∀ e' ∈ pre, e'.call.isDelivery = false := by
  have hzero : pre.countP (·.call.isDelivery) = 0 := by
    rw [DeliversAtMost, List.countP_append, List.countP_cons, if_pos he] at h
    omega
  simpa using List.countP_eq_zero.mp hzero

theorem deliversAtMost_zero {evs : List Event} (h : ∀ e ∈ evs, e.call.isDelivery = false) :
    DeliversAtMost 0 evs := by
  refine Nat.le_of_eq (List.countP_eq_zero.mpr fun e he => ?_)
  simp [h e he]

/-- The deliveries of two parts add up. -/
theorem deliversAtMost_bind {α β : Type} {x : ExceptT GoError Eff α} {f : α → ExceptT GoError Eff β}
    {m n : Nat} (hx : x.run.Ensures fun _ evs => DeliversAtMost m evs)
    (hf : ∀ a, (f a).run.Ensures fun _ evs => DeliversAtMost n evs) :
    (x >>= f).run.Ensures fun _ evs => DeliversAtMost (n + m) evs := by
  rw [ensures_except_bind]
  refine hx.mono ?_
  rintro (err | a) evs hevs
  · exact Nat.le_add_left_of_le hevs
  · refine (hf a).mono fun _ evs' hevs' => ?_
    rw [DeliversAtMost, List.countP_append]
    exact Nat.add_le_add hevs' hevs

/-- Wrapping an error makes no call. -/
theorem deliversAtMost_wrapErr {α : Type} {msg : String} {x : ExceptT GoError Eff α} {n : Nat}
    (hx : x.run.Ensures fun _ evs => DeliversAtMost n evs) :
    (wrapErr msg x).run.Ensures fun _ evs => DeliversAtMost n evs := by
  rw [ensures_wrapErr]
  refine hx.mono ?_
  rintro (err | a) evs hevs <;> exact hevs

/-- The end of the method delivers once; recording the tx delivers nothing, not even when the
transaction fails. -/
theorem deliver_once (p : BatchPacket) (g : Gathered) (resp : RelayByTxResponse) :
    (p.deliver g resp).run.Ensures fun _ evs => DeliversAtMost 1 evs := by
  have hsilent : ∀ evs : List Event, (∀ e ∈ evs, e.call.isSilent = true) → DeliversAtMost 0 evs :=
    fun evs h => deliversAtMost_zero fun e he => Call.not_delivery (submission_silent (h e he))
  refine deliversAtMost_bind (m := 1) (n := 0) (deliversAtMost_wrapErr fun r => ?_) fun tx => ?_
  · exact Nat.le_refl 1
  · refine deliversAtMost_bind (m := 0) (n := 0) (deliversAtMost_wrapErr ?_) fun _ => Nat.le_refl 0
    refine (execTx_ensures (record_ensures p tx _)).mono ?_
    rintro r evs (⟨stmts, past, -, hpast, rfl⟩ | ⟨-, hevs⟩)
    · exact hsilent past hpast
    · exact hsilent evs hevs

/-- A batch is delivered at most once, whatever its answers are: no error is answered by another
attempt within the method. -/
theorem batch_delivers_once (p : BatchPacket) (batch : List IBCV2Transfer) :
    (p.process batch).run.Ensures fun _ evs => DeliversAtMost 1 evs := by
  -- the other calls of the method are none of them a delivery
  have hcall : ∀ {α : Type} {c : Call} (k : c.Answer → Except GoError α), c.isDelivery = false →
      (Prog.call c fun r => .done (k r) : Eff (Except GoError α)).Ensures fun _ evs =>
        DeliversAtMost 0 evs := by
    intro α c k hc r
    exact deliversAtMost_zero (by simpa using hc)
  refine deliversAtMost_bind (m := 0) (n := 1) (deliversAtMost_wrapErr (hcall _ rfl)) fun resp => ?_
  refine deliversAtMost_bind (m := 0) (n := 1) (deliversAtMost_wrapErr (hcall _ rfl)) fun _ => ?_
  refine deliversAtMost_bind (m := 0) (n := 1) (hcall _ rfl) fun chainType => ?_
  split
  · refine deliversAtMost_bind (m := 0) (n := 1) (deliversAtMost_wrapErr (hcall _ rfl)) fun _ => ?_
    exact deliver_once p _ resp
  · exact deliver_once p _ resp

/-- The first call of every batch is its request. -/
theorem batch_requests (p : BatchPacket) (batch : List IBCV2Transfer) :
    (p.process batch).run.Ensures fun _ evs => ∃ later r, evs = later ++ [⟨.relayByTx
      (p.request (p.gather [] batch).txIDs (p.gather [] batch).sequences)
      (p.submission (p.gather [] batch)), r⟩] := by
  intro r
  exact (ensures_true _).mono fun _ evs _ => ⟨evs, r, rfl⟩

end IbcRelayer
