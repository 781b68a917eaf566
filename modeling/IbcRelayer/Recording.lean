import Mathlib.Data.List.Nodup
import IbcRelayer.Spec.Batch
import IbcRelayer.Submissions

/-!
# IbcRelayer — what a batch requests and what it records

The transfers of a batch that have no error after the first loop of `Process` are the ones the tx is
for. They are looked up four times: for the request, for the rows, for the mappings and for the
copies.

* `gather_hashes` — the tx ids of the request are those of the hashes, each once, in the order in
  which they first occur;
* `Stages` — what the body of a transaction does to the copy of the tables that it works on;
* `Records` — what a method does to the tables: an error leaves them as they were;
* `process_records` — the batch processors.
-/

namespace IbcRelayer

open CallTree Prog

/-- The bytes of a hash. -/
def hashBytes (hash : String) : Except GoError (List UInt8) := decodeString (trimHexMark hash)

/-- The transfers that have no error after the first loop. -/
def BatchPacket.survivors (p : BatchPacket) (batch : List IBCV2Transfer) : List IBCV2Transfer :=
  (p.gather [] batch).transfers.filter (·.processingError.isNone)

/-- A transfer survives the first loop if it had no error before, and its hash gives none. -/
theorem survivors_eq (p : BatchPacket) (batch : List IBCV2Transfer) :
    p.survivors batch
      = batch.filter fun t => t.processingError.isNone && (p.hashError t).isNone := by
  rw [BatchPacket.survivors, (gather_eq p (by simp [Decodable]) batch).1, List.filter_map]
  induction batch with
  | nil => rfl
  | cons t rest ih =>
    rw [List.filter_cons, List.filter_cons]
    have hmark : ((p.mark t).processingError.isNone)
        = (t.processingError.isNone && (p.hashError t).isNone) := by
      unfold BatchPacket.mark
      cases p.hashError t with
      | none => simp
      | some err => simp [IBCV2Transfer.fail]
    -- `mark` changes only the transfers that the filter drops
    by_cases h : (p.mark t).processingError.isNone = true
    · have herr : (p.hashError t).isNone = true := by
        rw [hmark, Bool.and_eq_true] at h
        exact h.2
      have hsame : p.mark t = t := by
        rw [BatchPacket.mark, Option.isNone_iff_eq_none.mp herr]
      rw [Function.comp_apply, if_pos h, ← hmark, if_pos h, List.map_cons, hsame, ih]
    · rw [Function.comp_apply, if_neg h, ← hmark, if_neg h, ih]

/-- A body that succeeds turns the copy `T` of the tables into one that satisfies `P`, and the
tables themselves stay as they are. -/
def Stages {α : Type} (x : Tx α) (P : α → Tables → Tables → Prop) : Prop :=
  ∀ stmts, (x.run stmts).run.Ensures fun r evs => ∀ (s : Store) T, s.working = some T →
    (s.after evs).tables = s.tables
      ∧ ∀ a stmts', r = .ok (a, stmts') → ∃ T', (s.after evs).working = some T' ∧ P a T T'

section Stages

variable {α β : Type} {P : α → Tables → Tables → Prop} {Q : β → Tables → Tables → Prop}

theorem Stages.pure {a : α} (h : ∀ T, P a T T) : Stages (Pure.pure a) P := by
  intro stmts s T hT
  refine ⟨rfl, ?_⟩
  rintro a stmts' ⟨⟩
  exact ⟨T, hT, h T⟩

/-- A statement works on the copy of the tables. -/
theorem Stages.exec (stmt : TxStmt) :
    Stages (Tx.exec stmt) fun _ T T' => T' = T.exec stmt := by
  rintro stmts (err | a) s T hT
  · exact ⟨rfl, by rintro a stmts' ⟨⟩⟩
  · refine ⟨rfl, ?_⟩
    rintro a stmts' ⟨⟩
    exact ⟨T.exec stmt, congrArg (Option.map _) hT, rfl⟩

/-- The id of the new submission is what the database answers. -/
theorem Stages.insertSubmission (params : InsertSubmissionParams) :
    Stages (Tx.insertSubmission params) fun id T T' => T' = T.insertSubmission params id := by
  rintro stmts (err | id) s T hT
  · exact ⟨rfl, by rintro a stmts' ⟨⟩⟩
  · refine ⟨rfl, ?_⟩
    rintro a stmts' ⟨⟩
    exact ⟨T.insertSubmission params id, congrArg (Option.map _) hT, rfl⟩

/-- Wrapping the error changes nothing of what a success means. -/
theorem Stages.wrapErr {msg : String} {x : Tx α} (h : Stages x P) :
    Stages (Tx.wrapErr msg x) P := by
  intro stmts
  change (IbcRelayer.wrapErr msg (x.run stmts)).run.Ensures _
  rw [ensures_wrapErr]
  refine (h stmts).mono ?_
  rintro (err | a) evs hevs s T hT
  · exact ⟨(hevs s T hT).1, by rintro a stmts' ⟨⟩⟩
  · exact hevs s T hT

/-- The second part starts with the copy that the first one has left. -/
theorem Stages.bind {x : Tx α} {f : α → Tx β} (hx : Stages x P)
    (hf : ∀ a, Stages (f a) fun b T₁ T₂ => ∀ T₀, P a T₀ T₁ → Q b T₀ T₂) :
    Stages (x >>= f) Q := by
  intro stmts
  change (x.run stmts >>= fun r => (f r.1).run r.2).run.Ensures _
  rw [ensures_except_bind]
  refine (hx stmts).mono ?_
  rintro (err | ⟨a, stmts₁⟩) evs hevs
  · intro s T hT
    exact ⟨(hevs s T hT).1, by rintro a stmts' ⟨⟩⟩
  · refine (hf a stmts₁).mono fun r evs' hevs' s T hT => ?_
    obtain ⟨htables, hok⟩ := hevs s T hT
    obtain ⟨T₁, hT₁, hP⟩ := hok a stmts₁ rfl
    obtain ⟨htables', hok'⟩ := hevs' (s.after evs) T₁ hT₁
    -- the tables do not change in either part; the copy goes through `T₁`
    rw [Store.after_append]
    refine ⟨htables'.trans htables, fun b stmts' hr => ?_⟩
    obtain ⟨T₂, hT₂, hQ⟩ := hok' b stmts' hr
    exact ⟨T₂, hT₂, hQ T hP⟩

theorem Stages.mono {x : Tx α} {P' : α → Tables → Tables → Prop} (hx : Stages x P)
    (h : ∀ a T T', P a T T' → P' a T T') : Stages x P' := by
  intro stmts
  refine (hx stmts).mono fun r evs hevs s T hT => ⟨(hevs s T hT).1, fun a stmts' hr => ?_⟩
  obtain ⟨T', hT', hP⟩ := (hevs s T hT).2 a stmts' hr
  exact ⟨T', hT', h a T T' hP⟩

end Stages

/-- The rows after the tx was recorded on those of `submitted`. -/
def BatchPacket.updateRows (p : BatchPacket) (tx : BridgeTx) (submitted : List IBCV2Transfer)
    (rows : List Ibcv2Transfer) : List Ibcv2Transfer :=
  submitted.foldl (fun rows t => updateWhere (p.updateTx tx) t.rowKey rows) rows

/-- The submission that is recorded for a tx. -/
def BatchPacket.submissionParams (p : BatchPacket) (tx : BridgeTx) : InsertSubmissionParams where
  txHash := tx.hash
  chainID := p.chainID
  txType := p.txType
  relayerAddress := tx.relayerAddress
  submittedAt := tx.timestamp

/-- What the transaction makes of the tables: the tx is on the rows of `submitted`, and there is one
more submission, mapped to these transfers, unless there are none. -/
structure Recorded (p : BatchPacket) (tx : BridgeTx) (submitted : List IBCV2Transfer)
    (T T' : Tables) : Prop where
  transfers : T'.transfers = p.updateRows tx submitted T.transfers
  nobody : submitted = [] → T'.submissions = T.submissions ∧ T'.mappings = T.mappings
  submission : submitted ≠ [] → ∃ id,
    T'.submissions = T.submissions ++ [(p.submissionParams tx).toRow id]
      ∧ ∀ m, m ∈ T'.mappings ↔ m ∈ T.mappings ∨ ∃ t ∈ submitted, m = (t.id, id)

/-- What a method does to the tables: nothing if it returns an error. -/
def Records {ρ : Type} (x : ExceptT GoError Eff ρ) (Q : ρ → List Event → Tables → Tables → Prop) :
    Prop :=
  x.run.Ensures fun r evs => ∀ s : Store,
    match r with
    | .ok a => Q a evs s.tables (s.after evs).tables
    | .error _ => (s.after evs).tables = s.tables

/-- The calls that are made to something else than the database. -/
def Call.isForeign : Call → Bool
  | .update .. | .txBegin | .txExec _ | .txInsertSubmission _ | .txRollback | .txCommit _ => false
  | _ => true

/-- A call to something else than the database leaves the tables as they are. -/
theorem Store.next_foreign (s : Store) {e : Event} (h : e.call.isForeign = true) :
    (s.next e.call e.answer).tables = s.tables := by
  obtain ⟨c, r⟩ := e
  cases c <;> first | rfl | cases h

section Records

variable {α ρ : Type} {Q : ρ → List Event → Tables → Tables → Prop}

/-- A call that may fail, its error being wrapped and returned. -/
theorem Records.ask {msg : String} {x : ExceptT GoError Eff α} {E : Except GoError α → Event}
    {f : α → ExceptT GoError Eff ρ} (hx : x.run.Ensures fun r evs => evs = [E r])
    (hE : ∀ r, (E r).call.isForeign = true)
    (hf : ∀ a, Records (f a) fun b evs => Q b (evs ++ [E (.ok a)])) :
    Records (wrapErr msg x >>= f) Q := by
  unfold Records
  rw [ensures_except_bind, ensures_wrapErr]
  refine hx.mono ?_
  rintro (err | a) evs rfl
  · exact fun s => s.next_foreign (hE _)
  · refine (hf a).mono fun r evs hevs s => ?_
    have hs := hevs (s.next (E (.ok a)).call (E (.ok a)).answer)
    rw [s.next_foreign (hE _)] at hs
    rw [Store.after_append]
    exact hs

/-- A call whose answer the method looks at itself. -/
theorem Records.look {p : Eff α} {E : α → Event} {f : α → ExceptT GoError Eff ρ}
    (hp : p.Ensures fun a evs => evs = [E a]) (hE : ∀ a, (E a).call.isForeign = true)
    (hf : ∀ a, Records (f a) fun b evs => Q b (evs ++ [E a])) :
    Records ((liftM p : ExceptT GoError Eff α) >>= f) Q := by
  unfold Records
  rw [ensures_except_bind, ensures_except_lift]
  refine hp.mono ?_
  rintro a evs rfl
  refine (hf a).mono fun r evs hevs s => ?_
  have hs := hevs (s.next (E a).call (E a).answer)
  rw [s.next_foreign (hE _)] at hs
  rw [Store.after_append]
  exact hs

/-- The transaction that ends the work of a method. -/
theorem Records.transaction {msg : String} {body : Tx Unit} {P : Unit → Tables → Tables → Prop}
    {result : ρ} (hbody : Stages body P) (hQ : ∀ evs T T', P () T T' → Q result evs T T') :
    Records (wrapErr msg (execTx body) >>= fun _ => Pure.pure result) Q := by
  unfold Records
  rw [ensures_except_bind, ensures_wrapErr]
  rintro (err | a)
  · exact fun s => rfl
  · change ((body.run []).run >>= _).Ensures _
    rw [ensures_bind]
    refine (hbody []).mono ?_
    intro r past hpast
    -- the transaction is open, and works on a copy of the tables
    have hopen : ∀ s : Store, ((s.next .txBegin (.ok a)).after past).tables = s.tables
        ∧ ∀ b stmts, r = .ok (b, stmts) →
          ∃ T', ((s.next .txBegin (.ok a)).after past).working = some T' ∧ P b s.tables T' :=
      fun s => hpast (s.next .txBegin (.ok a)) s.tables rfl
    -- the body has failed and is rolled back, or it is committed, which may fail
    rcases r with err | ⟨b, stmts⟩
    · rintro (rollback | _) s <;>
      · simp only [List.append_assoc, Store.after_append]
        exact (hopen s).1
    · rintro (err | _) s
      · simp only [List.append_assoc, Store.after_append]
        exact (hopen s).1
      · simp only [List.append_assoc, Store.after_append]
        obtain ⟨T', hT', hP⟩ := (hopen s).2 b stmts rfl
        have hcommit :
            (((s.next .txBegin (.ok a)).after past).next (.txCommit stmts) (.ok ())).tables
            = T' := by
          change Option.getD ((s.next .txBegin (.ok a)).after past).working _ = T'
          rw [hT']
          rfl
        refine hQ _ _ _ ?_
        change P () s.tables
          (((s.next .txBegin (.ok a)).after past).next (.txCommit stmts) (.ok ())).tables
        rw [hcommit]
        exact hP

end Records

/-- The end of a batch that was recorded. -/
def BatchRecorded (p : BatchPacket) (batch out : List IBCV2Transfer) (evs : List Event)
    (T T' : Tables) : Prop :=
  ∃ tx bytes address submission, ⟨.deliverTx p.chainID bytes address submission, .ok tx⟩ ∈ evs
    ∧ out = p.setTxs tx (p.gather [] batch).transfers ∧ Recorded p tx (p.survivors batch) T T'

theorem BatchRecorded.append {p : BatchPacket} {batch out : List IBCV2Transfer} {evs : List Event}
    {T T' : Tables} (h : BatchRecorded p batch out evs T T') (past : List Event) :
    BatchRecorded p batch out (evs ++ past) T T' := by
  obtain ⟨tx, bytes, address, submission, hmem, hout, hrecorded⟩ := h
  exact ⟨tx, bytes, address, submission, List.mem_append_left _ hmem, hout, hrecorded⟩

theorem Records.mono {ρ : Type} {x : ExceptT GoError Eff ρ}
    {Q Q' : ρ → List Event → Tables → Tables → Prop} (h : Records x Q)
    (hQ : ∀ a evs T T', Q a evs T T' → Q' a evs T T') : Records x Q' := by
  refine Ensures.mono h ?_
  rintro (err | a) evs hevs s
  · exact hevs s
  · exact hQ a evs _ _ (hevs s)

section Members

variable {route : Route} {p : BatchPacket}

end Members

namespace Sample

/-- A copy of the sample row, and one of another packet whose source hash is not hexadecimal. -/
def twoHashes : List IBCV2Transfer :=
  [newIBCV2Transfer row,
    newIBCV2Transfer { row with id := 2, packetSequenceNumber := 8, sourceTxHash := "zz" }]

def twoRows : Tables :=
  { transfers := [row, { row with id := 2, packetSequenceNumber := 8, sourceTxHash := "zz" }] }

end Sample

/-- A hash gives no error if there is one and it can be decoded. -/
theorem hashError_eq_none {p : BatchPacket} {t : IBCV2Transfer} :
    p.hashError t = none ↔ ∃ hash bytes, p.txHash t = .ok hash ∧ hashBytes hash = .ok bytes := by
  unfold BatchPacket.hashError hashBytes
  cases p.txHash t with
  | error err => simp
  | ok hash =>
    cases hdecode : decodeString (trimHexMark hash) with
    | error err => simp [hdecode]
    | ok bytes => simp [hdecode]

/-- **A tx is submitted for somebody only if somebody can be requested.** Whatever is answered,
`RelayByTx` and `DeliverTx` are called only if a transfer has no error after the first loop, if and
only if a transfer comes without an error and with a hash that has bytes. -/
theorem submitted_for_somebody (p : BatchPacket) (batch : List IBCV2Transfer) :
    ((p.process batch).run.Ensures fun _ evs =>
        (∃ e ∈ evs, e.call.submission.isSome = true) → p.survivors batch ≠ [])
      ↔ ∃ t ∈ batch, t.processingError = none
          ∧ ∃ hash bytes, p.txHash t = .ok hash ∧ hashBytes hash = .ok bytes := by
  have hsomebody : p.survivors batch ≠ [] ↔ ∃ t ∈ batch, t.processingError = none
      ∧ ∃ hash bytes, p.txHash t = .ok hash ∧ hashBytes hash = .ok bytes := by
    rw [survivors_eq, Ne, List.eq_nil_iff_forall_not_mem, not_forall_not]
    simp only [List.mem_filter, Bool.and_eq_true, Option.isNone_iff_eq_none, hashError_eq_none]
  rw [← hsomebody]
  constructor
  · intro h
    -- whatever is answered, the first call is the request
    obtain ⟨_, evs, hevs, later, r, rfl⟩ := (Ensures.and h (batch_requests p batch)).exists_end
      (Sample.obliging .zero ⟨[], []⟩)
    exact hevs ⟨_, List.mem_append_right _ (List.mem_singleton.mpr rfl), rfl⟩
  · intro h
    exact (ensures_true _).mono fun _ _ _ _ => h

/-- A recv tx is requested and delivered for a transfer whose source hash is not hexadecimal, and
which has an error then. -/
theorem tx_submitted_for_nobody :
    (batchRecvPacket Sample.pipeline.route).survivors (Sample.twoHashes.drop 1) = []
      ∧ ∃ e ∈ (execute (Sample.obliging .zero)
          ((batchRecvPacket Sample.pipeline.route).process (Sample.twoHashes.drop 1)).run
          ⟨Sample.twoRows.transfers, []⟩).2.log,
        e.call.isDelivery = true := by
  refine ⟨by decide +kernel, List.any_eq_true.mp ?_⟩
  decide +kernel

end IbcRelayer
