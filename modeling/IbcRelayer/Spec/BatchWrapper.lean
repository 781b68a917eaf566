import IbcRelayer.Spec.Wrapper

/-!
# IbcRelayer — a transfer's visit to a batch

The wrapper of batches, followed for one transfer of the batch. The transfers of a batch have
different keys, so every event is one of the decision for the transfer, one of the decision for
another transfer, or one of the batch processor (`Decided`), and the transfer is found in the
output by its key (`followed`). `batchMw_visit` is the visit of the transfer.
-/

namespace IbcRelayer

open CallTree Prog IBCV2Transfer

/-! ## What a batch makes of one of its transfers -/

/-- A tx is recorded on a copy without touching its packet or its error, and an error of the first
loop has a text. -/
structure BatchPacket.Lawful (p : BatchPacket) : Prop where
  packet : ∀ tx t, SamePacket t (p.setTx tx t)
  error : ∀ tx t, (p.setTx tx t).processingError = t.processingError
  txHash : ∀ t err, p.txHash t = .error err → err.text ≠ ""

/-- An error that the loop sets has a text: it is the processor's own, or it was wrapped. -/
theorem BatchPacket.Lawful.hashError_text {p : BatchPacket} (hp : p.Lawful) {t : IBCV2Transfer}
    {err : GoError} (h : p.hashError t = some err) : err.text ≠ "" := by
  unfold BatchPacket.hashError at h
  split at h
  · rename_i err' herr
    cases h
    exact hp.txHash t err herr
  · split at h
    · cases h
      simp
    · cases h

/-- What a batch makes of one of its transfers. -/
inductive BatchMemberOk (p : BatchPacket) (t : IBCV2Transfer) :
    IBCV2Transfer → List TransferUpdate → Prop where
  | marked (err : GoError) (h : p.hashError t = some err) : BatchMemberOk p t (t.fail err) []
  | recorded (tx : BridgeTx) (h : p.hashError t = none) :
      BatchMemberOk p t (p.setTx tx t) [p.updateTx tx]

def batchContract (p : BatchPacket) (state : Ibcv2RelayStatus) (guard : Guard) : Contract where
  state
  guard
  packet := some p
  Ok t t' us _ := BatchMemberOk p t t' us

/-- The transfer `key` in what a batch wrapper returns. -/
def followed (key : RowKey) : Except GoError (List IBCV2Transfer) → Option IBCV2Transfer
  | .error _ => none
  | .ok out => out.find? (·.rowKey = key)

theorem find_other {key : RowKey} {ts : List IBCV2Transfer} (h : ∀ u ∈ ts, u.rowKey ≠ key) :
    ts.find? (·.rowKey = key) = none :=
  List.find?_eq_none.mpr (by simpa using h)

theorem find_followed {key : RowKey} {ts us : List IBCV2Transfer} {t : IBCV2Transfer}
    (h : ∀ u ∈ ts, u.rowKey ≠ key) (ht : t.rowKey = key) :
    (ts ++ t :: us).find? (·.rowKey = key) = some t := by
  rw [List.find?_append, find_other h]
  simp [ht]

section Others

variable {key : RowKey} {as : List (IBCV2Transfer × Admission)}

/-- The part of a batch that is passed on has no keys but those of the batch. -/
theorem notProcessing_other (h : ∀ a ∈ as, a.1.rowKey ≠ key) :
    ∀ u ∈ notProcessing as, u.rowKey ≠ key := by
  intro u hu
  obtain ⟨⟨v, a⟩, hv, hout⟩ := List.mem_filterMap.mp hu
  have hkey := h _ hv
  cases a <;> cases hout <;> exact hkey

/-- Nor has the part that the processor gets. -/
theorem toProcess_other {state : Ibcv2RelayStatus} (h : ∀ a ∈ as, a.1.rowKey ≠ key) :
    ∀ u ∈ toProcess state as, u.rowKey ≠ key := by
  intro u hu
  obtain ⟨⟨v, a⟩, hv, hout⟩ := List.mem_filterMap.mp hu
  have hkey := h _ hv
  cases a <;> cases hout
  exact hkey

/-- What the batch makes of a transfer that has no error yet. -/
def BatchPacket.recorded (p : BatchPacket) (tx : BridgeTx) (t : IBCV2Transfer) : IBCV2Transfer :=
  if (p.mark t).processingError.isSome then p.mark t else p.setTx tx (p.mark t)

/-- What a batch makes of a transfer has its key. -/
theorem BatchPacket.Lawful.recorded_rowKey {p : BatchPacket} (hp : p.Lawful) (tx : BridgeTx)
    (t : IBCV2Transfer) : (p.recorded tx t).rowKey = t.rowKey := by
  unfold BatchPacket.recorded
  split
  · exact p.mark_rowKey t
  · exact (hp.packet tx _).rowKey.trans (p.mark_rowKey t)

theorem setTxs_eq (p : BatchPacket) (tx : BridgeTx) (ts : List IBCV2Transfer) :
    p.setTxs tx (ts.map p.mark) = ts.map (p.recorded tx) := by
  rw [BatchPacket.setTxs, List.map_map]
  rfl

/-- The statements for other transfers are not on the row. -/
theorem submitted_other {p : BatchPacket} {ts : List IBCV2Transfer} (h : ∀ u ∈ ts, u.rowKey ≠ key)
    (u : TransferUpdate) :
    ((p.submitted ts).flatMap fun t => if t.rowKey = key then [u] else []) = [] := by
  rw [List.flatMap_eq_nil_iff]
  intro t ht
  obtain ⟨v, hv, rfl⟩ := List.mem_map.mp (List.mem_filter.mp ht).1
  rw [p.mark_rowKey, if_neg (h v hv)]

end Others

/-- A transfer of a batch, and the statements on its row. -/
theorem batchMember_ok {p : BatchPacket} {tx : BridgeTx} {ts us : List IBCV2Transfer}
    {t : IBCV2Transfer} (ht : t.processingError = none) (hts : ∀ u ∈ ts, u.rowKey ≠ t.rowKey)
    (hus : ∀ u ∈ us, u.rowKey ≠ t.rowKey) :
    BatchMemberOk p t (p.recorded tx t) ((p.submitted (ts ++ t :: us)).flatMap
      fun u => if u.rowKey = t.rowKey then [p.updateTx tx] else []) := by
  -- the other transfers have other rows, so only the statement for `t` counts
  have hsplit : p.submitted (ts ++ t :: us)
      = p.submitted ts ++ (p.submitted [t] ++ p.submitted us) := by
    simp [BatchPacket.submitted, List.filter_cons]
    split <;> rfl
  rw [hsplit, List.flatMap_append, List.flatMap_append, submitted_other hts, submitted_other hus,
    List.nil_append, List.append_nil]
  -- the tx is recorded exactly when the loop has set no error
  cases herror : p.hashError t with
  | none =>
    have hmark : p.mark t = t := by simp [BatchPacket.mark, herror]
    have hrecorded : p.recorded tx t = p.setTx tx t := by
      simp [BatchPacket.recorded, hmark, ht]
    have hsubmitted : p.submitted [t] = [t] := by simp [BatchPacket.submitted, hmark, ht]
    rw [hrecorded, hsubmitted]
    simpa using BatchMemberOk.recorded tx herror
  | some err =>
    have hmark : p.mark t = t.fail err := by simp [BatchPacket.mark, herror]
    have hrecorded : p.recorded tx t = t.fail err := by
      simp [BatchPacket.recorded, hmark, IBCV2Transfer.fail]
    have hsubmitted : p.submitted [t] = [] := by
      simp [BatchPacket.submitted, hmark, IBCV2Transfer.fail]
    rw [hrecorded, hsubmitted]
    exact .marked err herror

/-! ## The decisions for a batch -/

/-- The decisions for a batch are made in its order. -/
theorem admitBatch_append (q : IBCV2BatchProcessor) (ts us : List IBCV2Transfer) :
    admitBatch q (ts ++ us) = do
      let as ← admitBatch q ts
      let bs ← admitBatch q us
      return as ++ bs := by
  -- associativity of the sequencing, transfer by transfer
  induction ts with
  | nil => exact (Prog.bind_done _).symm
  | cons t ts ih =>
    rw [List.cons_append, admitBatch, admitBatch, ih]
    simp only [Prog.bind_assoc, pure_bind, List.cons_append]

section Batch

variable {q : IBCV2BatchProcessor} {g : Guard}

/-- There is one decision for each transfer, and every event of them names one. -/
theorem admitBatch_events (hasked : ∀ t, (q.shouldProcess t).Ensures (Asked g t))
    (batch : List IBCV2Transfer) :
    (admitBatch q batch).Ensures fun as evs =>
      as.map Prod.fst = batch ∧ ∀ e ∈ evs, ∃ u ∈ batch, OfAdmission u.rowKey e := by
  induction batch with
  | nil => exact ⟨rfl, by simp⟩
  | cons t rest ih =>
    refine (admitTransfer_admits (hasked t) q.state).bind fun a own hadmits => ?_
    refine ih.bind fun as evs hrest => ?_
    refine ⟨congrArg (t :: ·) hrest.1, fun e he => ?_⟩
    rcases List.mem_append.mp he with he | he
    · obtain ⟨u, hu, hof⟩ := hrest.2 e he
      exact ⟨u, List.mem_cons_of_mem t hu, hof⟩
    · exact ⟨t, List.mem_cons_self, hadmits.ofAdmission e he⟩

/-- The decisions for a batch, seen from one of its transfers. -/
structure Decided (q : IBCV2BatchProcessor) (g : Guard) (batch : List IBCV2Transfer)
    (t : IBCV2Transfer) (as₁ as₂ : List (IBCV2Transfer × Admission)) (a : Admission)
    (own evs : List Event) : Prop where
  keys : ∀ b ∈ as₁ ++ (t, a) :: as₂, b.1 ∈ batch
  others : ∀ b ∈ as₁ ++ as₂, b.1.rowKey ≠ t.rowKey
  admits : Admits g q.state t a own
  subset : own ⊆ evs
  all : ∀ e ∈ evs, e ∈ own ∨ Aside t.rowKey e
  updates : updatesOf t.rowKey evs = updatesOf t.rowKey own
  frame : ∀ k, k ∉ batch.map (·.rowKey) → ∀ e ∈ evs, updatesOfEvent k e = []
  query : ∀ e ∈ evs, e.call.isQuery = false
  submission : ∀ e ∈ evs, e.call.submission = none

/-- The loop over a batch, seen from the transfer `t`: what the decisions for the transfers before
it and behind it leave are events about their rows only. -/
theorem admitBatch_decided (hasked : ∀ t, (q.shouldProcess t).Ensures (Asked g t))
    {before after : List IBCV2Transfer} {t : IBCV2Transfer}
    (hothers : ∀ u ∈ before ++ after, u.rowKey ≠ t.rowKey) :
    (admitBatch q (before ++ t :: after)).Ensures fun as evs => ∃ as₁ as₂ a own,
      as = as₁ ++ (t, a) :: as₂ ∧ Decided q g (before ++ t :: after) t as₁ as₂ a own evs := by
  rw [admitBatch_append]
  refine (admitBatch_events hasked before).bind fun as₁ evs₁ hbefore => ?_
  rw [admitBatch]
  refine Ensures.bind (Q := fun bs evs => ∃ as₂ a own evs₂, bs = (t, a) :: as₂ ∧
    evs = evs₂ ++ own ∧ Admits g q.state t a own ∧ as₂.map Prod.fst = after
      ∧ ∀ e ∈ evs₂, ∃ u ∈ after, OfAdmission u.rowKey e) ?_ ?_
  · refine (admitTransfer_admits (hasked t) q.state).bind fun a own hadmits => ?_
    refine (admitBatch_events hasked after).bind fun as₂ evs₂ hafter => ?_
    exact ⟨as₂, a, own, evs₂, rfl, rfl, hadmits, hafter.1, hafter.2⟩
  · rintro bs evs ⟨as₂, a, own, evs₂, rfl, rfl, hadmits, hfst, hevs₂⟩
    refine ⟨as₁, as₂, a, own, rfl, ?_⟩
    -- every event is one of the decision for `t`, or of the decision for another transfer
    have hcases : ∀ e ∈ evs₂ ++ own ++ evs₁,
        e ∈ own ∨ ∃ u ∈ before ++ after, OfAdmission u.rowKey e := by
      intro e he
      rcases List.mem_append.mp he with he | he
      · rcases List.mem_append.mp he with he | he
        · obtain ⟨u, hu, hof⟩ := hevs₂ e he
          exact Or.inr ⟨u, List.mem_append_right _ hu, hof⟩
        · exact Or.inl he
      · obtain ⟨u, hu, hof⟩ := hbefore.2 e he
        exact Or.inr ⟨u, List.mem_append_left _ hu, hof⟩
    have hof : ∀ e ∈ evs₂ ++ own ++ evs₁, ∃ u ∈ before ++ t :: after, OfAdmission u.rowKey e := by
      intro e he
      rcases hcases e he with hown | ⟨u, hu, hof⟩
      · exact ⟨t, by simp, hadmits.ofAdmission e hown⟩
      · refine ⟨u, ?_, hof⟩
        rcases List.mem_append.mp hu with hu | hu <;> simp [hu]
    have hkeys : ∀ b ∈ as₁ ++ as₂, b.1 ∈ before ++ after := by
      intro b hb
      have := List.mem_map_of_mem (f := Prod.fst) hb
      rwa [List.map_append, hbefore.1, hfst] at this
    have hforeign : ∀ evs' : List Event, (∀ e ∈ evs', ∃ u ∈ before ++ after,
        OfAdmission u.rowKey e) → updatesOf t.rowKey evs' = [] := by
      intro evs' h
      refine updatesOf_eq_nil fun e he => ?_
      obtain ⟨u, hu, hof⟩ := h e he
      exact hof.frame (hothers u hu).symm
    rw [List.nil_append]
    refine ⟨?_, fun b hb => hothers _ (hkeys b hb), hadmits, ?_, ?_, ?_, ?_, ?_, ?_⟩
    · intro b hb
      rcases List.mem_append.mp hb with hb | hb
      · have := hkeys b (List.mem_append_left _ hb)
        rcases List.mem_append.mp this with h | h <;> simp [h]
      · rcases List.mem_cons.mp hb with rfl | hb
        · simp
        · have := hkeys b (List.mem_append_right _ hb)
          rcases List.mem_append.mp this with h | h <;> simp [h]
    · intro e he
      simp [he]
    · intro e he
      rcases hcases e he with hown | ⟨u, hu, hof⟩
      · exact Or.inl hown
      · exact Or.inr (hof.aside (hothers u hu))
    · rw [updatesOf_append, updatesOf_append, hforeign evs₁, hforeign evs₂]
      · simp
      · exact fun e he => (hevs₂ e he).imp fun u h => ⟨List.mem_append_right _ h.1, h.2⟩
      · exact fun e he => (hbefore.2 e he).imp fun u h => ⟨List.mem_append_left _ h.1, h.2⟩
    · intro k hk e he
      obtain ⟨u, hu, hof⟩ := hof e he
      refine hof.frame fun hkey => hk ?_
      rw [hkey]
      exact List.mem_map_of_mem (f := (·.rowKey)) hu
    · intro e he
      obtain ⟨u, hu, hof⟩ := hof e he
      exact hof.query
    · intro e he
      obtain ⟨u, hu, hof⟩ := hof e he
      exact hof.submission

/-! ## The batch is processed -/

section Processed

variable {p : BatchPacket} {batch : List IBCV2Transfer} {t : IBCV2Transfer}
  {as₁ as₂ : List (IBCV2Transfer × Admission)} {a : Admission} {own adm proc : List Event}

theorem Decided.toProcess_keys (hd : Decided q g batch t as₁ as₂ a own adm) :
    ∀ u ∈ toProcess q.state (as₁ ++ (t, a) :: as₂), u.rowKey ∈ batch.map (·.rowKey) := by
  intro u hu
  obtain ⟨⟨v, b⟩, hv, hout⟩ := List.mem_filterMap.mp hu
  have hmem := List.mem_map_of_mem (f := (·.rowKey)) (hd.keys _ hv)
  cases b <;> cases hout
  exact hmem

/-- A transfer that was not let in is not among them, nor is a copy of it. -/
theorem Decided.toProcess_of_not_admitted (hd : Decided q g batch t as₁ as₂ a own adm)
    (ha : a ≠ .admitted) :
    ∀ u ∈ toProcess q.state (as₁ ++ (t, a) :: as₂), u.rowKey ≠ t.rowKey := by
  have hsplit : toProcess q.state (as₁ ++ (t, a) :: as₂) = toProcess q.state (as₁ ++ as₂) := by
    rw [toProcess, List.filterMap_append, List.filterMap_cons, List.filterMap_append]
    cases a with
    | admitted => exact absurd rfl ha
    | skipped => rfl
    | stateNotUpdated err => rfl
  rw [hsplit]
  exact toProcess_other hd.others

/-- A batch is submitted for the transfers whose hash has bytes. -/
theorem requested_eq (p : BatchPacket) (ts : List IBCV2Transfer) :
    (p.submission (p.gather [] ts)).transfers = ts.filter fun u => (p.hashError u).isNone :=
  (gather_eq p (by simp [Decodable]) ts).2

/-- A submission includes only transfers that the processor got. -/
theorem includes_requested {ts : List IBCV2Transfer} {key : RowKey}
    (h : (p.submission (p.gather [] ts)).Includes key) :
    ∃ u ∈ ts, u.rowKey = key ∧ p.hashError u = none := by
  obtain ⟨u, hu, hkey⟩ := h
  rw [requested_eq] at hu
  obtain ⟨hmem, herror⟩ := List.mem_filter.mp hu
  exact ⟨u, hmem, hkey, by simpa using herror⟩

/-- A row that no transfer of the batch has is not written: not by the decisions, and not by the
processor, which got some of the transfers. -/
theorem Decided.frame_append (hd : Decided q g batch t as₁ as₂ a own adm)
    (hproc : ∀ e ∈ proc, BatchAllowed p (toProcess q.state (as₁ ++ (t, a) :: as₂)) e) :
    ∀ k, k ∉ batch.map (·.rowKey) ++ (batchContract p q.state g).strays →
      ∀ e ∈ proc ++ adm, updatesOfEvent k e = [] := by
  intro k hk
  rw [batchContract, List.append_nil] at hk
  refine List.forall_mem_append.mpr ⟨fun e he => (hproc e he).frame k fun hin => hk ?_,
    hd.frame k hk⟩
  obtain ⟨u, hu, rfl⟩ := List.mem_map.mp hin
  exact hd.toProcess_keys u hu

/-- What the processor does is no part of a decision. -/
theorem Decided.all_append (hd : Decided q g batch t as₁ as₂ a own adm)
    (hproc : ∀ e ∈ proc, BatchAllowed p (toProcess q.state (as₁ ++ (t, a) :: as₂)) e) :
    ∀ e ∈ proc ++ adm, e ∈ own ∨ Aside t.rowKey e :=
  List.forall_mem_append.mpr ⟨fun e he => Or.inr ((hproc e he).aside t.rowKey), hd.all⟩

theorem Decided.query_append (hd : Decided q g batch t as₁ as₂ a own adm)
    (hproc : ∀ e ∈ proc, BatchAllowed p (toProcess q.state (as₁ ++ (t, a) :: as₂)) e) :
    ∀ e ∈ proc ++ adm, e.call.isQuery = false :=
  List.forall_mem_append.mpr ⟨fun e he => (hproc e he).query, hd.query⟩

/-- The visit of a transfer that was not let in. The processor may well run, for the others of the
batch: it writes nothing to the row and submits nothing for it. Whether the transfer stays on the
output depends on what becomes of the batch. -/
theorem Decided.visit_of_not_admitted (hd : Decided q g batch t as₁ as₂ a own adm)
    (ha : a ≠ .admitted)
    (hproc : ∀ e ∈ proc, BatchAllowed p (toProcess q.state (as₁ ++ (t, a) :: as₂)) e)
    {o : Option IBCV2Transfer} (ho : o = none ∨ o = (notProcessing [(t, a)]).head?) :
    Visit (batchContract p q.state g) (batch.map (·.rowKey)) t o (proc ++ adm) := by
  have hinputs := hd.toProcess_of_not_admitted ha
  -- neither the decision nor the processor writes to the row
  have hus : updatesOf t.rowKey (proc ++ adm) = [] := by
    have hown := updatesOf_admits hd.admits
    rw [if_neg ha] at hown
    rw [updatesOf_append, hd.updates, hown, List.nil_append]
    refine updatesOf_eq_nil fun e he => (hproc e he).frame t.rowKey fun hin => ?_
    obtain ⟨u, hu, hkey⟩ := List.mem_map.mp hin
    exact hinputs u hu hkey
  have hall := hd.all_append hproc
  have hsub : own ⊆ proc ++ adm := fun e he => List.mem_append_right _ (hd.subset he)
  refine ⟨?_, fun _ => visit_warning (c := batchContract p q.state g) hd.admits hall,
    fun _ _ => visit_reading (c := batchContract p q.state g) hd.admits hall,
    fun _ _ => visit_save (c := batchContract p q.state g) hd.admits hall, ?_,
    hd.frame_append hproc, ?_⟩
  · rw [hus]
    rcases ho with rfl | rfl
    · exact .lost (Admits.untaken (c := batchContract p q.state g) hd.admits ha hsub)
    · refine Admits.step_of_not_admitted (c := batchContract p q.state g) hd.admits ha hsub ?_
      intro hpacket
      cases hpacket
  · intro e he hquery
    rw [hd.query_append hproc e he] at hquery
    cases hquery
  · intro post e pre s hevs hs hincludes
    have he : e ∈ proc ++ adm := by
      rw [hevs]
      simp
    rcases List.mem_append.mp he with he | he
    · rw [(hproc e he).submission s hs] at hincludes
      obtain ⟨u, hu, hkey, -⟩ := includes_requested hincludes
      exact absurd hkey (hinputs u hu)
    · rw [hd.submission e he] at hs
      cases hs

/-- An event of the first part of a list splits that part. -/
theorem split_of_not_mem {proc adm post pre : List Event} {e : Event}
    (h : proc ++ adm = post ++ e :: pre) (he : e ∉ adm) :
    ∃ mid, proc = post ++ e :: mid ∧ pre = mid ++ adm := by
  rcases List.append_eq_append_iff.mp h with ⟨mid, rfl, hmid⟩ | ⟨mid, rfl, hmid⟩
  · exact absurd (by rw [hmid]; simp) he
  · cases mid with
    | nil =>
      rw [List.nil_append] at hmid
      exact absurd (by rw [← hmid]; simp) he
    | cons e' mid =>
      obtain ⟨rfl, rfl⟩ := List.cons.inj hmid
      exact ⟨mid, rfl, rfl⟩

/-- The first event is the one that is looked at, or it is before it. -/
theorem first_of_append {later post pre : List Event} {first e : Event}
    (h : later ++ [first] = post ++ e :: pre) : first = e ∨ first ∈ pre := by
  rcases List.append_eq_append_iff.mp h with ⟨mid, -, hmid⟩ | ⟨mid, -, hmid⟩
  · cases mid with
    | nil =>
      rw [List.nil_append, List.cons.injEq] at hmid
      exact Or.inl hmid.1
    | cons e' mid => simp at hmid
  · have hmem : first ∈ e :: pre := by
      rw [hmid]
      simp
    exact List.mem_cons.mp hmem

/-- The visit of a transfer that was let in. The statements on its row are the saved state and then
those of the processor, and of these none comes before the last submission (`horderly`). So a tx
that is submitted for the transfer finds only the saved state on the row, its request is the first
call of the processor (`hrequest`), and no other tx was delivered before (`honce`). -/
theorem Decided.visit_of_admitted (hd : Decided q g batch t as₁ as₂ .admitted own adm)
    (hproc : ∀ e ∈ proc, BatchAllowed p (toProcess q.state (as₁ ++ (t, .admitted) :: as₂)) e)
    (horderly : Orderly proc) (honce : DeliversAtMost 1 proc)
    (hrequest : ∃ later r, proc = later ++ [⟨.relayByTx
        (p.request (p.gather [] (toProcess q.state (as₁ ++ (t, .admitted) :: as₂))).txIDs
          (p.gather [] (toProcess q.state (as₁ ++ (t, .admitted) :: as₂))).sequences)
        (p.submission (p.gather [] (toProcess q.state (as₁ ++ (t, .admitted) :: as₂)))), r⟩])
    {o : Option IBCV2Transfer}
    (hstep : Taken (batchContract p q.state g) t (proc ++ adm) →
      Step (batchContract p q.state g) t o
        (.updateTransferState q.state :: updatesOf t.rowKey proc) (proc ++ adm)) :
    Visit (batchContract p q.state g) (batch.map (·.rowKey)) t o (proc ++ adm) := by
  have hadm : updatesOf t.rowKey adm = [.updateTransferState q.state] :=
    hd.updates.trans (updatesOf_admits hd.admits)
  have hall := hd.all_append hproc
  have hinputs : toProcess q.state (as₁ ++ (t, .admitted) :: as₂)
      = toProcess q.state as₁ ++ { t with state := q.state } :: toProcess q.state as₂ := by
    simp [toProcess]
  -- the request was made for all transfers that have bytes, whatever came of it
  have htaken : Taken (batchContract p q.state g) t (proc ++ adm) := by
    refine Admits.taken hd.admits (fun e he => List.mem_append_right _ (hd.subset he)) hall ?_
    intro p' hp' herror
    cases hp'
    obtain ⟨later, r, hr⟩ := hrequest
    have hin := List.mem_append_right later (List.mem_singleton_self (⟨_, r⟩ : Event))
    rw [← hr] at hin
    refine ⟨_, _, r, List.mem_append_left _ hin, rfl, { t with state := q.state }, ?_, rfl⟩
    have herror' : p.hashError { t with state := q.state } = none := herror
    rw [requested_eq, hinputs]
    simp [herror']
  refine ⟨?_, fun _ => visit_warning (c := batchContract p q.state g) hd.admits hall,
    fun _ _ => visit_reading (c := batchContract p q.state g) hd.admits hall,
    fun _ _ => visit_save (c := batchContract p q.state g) hd.admits hall, ?_,
    hd.frame_append hproc, ?_⟩
  · rw [updatesOf_append, hadm]
    exact hstep htaken
  · intro e he hquery
    rw [hd.query_append hproc e he] at hquery
    cases hquery
  · intro post e pre s hevs hs hincludes
    refine ⟨htaken, p, ?_⟩
    have hnot : e ∉ adm := by
      intro he
      rw [hd.submission e he] at hs
      cases hs
    -- a decision submits nothing, so the submission is one of the processor
    obtain ⟨mid, rfl, rfl⟩ := split_of_not_mem hevs hnot
    have hsub := (hproc e (by simp)).submission s hs
    subst hsub
    obtain ⟨u, hu, hkey, herror⟩ := includes_requested hincludes
    -- only `t` itself has its key
    have hu' : u = { t with state := q.state } := by
      rw [hinputs] at hu
      rcases List.mem_append.mp hu with hu | hu
      · exact absurd hkey (toProcess_other (fun b hb => hd.others b (by simp [hb])) u hu)
      · rcases List.mem_cons.mp hu with rfl | hu
        · rfl
        · exact absurd hkey (toProcess_other (fun b hb => hd.others b (by simp [hb])) u hu)
    subst hu'
    have hmem : { t with state := q.state }
        ∈ (p.gather [] (toProcess q.state (as₁ ++ (t, .admitted) :: as₂))).requested := by
      rw [(gather_eq p (by simp [Decodable]) _).2, hinputs]
      simp [herror]
    refine ⟨rfl, rfl, hmem, herror, ?_, ?_, ?_⟩
    · have hsome : e.call.submission ≠ none := by
        rw [hs]
        simp
      rw [updatesOf_append, hadm, horderly.before hsome, List.append_nil]
      rfl
    · intro hdelivery
      refine List.forall_mem_append.mpr ⟨honce.first hdelivery, fun e' he' => ?_⟩
      exact Call.not_delivery (hd.submission e' he')
    -- the bytes of the hash are in the first call, which is this one or an earlier one
    · obtain ⟨hash, hhash, hcase⟩ := gather_txIDs p _ hmem
      obtain ⟨bytes, hbytes, hin⟩ := hcase.resolve_left (by simp)
      refine ⟨hash, bytes, _,
        (p.gather [] (toProcess q.state (as₁ ++ (t, .admitted) :: as₂))).sequences, hhash, hbytes,
        hin, ?_⟩
      obtain ⟨later, r, hr⟩ := hrequest
      rcases first_of_append hr.symm with rfl | hfirst
      · exact Or.inl rfl
      · exact Or.inr ⟨r, List.mem_append_left _ hfirst⟩

end Processed

/-! ## The wrapper -/

/-- A processor of batches that keeps the contract of `p`. -/
structure IBCV2BatchProcessor.Meets (q : IBCV2BatchProcessor) (p : BatchPacket) (g : Guard) :
    Prop where
  process : q.process = p.process
  asked : ∀ t, (q.shouldProcess t).Ensures (Asked g t)
  lawful : p.Lawful

/-- A transfer that was not let in is found in the part that is passed on, with the error if its
state could not be saved. -/
theorem notProcessing_find {as₁ as₂ : List (IBCV2Transfer × Admission)} {t : IBCV2Transfer}
    {a : Admission} (h : ∀ b ∈ as₁ ++ as₂, b.1.rowKey ≠ t.rowKey) (ha : a ≠ .admitted) :
    (notProcessing (as₁ ++ (t, a) :: as₂)).find? (·.rowKey = t.rowKey)
      = (notProcessing [(t, a)]).head? := by
  have hother : ∀ u ∈ notProcessing as₁, u.rowKey ≠ t.rowKey :=
    notProcessing_other fun b hb => h b (List.mem_append_left _ hb)
  rw [notProcessing, List.filterMap_append]
  cases a with
  | admitted => exact absurd rfl ha
  | skipped => exact find_followed hother rfl
  | stateNotUpdated err => exact find_followed (t := t.fail err) hother rfl

/-- What becomes of a transfer that the processor got. -/
theorem followed_admitted {state : Ibcv2RelayStatus} {as₁ as₂ : List (IBCV2Transfer × Admission)}
    {t : IBCV2Transfer} (h : ∀ b ∈ as₁ ++ as₂, b.1.rowKey ≠ t.rowKey)
    {f : IBCV2Transfer → IBCV2Transfer} (hf : ∀ u, (f u).rowKey = u.rowKey) :
    followed t.rowKey (.ok ((toProcess state (as₁ ++ (t, .admitted) :: as₂)).map f
      ++ notProcessing (as₁ ++ (t, .admitted) :: as₂))) = some (f { t with state }) := by
  have hinputs : toProcess state (as₁ ++ (t, .admitted) :: as₂)
      = toProcess state as₁ ++ { t with state } :: toProcess state as₂ := by
    simp [toProcess]
  rw [followed, hinputs, List.map_append, List.map_cons, List.append_assoc]
  refine find_followed (fun u hu => ?_) (hf _)
  obtain ⟨v, hv, rfl⟩ := List.mem_map.mp hu
  rw [hf]
  exact toProcess_other (fun b hb => h b (List.mem_append_left _ hb)) v hv

/-- What becomes of a transfer that the processor did not get: its part of the output holds only
transfers that it got. -/
theorem followed_not_admitted {state : Ibcv2RelayStatus}
    {as₁ as₂ : List (IBCV2Transfer × Admission)} {t : IBCV2Transfer} {a : Admission}
    (h : ∀ b ∈ as₁ ++ as₂, b.1.rowKey ≠ t.rowKey) (ha : a ≠ .admitted)
    (hinputs : ∀ u ∈ toProcess state (as₁ ++ (t, a) :: as₂), u.rowKey ≠ t.rowKey)
    {f : IBCV2Transfer → IBCV2Transfer} (hf : ∀ u, (f u).rowKey = u.rowKey) :
    followed t.rowKey (.ok ((toProcess state (as₁ ++ (t, a) :: as₂)).map f
      ++ notProcessing (as₁ ++ (t, a) :: as₂))) = (notProcessing [(t, a)]).head? := by
  change List.find? _ (_ ++ _) = _
  rw [List.find?_append, find_other, notProcessing_find h ha]
  · rfl
  · intro u hu
    obtain ⟨v, hv, rfl⟩ := List.mem_map.mp hu
    rw [hf]
    exact hinputs v hv

/-- **A visit to a wrapped stage of batches**, for every transfer of a batch with different keys: it
ends as `Step` says, for the copy that carries the key of the transfer. The hypothesis `ht` is that
an error on the copy has a text, as the wrapper looks at the text and the processor at the error
itself. -/
theorem batchMw_visit {p : BatchPacket} (hq : q.Meets p g) {before after : List IBCV2Transfer}
    {t : IBCV2Transfer} (hothers : ∀ u ∈ before ++ after, u.rowKey ≠ t.rowKey)
    (ht : t.error = "" → t.processingError = none) :
    (IBCV2BatchProcessorMW.process q (before ++ t :: after)).Ensures fun r evs =>
      Visit (batchContract p q.state g) ((before ++ t :: after).map (·.rowKey)) t
        (followed t.rowKey r) evs := by
  refine (admitBatch_decided hq.asked hothers).bind ?_
  rintro as adm ⟨as₁, as₂, a, own, rfl, hd⟩
  by_cases ha : a = .admitted
  · subst ha
    have hinputs : toProcess q.state (as₁ ++ (t, .admitted) :: as₂)
        = toProcess q.state as₁ ++ { t with state := q.state } :: toProcess q.state as₂ := by
      simp [toProcess]
    have hnonempty : (toProcess q.state (as₁ ++ (t, .admitted) :: as₂)).isEmpty = false := by
      simp [hinputs]
    simp only [hnonempty, Bool.false_eq_true, if_false]
    rw [hq.process]
    refine ((batch_spec p _ t.rowKey).and
      ((batch_delivers_once p _).and (batch_requests p _))).bind ?_
    rintro r proc ⟨⟨hproc, horderly, hend⟩, honce, hrequest⟩
    -- a canceled context loses the whole batch, any other error is put on every transfer that was
    -- let in
    rcases r with err | out
    · obtain ⟨htext, hclear⟩ := hend
      have hfailed : ∀ o, o = none ∨ o = some ({ t with state := q.state }.fail err) →
          Visit (batchContract p q.state g) ((before ++ t :: after).map (·.rowKey)) t o
            (proc ++ adm) :=
        fun o ho => hd.visit_of_admitted hproc horderly honce hrequest fun htaken =>
          .failed htaken err htext o ho _ hclear
      dsimp only
      split
      · exact hfailed none (Or.inl rfl)
      · exact hfailed _ (Or.inr (followed_admitted hd.others fun _ => rfl))
    · obtain ⟨tx, rfl, hupdates⟩ := hend
      refine hd.visit_of_admitted hproc horderly honce hrequest fun htaken => ?_
      rw [setTxs_eq, followed_admitted hd.others (hq.lawful.recorded_rowKey tx), hupdates, hinputs]
      have hnone : t.processingError = none := ht htaken.error
      refine .done htaken _ _ proc (List.subset_append_left _ _) (fun e he hquery => ?_)
        (batchMember_ok (t := { t with state := q.state }) hnone
          (toProcess_other fun b hb => hd.others b (List.mem_append_left _ hb))
          (toProcess_other fun b hb => hd.others b (List.mem_append_right _ hb)))
      rw [hd.query_append hproc e he] at hquery
      cases hquery
  -- `t` is passed on; the processor runs only if there are others
  · dsimp only
    split
    · have hnil : ∀ e ∈ ([] : List Event),
          BatchAllowed p (toProcess q.state (as₁ ++ (t, a) :: as₂)) e := by simp
      exact hd.visit_of_not_admitted ha hnil (Or.inr (notProcessing_find hd.others ha))
    · rw [hq.process]
      refine (batch_spec p _ t.rowKey).bind fun r proc hproc => ?_
      have hvisit : ∀ o, o = none ∨ o = (notProcessing [(t, a)]).head? →
          Visit (batchContract p q.state g) ((before ++ t :: after).map (·.rowKey)) t o
            (proc ++ adm) :=
        fun o ho => hd.visit_of_not_admitted ha hproc.1 ho
      have hinputs := hd.toProcess_of_not_admitted ha
      rcases r with err | out
      · dsimp only
        split
        · exact hvisit none (Or.inl rfl)
        · exact hvisit _ (Or.inr (followed_not_admitted hd.others ha hinputs fun _ => rfl))
      · obtain ⟨tx, rfl, -⟩ := hproc.ok
        refine hvisit _ (Or.inr ?_)
        rw [setTxs_eq]
        exact followed_not_admitted hd.others ha hinputs (hq.lawful.recorded_rowKey tx)

end Batch

end IbcRelayer
