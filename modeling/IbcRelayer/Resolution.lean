import Mathlib.Data.List.Nodup
import IbcRelayer.CostTracker
import IbcRelayer.Dispatcher

/-!
# IbcRelayer — a submission is resolved once

What holds of the table of the submitted txs in every run of one cost tracker, beside the batch
processors that insert rows: `submissions_resolve_once`.

* `roundProtocol` — what the rest of a round may still do. Its ledger has the rows that were read
  and are not resolved yet, and the metric that is due after an update.
* `Tracked` — the invariant. Because of the ledger the rows of a round are pending when they are
  updated, although the statement does not ask for it.
* `separately` — a round in which each submission has its own answers: `eventsFor_track`.
-/

namespace IbcRelayer

open CallTree Prog

/-! ## Rows -/

section Rows

variable {rows : List Ibcv2RelayerTxSubmission} {r : Ibcv2RelayerTxSubmission}
  {f : Ibcv2RelayerTxSubmission → Ibcv2RelayerTxSubmission}

/-- An `UPDATE` leaves the ids. -/
theorem ids_updateSubmission (hf : ∀ r, (f r).id = r.id) (id : Int32) :
    (updateSubmission id f rows).map (·.id) = rows.map (·.id) := by
  rw [updateSubmission, List.map_map]
  refine List.map_congr_left fun r _ => ?_
  dsimp only [Function.comp]
  split
  · exact hf r
  · rfl

/-- With unique ids an `UPDATE` changes one row. -/
theorem mem_updateSubmission (hids : (rows.map (·.id)).Nodup) (hr : r ∈ rows)
    {r' : Ibcv2RelayerTxSubmission} (h : r' ∈ updateSubmission r.id f rows) :
    r' = f r ∨ r' ∈ rows ∧ r' ≠ r := by
  obtain ⟨old, hold, rfl⟩ := List.mem_map.mp h
  by_cases hid : old.id = r.id
  · rw [if_pos hid, List.inj_on_of_nodup_map hids hold hr hid]
    exact .inl rfl
  · rw [if_neg hid]
    exact .inr ⟨hold, fun heq => hid (heq ▸ rfl)⟩

/-- What an `UPDATE` makes of a row, whether it is the one or not. -/
theorem updateSubmission_mem {r' : Ibcv2RelayerTxSubmission} (hr' : r' ∈ rows) (id : Int32) :
    (r'.id = id ∧ f r' ∈ updateSubmission id f rows)
      ∨ (r'.id ≠ id ∧ r' ∈ updateSubmission id f rows) := by
  have hmem : (if r'.id = id then f r' else r') ∈ updateSubmission id f rows :=
    List.mem_map_of_mem hr'
  by_cases hid : r'.id = id
  · exact .inl ⟨hid, by rwa [if_pos hid] at hmem⟩
  · exact .inr ⟨hid, by rwa [if_neg hid] at hmem⟩

/-- The update of one row changes a count by what it changes of that row. -/
theorem countP_updateSubmission (p : Ibcv2RelayerTxSubmission → Bool)
    (hids : (rows.map (·.id)).Nodup) (hr : r ∈ rows) :
    (updateSubmission r.id f rows).countP p + (p r).toNat = rows.countP p + (p (f r)).toNat := by
  -- to the row that is updated; the rows behind it have other ids
  induction rows with
  | nil => cases hr
  | cons r' rows ih =>
    rw [List.map_cons, List.nodup_cons] at hids
    by_cases hid : r'.id = r.id
    · -- the other rows have other ids
      have hrest : updateSubmission r.id f rows = rows := by
        refine (List.map_congr_left fun r'' hr'' => if_neg fun hid' => ?_).trans (List.map_id rows)
        exact hids.1 (hid ▸ hid' ▸ List.mem_map_of_mem hr'')
      have heq : r' = r := by
        rcases List.mem_cons.mp hr with rfl | hr
        · rfl
        · exact absurd (hid ▸ List.mem_map_of_mem hr) hids.1
      subst heq
      rw [updateSubmission, List.map_cons, if_pos rfl, ← updateSubmission, hrest]
      cases hp : p r' <;> cases hp' : p (f r') <;> simp [hp, hp']
    · have hr : r ∈ rows := (List.mem_cons.mp hr).resolve_left fun heq => hid (heq ▸ rfl)
      have hcount := ih hids.2 hr
      rw [updateSubmission, List.map_cons, if_neg hid, ← updateSubmission, List.countP_cons,
        List.countP_cons]
      omega

end Rows

/-- `SUCCESS` or `FAILED` -/
def Ibcv2RelayerTxSubmission.IsResolved (r : Ibcv2RelayerTxSubmission) : Prop :=
  r.status = .success ∨ r.status = .failed

/-- A table as the tracker leaves it. -/
structure SubmissionTable where
  rows : List Ibcv2RelayerTxSubmission
  ids : (rows.map (·.id)).Nodup
  costs : ∀ r ∈ rows, r.IsResolved ↔ r.gasCostAmount.isSome = true

/-- The rows of the chain that have reached this outcome. -/
def resolvedCount (rows : List Ibcv2RelayerTxSubmission) (success : Bool) (chainID : String) :
    Nat :=
  rows.countP fun r =>
    r.chainID = chainID ∧ r.status = if success then SubmissionStatus.success else .failed

/-- A call of `AddTransactionConfirmed` for the chain, with this outcome. -/
def TrackCall.confirms (success : Bool) (chainID : String) : TrackCall → Bool
  | .of _ (.addTransactionConfirmed success' chainID' _ _) =>
    success' = success ∧ chainID' = chainID
  | _ => false

def confirmedCount (log : List TrackEvent) (success : Bool) (chainID : String) : Nat :=
  log.countP (·.call.confirms success chainID)

/-! ## What a round may do -/

/-- The rows that the round may resolve, and the outcome and the chain of the metric that is due. -/
structure RoundLedger where
  owned : List Ibcv2RelayerTxSubmission
  owed : Option (Bool × String) := none

namespace RoundLedger

/-- The submission is resolved, and nothing else is done for it. -/
def settle (g : RoundLedger) (submission : Ibcv2RelayerTxSubmission)
    (owed : Option (Bool × String)) : RoundLedger :=
  ⟨g.owned.filter (· ≠ submission), owed⟩

end RoundLedger

/-- What the rest of a round may do: the submissions are read once, at its start; a row is resolved
once, while nothing is due; and the metric is called when it is due, with the outcome and the chain
of the row. -/
def roundProtocol : Protocol TrackCall.Answer RoundLedger where
  allows g
    | .getUnresolvedIBCV2RelayerTxSubmissions _ => False
    | .of submission (.updateTracking arg) =>
      g.owed = none ∧ submission ∈ g.owned ∧ arg.id = submission.id
        ∧ arg.gasCostAmount.isSome = true ∧ (arg.status = .success ∨ arg.status = .failed)
    | .of submission (.expirePending id) =>
      g.owed = none ∧ submission ∈ g.owned ∧ id = submission.id
    | .of _ (.addTransactionConfirmed success chainID _ _) => g.owed = some (success, chainID)
    | .of _ _ => True
  next g
    | .of submission (.updateTracking arg), .ok _ =>
      g.settle submission (some (arg.status = .success, submission.chainID))
    | .of submission (.expirePending _), .ok _ => g.settle submission none
    | .of _ (.addTransactionConfirmed ..), _ => { g with owed := none }
    | _, _ => g

namespace SubmittedTxCostTracker

variable (t : SubmittedTxCostTracker) {submission : Ibcv2RelayerTxSubmission} {g : RoundLedger}

/-- The protocol for the calls that are made for a submission. -/
abbrev protocolFor (submission : Ibcv2RelayerTxSubmission) :
    Protocol SubmissionCall.Answer RoundLedger :=
  roundProtocol.comap (.of submission)

/-- Wrapping an error makes no call. -/
theorem obeys_wrapErr {α G : Type} {pr : Protocol SubmissionCall.Answer G} {g : G} {x : Track α}
    (msg : String) {Q : Except GoError α → G → Prop} (h : pr.Obeys x.run g Q)
    (herror : ∀ err g', Q (.error err) g' → Q (.error (err.wrap msg)) g') :
    pr.Obeys (Track.wrapErr msg x).run g Q := by
  refine h.bind fun r g' hQ => ?_
  cases r with
  | error err => exact herror err g' hQ
  | ok a => exact hQ

/-- The program only asks, and leaves the ledger as it is. -/
def Asks {α : Type} (submission : Ibcv2RelayerTxSubmission) (x : Track α) : Prop :=
  ∀ g, (protocolFor submission).Obeys x.run g fun _ g' => g' = g

section Asks

variable {α β : Type}

theorem Asks.bind {x : Track α} {f : α → Track β} {Q : Except GoError β → RoundLedger → Prop}
    (h : Asks submission x) (hf : ∀ a, (protocolFor submission).Obeys (f a).run g Q)
    (herror : ∀ err, Q (.error err) g) : (protocolFor submission).Obeys (x >>= f).run g Q :=
  (h g).except_bind (fun a _ hg => hg ▸ hf a) fun err _ hg => hg ▸ herror err

theorem asks_wrapErr {x : Track α} (msg : String) (h : Asks submission x) :
    Asks submission (Track.wrapErr msg x) :=
  fun g => obeys_wrapErr msg (h g) fun _ _ hg => hg

theorem asks_pure (a : α) : Asks submission (pure a) := fun _ => rfl

theorem asks_throw (err : GoError) : Asks submission (throw err : Track α) := fun _ => rfl

theorem asks_call {c : SubmissionCall} {k : c.Answer → Except GoError α}
    (hallows : ∀ g, (protocolFor submission).allows g c)
    (hnext : ∀ g r, (protocolFor submission).next g c r = g) :
    Asks submission (.mk (.call c fun r => .done (k r))) :=
  fun g => ⟨hallows g, fun r => hnext g r⟩

/-- The price is only asked for if it is of use. -/
theorem asks_getGasCostUSD (chainID : String) (amount : Int) :
    Asks submission (t.getGasCostUSD chainID amount) := by
  unfold getGasCostUSD
  split
  · exact asks_pure _
  split
  · exact asks_pure _
  cases t.config chainID with
  | error err => exact asks_throw _
  | ok chainConfig =>
    dsimp only
    cases chainConfig.gasTokenCoingeckoID with
    | none => exact asks_pure _
    | some coingeckoID =>
      dsimp only
      split
      · exact asks_pure _
      · exact fun g => ⟨trivial, fun _ => rfl⟩

/-- The clock is only read if there is a limit. -/
theorem asks_isExpired : Asks submission (t.isExpired submission) := by
  unfold isExpired
  split
  · exact asks_pure _
  · intro g
    refine Asks.bind (asks_call (fun _ => trivial) fun _ _ => rfl) (fun now => ?_) fun _ => rfl
    exact asks_pure _ g

end Asks

/-- The amount that is returned is never `nil`. -/
theorem resolveGasCosts_obeys :
    (protocolFor submission).Obeys (t.resolveGasCosts submission).run g fun r g' =>
      g' = g ∧ ∀ amount usd, r = .ok (amount, usd) → amount.isSome = true := by
  refine Asks.bind (asks_wrapErr _ (asks_call (k := id) (fun _ => trivial) fun _ _ => rfl))
    (fun fee => ?_) fun err => ⟨rfl, fun _ _ hok => by cases hok⟩
  refine Asks.bind (fun g => ?_) (fun usd => ?_) fun err => ⟨rfl, fun _ _ hok => by cases hok⟩
  · refine (t.asks_getGasCostUSD submission.chainID _ g).bind fun r g' hg => ?_
    cases r with
    | error err => exact hg
    | ok usd => exact hg
  · refine ⟨rfl, fun amount usd' hok => ?_⟩
    cases hok
    rfl

/-- Nothing is due any more, and the row may have been resolved. -/
def Settles (submission : Ibcv2RelayerTxSubmission) (g g' : RoundLedger) : Prop :=
  g' = g ∨ g' = g.settle submission none

/-- The metric that is due is called first, then the one for the cost. -/
theorem recordResolvedSubmissionMetrics_obeys (status : TxExecution) (gasCostAmount : Option Int)
    (howed : g.owed = some (decide (status = .success), submission.chainID)) :
    (protocolFor submission).Obeys
      (t.recordResolvedSubmissionMetrics submission status gasCostAmount).run g fun _ g' =>
        g' = { g with owed := none } := by
  refine ⟨howed, fun _ => ?_⟩
  cases gasCostAmount with
  | none => rfl
  | some amount => exact ⟨trivial, fun _ => rfl⟩

/-- After the update the metric is due, and a failed update has changed nothing. -/
def Wrote (submission : Ibcv2RelayerTxSubmission) (status : TxExecution) (g : RoundLedger) :
    Except GoError Unit → RoundLedger → Prop
  | .ok _, g' => g' = g.settle submission (some (decide (status = .success), submission.chainID))
  | .error _, g' => g' = g

/-- The row is written, and then the metric is called. If the statement fails the metric is not
called, and the row can be resolved in a later round. -/
theorem writeResolved_obeys {gasCostAmount : Option Int} (hamount : gasCostAmount.isSome = true)
    (hsubmission : submission ∈ g.owned) (howed : g.owed = none) (status : TxExecutionStatus)
    (gasCostUSD : Option Numeric) :
    (protocolFor submission).Obeys
      (t.writeResolved submission status gasCostAmount gasCostUSD).run g
      fun _ g' => Settles submission g g' := by
  obtain ⟨amount, rfl⟩ := Option.isSome_iff_exists.mp hamount
  have hscan : Asks submission (bigIntToNumeric amount) := fun g => ⟨trivial, fun _ => rfl⟩
  unfold writeResolved
  dsimp only
  rw [map_eq_pure_bind, LawfulMonad.bind_assoc]
  refine (asks_wrapErr _ hscan).bind (fun numeric => ?_) fun _ => .inl rfl
  rw [pure_bind]
  refine Protocol.Obeys.except_bind (Q := Wrote submission status.status g) ?_ ?_ ?_
  · refine obeys_wrapErr _ ⟨?_, fun r => ?_⟩ fun err g' hg => hg
    · refine ⟨howed, hsubmission, rfl, rfl, ?_⟩
      cases status.status
      · exact .inl rfl
      · exact .inr rfl
    · cases r with
      | error err => rfl
      | ok _ =>
        change g.settle submission
          (some (decide (status.status.submissionStatus = .success), submission.chainID)) = _
        cases status.status <;> rfl
  · rintro _ g' rfl
    refine (t.recordResolvedSubmissionMetrics_obeys status.status _ rfl).mono fun _ g' hg => ?_
    exact .inr hg
  -- the statement has failed
  · rintro err g' rfl
    exact .inl rfl

/-- What is done for one submission: it expires, it is resolved, or it is left for later. -/
theorem trackSubmission_obeys (hsubmission : submission ∈ g.owned) (howed : g.owed = none) :
    (protocolFor submission).Obeys (t.trackSubmission submission).run g
      fun _ g' => Settles submission g g' := by
  refine t.asks_isExpired.bind (fun expired => ?_) fun _ => .inl rfl
  cases expired with
  | true =>
    refine obeys_wrapErr _ ⟨⟨howed, hsubmission, rfl⟩, fun r => ?_⟩ fun _ _ hg => hg
    cases r with
    | error err => exact .inl rfl
    | ok _ => exact .inr rfl
  | false =>
    have hclient : Asks submission
        (.mk (.call (.getClient submission.chainID) .done) : Track Unit) :=
      fun g => ⟨trivial, fun _ => rfl⟩
    have hstatus : Asks submission
        (.mk (.call (.txExecutionStatus submission.chainID submission.txHash) .done) :
          Track TxExecutionStatus) :=
      fun g => ⟨trivial, fun _ => rfl⟩
    refine (asks_wrapErr _ hclient).bind (fun _ => ?_) fun _ => .inl rfl
    refine (asks_wrapErr _ hstatus).bind (fun status => ?_) fun _ => .inl rfl
    refine Protocol.Obeys.except_bind (obeys_wrapErr _ t.resolveGasCosts_obeys fun err g' hg => ?_)
      ?_ fun err g' hg => .inl hg.1
    · exact ⟨hg.1, fun _ _ hok => by cases hok⟩
    rintro ⟨amount, usd⟩ g' ⟨rfl, hamount⟩
    exact t.writeResolved_obeys (hamount amount usd rfl) hsubmission howed status usd

/-- The loop of a round. A submission that is through is taken off the ledger; those after it are
other ones. -/
theorem trackAll_obeys {submissions : List Ibcv2RelayerTxSubmission} (hnodup : submissions.Nodup)
    (howned : ∀ submission ∈ submissions, submission ∈ g.owned) (howed : g.owed = none) :
    roundProtocol.Obeys (t.trackAll submissions) g fun _ g' => g'.owed = none := by
  induction submissions generalizing g with
  | nil => exact howed
  | cons submission submissions ih =>
    obtain ⟨hsubmission, howned⟩ := List.forall_mem_cons.mp howned
    obtain ⟨hfresh, hnodup⟩ := List.nodup_cons.mp hnodup
    have hfirst := (Protocol.obeys_translate (TrackCall.of submission) _ g _).mpr
      (t.trackSubmission_obeys hsubmission howed)
    refine hfirst.bind fun _ g' hg => ?_
    -- the submission is still on the ledger, or it was resolved
    rcases hg with rfl | rfl
    · exact ih hnodup howned howed
    · refine ih hnodup (fun other hother => List.mem_filter.mpr ⟨howned other hother, ?_⟩) rfl
      simpa using fun heq : other = submission => hfresh (heq ▸ hother)

/-- A round owns the rows that it has read. -/
theorem trackUnresolved_obeys {answer : Except GoError (List Ibcv2RelayerTxSubmission)}
    (hnodup : ∀ submissions, answer = .ok submissions → submissions.Nodup) :
    ∃ owned,
      roundProtocol.Obeys (t.trackUnresolved answer) ⟨owned, none⟩ (fun _ g' => g'.owed = none)
        ∧ ∀ submission ∈ owned,
          ∃ submissions, answer = .ok submissions ∧ submission ∈ submissions := by
  cases answer with
  | error err => exact ⟨[], rfl, by simp⟩
  | ok submissions =>
    refine ⟨submissions, ?_, fun submission hmem => ⟨submissions, rfl, hmem⟩⟩
    exact (t.trackAll_obeys (hnodup submissions rfl) (fun _ hmem => hmem) rfl).bind fun _ _ hg => hg

end SubmittedTxCostTracker

/-! ## The invariant -/

namespace CostTracking

variable {t : SubmittedTxCostTracker} {base : List Ibcv2RelayerTxSubmission} {s s' : CostTracking}
  {g : RoundLedger}

/-- What holds at a ledger; `base` has the rows that there were at the start. -/
structure Tracked (t : SubmittedTxCostTracker) (base : List Ibcv2RelayerTxSubmission)
    (s : CostTracking) (g : RoundLedger) : Prop where
  ids : (s.rows.map (·.id)).Nodup
  costs : ∀ r ∈ s.rows, r.IsResolved ↔ r.gasCostAmount.isSome = true
  owned : ∀ r ∈ g.owned, r ∈ s.rows ∧ r.status = .pending
  counted : ∀ success chainID, resolvedCount base success chainID
      + confirmedCount s.log success chainID + (decide (g.owed = some (success, chainID))).toNat
    = resolvedCount s.rows success chainID
  idle : s.round = none → g.owed = none
  round : ∀ p, s.round = some p → p = t.track ∧ g.owed = none
    ∨ roundProtocol.Obeys p g fun _ g' => g'.owed = none

/-- A row stays as it is, or it is pending and gets resolved. -/
def Progress (rows rows' : List Ibcv2RelayerTxSubmission) : Prop :=
  ∀ r ∈ rows, ∃ r' ∈ rows', r'.id = r.id
    ∧ (r' = r ∨ r.status = .pending ∧ r'.status ≠ .pending)

theorem Progress.refl (rows : List Ibcv2RelayerTxSubmission) : Progress rows rows :=
  fun r hr => ⟨r, hr, rfl, .inl rfl⟩

/-- What is resolved stays as it is, so that progress adds up. -/
theorem Progress.trans {rows rows' rows'' : List Ibcv2RelayerTxSubmission} (h : Progress rows rows')
    (h' : Progress rows' rows'') : Progress rows rows'' := by
  intro r hr
  obtain ⟨r', hr', hid, hsame⟩ := h r hr
  obtain ⟨r'', hr'', hid', hsame'⟩ := h' r' hr'
  refine ⟨r'', hr'', hid'.trans hid, ?_⟩
  -- the first step has changed the row or not
  rcases hsame with rfl | ⟨hpending, hresolved⟩
  · exact hsame'
  · -- a row that is resolved does not change any more
    rcases hsame' with rfl | ⟨hpending', -⟩
    · exact .inr ⟨hpending, hresolved⟩
    · exact absurd hpending' hresolved

/-- The update of a pending row is progress, if it resolves it. -/
theorem progress_update {rows : List Ibcv2RelayerTxSubmission} {r : Ibcv2RelayerTxSubmission}
    {f : Ibcv2RelayerTxSubmission → Ibcv2RelayerTxSubmission} (hids : (rows.map (·.id)).Nodup)
    (hr : r ∈ rows) (hpending : r.status = .pending) (hid : (f r).id = r.id)
    (hresolved : (f r).status ≠ .pending) : Progress rows (updateSubmission r.id f rows) := by
  intro r' hr'
  rcases updateSubmission_mem (f := f) hr' r.id with ⟨heq, hmem⟩ | ⟨-, hmem⟩
  · obtain rfl := List.inj_on_of_nodup_map hids hr' hr heq
    exact ⟨_, hmem, hid, .inr ⟨hpending, hresolved⟩⟩
  · exact ⟨r', hmem, rfl, .inl rfl⟩

theorem confirmedCount_cons (e : TrackEvent) (log : List TrackEvent) (success : Bool)
    (chainID : String) :
    confirmedCount (e :: log) success chainID
      = confirmedCount log success chainID + (e.call.confirms success chainID).toNat := by
  cases h : e.call.confirms success chainID <;> simp [confirmedCount, h]

/-- A call that does nothing to the table, and is not the metric. -/
theorem Tracked.asked (h : Tracked t base s g) {c : TrackCall} {r : c.Answer}
    {p : Prog TrackCall.Answer (Except GoError Unit)} {rows : List Ibcv2RelayerTxSubmission}
    (hrows : rows = s.rows) (hconfirms : ∀ success chainID, c.confirms success chainID = false)
    (hp : roundProtocol.Obeys p g fun _ g' => g'.owed = none) :
    Tracked t base ⟨rows, some p, ⟨c, r⟩ :: s.log⟩ g := by
  subst hrows
  refine ⟨h.ids, h.costs, h.owned, fun success chainID => ?_, fun hround => (by cases hround), ?_⟩
  · rw [confirmedCount_cons, hconfirms]
    exact h.counted success chainID
  · rintro _ hround
    cases hround
    exact .inr hp

/-- A row of the ledger is resolved. -/
theorem Tracked.settled (h : Tracked t base s g) {submission : Ibcv2RelayerTxSubmission}
    {f : Ibcv2RelayerTxSubmission → Ibcv2RelayerTxSubmission} {owed : Option (Bool × String)}
    {c : TrackCall} {r : c.Answer} {p : Prog TrackCall.Answer (Except GoError Unit)}
    (hsubmission : submission ∈ g.owned) (howed : g.owed = none) (hids : ∀ r, (f r).id = r.id)
    (hresolved : (f submission).status ≠ .pending)
    (hcost : (f submission).IsResolved ↔ (f submission).gasCostAmount.isSome = true)
    (hdue : ∀ success chainID, decide (owed = some (success, chainID))
      = decide ((f submission).chainID = chainID
        ∧ (f submission).status = if success then SubmissionStatus.success else .failed))
    (hconfirms : ∀ success chainID, c.confirms success chainID = false)
    (hp : roundProtocol.Obeys p (g.settle submission owed) fun _ g' => g'.owed = none) :
    Tracked t base ⟨updateSubmission submission.id f s.rows, some p, ⟨c, r⟩ :: s.log⟩
        (g.settle submission owed)
      ∧ Progress s.rows (updateSubmission submission.id f s.rows) := by
  obtain ⟨hrow, hpending⟩ := h.owned submission hsubmission
  refine ⟨⟨?_, fun r' hr' => ?_, fun r' hr' => ?_, fun success chainID => ?_,
    fun hround => (by cases hround), ?_⟩,
    progress_update h.ids hrow hpending (hids submission) hresolved⟩
  · rw [ids_updateSubmission hids]
    exact h.ids
  · rcases mem_updateSubmission h.ids hrow hr' with rfl | ⟨hr', -⟩
    · exact hcost
    · exact h.costs r' hr'
  · -- the other rows of the ledger are left alone
    obtain ⟨hr', hne⟩ := List.mem_filter.mp hr'
    obtain ⟨hrow', hpending'⟩ := h.owned r' hr'
    refine ⟨?_, hpending'⟩
    rcases updateSubmission_mem (f := f) hrow' submission.id with ⟨heq, -⟩ | ⟨-, hmem⟩
    · exact absurd (List.inj_on_of_nodup_map h.ids hrow' hrow heq) (by simpa using hne)
    · exact hmem
  · have hcounted := h.counted success chainID
    have hcount := countP_updateSubmission (f := f) (fun r => decide (r.chainID = chainID
      ∧ r.status = if success then SubmissionStatus.success else .failed)) h.ids hrow
    -- a pending row is counted under no outcome
    have hnot : decide (submission.chainID = chainID
        ∧ submission.status = if success then SubmissionStatus.success else .failed) = false := by
      rw [hpending]
      cases success <;> simp
    have hdue : (decide ((g.settle submission owed).owed = some (success, chainID))).toNat = _ :=
      congrArg Bool.toNat (hdue success chainID)
    rw [hnot] at hcount
    rw [howed] at hcounted
    rw [confirmedCount_cons, hconfirms, hdue]
    simp only [resolvedCount, reduceCtorEq, decide_false, Bool.toNat_false, Nat.add_zero]
      at hcounted hcount ⊢
    omega
  · rintro _ hround
    cases hround
    exact .inr hp

/-- The round has read its submissions, and its ledger has them. -/
theorem Tracked.read (h : Tracked t base s g) (howed : g.owed = none)
    (hround : s.round = some t.track) {r : Except GoError (List Ibcv2RelayerTxSubmission)}
    (hread : ∀ submissions, r = .ok submissions →
      Unresolved t.batchSize.toInt.toNat s.rows submissions) :
    ∃ g', Tracked t base ⟨s.rows, some (t.trackUnresolved r),
      ⟨.getUnresolvedIBCV2RelayerTxSubmissions t.batchSize, r⟩ :: s.log⟩ g' := by
  obtain ⟨owned, hobeys, howned⟩ := t.trackUnresolved_obeys fun submissions hok =>
    (hread submissions hok).distinct
  have hledger : Tracked t base s ⟨owned, none⟩ := by
    refine { h with
      owned := fun row hrow => ?_
      counted := ?_
      idle := fun _ => rfl
      round := ?_ }
    · obtain ⟨submissions, hok, hmem⟩ := howned row hrow
      exact (hread submissions hok).pending row hmem
    · rw [← howed]
      exact h.counted
    · rintro p hp
      exact .inl ⟨Option.some.inj (hp.symm.trans hround), rfl⟩
  exact ⟨_, hledger.asked rfl (fun _ _ => rfl) hobeys⟩

section Statements

variable {submission : Ibcv2RelayerTxSubmission} {p : Prog TrackCall.Answer (Except GoError Unit)}

/-- A submission gets its outcome: the row is written, and the metric is due. -/
theorem Tracked.updated (h : Tracked t base s g) {arg : UpdateTrackingParams}
    (hallows : roundProtocol.allows g (.of submission (.updateTracking arg)))
    (hp : roundProtocol.Obeys p
      (g.settle submission (some (arg.status = .success, submission.chainID)))
      fun _ g' => g'.owed = none) :
    (∃ g', Tracked t base ⟨updateTracking arg s.rows, some p,
        ⟨.of submission (.updateTracking arg), .ok ()⟩ :: s.log⟩ g')
      ∧ Progress s.rows (updateTracking arg s.rows) := by
  obtain ⟨howed, hsubmission, hid, hcost, hstatus⟩ := hallows
  have hsettled := h.settled (c := .of submission (.updateTracking arg)) (r := .ok ())
    (f := arg.set) hsubmission howed (fun _ => rfl) ?_ ?_ ?_ (fun _ _ => rfl) hp
  · rw [← hid] at hsettled
    exact ⟨⟨_, hsettled.1⟩, hsettled.2⟩
  · rcases hstatus with hstatus | hstatus <;> simp [UpdateTrackingParams.set, hstatus]
  · exact ⟨fun _ => hcost, fun _ => hstatus⟩
  · intro success chainID
    rcases hstatus with hstatus | hstatus <;> cases success <;>
      simp [UpdateTrackingParams.set, hstatus]

/-- A submission expires: its row has no cost and no metric is due. -/
theorem Tracked.expired (h : Tracked t base s g) {id : Int32}
    (hallows : roundProtocol.allows g (.of submission (.expirePending id)))
    (hp : roundProtocol.Obeys p (g.settle submission none) fun _ g' => g'.owed = none) :
    (∃ g', Tracked t base ⟨IbcRelayer.expirePending id s.rows, some p,
        ⟨.of submission (.expirePending id), .ok ()⟩ :: s.log⟩ g')
      ∧ Progress s.rows (IbcRelayer.expirePending id s.rows) := by
  obtain ⟨howed, hsubmission, rfl⟩ := hallows
  obtain ⟨hrow, hpending⟩ := h.owned submission hsubmission
  have hexpire : submission.expire
      = { submission with status := .expired, executionError := none } := if_pos hpending
  have hsettled := h.settled (c := .of submission (.expirePending submission.id)) (r := .ok ())
    (f := Ibcv2RelayerTxSubmission.expire) hsubmission howed (fun r => ?_) ?_ ?_ ?_
    (fun _ _ => rfl) hp
  · exact ⟨⟨_, hsettled.1⟩, hsettled.2⟩
  · unfold Ibcv2RelayerTxSubmission.expire
    split <;> rfl
  · simp [hexpire]
  · -- a pending row has no cost
    have hcost := h.costs submission hrow
    simp only [Ibcv2RelayerTxSubmission.IsResolved, hpending, reduceCtorEq, or_self,
      false_iff] at hcost
    simp [hexpire, Ibcv2RelayerTxSubmission.IsResolved, hcost]
  · intro success chainID
    cases success <;> simp [hexpire]

/-- The metric is called; the account is even again. -/
theorem Tracked.confirmed (h : Tracked t base s g) {success : Bool}
    {chainID chainName chainEnvironment : String} (howed : g.owed = some (success, chainID))
    (hp : roundProtocol.Obeys p { g with owed := none } fun _ g' => g'.owed = none) :
    Tracked t base ⟨s.rows, some p,
      ⟨.of submission (.addTransactionConfirmed success chainID chainName chainEnvironment), ()⟩
        :: s.log⟩ { g with owed := none } := by
  refine ⟨h.ids, h.costs, h.owned, fun success' chainID' => ?_, fun _ => rfl, ?_⟩
  · have hcounted := h.counted success' chainID'
    rw [howed] at hcounted
    rw [confirmedCount_cons]
    simp only [TrackCall.confirms, Option.some.injEq, Prod.mk.injEq, reduceCtorEq, decide_false,
      Bool.toNat_false] at hcounted ⊢
    omega
  · rintro _ hround
    cases hround
    exact .inr hp

end Statements

/-- Every call of a round keeps the invariant. The answers are true of the table where the tracker
reads it; a statement may fail. -/
theorem Tracked.call (h : Tracked t base s g) {c : TrackCall}
    {k : c.Answer → Prog TrackCall.Answer (Except GoError Unit)}
    (hround : s.round = some (.call c k)) {r : c.Answer} (htruth : truthful s.rows c r = true) :
    (∃ g', Tracked t base ⟨act s.rows c r, some (k r), ⟨c, r⟩ :: s.log⟩ g')
      ∧ Progress s.rows (act s.rows c r) := by
  -- the first call of a round reads the submissions, and sets up the ledger
  rcases h.round _ hround with ⟨heq, howed⟩ | ⟨hallows, hnext⟩
  · cases heq
    refine ⟨h.read howed hround fun submissions hok => ?_, .refl _⟩
    subst hok
    exact of_decide_eq_true htruth
  · replace hnext := hnext r
    cases c with
    | getUnresolvedIBCV2RelayerTxSubmissions limit => exact hallows.elim
    | of submission c =>
      cases c with
      | updateTracking arg =>
        cases r with
        | error err => exact ⟨⟨g, h.asked rfl (fun _ _ => rfl) hnext⟩, .refl _⟩
        | ok _ => exact h.updated hallows hnext
      | expirePending id =>
        cases r with
        | error err => exact ⟨⟨g, h.asked rfl (fun _ _ => rfl) hnext⟩, .refl _⟩
        | ok _ => exact h.expired hallows hnext
      | addTransactionConfirmed success chainID chainName chainEnvironment =>
        exact ⟨⟨_, h.confirmed hallows hnext⟩, .refl _⟩
      | _ => exact ⟨⟨g, h.asked rfl (fun _ _ => rfl) hnext⟩, .refl _⟩

/-- A row that is inserted is pending and has no cost. -/
theorem Tracked.insert (h : Tracked t base s g) (params : InsertSubmissionParams) {id : Int32}
    (hfresh : id ∉ s.rows.map (·.id)) :
    Tracked t base { s with rows := s.rows ++ [params.toRow id] } g := by
  refine { h with ids := ?_, costs := fun r hr => ?_, owned := fun r hr => ?_, counted := ?_ }
  · rw [List.map_append, List.map_singleton, List.nodup_append_comm, List.singleton_append,
      List.nodup_cons]
    exact ⟨hfresh, h.ids⟩
  · rcases List.mem_append.mp hr with hr | hr
    · exact h.costs r hr
    · obtain rfl := List.mem_singleton.mp hr
      simp [Ibcv2RelayerTxSubmission.IsResolved, InsertSubmissionParams.toRow]
  · exact ⟨List.mem_append_left _ (h.owned r hr).1, (h.owned r hr).2⟩
  · intro success chainID
    have hnew : resolvedCount [params.toRow id] success chainID = 0 := by
      cases success <;> simp [resolvedCount, InsertSubmissionParams.toRow]
    change _ = (s.rows ++ [params.toRow id]).countP _
    rw [List.countP_append]
    change _ = resolvedCount s.rows success chainID
      + resolvedCount [params.toRow id] success chainID
    rw [hnew]
    exact h.counted success chainID

/-- Every step keeps the invariant: an insert, the start of a round, a call or the end of a round.
-/
theorem Tracked.step (h : Tracked t base s g) {a : Action} (hstep : s.step t a = some s') :
    (∃ g', Tracked t base s' g') ∧ Progress s.rows s'.rows := by
  cases step_cases hstep with
  | insert hid hkey =>
    exact ⟨⟨g, h.insert _ hid⟩, fun r hr => ⟨r, List.mem_append_left _ hr, rfl, .inl rfl⟩⟩
  | start hidle =>
    refine ⟨⟨g, { h with idle := fun hnone => (by cases hnone), round := ?_ }⟩, .refl _⟩
    rintro p hp
    cases hp
    exact .inl ⟨rfl, h.idle hidle⟩
  | call hround htruth => exact h.call hround htruth
  -- a round that obeys ends with nothing due
  | finish hround =>
    refine ⟨⟨g, { h with idle := fun _ => ?_, round := fun p hp => (by cases hp) }⟩, .refl _⟩
    rcases h.round _ hround with ⟨heq, -⟩ | hobeys
    · cases heq
    · exact hobeys

/-- The tracker has not started yet. -/
def start (T : SubmissionTable) : CostTracking := { rows := T.rows }

/-- Before the first round nothing is owned and nothing is due. -/
theorem tracked_start (t : SubmittedTxCostTracker) (T : SubmissionTable) :
    Tracked t T.rows (start T) ⟨[], none⟩ where
  ids := T.ids
  costs := T.costs
  owned := by simp
  counted := fun _ _ => rfl
  idle := fun _ => rfl
  round := fun _ hround => by cases hround

/-- The run lemma. -/
theorem run_tracked {P : CostTracking → Action → Prop} (hs : ∃ g, Tracked t base s g)
    (hrun : Machine.Run (step t) P s s') :
    (∃ g', Tracked t base s' g') ∧ Progress s.rows s'.rows := by
  refine hrun.inv (I := fun s' => (∃ g', Tracked t base s' g') ∧ Progress s.rows s'.rows)
    ⟨hs, .refl _⟩ ?_
  rintro s₁ a s₂ ⟨⟨g, hg⟩, hprogress⟩ - hstep
  obtain ⟨htracked, hprogress'⟩ := hg.step hstep
  exact ⟨htracked, hprogress.trans hprogress'⟩

end CostTracking

/-! ## Each submission on its own -/

/-- The events of a submission. -/
def eventsFor (submission : Ibcv2RelayerTxSubmission) (log : List TrackEvent) :
    List SubmissionEvent :=
  log.filterMap fun
    | ⟨.of submission' c, r⟩ => if submission' = submission then some ⟨c, r⟩ else none
    | ⟨.getUnresolvedIBCV2RelayerTxSubmissions _, _⟩ => none

/-- A round that finds these submissions, in which the calls for a submission are answered by what
has happened with this submission. -/
def separately (submissions : List Ibcv2RelayerTxSubmission)
    (answers : Ibcv2RelayerTxSubmission → List SubmissionEvent → (c : SubmissionCall) → c.Answer) :
    List TrackEvent → (c : TrackCall) → c.Answer :=
  fun past c =>
    match c with
    | .getUnresolvedIBCV2RelayerTxSubmissions _ => .ok submissions
    | .of submission c => answers submission (eventsFor submission past) c

section Separate

variable {submissions : List Ibcv2RelayerTxSubmission}
  {answers : Ibcv2RelayerTxSubmission → List SubmissionEvent → (c : SubmissionCall) → c.Answer}
  {submission : Ibcv2RelayerTxSubmission}

theorem eventsFor_self (c : SubmissionCall) (r : c.Answer) (past : List TrackEvent) :
    eventsFor submission (⟨.of submission c, r⟩ :: past) = ⟨c, r⟩ :: eventsFor submission past :=
  List.filterMap_cons_some (if_pos rfl)

theorem eventsFor_other {other : Ibcv2RelayerTxSubmission} (h : other ≠ submission)
    (c : SubmissionCall) (r : c.Answer) (past : List TrackEvent) :
    eventsFor other (⟨.of submission c, r⟩ :: past) = eventsFor other past :=
  List.filterMap_cons_none (if_neg h.symm)

/-- The calls of `p`, made for the submission after `past`. -/
def recordFor {α : Type} (submissions : List Ibcv2RelayerTxSubmission)
    (answers : Ibcv2RelayerTxSubmission → List SubmissionEvent → (c : SubmissionCall) → c.Answer)
    (submission : Ibcv2RelayerTxSubmission) (p : Prog SubmissionCall.Answer α)
    (past : List TrackEvent) : List TrackEvent :=
  ((translate (A := SubmissionCall.Answer) (B := TrackCall.Answer)
    (fun c => .call (.of submission c) .done) p).record (separately submissions answers) past).2

/-- What is done for a submission is what would be done for it alone, and nothing is done for
another one. -/
theorem eventsFor_recordFor {α : Type} (submissions : List Ibcv2RelayerTxSubmission)
    (answers : Ibcv2RelayerTxSubmission → List SubmissionEvent → (c : SubmissionCall) → c.Answer)
    (submission : Ibcv2RelayerTxSubmission) (p : Prog SubmissionCall.Answer α)
    (past : List TrackEvent) :
    eventsFor submission (recordFor submissions answers submission p past)
        = (p.record (answers submission) (eventsFor submission past)).2
      ∧ ∀ other, other ≠ submission →
        eventsFor other (recordFor submissions answers submission p past)
          = eventsFor other past := by
  -- along the calls; each event is one of this submission
  induction p generalizing past with
  | done a => exact ⟨rfl, fun _ _ => rfl⟩
  | call c k ih =>
    let r := answers submission (eventsFor submission past) c
    obtain ⟨hown, hothers⟩ := ih r (⟨.of submission c, r⟩ :: past)
    rw [eventsFor_self] at hown
    exact ⟨hown, fun other hother => (hothers other hother).trans (eventsFor_other hother c r past)⟩

variable (t : SubmittedTxCostTracker)

/-- A round does nothing for a submission that it has not read. -/
theorem eventsFor_trackAll_of_notMem {rest : List Ibcv2RelayerTxSubmission}
    (h : submission ∉ rest) (past : List TrackEvent) :
    eventsFor submission ((t.trackAll rest).record (separately submissions answers) past).2
      = eventsFor submission past := by
  induction rest generalizing past with
  | nil => rfl
  | cons other rest ih =>
    obtain ⟨hother, hrest⟩ := not_or.mp (mt List.mem_cons.mpr h)
    rw [SubmittedTxCostTracker.trackAll, record, run_bind]
    obtain ⟨-, hothers⟩ := eventsFor_recordFor submissions answers other
      (t.trackSubmission other).run past
    exact (ih hrest _).trans (hothers submission hother)

/-- The loop does for a submission what its own answers make of it: nothing was done for it before
its turn, and nothing is after it. -/
theorem eventsFor_trackAll {rest : List Ibcv2RelayerTxSubmission} (hnodup : rest.Nodup)
    (hmem : submission ∈ rest) {past : List TrackEvent} (hpast : eventsFor submission past = []) :
    eventsFor submission ((t.trackAll rest).record (separately submissions answers) past).2
      = ((t.trackSubmission submission).run.record (answers submission) []).2 := by
  induction rest generalizing past with
  | nil => cases hmem
  | cons first rest ih =>
    obtain ⟨hfirst, hnodup⟩ := List.nodup_cons.mp hnodup
    rw [SubmittedTxCostTracker.trackAll, record, run_bind]
    obtain ⟨hown, hothers⟩ := eventsFor_recordFor submissions answers first
      (t.trackSubmission first).run past
    by_cases heq : submission = first
    · subst heq
      rw [hpast] at hown
      exact (eventsFor_trackAll_of_notMem t hfirst _).trans hown
    · exact ih hnodup ((List.mem_cons.mp hmem).resolve_left heq)
        ((hothers submission heq).trans hpast)

/-- In a round, a submission gets what its own answers make of it. -/
theorem eventsFor_track (hnodup : submissions.Nodup) (hmem : submission ∈ submissions) :
    eventsFor submission (t.track.record (separately submissions answers) []).2
      = ((t.trackSubmission submission).run.record (answers submission) []).2 := by
  change eventsFor submission ((t.trackUnresolved (.ok submissions)).record
    (separately submissions answers)
    [⟨.getUnresolvedIBCV2RelayerTxSubmissions t.batchSize, .ok submissions⟩]).2 = _
  rw [SubmittedTxCostTracker.trackUnresolved, record, run_bind]
  exact eventsFor_trackAll t hnodup hmem rfl

end Separate

/-! ## Every run -/

namespace CostTracking

/-- **A submission is resolved once, and completely.** In every run of one tracker, from any state
`s` that is reached to any later state `s'`:

* a row keeps its status, or it is pending and gets resolved or expires;
* the rows with a cost are those that succeeded or failed;
* between two rounds, the metric was called once for each row that got its outcome;
* in a round, what is done for a submission depends on its own answers alone. -/
theorem submissions_resolve_once (t : SubmittedTxCostTracker) (T : SubmissionTable)
    {s s' : CostTracking} (hrun : Machine.Run (step t) (fun _ _ => True) (start T) s)
    (hlater : Machine.Run (step t) (fun _ _ => True) s s') :
    Progress s.rows s'.rows
      ∧ (∀ r ∈ s.rows, r.IsResolved ↔ r.gasCostAmount.isSome = true)
      ∧ (s.round = none → ∀ success chainID,
        resolvedCount T.rows success chainID + confirmedCount s.log success chainID
          = resolvedCount s.rows success chainID)
      ∧ ∀ submissions : List Ibcv2RelayerTxSubmission, submissions.Nodup →
        ∀ answers, ∀ submission ∈ submissions,
          eventsFor submission (t.track.record (separately submissions answers) []).2
            = ((t.trackSubmission submission).run.record (answers submission) []).2 := by
  obtain ⟨hs, -⟩ := run_tracked ⟨_, tracked_start t T⟩ hrun
  refine ⟨(run_tracked hs hlater).2, ?_⟩
  obtain ⟨g, hg⟩ := hs
  refine ⟨hg.costs, fun hidle success chainID => ?_,
    fun submissions hnodup answers submission hmem => eventsFor_track t hnodup hmem⟩
  have hcounted := hg.counted success chainID
  rw [hg.idle hidle] at hcounted
  simpa using hcounted

end CostTracking

/-! ## A round -/

namespace Sample

def tracker : SubmittedTxCostTracker := .new config false 0 (6 * 60 * minute)

def noSubmissions : SubmissionTable := ⟨[], by simp, by simp⟩

def delivered : InsertSubmissionParams where
  txHash := "0xd1"
  chainID := "1"
  txType := .recvPacket
  relayerAddress := "relayer"
  submittedAt := { unixNano := 500 }

/-- The submission is read, its tx has succeeded, and every statement succeeds. -/
def resolving : (c : TrackCall) → c.Answer
  | .getUnresolvedIBCV2RelayerTxSubmissions _ => .ok [delivered.toRow 1]
  | .of _ c =>
    match c with
    | .now => ⟨1000, 0⟩
    | .expirePending _ => .ok ()
    | .getClient _ => .ok ()
    | .txExecutionStatus .. => .ok ⟨.success, ""⟩
    | .txFee .. => .ok (some 42)
    | .getCoinUsdValue .. => .ok none
    | .scanNumeric _ => .ok ⟨42, 0⟩
    | .updateTracking _ => .ok ()
    | .addTransactionConfirmed .. => ()
    | .addTransactionGasCost .. => ()

/-- A submission is inserted, and a round is made. -/
def oneRound : List CostTracking.Action :=
  [.insert delivered 1, .start] ++ List.replicate 9 (.call resolving) ++ [.finish]

end Sample

namespace CostTracking

/-- `submissions_resolve_once` after a round in which a submission has succeeded. -/
theorem submissions_resolve_once_one_round : ∃ s : CostTracking,
    Machine.Run (step Sample.tracker) (fun _ _ => True) (start Sample.noSubmissions) s
      ∧ s.rows.map (·.status) = [.success] ∧ s.round.isNone = true
      ∧ confirmedCount s.log true "1" = 1
      ∧ resolvedCount Sample.noSubmissions.rows true "1" + confirmedCount s.log true "1"
        = resolvedCount s.rows true "1" := by
  have hscript : (Machine.script (step Sample.tracker) (fun _ _ => true)
      (start Sample.noSubmissions) Sample.oneRound).any (fun s =>
        s.rows.map (·.status) = [.success] ∧ s.round.isNone = true
          ∧ confirmedCount s.log true "1" = 1) = true := by
    decide +kernel
  obtain ⟨s, hs, hend⟩ := (Option.any_eq_true _ _).mp hscript
  obtain ⟨hrows, hidle, hconfirmed⟩ := of_decide_eq_true hend
  have hrun := Machine.run_of_script (P := fun _ _ => True) (fun _ _ _ => trivial) hs
  obtain ⟨-, -, hcounted, -⟩ := submissions_resolve_once Sample.tracker Sample.noSubmissions hrun
    Machine.Run.refl
  exact ⟨s, hrun, hrows, hidle, hconfirmed, hcounted (Option.isNone_iff_eq_none.mp hidle) true "1"⟩

end CostTracking

end IbcRelayer
