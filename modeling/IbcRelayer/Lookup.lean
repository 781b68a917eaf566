import IbcRelayer.Resolution

/-!
# IbcRelayer — what a round makes of a submission

`trackSubmission` finds the submission too old, has no client for its chain, fails to look up its
tx, or resolves it: `Outcome`. A round comes to one of these for every submission that it has read
(`trackUnresolved_grows`).

* `rounds` — the log of the tracker, cut where a round has read its submissions.
* `FailedLookup` — the chain of a submission was asked, and the lookup failed.
* `lookupProtocol` — what the rest of a round may do; the ledger is the round so far.
* `LooksUp` — the programs that fail only if a call of the lookup fails.
-/

namespace IbcRelayer

open CallTree Prog

/-! ## The rounds of a log -/

/-- The call with which a round begins. -/
def TrackCall.reads : TrackCall → Bool
  | .getUnresolvedIBCV2RelayerTxSubmissions _ => true
  | .of _ _ => false

/-- The rounds of a log, the latest first. A round starts with what it has read. -/
def rounds (log : List TrackEvent) : List (List TrackEvent) :=
  log.splitOnP (·.call.reads)

section Rounds

variable {submission : Ibcv2RelayerTxSubmission} {log round : List TrackEvent}

theorem rounds_read (limit : Int32) (r : Except GoError (List Ibcv2RelayerTxSubmission))
    (log : List TrackEvent) :
    rounds (⟨.getUnresolvedIBCV2RelayerTxSubmissions limit, r⟩ :: log) = [] :: rounds log := by
  rw [rounds, List.splitOnP_cons_eq_if_modifyHead]
  exact if_pos rfl

/-- What is done for a submission belongs to the latest round. -/
theorem rounds_of {past : List (List TrackEvent)} (h : rounds log = round :: past)
    (submission : Ibcv2RelayerTxSubmission) (c : SubmissionCall) (r : c.Answer) :
    rounds (⟨.of submission c, r⟩ :: log) = (⟨.of submission c, r⟩ :: round) :: past := by
  rw [rounds, List.splitOnP_cons_eq_if_modifyHead, ← rounds, h]
  exact if_neg Bool.false_ne_true

/-- An event of a submission is in the log, under its name. -/
theorem mem_of_mem_eventsFor {c : SubmissionCall} {r : c.Answer}
    (h : ⟨c, r⟩ ∈ eventsFor submission log) : ⟨.of submission c, r⟩ ∈ log := by
  obtain ⟨⟨c', r'⟩, he, hsome⟩ := List.mem_filterMap.mp h
  cases c' with
  | getUnresolvedIBCV2RelayerTxSubmissions limit => cases hsome
  | of submission' c' =>
    dsimp only at hsome
    by_cases heq : submission' = submission
    · rw [if_pos heq] at hsome
      cases hsome
      exact heq ▸ he
    · rw [if_neg heq] at hsome
      cases hsome

/-- What is done for a submission, round by round. -/
theorem eventsFor_eq_flatMap (submission : Ibcv2RelayerTxSubmission) (log : List TrackEvent) :
    eventsFor submission log = (rounds log).flatMap (eventsFor submission) := by
  induction log with
  | nil => rfl
  | cons e log ih =>
    obtain ⟨c, r⟩ := e
    cases c with
    | getUnresolvedIBCV2RelayerTxSubmissions limit =>
      rw [rounds_read]
      exact ih
    | of submission' c =>
      -- a log has a latest round, if only an empty one
      obtain ⟨round, past, hrounds⟩ : ∃ round past, rounds log = round :: past :=
        List.exists_cons_of_ne_nil (List.splitOnP_ne_nil _ log)
      rw [rounds_of hrounds, List.flatMap_cons]
      rw [hrounds, List.flatMap_cons] at ih
      by_cases heq : submission = submission'
      · rw [heq] at ih ⊢
        rw [eventsFor_self, eventsFor_self, ih, List.cons_append]
      · rw [eventsFor_other heq, eventsFor_other heq, ih]

end Rounds

/-! ## Lookups -/

/-- The calls of a lookup that may fail: the question for the outcome of the tx, the one for its
fee, and the write, with the conversion of the fee that it needs. -/
inductive LookupFails (submission : Ibcv2RelayerTxSubmission) : SubmissionEvent → Prop where
  | status (err : GoError) : LookupFails submission
      ⟨.txExecutionStatus submission.chainID submission.txHash, .error err⟩
  | fee (err : GoError) : LookupFails submission
      ⟨.txFee submission.chainID submission.txHash, .error err⟩
  | numeric (text : String) (err : GoError) : LookupFails submission ⟨.scanNumeric text, .error err⟩
  | write (arg : UpdateTrackingParams) (err : GoError) :
      LookupFails submission ⟨.updateTracking arg, .error err⟩

/-- Among the events of a submission in a round: its chain was asked for the outcome of its tx, and
the lookup failed. -/
structure FailedLookup (submission : Ibcv2RelayerTxSubmission) (evs : List SubmissionEvent) :
    Prop where
  asked : ∃ r, ⟨.txExecutionStatus submission.chainID submission.txHash, r⟩ ∈ evs
  failed : ∃ e ∈ evs, LookupFails submission e

/-- The clock was read for the submission, which is the first thing that a round does for it. -/
def TakenUp (submission : Ibcv2RelayerTxSubmission) (log : List TrackEvent) : Prop :=
  ∃ now, ⟨.now, now⟩ ∈ eventsFor submission log

/-- A submission that was taken up was so in one of the rounds. -/
theorem TakenUp.exists_round {submission : Ibcv2RelayerTxSubmission} {log : List TrackEvent}
    (h : TakenUp submission log) : ∃ round ∈ rounds log, TakenUp submission round := by
  obtain ⟨now, hnow⟩ := h
  rw [eventsFor_eq_flatMap] at hnow
  obtain ⟨round, hround, hnow⟩ := List.mem_flatMap.mp hnow
  exact ⟨round, hround, now, hnow⟩

namespace SubmittedTxCostTracker

variable (t : SubmittedTxCostTracker)

/-- The test of `isExpired`. -/
def IsLate (submission : Ibcv2RelayerTxSubmission) (now : Time) : Prop :=
  submission.submittedAt.unixNano + t.attemptExpiry < now.unixNano

instance (submission : Ibcv2RelayerTxSubmission) (now : Time) :
    Decidable (t.IsLate submission now) :=
  inferInstanceAs (Decidable (_ < _))

/-- The submission was too old when its turn came. -/
def FoundLate (submission : Ibcv2RelayerTxSubmission) (evs : List SubmissionEvent) : Prop :=
  ∃ now, ⟨.now, now⟩ ∈ evs ∧ t.IsLate submission now

/-- What a round has made of a submission. -/
inductive Outcome (submission : Ibcv2RelayerTxSubmission) (evs : List SubmissionEvent) : Prop where
  | late (h : t.FoundLate submission evs)
  | noClient {err : GoError} (h : ⟨.getClient submission.chainID, .error err⟩ ∈ evs)
  | failed (h : FailedLookup submission evs)
  | resolved {arg : UpdateTrackingParams} (h : ⟨.updateTracking arg, .ok ()⟩ ∈ evs)

end SubmittedTxCostTracker

/-! ## What a round may do -/

/-- The calls of a round over these submissions; the ledger is the round so far. -/
def lookupProtocol (t : SubmittedTxCostTracker) (submissions : List Ibcv2RelayerTxSubmission) :
    Protocol TrackCall.Answer (List TrackEvent) where
  allows round
    | .getUnresolvedIBCV2RelayerTxSubmissions _ => False
    | .of submission .now => submission ∈ submissions ∧ eventsFor submission round = []
    | .of submission (.expirePending _) =>
      submission ∈ submissions ∧ t.FoundLate submission (eventsFor submission round)
    | .of submission _ => submission ∈ submissions
  next round c r := ⟨c, r⟩ :: round

/-- Something may have been done for the submission, and nothing for another one. -/
structure Grows (submission : Ibcv2RelayerTxSubmission) (round round' : List TrackEvent) :
    Prop where
  own : eventsFor submission round ⊆ eventsFor submission round'
  others : ∀ other, other ≠ submission → eventsFor other round' = eventsFor other round

section Grows

variable {submission : Ibcv2RelayerTxSubmission} {round round' round'' : List TrackEvent}

theorem Grows.refl (round : List TrackEvent) : Grows submission round round :=
  ⟨List.Subset.refl _, fun _ _ => rfl⟩

theorem Grows.trans (h : Grows submission round round') (h' : Grows submission round' round'') :
    Grows submission round round'' :=
  ⟨List.Subset.trans h.own h'.own,
    fun other hother => (h'.others other hother).trans (h.others other hother)⟩

theorem grows_call (submission : Ibcv2RelayerTxSubmission) (round : List TrackEvent)
    (c : SubmissionCall) (r : c.Answer) :
    Grows submission round (⟨.of submission c, r⟩ :: round) where
  own := by
    rw [eventsFor_self]
    exact List.subset_cons_self _ _
  others := fun _ hother => eventsFor_other hother c r round

theorem mem_eventsFor_call (submission : Ibcv2RelayerTxSubmission) (round : List TrackEvent)
    (c : SubmissionCall) (r : c.Answer) :
    ⟨c, r⟩ ∈ eventsFor submission (⟨.of submission c, r⟩ :: round) := by
  rw [eventsFor_self]
  exact List.mem_cons_self

end Grows

namespace SubmittedTxCostTracker

variable {submission : Ibcv2RelayerTxSubmission} {submissions : List Ibcv2RelayerTxSubmission}
  {round : List TrackEvent}

/-- The protocol for the calls that are made for a submission. -/
abbrev lookupFor (t : SubmittedTxCostTracker) (submissions : List Ibcv2RelayerTxSubmission)
    (submission : Ibcv2RelayerTxSubmission) : Protocol SubmissionCall.Answer (List TrackEvent) :=
  (lookupProtocol t submissions).comap (.of submission)

/-! ## A lookup -/

/-- `trackSubmission` for a submission that has not expired. -/
def lookUp (t : SubmittedTxCostTracker) (submission : Ibcv2RelayerTxSubmission) : Track Unit := do
  let tx := submission.txHash ++ " on chain " ++ submission.chainID
  Track.wrapErr ("getting bridge client for chain " ++ submission.chainID)
    (.mk (.call (.getClient submission.chainID) .done))
  let executionStatus ← Track.wrapErr ("getting execution status for tx " ++ tx)
    (.mk (.call (.txExecutionStatus submission.chainID submission.txHash) .done))
  let (gasCostAmount, gasCostUSD) ← Track.wrapErr ("resolving gas costs for tx " ++ tx)
    (t.resolveGasCosts submission)
  t.writeResolved submission executionStatus gasCostAmount gasCostUSD

/-- `trackSubmission` marks the submission as expired or looks it up. -/
theorem trackSubmission_eq (t : SubmittedTxCostTracker) (submission : Ibcv2RelayerTxSubmission) :
    t.trackSubmission submission = (do
      if ← t.isExpired submission then
        Track.wrapErr ("marking submission " ++ toString submission.id.toInt ++ " expired")
          (.mk (.call (.expirePending submission.id) .done))
      else
        t.lookUp submission) := rfl

variable (t : SubmittedTxCostTracker)

/-- The price is asked for at most once. Its error is not returned, so nothing is said about it. -/
theorem getGasCostUSD_grows (hmem : submission ∈ submissions) (chainID : String) (amount : Int) :
    (t.lookupFor submissions submission).Obeys (t.getGasCostUSD chainID amount).run round
      fun _ round' => Grows submission round round' := by
  unfold getGasCostUSD
  split
  · exact .refl round
  split
  · exact .refl round
  cases t.config chainID with
  | error err => exact .refl round
  | ok chainConfig =>
    dsimp only
    cases chainConfig.gasTokenCoingeckoID with
    | none => exact .refl round
    | some coingeckoID =>
      dsimp only
      split
      · exact .refl round
      · exact ⟨hmem, fun r => grows_call submission round _ r⟩

/-- A call of the lookup has failed. -/
def Failed (submission : Ibcv2RelayerTxSubmission) (round : List TrackEvent) : Prop :=
  ∃ e ∈ eventsFor submission round, LookupFails submission e

theorem Failed.mono {round' : List TrackEvent} (h : Failed submission round)
    (hgrows : Grows submission round round') : Failed submission round' := by
  obtain ⟨e, he, hfails⟩ := h
  exact ⟨e, hgrows.own he, hfails⟩

/-- The program fails only if a call of the lookup fails. -/
def LooksUp {α : Type} (submissions : List Ibcv2RelayerTxSubmission)
    (submission : Ibcv2RelayerTxSubmission) (x : Track α) : Prop :=
  ∀ round, (t.lookupFor submissions submission).Obeys x.run round fun r round' =>
    Grows submission round round' ∧ ∀ err, r = .error err → Failed submission round'

section LooksUp

variable {t} {α β : Type}

/-- The rule for the parts of a lookup: the second one runs unless a call of the first one has
failed. -/
theorem LooksUp.bind {x : Track α} {f : α → Track β} {R : Except GoError β → List TrackEvent → Prop}
    (h : t.LooksUp submissions submission x)
    (hf : ∀ a round', Grows submission round round' →
      (t.lookupFor submissions submission).Obeys (f a).run round' R)
    (herror : ∀ err round', Grows submission round round' → Failed submission round' →
      R (.error err) round') :
    (t.lookupFor submissions submission).Obeys (x >>= f).run round R :=
  (h round).except_bind (fun a round' hx => hf a round' hx.1)
    fun err round' hx => herror err round' hx.1 (hx.2 err rfl)

/-- Wrapping adds no failure. -/
theorem LooksUp.wrapErr {x : Track α} (h : t.LooksUp submissions submission x) (msg : String) :
    t.LooksUp submissions submission (Track.wrapErr msg x) :=
  fun round => obeys_wrapErr msg (h round) fun err _ hx => ⟨hx.1, fun _ _ => hx.2 err rfl⟩

theorem looksUp_call {c : SubmissionCall} {k : c.Answer → Except GoError α}
    (hallows : ∀ round, (t.lookupFor submissions submission).allows round c)
    (hfails : ∀ r err, k r = .error err → LookupFails submission ⟨c, r⟩) :
    t.LooksUp submissions submission (.mk (.call c fun r => .done (k r))) := by
  intro round
  refine ⟨hallows round, fun r => ⟨grows_call submission round c r, fun err herr => ?_⟩⟩
  exact ⟨⟨c, r⟩, mem_eventsFor_call submission round c r, hfails r err herr⟩

end LooksUp

/-- The costs are known unless the fee is not; the price does not matter. -/
theorem looksUp_resolveGasCosts (hmem : submission ∈ submissions) :
    t.LooksUp submissions submission (t.resolveGasCosts submission) := by
  intro round
  have hfee : t.LooksUp submissions submission
      (.mk (.call (.txFee submission.chainID submission.txHash) .done) : Track (Option Int)) :=
    looksUp_call (c := .txFee submission.chainID submission.txHash) (k := fun r => r)
      (fun _ => hmem) (by rintro _ err rfl; exact .fee err)
  refine (hfee.wrapErr _).bind (fun fee round' hgrows => ?_) fun err round' hgrows hfailed =>
    ⟨hgrows, fun _ _ => hfailed⟩
  refine Protocol.Obeys.except_bind (Q := fun r round'' => Grows submission round round''
    ∧ ∃ usd, r = .ok usd) ?_ (fun usd round'' hQ => ⟨hQ.1, fun _ herr => (by cases herr)⟩) ?_
  -- the error about the price is logged and dropped
  · refine (t.getGasCostUSD_grows hmem submission.chainID _).bind fun r round'' hgrows' => ?_
    cases r with
    | error err => exact ⟨hgrows.trans hgrows', none, rfl⟩
    | ok usd => exact ⟨hgrows.trans hgrows', usd, rfl⟩
  · rintro err round'' ⟨-, usd, hok⟩
    cases hok

/-- The metrics cannot fail. -/
theorem looksUp_recordResolvedSubmissionMetrics (hmem : submission ∈ submissions)
    (status : TxExecution) (gasCostAmount : Option Int) :
    t.LooksUp submissions submission
      (t.recordResolvedSubmissionMetrics submission status gasCostAmount) := by
  intro round
  refine ⟨hmem, fun r => ?_⟩
  have hfirst := grows_call submission round _ r
  cases gasCostAmount with
  | none => exact ⟨hfirst, fun err herr => (by cases herr)⟩
  | some amount =>
    refine ⟨hmem, fun r' => ⟨hfirst.trans (grows_call submission _ _ r'), fun err herr => ?_⟩⟩
    cases herr

/-- The submission is resolved, or its lookup has failed. -/
def Concluded (submission : Ibcv2RelayerTxSubmission) (round : List TrackEvent) : Prop :=
  Failed submission round ∨ ∃ arg, ⟨.updateTracking arg, .ok ()⟩ ∈ eventsFor submission round

theorem Concluded.mono {round' : List TrackEvent} (h : Concluded submission round)
    (hgrows : Grows submission round round') : Concluded submission round' := by
  rcases h with hfailed | ⟨arg, hwritten⟩
  · exact .inl (hfailed.mono hgrows)
  · exact .inr ⟨arg, hgrows.own hwritten⟩

/-- The write concludes the lookup, whether it fails or not, and what comes after it changes nothing
about that. -/
theorem update_grows (hmem : submission ∈ submissions) (msg : String)
    (update : UpdateTrackingParams) {rest : Track Unit}
    (hrest : t.LooksUp submissions submission rest) :
    (t.lookupFor submissions submission).Obeys
      (Track.wrapErr msg (.mk (.call (.updateTracking update) .done)) >>= fun _ : Unit => rest).run
      round fun _ round' => Grows submission round round' ∧ Concluded submission round' := by
  have hwrite : (t.lookupFor submissions submission).Obeys
      (Track.wrapErr msg (.mk (.call (.updateTracking update) .done)) : Track Unit).run round
      fun _ round' => Grows submission round round' ∧ Concluded submission round' := by
    refine obeys_wrapErr msg ⟨hmem, fun r => ⟨grows_call submission round _ r, ?_⟩⟩ fun _ _ hQ => hQ
    have hevent := mem_eventsFor_call submission round (.updateTracking update) r
    -- the answer to the write is the conclusion
    cases r with
    | error err => exact .inl ⟨_, hevent, .write update err⟩
    | ok _ => exact .inr ⟨update, hevent⟩
  refine hwrite.except_bind (fun _ round' hQ => ?_) fun _ _ hQ => hQ
  refine (hrest round').mono fun _ round'' hgrows => ?_
  exact ⟨hQ.1.trans hgrows.1, hQ.2.mono hgrows.1⟩

/-- The conversion of the fee may fail before the write, and concludes the lookup then. -/
theorem writeResolved_grows (hmem : submission ∈ submissions) (status : TxExecutionStatus)
    (gasCostAmount : Option Int) (gasCostUSD : Option Numeric) :
    (t.lookupFor submissions submission).Obeys
      (t.writeResolved submission status gasCostAmount gasCostUSD).run round
      fun _ round' => Grows submission round round' ∧ Concluded submission round' := by
  have hmetrics := t.looksUp_recordResolvedSubmissionMetrics hmem status.status gasCostAmount
  unfold writeResolved
  dsimp only
  cases gasCostAmount with
  | none =>
    dsimp only
    rw [pure_bind]
    exact t.update_grows hmem _ _ hmetrics
  | some amount =>
    have hscan : t.LooksUp submissions submission (bigIntToNumeric amount) :=
      looksUp_call (c := .scanNumeric (toString amount)) (k := fun r => r) (fun _ => hmem)
        (by rintro _ err rfl; exact .numeric _ err)
    dsimp only
    rw [map_eq_pure_bind, LawfulMonad.bind_assoc]
    refine (hscan.wrapErr _).bind (fun numeric round' hgrows => ?_) fun err round' hgrows hfailed =>
      ⟨hgrows, .inl hfailed⟩
    rw [pure_bind]
    refine (t.update_grows hmem _ _ hmetrics).mono fun _ round'' hQ => ?_
    exact ⟨hgrows.trans hQ.1, hQ.2⟩

/-- The chain was asked for the outcome of the tx. -/
def Asked (submission : Ibcv2RelayerTxSubmission) (round : List TrackEvent) : Prop :=
  ∃ r, ⟨.txExecutionStatus submission.chainID submission.txHash, r⟩ ∈ eventsFor submission round

/-- A lookup in which the chain was asked, and which is concluded. -/
theorem outcome_of_concluded (hasked : Asked submission round)
    (h : Concluded submission round) : t.Outcome submission (eventsFor submission round) := by
  rcases h with hfailed | ⟨arg, hwritten⟩
  · exact .failed ⟨hasked, hfailed⟩
  · exact .resolved hwritten

/-- `lookUp` from the point where there is a client. -/
theorem status_grows (hmem : submission ∈ submissions) (msg msg' : String) :
    (t.lookupFor submissions submission).Obeys
      (do
        let executionStatus ← Track.wrapErr msg
          (.mk (.call (.txExecutionStatus submission.chainID submission.txHash) .done))
        let (gasCostAmount, gasCostUSD) ← Track.wrapErr msg' (t.resolveGasCosts submission)
        t.writeResolved submission executionStatus gasCostAmount gasCostUSD : Track Unit).run round
      fun _ round' => Grows submission round round' ∧ Asked submission round'
        ∧ Concluded submission round' := by
  have hstatus : (t.lookupFor submissions submission).Obeys
      (Track.wrapErr msg (.mk (.call (.txExecutionStatus submission.chainID submission.txHash)
        .done)) : Track TxExecutionStatus).run round
      fun r round' => Grows submission round round' ∧ Asked submission round'
        ∧ ∀ err, r = .error err → Failed submission round' := by
    refine obeys_wrapErr msg ⟨hmem, fun r => ?_⟩ fun err _ hQ =>
      ⟨hQ.1, hQ.2.1, fun _ _ => hQ.2.2 err rfl⟩
    have hevent := mem_eventsFor_call submission round
      (.txExecutionStatus submission.chainID submission.txHash) r
    refine ⟨grows_call submission round _ r, ⟨r, hevent⟩, fun err herr => ?_⟩
    -- an error about the status is a failed lookup
    obtain rfl : r = .error err := herr
    exact ⟨_, hevent, .status err⟩
  refine hstatus.except_bind (fun status round₁ hQ => ?_) fun err round' hQ =>
    ⟨hQ.1, hQ.2.1, .inl (hQ.2.2 err rfl)⟩
  obtain ⟨hgrows₁, ⟨r, hasked⟩, -⟩ := hQ
  refine ((t.looksUp_resolveGasCosts hmem).wrapErr msg').bind (fun costs round₂ hgrows₂ => ?_)
    fun err round₂ hgrows₂ hfailed => ⟨hgrows₁.trans hgrows₂, ⟨r, hgrows₂.own hasked⟩, .inl hfailed⟩
  refine (t.writeResolved_grows hmem status _ _).mono fun _ round₃ hQ => ?_
  exact ⟨(hgrows₁.trans hgrows₂).trans hQ.1, ⟨r, hQ.1.own (hgrows₂.own hasked)⟩, hQ.2⟩

/-- A lookup without a client is over at once; with one, the chain is asked. -/
theorem lookUp_grows (hmem : submission ∈ submissions) :
    (t.lookupFor submissions submission).Obeys (t.lookUp submission).run round fun _ round' =>
      Grows submission round round' ∧ t.Outcome submission (eventsFor submission round') := by
  have hclient (msg : String) : (t.lookupFor submissions submission).Obeys
      (Track.wrapErr msg (.mk (.call (.getClient submission.chainID) .done)) : Track Unit).run round
      fun r round' => Grows submission round round' ∧ ∀ err, r = .error err →
        t.Outcome submission (eventsFor submission round') := by
    refine obeys_wrapErr msg ⟨hmem, fun r => ⟨grows_call submission round _ r, fun err herr => ?_⟩⟩
      fun err _ hQ => ⟨hQ.1, fun _ _ => hQ.2 err rfl⟩
    obtain rfl : r = .error err := herr
    exact .noClient (mem_eventsFor_call submission round _ _)
  refine (hclient _).except_bind (fun _ round₁ hgrows₁ => ?_) fun err _ hQ => ⟨hQ.1, hQ.2 err rfl⟩
  refine (t.status_grows hmem _ _).mono fun _ round₂ hQ => ?_
  exact ⟨hgrows₁.1.trans hQ.1, t.outcome_of_concluded hQ.2.1 hQ.2.2⟩

/-- An outcome stays in the round. -/
theorem Outcome.mono {evs evs' : List SubmissionEvent} (h : t.Outcome submission evs)
    (hsub : evs ⊆ evs') : t.Outcome submission evs' := by
  cases h with
  | late h =>
    obtain ⟨now, hnow, hlate⟩ := h
    exact .late ⟨now, hsub hnow, hlate⟩
  | noClient h => exact .noClient (hsub h)
  | failed h =>
    obtain ⟨⟨r, hasked⟩, e, he, hfails⟩ := h
    exact .failed ⟨⟨r, hsub hasked⟩, e, hsub he, hfails⟩
  | resolved h => exact .resolved (hsub h)

/-- One submission that the round has not taken up yet: it is found late, or looked up. -/
theorem trackSubmission_grows (hmem : submission ∈ submissions)
    (hfresh : eventsFor submission round = []) :
    (t.lookupFor submissions submission).Obeys (t.trackSubmission submission).run round
      fun _ round' =>
        Grows submission round round' ∧ t.Outcome submission (eventsFor submission round') := by
  -- the clock is read once, and not at all without an expiry
  have hexpired : (t.lookupFor submissions submission).Obeys (t.isExpired submission).run round
      fun r round' => Grows submission round round' ∧ ∃ expired, r = .ok expired
        ∧ (expired = true → t.FoundLate submission (eventsFor submission round')) := by
    unfold isExpired
    split
    · exact ⟨.refl round, false, rfl, fun h => (by cases h)⟩
    · refine ⟨⟨hmem, hfresh⟩, fun now => ?_⟩
      refine ⟨grows_call submission round _ now, _, rfl, fun hlate => ?_⟩
      exact ⟨now, mem_eventsFor_call submission round .now now, of_decide_eq_true hlate⟩
  rw [trackSubmission_eq]
  refine hexpired.except_bind (fun expired round₁ hQ => ?_) fun err round' hQ => ?_
  · obtain ⟨hgrows₁, _, hok, hlate⟩ := hQ
    cases hok
    cases expired with
    | true =>
      refine obeys_wrapErr _ ⟨⟨hmem, hlate rfl⟩, fun r => ?_⟩ fun _ _ hQ => hQ
      have hgrows₂ := grows_call submission round₁ (.expirePending submission.id) r
      exact ⟨hgrows₁.trans hgrows₂, (Outcome.late (hlate rfl)).mono t hgrows₂.own⟩
    | false =>
      refine (t.lookUp_grows hmem).mono fun _ round₂ hQ => ?_
      exact ⟨hgrows₁.trans hQ.1, hQ.2⟩
  · obtain ⟨-, _, hok, -⟩ := hQ
    cases hok

/-- The loop. What was done for the submissions before stays, since a submission's turn adds only to
its own events. -/
theorem trackAll_grows {rest : List Ibcv2RelayerTxSubmission} (hnodup : rest.Nodup)
    (hmem : ∀ submission ∈ rest, submission ∈ submissions)
    (hfresh : ∀ submission ∈ rest, eventsFor submission round = [])
    (hdone : ∀ submission ∈ submissions, submission ∉ rest →
      t.Outcome submission (eventsFor submission round)) :
    (lookupProtocol t submissions).Obeys (t.trackAll rest) round fun _ round' =>
      ∀ submission ∈ submissions, t.Outcome submission (eventsFor submission round') := by
  induction rest generalizing round with
  | nil => exact fun submission hsubmission => hdone submission hsubmission (by simp)
  | cons first rest ih =>
    obtain ⟨hfirst, hmem⟩ := List.forall_mem_cons.mp hmem
    obtain ⟨hnew, hfresh⟩ := List.forall_mem_cons.mp hfresh
    obtain ⟨hnotMem, hnodup⟩ := List.nodup_cons.mp hnodup
    have htrack := (Protocol.obeys_translate (TrackCall.of first) _ round _).mpr
      (t.trackSubmission_grows hfirst hnew)
    refine htrack.bind fun _ round' hQ =>
      ih hnodup hmem (fun other hother => ?_) fun other hother hrest => ?_
    · rw [hQ.1.others other fun heq => hnotMem (heq ▸ hother)]
      exact hfresh other hother
    -- the first one has just been dealt with, the others before
    · by_cases heq : other = first
      · exact heq ▸ hQ.2
      · rw [hQ.1.others other heq]
        exact hdone other hother (by simp [heq, hrest])

/-- A round deals with every submission that it has read. -/
theorem trackUnresolved_grows {answer : Except GoError (List Ibcv2RelayerTxSubmission)}
    (hnodup : ∀ submissions, answer = .ok submissions → submissions.Nodup) :
    ∃ submissions,
      (lookupProtocol t submissions).Obeys (t.trackUnresolved answer) [] (fun _ round' =>
        ∀ submission ∈ submissions, t.Outcome submission (eventsFor submission round'))
      ∧ ∀ submission ∈ submissions, ∃ read, answer = .ok read ∧ submission ∈ read := by
  cases answer with
  | error err => exact ⟨[], by simp [trackUnresolved, Protocol.Obeys], by simp⟩
  | ok submissions =>
    refine ⟨submissions, ?_, fun submission hmem => ⟨submissions, rfl, hmem⟩⟩
    refine Protocol.Obeys.bind (t.trackAll_grows (hnodup submissions rfl) (fun _ hmem => hmem)
      (fun _ _ => rfl) fun submission hmem hnot => absurd hmem hnot) fun _ _ hQ => hQ

end SubmittedTxCostTracker

end IbcRelayer
