import IbcRelayer.Lookup

/-!
# IbcRelayer — expiry as a backstop

A submission expires when its chain could not be asked about its tx, or the answer could not be
written: this is what expiry is a backstop for. `trackSubmission` tests the age of the submission
before it asks, as the comment above it says, so that this holds in the runs in which no round finds
a submission for the first time when it is too old already (`expiry_is_backstop`). One that is
found too late expires although its chain was never asked (`expired_unqueried`).

* `InTime` — the condition on a step.
* `Acted` — what a call does to the table.
* `Backstop` — the invariant, over the rounds that are over and the one that is under way.
-/

namespace IbcRelayer

open CallTree Prog

/-! ## The table under a call -/

/-- What a call for a submission makes of the table. -/
structure Acted (rows : List Ibcv2RelayerTxSubmission) (submission : Ibcv2RelayerTxSubmission)
    (e : SubmissionEvent) (rows' : List Ibcv2RelayerTxSubmission) : Prop where
  ids : rows'.map (·.id) = rows.map (·.id)
  pending : ∀ r ∈ rows', r.status = .pending → r ∈ rows
  kept : ∀ r ∈ rows, r.status ≠ .pending → r ∈ rows'
  resolved : ∀ arg, e = ⟨.updateTracking arg, .ok ()⟩ →
    ∃ r ∈ rows', r.id = submission.id ∧ r.status ≠ .pending
  expired : ∀ r ∈ rows', r.status = .expired → r ∈ rows
    ∨ e = ⟨.expirePending submission.id, .ok ()⟩ ∧ submission ∈ rows
      ∧ submission.status = .pending ∧ r = submission.expire

section Acted

variable {rows : List Ibcv2RelayerTxSubmission} {submission : Ibcv2RelayerTxSubmission}

theorem acted_asked {e : SubmissionEvent}
    (he : ∀ arg, e ≠ ⟨.updateTracking arg, .ok ()⟩) : Acted rows submission e rows where
  ids := rfl
  pending := fun _ hr _ => hr
  kept := fun _ hr _ => hr
  resolved := fun arg heq => absurd heq (he arg)
  expired := fun _ hr _ => .inl hr

/-- A statement that resolves the row of the submission. -/
theorem acted_settled {e : SubmissionEvent}
    {f : Ibcv2RelayerTxSubmission → Ibcv2RelayerTxSubmission} (hids : (rows.map (·.id)).Nodup)
    (hrow : submission ∈ rows) (hpending : submission.status = .pending)
    (hf : ∀ r, (f r).id = r.id) (hresolved : (f submission).status ≠ .pending)
    (hexpired : (f submission).status = .expired →
      e = ⟨.expirePending submission.id, .ok ()⟩ ∧ f submission = submission.expire) :
    Acted rows submission e (updateSubmission submission.id f rows) where
  ids := ids_updateSubmission hf _
  pending := by
    intro r hr hstatus
    -- ids are unique, so only the submission's own row is changed
    rcases mem_updateSubmission hids hrow hr with rfl | ⟨hr, -⟩
    · exact absurd hstatus hresolved
    · exact hr
  kept := by
    intro r hr hstatus
    rcases updateSubmission_mem (f := f) hr submission.id with ⟨hid, -⟩ | ⟨-, hmem⟩
    · exact absurd (List.inj_on_of_nodup_map hids hr hrow hid ▸ hpending) hstatus
    · exact hmem
  resolved := by
    intro arg _
    rcases updateSubmission_mem (f := f) hrow submission.id with ⟨-, hmem⟩ | ⟨hne, -⟩
    · exact ⟨_, hmem, hf submission, hresolved⟩
    · exact absurd rfl hne
  expired := by
    intro r hr hstatus
    rcases mem_updateSubmission hids hrow hr with rfl | ⟨hr, -⟩
    · obtain ⟨he, heq⟩ := hexpired hstatus
      exact .inr ⟨he, hrow, hpending, heq⟩
    · exact .inl hr

end Acted

namespace CostTracking

variable {t : SubmittedTxCostTracker} {base : List Ibcv2RelayerTxSubmission} {s s' : CostTracking}
  {g : RoundLedger} {past : List (List TrackEvent)} {submission : Ibcv2RelayerTxSubmission}

/-- What each call of a round does to the table, as far as the round may make it: only the write and
the mark change a row, and it is that of the submission. -/
theorem Tracked.acted (h : Tracked t base s g) {c : SubmissionCall}
    {k : c.Answer → Prog TrackCall.Answer (Except GoError Unit)}
    (hround : s.round = some (.call (.of submission c) k)) (r : c.Answer) :
    Acted s.rows submission ⟨c, r⟩ (act s.rows (.of submission c) r) := by
  obtain ⟨hallows, -⟩ : roundProtocol.Obeys (.call (.of submission c) k) g
      fun _ g' => g'.owed = none := by
    rcases h.round _ hround with ⟨heq, -⟩ | hobeys
    · cases heq
    · exact hobeys
  cases c with
  -- a lookup resolves to success or failure, never to `EXPIRED`
  | updateTracking arg =>
    cases r with
    | error err => exact acted_asked fun _ heq => by cases heq
    | ok _ =>
      obtain ⟨-, hsubmission, hid, -, hstatus⟩ := hallows
      obtain ⟨hrow, hpending⟩ := h.owned submission hsubmission
      rw [act, updateTracking, hid]
      refine acted_settled h.ids hrow hpending (fun _ => rfl) ?_ ?_
      · rcases hstatus with hstatus | hstatus <;> simp [UpdateTrackingParams.set, hstatus]
      · rcases hstatus with hstatus | hstatus <;> simp [UpdateTrackingParams.set, hstatus]
  | expirePending id =>
    cases r with
    | error err => exact acted_asked fun _ heq => by cases heq
    | ok _ =>
      obtain ⟨-, hsubmission, rfl⟩ := hallows
      obtain ⟨hrow, hpending⟩ := h.owned submission hsubmission
      refine acted_settled h.ids hrow hpending (fun r => ?_) ?_ fun _ => ⟨rfl, rfl⟩
      · unfold Ibcv2RelayerTxSubmission.expire
        split <;> rfl
      · simp [Ibcv2RelayerTxSubmission.expire, hpending]
  | _ => exact acted_asked fun _ heq => by cases heq

/-! ## The invariant -/

/-- A submission that is too old has been taken up before, and there is a client for its chain. -/
def CallInTime (t : SubmittedTxCostTracker) (log : List TrackEvent) :
    (c : TrackCall) → c.Answer → Prop
  | .of submission .now, now => t.IsLate submission now → TakenUp submission log
  | .of _ (.getClient _), r => r.toBool = true
  | _, _ => True

/-- The condition on a step, which is about the answers to the clock and to the search for a client.
-/
def InTime (t : SubmittedTxCostTracker) (s : CostTracking) : Action → Prop
  | .call answer => ∀ c k, s.round = some (.call c k) → CallInTime t s.log c (answer c)
  | _ => True

/-- The submission of the row was marked by a round, and in an earlier one its lookup had failed. -/
def ExpiredAsBackstop (r : Ibcv2RelayerTxSubmission) (log : List TrackEvent) : Prop :=
  ∃ submission later earlier, submission.status = .pending ∧ r = submission.expire
    ∧ log = later ++ ⟨.of submission (.expirePending submission.id), .ok ()⟩ :: earlier
    ∧ ∃ round ∈ (rounds earlier).tail, FailedLookup submission (eventsFor submission round)

/-- What holds in a round over these submissions, of which `p` is left. -/
structure InRound (t : SubmittedTxCostTracker) (rows : List Ibcv2RelayerTxSubmission)
    (past : List (List TrackEvent)) (submissions : List Ibcv2RelayerTxSubmission)
    (round : List TrackEvent) (p : Prog TrackCall.Answer (Except GoError Unit)) : Prop where
  obeys : (lookupProtocol t submissions).Obeys p round fun _ round' =>
    ∀ submission ∈ submissions, t.Outcome submission (eventsFor submission round')
  own : ∀ submission, eventsFor submission round ≠ [] → submission ∈ submissions
  ids : ∀ submission ∈ submissions, submission.id ∈ rows.map (·.id)
  late : ∀ submission, t.FoundLate submission (eventsFor submission round) →
    ∃ round' ∈ past, TakenUp submission round'
  clients : ∀ submission chainID err, ⟨.getClient chainID, .error err⟩ ∉ eventsFor submission round

/-- What holds after the rounds of `past`; `base` has the rows that there were at the start. -/
structure Backstop (t : SubmittedTxCostTracker) (base : List Ibcv2RelayerTxSubmission)
    (s : CostTracking) (past : List (List TrackEvent)) : Prop where
  failed : ∀ r ∈ s.rows, r.status = .pending → (∃ round ∈ past, TakenUp r round) →
    ∃ round ∈ past, FailedLookup r (eventsFor r round)
  known : ∀ submission, eventsFor submission s.log ≠ [] → submission.id ∈ s.rows.map (·.id)
  resolved : ∀ submission arg, ⟨.updateTracking arg, .ok ()⟩ ∈ eventsFor submission s.log →
    ∃ r ∈ s.rows, r.id = submission.id ∧ r.status ≠ .pending
  expired : ∀ r ∈ s.rows, r.status = .expired → r ∈ base ∨ ExpiredAsBackstop r s.log
  round : (s.round = none ∨ s.round = some t.track) ∧ rounds s.log = past
    ∨ ∃ p submissions round, s.round = some p ∧ rounds s.log = round :: past
      ∧ InRound t s.rows past submissions round p

theorem mem_eventsFor_of_round {log round : List TrackEvent} {e : SubmissionEvent}
    (hround : round ∈ rounds log) (he : e ∈ eventsFor submission round) :
    e ∈ eventsFor submission log := by
  rw [eventsFor_eq_flatMap]
  exact List.mem_flatMap.mpr ⟨round, hround, he⟩

theorem Backstop.past_subset (h : Backstop t base s past) : past ⊆ rounds s.log := by
  rcases h.round with ⟨-, hrounds⟩ | ⟨-, -, round, -, hrounds, -⟩
  · exact hrounds ▸ List.Subset.refl _
  · exact hrounds ▸ List.subset_cons_self round past

theorem ExpiredAsBackstop.cons {r : Ibcv2RelayerTxSubmission} {log : List TrackEvent}
    (h : ExpiredAsBackstop r log) (e : TrackEvent) : ExpiredAsBackstop r (e :: log) := by
  obtain ⟨submission, later, earlier, hpending, hr, hlog, hfailed⟩ := h
  exact ⟨submission, e :: later, earlier, hpending, hr, by rw [hlog, List.cons_append], hfailed⟩

/-- The chain of a row that has expired was asked. -/
theorem ExpiredAsBackstop.asked {r : Ibcv2RelayerTxSubmission} {log : List TrackEvent}
    (h : ExpiredAsBackstop r log) :
    ∃ submission answer, submission.id = r.id
      ∧ ⟨.of submission (.txExecutionStatus submission.chainID submission.txHash), answer⟩
        ∈ log := by
  obtain ⟨submission, later, earlier, hpending, rfl, rfl, round, hround, ⟨answer, hasked⟩, -⟩ := h
  refine ⟨submission, answer, ?_, List.mem_append_right _ (List.mem_cons_of_mem _ ?_)⟩
  · rw [Ibcv2RelayerTxSubmission.expire, if_pos hpending]
  · exact mem_of_mem_eventsFor (mem_eventsFor_of_round (List.mem_of_mem_tail hround) hasked)

/-- A new row is pending, and no round knows it. -/
theorem Backstop.insert (h : Backstop t base s past) (params : InsertSubmissionParams) {id : Int32}
    (hfresh : id ∉ s.rows.map (·.id)) :
    Backstop t base { s with rows := s.rows ++ [params.toRow id] } past := by
  have hids : s.rows.map (·.id) ⊆ (s.rows ++ [params.toRow id]).map (·.id) := by simp
  refine { h with failed := ?_, known := ?_, resolved := ?_, expired := ?_, round := ?_ }
  · intro r hr hpending htaken
    rcases List.mem_append.mp hr with hr | hr
    · exact h.failed r hr hpending htaken
    · -- nothing was done for a row that was not there
      obtain rfl := List.mem_singleton.mp hr
      obtain ⟨round, hround, now, hnow⟩ := htaken
      have hevent := mem_eventsFor_of_round (h.past_subset hround) hnow
      exact absurd (h.known _ (List.ne_nil_of_mem hevent)) hfresh
  · exact fun submission hevents => hids (h.known submission hevents)
  · intro submission arg hevent
    obtain ⟨r, hr, hid, hstatus⟩ := h.resolved submission arg hevent
    exact ⟨r, List.mem_append_left _ hr, hid, hstatus⟩
  · intro r hr hstatus
    rcases List.mem_append.mp hr with hr | hr
    · exact h.expired r hr hstatus
    · obtain rfl := List.mem_singleton.mp hr
      cases hstatus
  · rcases h.round with hidle | ⟨p, submissions, round, hp, hrounds, hin⟩
    · exact .inl hidle
    · refine .inr ⟨p, submissions, round, hp, hrounds, { hin with ids := ?_ }⟩
      exact fun submission hmem => hids (hin.ids submission hmem)

/-- The round is over, and every submission that it took up and that is still pending has failed. -/
theorem Backstop.finish (h : Backstop t base s past) (hids : (s.rows.map (·.id)).Nodup)
    {result : Except GoError Unit} (hround : s.round = some (.done result)) :
    ∃ past', Backstop t base { s with round := none } past' := by
  rcases h.round with ⟨hidle, -⟩ | ⟨p, submissions, round, hp, hrounds, hin⟩
  · rw [hround] at hidle
    rcases hidle with hidle | hidle <;> cases hidle
  obtain rfl : p = .done result := Option.some.inj (hp.symm.trans hround)
  refine ⟨round :: past, { h with failed := ?_, round := .inl ⟨.inl rfl, hrounds⟩ }⟩
  intro r hr hpending htaken
  have hpast (htaken : ∃ round ∈ past, TakenUp r round) :
      ∃ round' ∈ round :: past, FailedLookup r (eventsFor r round') := by
    obtain ⟨round', hround', hfailed⟩ := h.failed r hr hpending htaken
    exact ⟨round', List.mem_cons_of_mem _ hround', hfailed⟩
  obtain ⟨round', hround', htaken⟩ := htaken
  rcases List.mem_cons.mp hround' with rfl | hround'
  · obtain ⟨now, hnow⟩ := htaken
    have houtcome : ∀ submission ∈ submissions,
        t.Outcome submission (eventsFor submission round') := hin.obeys
    -- what the round has made of the row: if it is still pending, it is late or its lookup has
    -- failed
    cases houtcome r (hin.own r (List.ne_nil_of_mem hnow)) with
    | late hlate => exact hpast (hin.late r hlate)
    | noClient hclient => exact absurd hclient (hin.clients r _ _)
    | failed hfailed => exact ⟨round', List.mem_cons_self, hfailed⟩
    | resolved hresolved =>
      obtain ⟨r', hr', hid, hstatus⟩ := h.resolved r _
        (mem_eventsFor_of_round (hrounds ▸ List.mem_cons_self) hresolved)
      exact absurd (List.inj_on_of_nodup_map hids hr' hr hid ▸ hpending) hstatus
  · exact hpast ⟨round', hround', htaken⟩

/-- A round makes calls only for the submissions that it has read. -/
theorem mem_of_allows {submissions : List Ibcv2RelayerTxSubmission} {round : List TrackEvent}
    {c : SubmissionCall} (h : (lookupProtocol t submissions).allows round (.of submission c)) :
    submission ∈ submissions := by
  cases c with
  | now => exact h.1
  | expirePending id => exact h.1
  | _ => exact h

section Call

variable {c : SubmissionCall} {k : c.Answer → Prog TrackCall.Answer (Except GoError Unit)}
  {r : c.Answer} {rows rows' submissions : List Ibcv2RelayerTxSubmission} {round : List TrackEvent}

/-- A call for a submission. If it is found to be too old, then by `CallInTime` it was taken up
before, and not in this round, which asks for the time first. -/
theorem InRound.call (h : InRound t rows past submissions round (.call (.of submission c) k))
    (hacted : Acted rows submission ⟨c, r⟩ rows')
    {log : List TrackEvent} (hrounds : rounds log = round :: past)
    (htime : CallInTime t log (.of submission c) r) :
    InRound t rows' past submissions (⟨.of submission c, r⟩ :: round) (k r) := by
  obtain ⟨hallows, hnext⟩ := h.obeys
  refine ⟨hnext r, fun other hevents => ?_, fun other hother => ?_, fun other hfound => ?_,
    fun other chainID err hevent => ?_⟩
  · by_cases heq : other = submission
    · exact heq ▸ mem_of_allows hallows
    · rw [eventsFor_other heq] at hevents
      exact h.own other hevents
  · rw [hacted.ids]
    exact h.ids other hother
  · by_cases heq : other = submission
    -- by `htime` the row of a tx that is late was taken up, and not by this round
    · subst heq
      obtain ⟨now, hnow, his⟩ := hfound
      rw [eventsFor_self] at hnow
      rcases List.mem_cons.mp hnow with hnow | hnow
      · cases hnow
        obtain ⟨round', hround', htaken⟩ := (htime his).exists_round
        rw [hrounds] at hround'
        rcases List.mem_cons.mp hround' with rfl | hround'
        · -- the clock is the first thing that the round asks for
          obtain ⟨now', hnow'⟩ := htaken
          rw [hallows.2] at hnow'
          cases hnow'
        · exact ⟨round', hround', htaken⟩
      · exact h.late other ⟨now, hnow, his⟩
    · rw [eventsFor_other heq] at hfound
      exact h.late other hfound
  · by_cases heq : other = submission
    · subst heq
      rw [eventsFor_self] at hevent
      rcases List.mem_cons.mp hevent with hevent | hevent
      · cases hevent
        cases htime
      · exact h.clients other chainID err hevent
    · rw [eventsFor_other heq] at hevent
      exact h.clients other chainID err hevent

/-- A call for a submission of the round. -/
theorem Backstop.called (h : Backstop t base s past)
    (hround : s.round = some (.call (.of submission c) k))
    (hacted : Acted s.rows submission ⟨c, r⟩ rows')
    (htime : CallInTime t s.log (.of submission c) r) :
    Backstop t base ⟨rows', some (k r), ⟨.of submission c, r⟩ :: s.log⟩ past := by
  obtain ⟨submissions, round, hrounds, hin⟩ : ∃ submissions round, rounds s.log = round :: past
      ∧ InRound t s.rows past submissions round (.call (.of submission c) k) := by
    rcases h.round with ⟨hidle, -⟩ | ⟨p, submissions, round, hp, hrounds, hin⟩
    · rw [hround] at hidle
      rcases hidle with hidle | hidle <;> cases hidle
    · cases hp.symm.trans hround
      exact ⟨submissions, round, hrounds, hin⟩
  refine ⟨fun row hrow hpending htaken => ?_, fun other hevents => ?_, fun other arg hevent => ?_,
    fun row hrow hstatus => ?_, .inr ⟨k r, submissions, ⟨.of submission c, r⟩ :: round, rfl,
      rounds_of hrounds submission c r, hin.call hacted hrounds htime⟩⟩
  · exact h.failed row (hacted.pending row hrow hpending) hpending htaken
  · change other.id ∈ rows'.map (·.id)
    rw [hacted.ids]
    by_cases heq : other = submission
    · exact heq ▸ hin.ids submission (mem_of_allows hin.obeys.1)
    · rw [eventsFor_other heq] at hevents
      exact h.known other hevents
  · have hold (hevent : ⟨.updateTracking arg, .ok ()⟩ ∈ eventsFor other s.log) :
        ∃ row ∈ rows', row.id = other.id ∧ row.status ≠ .pending := by
      obtain ⟨row, hrow, hid, hstatus⟩ := h.resolved other arg hevent
      exact ⟨row, hacted.kept row hrow hstatus, hid, hstatus⟩
    by_cases heq : other = submission
    · subst heq
      rw [eventsFor_self] at hevent
      rcases List.mem_cons.mp hevent with hevent | hevent
      · exact hacted.resolved arg hevent.symm
      · exact hold hevent
    · rw [eventsFor_other heq] at hevent
      exact hold hevent
  · rcases hacted.expired row hrow hstatus with hrow | ⟨he, hsubmission, hpending, rfl⟩
    · exact (h.expired row hrow hstatus).imp id fun hexpired => hexpired.cons _
    · obtain ⟨rfl, hanswer⟩ := Event.mk.inj he
      cases eq_of_heq hanswer
      -- the round has found the row too old, so an earlier round has taken it up
      obtain ⟨-, hfound⟩ := hin.obeys.1
      have hfailed := h.failed submission hsubmission hpending (hin.late submission hfound)
      exact .inr ⟨submission, [], s.log, hpending, rfl, rfl, by rwa [hrounds]⟩

end Call

/-- The round has read its submissions. -/
theorem Backstop.read (h : Backstop t base s past) (hround : s.round = some t.track)
    {answer : Except GoError (List Ibcv2RelayerTxSubmission)}
    (hread : ∀ submissions, answer = .ok submissions →
      Unresolved t.batchSize.toInt.toNat s.rows submissions) :
    Backstop t base ⟨s.rows, some (t.trackUnresolved answer),
      ⟨.getUnresolvedIBCV2RelayerTxSubmissions t.batchSize, answer⟩ :: s.log⟩ past := by
  obtain ⟨submissions, hobeys, hsubmissions⟩ := t.trackUnresolved_grows fun submissions hok =>
    (hread submissions hok).distinct
  have hrounds : rounds s.log = past := by
    rcases h.round with ⟨-, hrounds⟩ | ⟨p, _, _, hp, -, hin⟩
    · exact hrounds
    · -- a round reads once
      obtain rfl : p = t.track := Option.some.inj (hp.symm.trans hround)
      exact hin.obeys.1.elim
  refine { h with
    expired := fun r hr hstatus =>
      (h.expired r hr hstatus).imp id fun hexpired => hexpired.cons _
    round := .inr ⟨_, submissions, [], rfl, (rounds_read _ _ _).trans (hrounds ▸ rfl), ?_⟩ }
  refine ⟨hobeys, fun _ hevents => absurd rfl hevents, fun submission hmem => ?_, ?_,
    fun _ _ _ hevent => by cases hevent⟩
  · obtain ⟨read, hok, hmem⟩ := hsubmissions submission hmem
    exact List.mem_map_of_mem ((hread read hok).pending submission hmem).1
  · rintro submission ⟨now, hnow, -⟩
    cases hnow

/-- Every step in time keeps the invariant. -/
theorem Backstop.step (h : Backstop t base s past) (hg : Tracked t base s g) {a : Action}
    (htime : InTime t s a) (hstep : s.step t a = some s') : ∃ past', Backstop t base s' past' := by
  cases step_cases hstep with
  | insert hid hkey => exact ⟨past, h.insert _ hid⟩
  | start hidle =>
    refine ⟨past, { h with round := ?_ }⟩
    rcases h.round with ⟨-, hrounds⟩ | ⟨p, -, -, hp, -⟩
    · exact .inl ⟨.inr rfl, hrounds⟩
    · cases hp.symm.trans hidle
  | @call c k answer hround htruth =>
    cases c with
    | of submission c => exact ⟨past, h.called hround (hg.acted hround _) (htime _ _ hround)⟩
    | getUnresolvedIBCV2RelayerTxSubmissions limit =>
      rcases hg.round _ hround with ⟨heq, -⟩ | ⟨hallows, -⟩
      · cases heq
        refine ⟨past, h.read hround fun submissions hok => ?_⟩
        rw [hok] at htruth
        exact of_decide_eq_true htruth
      · exact hallows.elim
  | finish hround => exact h.finish hg.ids hround

/-- At the start no round has done anything, and a row that has expired is one of those that were
there. -/
theorem backstop_start (t : SubmittedTxCostTracker) (T : SubmissionTable) :
    Backstop t T.rows (start T) [[]] where
  failed := by
    rintro r - - ⟨round, hround, now, hnow⟩
    cases List.mem_singleton.mp hround
    cases hnow
  known := fun _ hevents => absurd rfl hevents
  resolved := fun _ _ hevent => by cases hevent
  expired := fun _ hr _ => .inl hr
  round := .inl ⟨.inl rfl, rfl⟩

/-- **Expiry is a backstop.** In every run in which a submission that is taken up for the first time
is not too old yet and has a client for its chain, every row that has expired was marked after an
earlier round had looked up its tx and failed. -/
theorem expiry_is_backstop (t : SubmittedTxCostTracker) (T : SubmissionTable) {s : CostTracking}
    (hrun : Machine.Run (step t) (InTime t) (start T) s) :
    ∀ r ∈ s.rows, r.status = .expired → r ∈ T.rows ∨ ExpiredAsBackstop r s.log := by
  have hinv : (∃ g, Tracked t T.rows s g) ∧ ∃ past, Backstop t T.rows s past := by
    refine hrun.inv (I := fun s => (∃ g, Tracked t T.rows s g) ∧ ∃ past, Backstop t T.rows s past)
      ⟨⟨_, tracked_start t T⟩, _, backstop_start t T⟩ ?_
    -- the invariant of the tracker and the one of the rounds go together
    rintro s₁ a s₂ ⟨⟨g, hg⟩, past, hpast⟩ htime hstep
    exact ⟨(hg.step hstep).1, hpast.step hg htime hstep⟩
  obtain ⟨-, past, hpast⟩ := hinv
  exact hpast.expired

end CostTracking

/-! ## Two runs -/

namespace Sample

/-- A round that finds this submission at this time. Its chain does not answer. -/
def unanswered (row : Ibcv2RelayerTxSubmission) (now : Int) : (c : TrackCall) → c.Answer
  | .getUnresolvedIBCV2RelayerTxSubmissions _ => .ok [row]
  | .of _ .now => ⟨now, 0⟩
  | .of _ (.txExecutionStatus ..) => .error (.new "connection refused")
  | c => resolving c

/-- The round of `n` calls that finds this submission at this time. -/
def unansweredRound (params : InsertSubmissionParams) (id : Int32) (now : Int) (n : Nat) :
    List CostTracking.Action :=
  [.start] ++ List.replicate n (.call (unanswered (params.toRow id) now)) ++ [.finish]

def sevenHours : Int := 7 * 60 * minute

/-- The chain does not answer, and seven hours later the submission expires. -/
def givenUp : List CostTracking.Action :=
  [.insert delivered 1] ++ unansweredRound delivered 1 1000 4
    ++ unansweredRound delivered 1 sevenHours 3

/-- `CostTracking.InTime` -/
def inTime (t : SubmittedTxCostTracker) (s : CostTracking) : CostTracking.Action → Bool
  | .call answer =>
    match s.round with
    | some (.call (.of submission .now) _) =>
      ¬ t.IsLate submission (answer (.of submission .now))
        ∨ (eventsFor submission s.log).any (·.call = .now)
    | some (.call (.of submission (.getClient chainID)) _) =>
      (answer (.of submission (.getClient chainID))).toBool
    | _ => true
  | _ => true

/-- The check implies `InTime`. -/
theorem inTime_spec {t : SubmittedTxCostTracker} (s : CostTracking) (a : CostTracking.Action)
    (h : inTime t s a = true) : s.InTime t a := by
  cases a with
  | call answer =>
    intro c k hround
    simp only [inTime, hround] at h
    cases c with
    | getUnresolvedIBCV2RelayerTxSubmissions limit => trivial
    | of submission c =>
      cases c with
      | now =>
        intro hlate
        rcases of_decide_eq_true h with hnot | htaken
        · exact absurd hlate hnot
        · obtain ⟨⟨c, r⟩, he, hcall⟩ := List.any_eq_true.mp htaken
          obtain rfl : c = .now := of_decide_eq_true hcall
          exact ⟨r, he⟩
      | getClient chainID => exact h
      | _ => trivial
  | _ => trivial

/-- Submitted just after `delivered`, to another chain. -/
def behind : InsertSubmissionParams where
  txHash := "0xe2"
  chainID := "2"
  txType := .recvPacket
  relayerAddress := "relayer"
  submittedAt := { unixNano := 600 }

/-- One submission in a round. -/
def oneByOne : SubmittedTxCostTracker := .new config false 1 (6 * 60 * minute)

/-- The rounds find the first submission until it expires. Then they find the second one. -/
def starved : List CostTracking.Action :=
  [.insert delivered 1, .insert behind 2] ++ unansweredRound delivered 1 1000 4
    ++ unansweredRound delivered 1 sevenHours 3 ++ unansweredRound behind 2 sevenHours 3

def asksFor (id : Int32) : TrackCall → Bool
  | .of submission (.txExecutionStatus ..) => submission.id = id
  | _ => false

end Sample

namespace CostTracking

/-- `expiry_is_backstop` for a submission whose chain does not answer. -/
theorem expiry_is_backstop_given_up : ∃ s : CostTracking,
    Machine.Run (step Sample.tracker) (InTime Sample.tracker) (start Sample.noSubmissions) s
      ∧ s.rows = [(Sample.delivered.toRow 1).expire]
      ∧ ExpiredAsBackstop (Sample.delivered.toRow 1).expire s.log := by
  have hscript : (Machine.script (step Sample.tracker) (Sample.inTime Sample.tracker)
      (start Sample.noSubmissions) Sample.givenUp).any
        (fun s => s.rows = [(Sample.delivered.toRow 1).expire]) = true := by
    decide +kernel
  obtain ⟨s, hs, hend⟩ := (Option.any_eq_true _ _).mp hscript
  have hrows := of_decide_eq_true hend
  have hrun := Machine.run_of_script (P := InTime Sample.tracker) Sample.inTime_spec hs
  refine ⟨s, hrun, hrows, ?_⟩
  exact (expiry_is_backstop Sample.tracker Sample.noSubmissions hrun _
    (hrows ▸ List.mem_singleton_self _) rfl).resolve_left List.not_mem_nil

/-- A submission expires although its chain was never asked: while the rounds were busy with an
older one, it has become too old itself. -/
theorem expired_unqueried : ∃ s : CostTracking,
    Machine.Run (step Sample.oneByOne) (fun _ _ => True) (start Sample.noSubmissions) s
      ∧ (Sample.behind.toRow 2).expire ∈ s.rows
      ∧ (Sample.behind.toRow 2).expire.status = .expired
      ∧ (∀ e ∈ s.log, Sample.asksFor 2 e.call = false)
      ∧ ¬ ExpiredAsBackstop (Sample.behind.toRow 2).expire s.log := by
  have hscript : (Machine.script (step Sample.oneByOne) (fun _ _ => true)
      (start Sample.noSubmissions) Sample.starved).any (fun s =>
        (Sample.behind.toRow 2).expire ∈ s.rows
          ∧ s.log.all fun e => !Sample.asksFor 2 e.call) = true := by
    decide +kernel
  obtain ⟨s, hs, hend⟩ := (Option.any_eq_true _ _).mp hscript
  obtain ⟨hrow, hlog⟩ := of_decide_eq_true hend
  have hnever : ∀ e ∈ s.log, Sample.asksFor 2 e.call = false := fun e he => by
    simpa using List.all_eq_true.mp hlog e he
  refine ⟨s, Machine.run_of_script (fun _ _ _ => trivial) hs, hrow, rfl, hnever, fun hexpired => ?_⟩
  obtain ⟨submission, answer, hid, hasked⟩ := hexpired.asked
  exact absurd hid (of_decide_eq_false (hnever _ hasked))

end CostTracking

end IbcRelayer
