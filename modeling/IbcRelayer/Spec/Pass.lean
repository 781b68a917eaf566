import IbcRelayer.Spec.Stage

/-!
# IbcRelayer — a pass, stage by stage

A pass is the visits of a transfer to the stages, one after the other.

* `StageVisit` — a visit to any stage, behind the router if it is a stage that batches
  (`conditionally_visit`) and unwrapped if it is the finisher (`finish_spec`);
* `Trace` — the visits of a pass, with all its events. `runStages_trace` says that every run of a
  list of stages is a trace, and `execute_trace` says it of the worlds.
-/

namespace IbcRelayer

open CallTree Prog IBCV2Transfer

/-! ## The router in front of a batch -/

section Router

variable {c : Contract} {keys : List RowKey} {t : IBCV2Transfer} {o : Option IBCV2Transfer}
  {us : List TransferUpdate} {evs asked : List Event}

/-- That the router has asked before takes nothing from a visit that the batch took. -/
theorem Taken.after_asked (h : Taken c t evs) (hasked : Asked c.guard t true asked) :
    Taken c t (evs ++ asked) where
  error := h.error
  state := h.state
  granted := h.granted.mono (List.subset_append_left _ _)
  readings reader now hin hcheck := by
    rcases List.mem_append.mp hin with hin | hin
    · exact h.readings reader now hin hcheck
    · exact (hasked.reading hin).2
  saves r hin := by
    rcases List.mem_append.mp hin with hin | hin
    · exact h.saves r hin
    · exact absurd hin hasked.not_save
  requested p hp herror := by
    obtain ⟨req, s, r, hin, hkind, hincludes⟩ := h.requested p hp herror
    exact ⟨req, s, r, List.mem_append_left _ hin, hkind, hincludes⟩

theorem Asked.query {answer : Bool} (h : Asked c.guard t answer asked) :
    ∀ e ∈ asked, e.call.isQuery = false :=
  fun e he => (h.ofAdmission e he).query

/-- The end of the visit is the same with the events of the router in front of it. Only a batch has
a router, so the clause about single stages does not come into it. -/
theorem Step.after_asked (h : Step c t o us evs) (hpacket : c.packet.isSome = true)
    (hasked : Asked c.guard t true asked) : Step c t o us (evs ++ asked) := by
  have hsub : evs ⊆ evs ++ asked := List.subset_append_left _ _
  cases h with
  | passed h => exact .passed h
  | refused h hreadings =>
    refine .refused (h.mono hsub) fun hnone reader now hin => ?_
    exact absurd hnone (Option.isSome_iff_ne_none.mp hpacket)
  | stateNotSaved err err' htext h => exact .stateNotSaved err err' htext (hsub h)
  | lost h =>
    refine .lost (h.imp_right fun h => ?_)
    exact h.imp (·.mono hsub) (Exists.imp fun err h => hsub h)
  | failed htaken err htext o ho us hus =>
    exact .failed (htaken.after_asked hasked) err htext o ho us hus
  | done htaken t' us own hown hquery hok =>
    refine .done (htaken.after_asked hasked) t' us own (fun e he => hsub (hown he)) ?_ hok
    intro e he hq
    rcases List.mem_append.mp he with he | he
    · exact hquery e he hq
    · rw [hasked.query e he] at hq
      cases hq

/-- The router asked first, and the transfer went into the batch. -/
theorem Visit.after_asked (h : Visit c keys t o evs) (hpacket : c.packet.isSome = true)
    (herror : t.error = "") (hasked : Asked c.guard t true asked) :
    Visit c keys t o (evs ++ asked) where
  step := by
    rw [updatesOf_append, updatesOf_asked hasked, List.nil_append]
    exact h.step.after_asked hpacket hasked
  query e he hq := by
    rcases List.mem_append.mp he with he | he
    · exact ⟨(h.query e he hq).1, (h.query e he hq).2.after_asked hasked⟩
    · rw [hasked.query e he] at hq
      cases hq
  warning warning hin := by
    rcases List.mem_append.mp hin with hin | hin
    · exact h.warning warning hin
    · exact ⟨herror, hasked.warning hin⟩
  reading reader now hin hcheck := by
    rcases List.mem_append.mp hin with hin | hin
    · exact h.reading reader now hin hcheck
    · exact (hasked.reading hin).1
  save state r hin := by
    rcases List.mem_append.mp hin with hin | hin
    · exact h.save state r hin
    · exact absurd hin hasked.not_save
  frame k hk := List.forall_mem_append.mpr ⟨h.frame k hk, hasked.frame k⟩
  submission post e pre s hevs hs hincludes := by
    have hnot : e ∉ asked := by
      intro he
      rw [(hasked.ofAdmission e he).submission] at hs
      cases hs
    -- the router submits nothing, so the submission is one of the batch
    obtain ⟨mid, rfl, rfl⟩ := split_of_not_mem hevs hnot
    obtain ⟨htaken, p, hsubmits⟩ := h.submission post e mid s rfl hs hincludes
    refine ⟨htaken.after_asked hasked, p,
      { hsubmits with updates := ?_, once := ?_, request := ?_ }⟩
    · rw [updatesOf_append, updatesOf_asked hasked, List.nil_append]
      exact hsubmits.updates
    · intro hdelivery
      refine List.forall_mem_append.mpr ⟨hsubmits.once hdelivery, fun e' he' => ?_⟩
      exact Call.not_delivery (hasked.ofAdmission e' he').submission
    · obtain ⟨hash, bytes, txIDs, sequences, hhash, hbytes, hin, hrequest⟩ := hsubmits.request
      refine ⟨hash, bytes, txIDs, sequences, hhash, hbytes, hin, hrequest.imp_right ?_⟩
      exact Exists.imp fun r hr => List.mem_append_left _ hr

/-- The router asked, and the transfer passes by. -/
theorem Asked.visit (herror : t.error = "") (hasked : Asked c.guard t false asked) :
    Visit c keys t (some t) asked where
  step := by
    rw [updatesOf_asked hasked]
    exact .refused hasked.refused fun _ _ _ hin => (hasked.reading hin).2
  query e he hq := by
    rw [hasked.query e he] at hq
    cases hq
  warning _ hin := ⟨herror, hasked.warning hin⟩
  reading _ _ hin _ := (hasked.reading hin).1
  save _ _ hin := absurd hin hasked.not_save
  frame k _ := hasked.frame k
  submission post e pre s hevs hs _ := by
    have he : e ∈ asked := by simp [hevs]
    rw [(hasked.ofAdmission e he).submission] at hs
    cases hs

end Router

/-- The router lets a transfer by, or it has asked and the transfer goes into the batch. -/
theorem route_spec {q : IBCV2BatchProcessor} {p : BatchPacket} {g : Guard} (hq : q.Meets p g)
    (keys : List RowKey) (t : IBCV2Transfer) : (routeToBatch q t).Ensures fun answer evs =>
      (∀ key, updatesOf key evs = []) ∧ match answer with
        | false => Visit (batchContract p q.state g) keys t (some t) evs
        | true => t.error = "" ∧ Asked g t true evs := by
  unfold routeToBatch
  split
  · rename_i herror
    refine ⟨fun _ => rfl, .passed (Or.inl herror), by simp, by simp, by simp, by simp, by simp, ?_⟩
    intro post e pre s hevs
    simp at hevs
  · rename_i herror
    have herror' : t.error = "" := not_not.mp herror
    refine (hq.asked t).mono fun answer asked hasked => ⟨updatesOf_asked hasked, ?_⟩
    cases answer with
    | false => exact Asked.visit (c := batchContract p q.state g) herror' hasked
    | true => exact ⟨herror', hasked⟩

/-- A visit to a stage that batches, behind its router: a transfer that the router lets by has a
visit as well, the one of a refusal. A transfer that goes into the batch is asked twice, by the
router and by the wrapper. -/
theorem conditionally_visit {q : IBCV2BatchProcessor} {p : BatchPacket} {g : Guard}
    (hq : q.Meets p g) {before after : List IBCV2Transfer} {t : IBCV2Transfer}
    (hothers : ∀ u ∈ before ++ after, u.rowKey ≠ t.rowKey) (ht : t.Honest) :
    (conditionallyBatchProcess q before after t).Ensures fun o evs =>
      Visit (batchContract p q.state g) ((before ++ t :: after).map (·.rowKey)) t o evs := by
  unfold conditionallyBatchProcess
  have hroute := route_spec hq ((before ++ t :: after).map (·.rowKey)) t
  refine hroute.bind fun answer asked hrouted => ?_
  cases answer with
  | false => exact hrouted.2
  | true =>
    obtain ⟨-, herror, hasked⟩ := hrouted
    refine (batchMw_visit hq hothers ht).bind fun r evs hvisit => ?_
    have hvisit' := hvisit.after_asked rfl herror hasked
    rcases r with err | out <;> exact hvisit'

/-! ## The finisher -/

/-- `IsComplete`, for a transfer without an error. -/
def IBCV2Transfer.complete (t : IBCV2Transfer) (opts : PipelineOptions) : Bool :=
  t.timeoutTxHash.isSome || (t.recvTxHash.isSome && t.writeAckTxHash.isSome
    && (t.ackTxHash.isSome || t.writeAckStatus.any fun status => !opts.relays status))

/-- `IsComplete` computes `complete`; it warns only about a write ack without a status, and then the
transfer is not complete. -/
theorem isComplete_spec {t : IBCV2Transfer} (ht : t.processingError = none)
    (opts : PipelineOptions) :
    (t.isComplete opts.shouldRelaySuccessAcks opts.shouldRelayErrorAcks).Ensures fun answer evs =>
      answer = t.complete opts ∧ (evs = [] ∨
        (evs = [⟨.warn .isCompleteWithoutWriteAckStatus t.rowKey, ()⟩] ∧ answer = false
          ∧ t.writeAckTxHash.isSome = true ∧ t.writeAckStatus = none)) := by
  unfold IBCV2Transfer.isComplete IBCV2Transfer.complete
  simp only [ht, Option.isSome_none, Bool.false_eq_true, if_false]
  split
  · rename_i htimeout
    exact ⟨by simp [htimeout], Or.inl rfl⟩
  · rename_i htimeout
    split
    · rename_i hmissing
      refine ⟨?_, Or.inl rfl⟩
      rcases Bool.or_eq_true_iff.mp hmissing with h | h <;>
        simp [Bool.eq_false_iff.mpr htimeout, Option.isNone_iff_eq_none.mp h]
    · rename_i hpresent
      have hrecv : t.recvTxHash.isSome = true := by
        simp only [Bool.or_eq_true, not_or] at hpresent
        simpa [Option.isSome_iff_ne_none] using hpresent.1
      have hack : t.writeAckTxHash.isSome = true := by
        simp only [Bool.or_eq_true, not_or] at hpresent
        simpa [Option.isSome_iff_ne_none] using hpresent.2
      split
      · rename_i hacked
        exact ⟨by simp [hrecv, hack, hacked], Or.inl rfl⟩
      · rename_i hacked
        split
        -- the only branch that warns
        · rename_i hstatus
          intro _
          refine ⟨?_, Or.inr ⟨rfl, rfl, hack, hstatus⟩⟩
          simp [Bool.eq_false_iff.mpr htimeout, Bool.eq_false_iff.mpr hacked, hstatus]
        · rename_i status hstatus
          split
          · rename_i hrelays
            refine ⟨?_, Or.inl rfl⟩
            have : opts.relays status = true := hrelays
            simp [Bool.eq_false_iff.mpr htimeout, Bool.eq_false_iff.mpr hacked, hstatus, this]
          · rename_i hrelays
            refine ⟨?_, Or.inl rfl⟩
            have : opts.relays status = false := Bool.eq_false_iff.mpr hrelays
            simp [hrecv, hack, hstatus, this]

/-- `StateFinisher.Process`, branch by branch. -/
inductive Finish (opts : PipelineOptions) (t : IBCV2Transfer) :
    IBCV2Transfer → List Event → Prop where
  | passed (h : t.error ≠ "") : Finish opts t t []
  | notComplete (herror : t.error = "") (hcomplete : t.complete opts = false)
      (warned : List Event) (hwarned : warned = [] ∨
        (warned = [⟨.warn .isCompleteWithoutWriteAckStatus t.rowKey, ()⟩]
          ∧ t.writeAckTxHash.isSome = true ∧ t.writeAckStatus = none)) :
      Finish opts t t (⟨.warn .finishNotComplete t.rowKey, ()⟩ :: warned)
  | withoutStatus (herror : t.error = "") (hcomplete : t.complete opts = true)
      (hhash : t.writeAckTxHash.isSome = true)
      (hstatus : t.writeAckStatus = none) :
      Finish opts t t [⟨.warn .finishWithoutWriteAckStatus t.rowKey, ()⟩]
  | finished (herror : t.error = "") (hcomplete : t.complete opts = true)
      (state : Ibcv2RelayStatus) (hstate : StateFinisher.finalState t = some state)
      (counted : List Event) (hcounted : ∀ e ∈ counted, e.call.isSilent = true) :
      Finish opts t { t with state } (saveEvent state t.rowKey (.ok ()) :: counted)
  | notSaved (herror : t.error = "") (hcomplete : t.complete opts = true)
      (state : Ibcv2RelayStatus) (hstate : StateFinisher.finalState t = some state)
      (counted : List Event) (hcounted : ∀ e ∈ counted, e.call.isSilent = true)
      (err err' : GoError) (htext : err'.text ≠ "") :
      Finish opts t ({ t with state }.fail err') (saveEvent state t.rowKey (.error err) :: counted)

/-- The counters of the finisher are silent. -/
theorem recordRelayed_silent (t : IBCV2Transfer) (state : Ibcv2RelayStatus) :
    (StateFinisher.recordRelayed t state).Ensures fun _ evs =>
      ∀ e ∈ evs, e.call.isSilent = true := by
  unfold StateFinisher.recordRelayed
  split
  · exact fun _ => by simp [Call.isSilent, Call.isQuery]
  · exact fun _ => by simp [Call.isSilent, Call.isQuery]
  · exact fun e he => by simp at he

/-- A complete transfer has a final status unless its write ack has none. -/
theorem finalState_eq_none {t : IBCV2Transfer} {opts : PipelineOptions}
    (hcomplete : t.complete opts = true) (h : StateFinisher.finalState t = none) :
    t.writeAckTxHash.isSome = true ∧ t.writeAckStatus = none := by
  unfold StateFinisher.finalState at h
  split at h
  · cases h
  · rename_i htimeout
    refine ⟨?_, Option.map_eq_none_iff.mp h⟩
    simp only [IBCV2Transfer.complete, Bool.eq_false_iff.mpr htimeout, Bool.false_or,
      Bool.and_eq_true] at hcomplete
    exact hcomplete.1.2

/-- The finisher takes one of its five branches. That the copy is honest is needed since it looks at
the text of an error and `IsComplete` at the error itself. -/
theorem finish_spec {t : IBCV2Transfer} (ht : t.Honest) (opts : PipelineOptions) :
    (StateFinisher.process opts.shouldRelaySuccessAcks opts.shouldRelayErrorAcks t).Ensures
      (Finish opts t) := by
  unfold StateFinisher.process
  split
  · rename_i herror
    exact .passed herror
  · rename_i herror
    have herror' : t.error = "" := not_not.mp herror
    refine (isComplete_spec (ht herror') opts).bind ?_
    rintro answer warned ⟨rfl, hwarned⟩
    split
    · rename_i hcomplete
      intro _
      refine .notComplete herror' (by simpa using hcomplete) warned ?_
      exact hwarned.imp_right fun h => ⟨h.1, h.2.2⟩
    · rename_i hcomplete
      have hcomplete' : t.complete opts = true := by simpa using hcomplete
      -- a warning would have meant not complete
      have hnil : warned = [] :=
        hwarned.resolve_right fun h => absurd (hcomplete'.symm.trans h.2.1) (by simp)
      subst hnil
      split
      · rename_i hstate
        obtain ⟨hhash, hstatus⟩ := finalState_eq_none hcomplete' hstate
        exact fun _ => .withoutStatus herror' hcomplete' hhash hstatus
      · rename_i state hstate
        refine (recordRelayed_silent t state).bind fun _ counted hcounted => ?_
        rintro (err | _)
        · exact .notSaved herror' hcomplete' state hstate _ (by simpa using hcounted) err _
            (by simp)
        · exact .finished herror' hcomplete' state hstate _ (by simpa using hcounted)

/-! ## A visit to any stage -/

/-- The keys of the transfers that are together in a stage: a batch, or one transfer alone. -/
def Stage.keys (stage : Stage) (pl : Pipeline) {key : RowKey} (mates : Mates key) : List RowKey :=
  match stage.processor pl with
  | .batch _ => key :: (mates.before ++ mates.after).map (·.rowKey)
  | _ => [key]

theorem Stage.mem_keys (stage : Stage) (pl : Pipeline) {key : RowKey} (mates : Mates key) :
    key ∈ stage.keys pl mates := by
  unfold Stage.keys
  split <;> simp

/-- The mates of a transfer have other keys. -/
theorem Mates.others {key : RowKey} (mates : Mates key) :
    ∀ u ∈ mates.before ++ mates.after, u.rowKey ≠ key := by
  intro u hu hkey
  exact (List.nodup_cons.mp mates.nodup).1 (List.mem_map.mpr ⟨u, hu, hkey⟩)

inductive StageVisit (pl : Pipeline) (keys : List RowKey) (t : IBCV2Transfer) :
    Stage → Option IBCV2Transfer → List Event → Prop where
  | wrapped {stage : Stage} {c : Contract} {o : Option IBCV2Transfer} {evs : List Event}
      (hc : stage.contract pl = some c) (h : Visit c keys t o evs) :
      StageVisit pl keys t stage o evs
  | finisher {t' : IBCV2Transfer} {evs : List Event} (h : Finish pl.opts t t' evs) :
      StageVisit pl keys t .stateFinisher (some t') evs

/-- A visit among more transfers. -/
theorem Visit.weaken {c : Contract} {keys keys' : List RowKey} {t : IBCV2Transfer}
    {o : Option IBCV2Transfer} {evs : List Event} (h : Visit c keys t o evs)
    (hsub : keys ⊆ keys') : Visit c keys' t o evs :=
  { h with
    frame := fun k hk => h.frame k fun hin => hk <| by
      rcases List.mem_append.mp hin with hin | hin
      · exact List.mem_append_left _ (hsub hin)
      · exact List.mem_append_right _ hin }

/-- **A visit to any stage of a pipeline**, single, batched or the finisher, is a `StageVisit`. -/
theorem stage_visit (pl : Pipeline) (stage : Stage) {key : RowKey} (mates : Mates key)
    {t : IBCV2Transfer} (hkey : t.rowKey = key) (ht : t.Honest) :
    ((stage.processor pl).run mates.before mates.after t).Ensures
      (StageVisit pl (stage.keys pl mates) t stage) := by
  subst hkey
  cases hproc : stage.processor pl with
  | single p =>
    obtain ⟨c, hc⟩ : ∃ c, stage.contract pl = some c := by
      cases stage <;> cases hproc <;> exact ⟨_, rfl⟩
    refine (mw_visit (single_meets hproc hc) t).bind fun r evs hvisit => ?_
    have hkeys : stage.keys pl mates = [t.rowKey] := by rw [Stage.keys, hproc]
    rw [hkeys]
    have hvisit' := StageVisit.wrapped hc hvisit
    cases r <;> exact hvisit'
  -- a mate stands before or behind the transfer; as keys of the stage they come after it
  | batch q =>
    obtain ⟨p, hmeets, hc⟩ := batch_meets hproc
    refine (conditionally_visit hmeets mates.others ht).mono fun o evs hvisit => ?_
    refine .wrapped hc (hvisit.weaken fun k hk => ?_)
    rw [List.map_append, List.map_cons] at hk
    rw [Stage.keys, hproc, List.map_append]
    exact List.perm_middle.subset hk
  | finisher success error =>
    cases stage <;> cases hproc
    refine (finish_spec ht pl.opts).bind fun t' evs hfinish => ?_
    exact .finisher hfinish

/-- The finisher leaves the packet of a copy. -/
theorem Finish.samePacket {opts : PipelineOptions} {t t' : IBCV2Transfer} {evs : List Event}
    (h : Finish opts t t' evs) : SamePacket t t' := by
  cases h with
  | finished _ _ state => exact samePacket_state t state
  | notSaved _ _ state _ _ _ err err' =>
    exact (samePacket_state t state).trans (samePacket_fail _ err')
  | _ => exact SamePacket.refl t

/-- The error that the finisher may set has a text. -/
theorem Finish.honest {opts : PipelineOptions} {t t' : IBCV2Transfer} {evs : List Event}
    (h : Finish opts t t' evs) (ht : t.Honest) : t'.Honest := by
  cases h with
  | notSaved _ _ _ _ _ _ _ _ htext => exact honest_fail htext
  | _ => exact ht

/-- The finisher warns, saves the state of the transfer, and counts. -/
theorem Finish.events {opts : PipelineOptions} {t t' : IBCV2Transfer} {evs : List Event}
    (h : Finish opts t t' evs) : ∀ e ∈ evs, (∃ warning, e.call = .warn warning t.rowKey)
      ∨ (∃ state, e.call = .update (.updateTransferState state) t.rowKey)
      ∨ e.call.isSilent = true := by
  have hsave : ∀ {state answer} {counted : List Event}, (∀ e ∈ counted, e.call.isSilent = true) →
      ∀ e ∈ saveEvent state t.rowKey answer :: counted, (∃ warning, e.call = .warn warning t.rowKey)
        ∨ (∃ state, e.call = .update (.updateTransferState state) t.rowKey)
        ∨ e.call.isSilent = true :=
    fun h => List.forall_mem_cons.mpr
      ⟨Or.inr (Or.inl ⟨_, rfl⟩), fun e he => Or.inr (Or.inr (h e he))⟩
  cases h with
  | passed => simp
  | notComplete _ _ warned hwarned => rcases hwarned with rfl | ⟨rfl, -⟩ <;> simp
  | withoutStatus => simp
  | finished _ _ _ _ _ hcounted => exact hsave hcounted
  | notSaved _ _ _ _ _ hcounted => exact hsave hcounted

section FinishEvents

variable {opts : PipelineOptions} {t t' : IBCV2Transfer} {evs : List Event} {e : Event}

/-- The finisher writes no row but that of the transfer. -/
theorem Finish.frame (h : Finish opts t t' evs) {k : RowKey} (hk : k ≠ t.rowKey) (he : e ∈ evs) :
    updatesOfEvent k e = [] := by
  rcases h.events e he with hwarn | hsave | hsilent
  · exact OfAdmission.frame (Or.inr (Or.inl hwarn)) hk
  · exact OfAdmission.frame (Or.inr (Or.inr hsave)) hk
  · exact updatesOfEvent_silent hsilent k

/-- The finisher submits nothing. -/
theorem Finish.submission (h : Finish opts t t' evs) (he : e ∈ evs) : e.call.submission = none := by
  rcases h.events e he with hwarn | hsave | hsilent
  · exact OfAdmission.submission (Or.inr (Or.inl hwarn))
  · exact OfAdmission.submission (Or.inr (Or.inr hsave))
  · exact submission_silent hsilent

/-- The finisher asks no chain. -/
theorem Finish.query (h : Finish opts t t' evs) (he : e ∈ evs) : e.call.isQuery = false := by
  rcases h.events e he with hwarn | hsave | hsilent
  · exact OfAdmission.query (Or.inr (Or.inl hwarn))
  · exact OfAdmission.query (Or.inr (Or.inr hsave))
  · exact query_silent hsilent

/-- The finisher does not look at the clock to tell whether a packet is timed out. -/
theorem Finish.reading (h : Finish opts t t' evs) {reader : ClockReader} {key : RowKey} {now : Time}
    (hin : ⟨.now reader key, now⟩ ∈ evs) : reader.isTimeoutCheck = false := by
  rcases h.events _ hin with ⟨_, hc⟩ | ⟨_, hc⟩ | hsilent
  · cases hc
  · cases hc
  · exact (quiet_silent hsilent).reading reader key rfl

end FinishEvents

/-- No stage changes what packet a copy is about. -/
theorem StageVisit.samePacket {pl : Pipeline} {keys : List RowKey} {stage : Stage}
    {t t' : IBCV2Transfer} {evs : List Event} (h : StageVisit pl keys t stage (some t') evs) :
    SamePacket t t' := by
  cases h with
  | wrapped hc h => exact h.step.samePacket hc
  | finisher h => exact h.samePacket

/-- Every stage returns an honest copy. -/
theorem StageVisit.honest {pl : Pipeline} {keys : List RowKey} {stage : Stage}
    {t t' : IBCV2Transfer} {evs : List Event} (h : StageVisit pl keys t stage (some t') evs)
    (ht : t.Honest) : t'.Honest := by
  cases h with
  | wrapped hc h => exact h.step.honest hc ht
  | finisher h => exact h.honest ht

/-- A visit writes no row of a transfer that is not in the stage, but for the row that an `UPDATE`
without a key hits. -/
theorem StageVisit.updates_others {pl : Pipeline} {keys : List RowKey} {stage : Stage}
    {t : IBCV2Transfer} {o : Option IBCV2Transfer} {evs : List Event}
    (h : StageVisit pl keys t stage o evs) (hkey : t.rowKey ∈ keys) {k : RowKey} (hk : k ∉ keys)
    (hzero : k ≠ RowKey.zero) : updatesOf k evs = [] := by
  cases h with
  | @wrapped _ c _ _ hc h =>
    have hstrays : ∀ k' ∈ c.strays, k' = RowKey.zero := by
      cases stage <;> cases hc <;> simp [batchContract]
    refine updatesOf_eq_nil (h.frame k fun hin => ?_)
    rcases List.mem_append.mp hin with hin | hin
    · exact hk hin
    · exact hzero (hstrays k hin)
  | finisher h => exact updatesOf_eq_nil fun e he => h.frame (fun h => hk (h ▸ hkey)) he

/-! ## Traces -/

/-- The visits of a transfer to a list of stages. -/
inductive Trace (pl : Pipeline) {key : RowKey} (mates : Stage → Mates key) :
    List Stage → IBCV2Transfer → Option IBCV2Transfer → List Event → Prop where
  | nil (t : IBCV2Transfer) : Trace pl mates [] t (some t) []
  | lost {stage : Stage} {rest : List Stage} {t : IBCV2Transfer} {evs : List Event}
      (h : StageVisit pl (stage.keys pl (mates stage)) t stage none evs) :
      Trace pl mates (stage :: rest) t none evs
  | cons {stage : Stage} {rest : List Stage} {t t' : IBCV2Transfer} {o : Option IBCV2Transfer}
      {evs evs' : List Event}
      (h : StageVisit pl (stage.keys pl (mates stage)) t stage (some t') evs)
      (hrest : Trace pl mates rest t' o evs') : Trace pl mates (stage :: rest) t o (evs' ++ evs)

/-- Every run of a list of stages is a trace. The two hypotheses about the copy hold at its start,
and every visit keeps them. -/
theorem runStages_trace (pl : Pipeline) {key : RowKey} (mates : Stage → Mates key)
    (stages : List Stage) {t : IBCV2Transfer} (hkey : t.rowKey = key) (ht : t.Honest) :
    (runStages pl mates stages t).Ensures (Trace pl mates stages t) := by
  -- each stage gets the copy that the one before it returned
  induction stages generalizing t with
  | nil => exact .nil t
  | cons stage rest ih =>
    refine (stage_visit pl stage (mates stage) hkey ht).bind fun o evs hvisit => ?_
    cases o with
    | none => exact .lost hvisit
    | some t' =>
      have hkey' : t'.rowKey = key := hvisit.samePacket.rowKey.trans hkey
      exact (ih hkey' (hvisit.honest ht)).mono fun o evs' hrest => .cons hvisit hrest

/-- The same of a run in a world, with the answers of its environment. -/
theorem execute_trace (pl : Pipeline) {key : RowKey} (mates : Stage → Mates key)
    (stages : List Stage) {t : IBCV2Transfer} (hkey : t.rowKey = key) (ht : t.Honest)
    (env : Environment) (w : World) :
    ∃ evs, Trace pl mates stages t (execute env (runStages pl mates stages t) w).1 evs
      ∧ (execute env (runStages pl mates stages t) w).2 = w.after evs
      ∧ ∀ e ∈ evs, ∃ w', e.answer = env w' e.call :=
  execute_of_ensures (runStages_trace pl mates stages hkey ht) env w

section Trace

variable {pl : Pipeline} {key : RowKey} {mates : Stage → Mates key} {stages rest : List Stage}
  {stage : Stage} {t t' : IBCV2Transfer} {o : Option IBCV2Transfer} {evs : List Event}

/-- A property of the transfer that every stage keeps. -/
theorem Trace.induct {P : IBCV2Transfer → Prop} (h : Trace pl mates stages t o evs) (h0 : P t)
    (hstep : ∀ stage keys u u' evs, P u → StageVisit pl keys u stage (some u') evs → P u')
    {t' : IBCV2Transfer} (ho : o = some t') : P t' := by
  induction h with
  | nil t =>
    cases ho
    exact h0
  | lost => cases ho
  | cons hvisit _ ih => exact ih (hstep _ _ _ _ _ h0 hvisit) ho

/-- A trace is cut in two where its list of stages is. -/
theorem Trace.append (h : Trace pl mates (stages ++ rest) t o evs) :
    (o = none ∧ Trace pl mates stages t none evs)
      ∨ ∃ u evs₁ evs₂, Trace pl mates stages t (some u) evs₁ ∧ Trace pl mates rest u o evs₂
        ∧ evs = evs₂ ++ evs₁ := by
  induction stages generalizing t evs with
  | nil => exact Or.inr ⟨t, [], evs, .nil t, h, by simp⟩
  | cons stage stages ih =>
    cases h with
    | lost h => exact Or.inl ⟨rfl, .lost h⟩
    | cons h hrest =>
      rcases ih hrest with ⟨rfl, hlost⟩ | ⟨u, evs₁, evs₂, hstages, hrest', rfl⟩
      · exact Or.inl ⟨rfl, .cons h hlost⟩
      · exact Or.inr ⟨u, _, evs₂, .cons h hstages, hrest', by simp⟩

/-- A copy is about the same packet all through a pass. -/
theorem Trace.samePacket (h : Trace pl mates stages t o evs) {t' : IBCV2Transfer}
    (ho : o = some t') : SamePacket t t' :=
  h.induct (SamePacket.refl t) (fun _ _ _ _ _ hu hvisit => hu.trans hvisit.samePacket) ho

/-- A trace writes no row of a transfer that is in none of its stages. -/
theorem Trace.updates_others (h : Trace pl mates stages t o evs) (hkey : t.rowKey = key)
    {k : RowKey} (hk : ∀ stage : Stage, k ∉ stage.keys pl (mates stage)) (hzero : k ≠ RowKey.zero) :
    updatesOf k evs = [] := by
  induction h with
  | nil => rfl
  | @lost stage _ _ _ hvisit =>
    exact hvisit.updates_others (hkey ▸ stage.mem_keys pl (mates stage)) (hk stage) hzero
  | @cons stage _ _ _ _ _ _ hvisit _ ih =>
    rw [updatesOf_append, ih (hvisit.samePacket.rowKey.trans hkey),
      hvisit.updates_others (hkey ▸ stage.mem_keys pl (mates stage)) (hk stage) hzero]
    rfl

theorem Trace.honest (h : Trace pl mates stages t o evs) (ht : t.Honest) {t' : IBCV2Transfer}
    (ho : o = some t') : t'.Honest :=
  h.induct ht (fun _ _ _ _ _ hu hvisit => hvisit.honest hu) ho

end Trace

/-! ## The stages of a running pass -/

/-- A list of stages can be run in two parts. -/
theorem runStages_append (pl : Pipeline) {key : RowKey} (mates : Stage → Mates key)
    (stages rest : List Stage) (t : IBCV2Transfer) :
    runStages pl mates (stages ++ rest) t = (do
      match ← runStages pl mates stages t with
      | none => return none
      | some u => runStages pl mates rest u) := by
  induction stages generalizing t with
  | nil => rfl
  | cons stage stages ih =>
    rw [List.cons_append, runStages, runStages, Prog.bind_assoc]
    congr 1
    funext o
    cases o with
    | none => rfl
    | some u => exact ih u

/-- In the pass of `t` from the world `w`, the stage gets `u` in the world `w₁` and ends with `o` in
the world `w₂`. -/
structure VisitedAt (pl : Pipeline) {key : RowKey} (mates : Stage → Mates key) (env : Environment)
    (w : World) (t : IBCV2Transfer) (stage : Stage) (u : IBCV2Transfer) (w₁ : World)
    (o : Option IBCV2Transfer) (w₂ : World) : Prop where
  arrives : ∃ before after, newPipeline pl = before ++ stage :: after
    ∧ execute env (runStages pl mates before t) w = (some u, w₁)
  runs : execute env ((stage.processor pl).run (mates stage).before (mates stage).after u) w₁
    = (o, w₂)

section VisitedAt

variable {pl : Pipeline} {key : RowKey} {mates : Stage → Mates key} {env : Environment}
  {w w₁ w₂ : World} {stage : Stage} {t u : IBCV2Transfer} {o : Option IBCV2Transfer}

theorem VisitedAt.before (h : VisitedAt pl mates env w t stage u w₁ o w₂) (hkey : t.rowKey = key)
    (ht : t.Honest) : ∃ before after evs, newPipeline pl = before ++ stage :: after
      ∧ Trace pl mates before t (some u) evs ∧ w₁ = w.after evs := by
  obtain ⟨before, after, hstages, hrun⟩ := h.arrives
  obtain ⟨evs, htrace, hw, -⟩ := execute_trace pl mates before hkey ht env w
  rw [hrun] at htrace hw
  exact ⟨before, after, evs, hstages, htrace, hw⟩

/-- The stage itself, as a visit. -/
theorem VisitedAt.visit (h : VisitedAt pl mates env w t stage u w₁ o w₂) (hkey : t.rowKey = key)
    (ht : t.Honest) :
    ∃ evs, StageVisit pl (stage.keys pl (mates stage)) u stage o evs ∧ w₂ = w₁.after evs
      ∧ u.rowKey = key ∧ u.Honest ∧ ∀ e ∈ evs, ∃ w', e.answer = env w' e.call := by
  obtain ⟨before, after, evs₁, -, htrace, -⟩ := h.before hkey ht
  have hkey' : u.rowKey = key := (htrace.samePacket rfl).rowKey.trans hkey
  have hhonest := htrace.honest ht rfl
  obtain ⟨evs, hvisit, hw, hanswers⟩ :=
    execute_of_ensures (stage_visit pl stage (mates stage) hkey' hhonest) env w₁
  rw [h.runs] at hvisit hw
  exact ⟨evs, hvisit, hw, hkey', hhonest, hanswers⟩

/-- A pass is followed up to a stage by running the stages before it. -/
theorem visitedAt_of_execute {before after : List Stage}
    (hstages : newPipeline pl = before ++ stage :: after) {w₁ : World}
    (hw₁ : (execute env (runStages pl mates before t) w).2 = w₁)
    (hu : (execute env (runStages pl mates before t) w).1 = some u) {left : _ × World}
    (hleft : execute env ((stage.processor pl).run (mates stage).before (mates stage).after u) w₁
      = left) :
    VisitedAt pl mates env w t stage u w₁ left.1 left.2 :=
  ⟨⟨before, after, hstages, Prod.ext hu hw₁⟩, hleft⟩

/-- The run of one more stage is a run of the others and a visit. -/
theorem visitedAt_of_append {before after : List Stage} {t' : IBCV2Transfer}
    (hstages : newPipeline pl = (before ++ [stage]) ++ after)
    (hrun : execute env (runStages pl mates (before ++ [stage]) t) w = (some t', w₂)) :
    ∃ u w₁, execute env (runStages pl mates before t) w = (some u, w₁)
      ∧ VisitedAt pl mates env w t stage u w₁ (some t') w₂ := by
  rw [runStages_append, execute_bind] at hrun
  cases hbefore : execute env (runStages pl mates before t) w with
  | mk o w₁ =>
    rw [hbefore] at hrun
    cases o with
    | none => cases hrun
    | some u =>
      refine ⟨u, w₁, rfl, ⟨before, after, by simpa using hstages, hbefore⟩, ?_⟩
      dsimp only at hrun
      rw [runStages, execute_bind] at hrun
      cases hstage : execute env ((stage.processor pl).run (mates stage).before
          (mates stage).after u) w₁ with
      | mk o' w' =>
        rw [hstage] at hrun
        cases o' with
        | none => cases hrun
        | some v => exact hrun

end VisitedAt

end IbcRelayer
