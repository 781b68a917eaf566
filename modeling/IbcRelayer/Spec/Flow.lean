import IbcRelayer.Spec.Pass

/-!
# IbcRelayer — what happens between two stages

A stage is guarded by the fields of the copy, and the argument that a check covers a later use is
always the same: nothing between the two stages changes the field, and the transfer was live
(without an error and not failed) at both.

* `Stage.rank` — the stages of a pipeline are in the order of their ranks (`newPipeline_sorted`);
* `StageVisit.settled` — a live transfer that leaves a stage without an error was refused by the
  guard, or the processor ended well;
* `Flow` — which stage can change which field; `Trace.field` carries it to a run of stages;
* `Trace.visited`, `Trace.at_event` — a trace is taken apart at a stage or at an event.
-/

namespace IbcRelayer

open CallTree Prog IBCV2Transfer

/-! ## The order of the stages -/

/-- The stages are declared in the order of the pipeline. -/
def Stage.rank (stage : Stage) : Nat := stage.ctorIdx

/-- The stages of every pipeline are in the order of their ranks, whichever gas stages it has. -/
theorem newPipeline_sorted (pl : Pipeline) : (newPipeline pl).Pairwise (·.rank < ·.rank) := by
  unfold newPipeline onlyIf
  -- four pipelines, with and without the gas stages of either chain
  cases pl.sourceGas <;> cases pl.destinationGas <;> decide

theorem mem_newPipeline (pl : Pipeline) {stage : Stage} (h : stage.isGas = false) :
    stage ∈ newPipeline pl := by
  cases stage <;> first | simp [newPipeline]; done | cases h

section Sorted

variable {before after : List Stage} {stage s : Stage}

theorem rank_before (h : (before ++ stage :: after).Pairwise (·.rank < ·.rank)) (hs : s ∈ before) :
    s.rank < stage.rank :=
  (List.pairwise_append.mp h).2.2 s hs stage List.mem_cons_self

theorem rank_after (h : (before ++ stage :: after).Pairwise (·.rank < ·.rank)) (hs : s ∈ after) :
    stage.rank < s.rank :=
  (List.pairwise_cons.mp (List.pairwise_append.mp h).2.1).1 s hs

theorem mem_before (h : (before ++ stage :: after).Pairwise (·.rank < ·.rank))
    (hs : s ∈ before ++ stage :: after) (hlt : s.rank < stage.rank) : s ∈ before := by
  rcases List.mem_append.mp hs with hs | hs
  · exact hs
  · rcases List.mem_cons.mp hs with rfl | hs
    · exact absurd hlt (Nat.lt_irrefl _)
    · exact absurd (rank_after h hs) (Nat.lt_asymm hlt)

theorem mem_after (h : (before ++ stage :: after).Pairwise (·.rank < ·.rank))
    (hs : s ∈ before ++ stage :: after) (hlt : stage.rank < s.rank) : s ∈ after := by
  rcases List.mem_append.mp hs with hs | hs
  · exact absurd (rank_before h hs) (Nat.lt_asymm hlt)
  · rcases List.mem_cons.mp hs with rfl | hs
    · exact absurd hlt (Nat.lt_irrefl _)
    · exact hs

/-- Nothing comes after the finisher. -/
theorem finisher_not_mem_before {pl : Pipeline} (h : newPipeline pl = before ++ stage :: after) :
    .stateFinisher ∉ before := by
  intro hin
  have hsorted := newPipeline_sorted pl
  rw [h] at hsorted
  have hlt := rank_before hsorted hin
  have hle : stage.rank ≤ Stage.stateFinisher.rank := by cases stage <;> decide
  omega

end Sorted

/-! ## Live transfers -/

/-- Without an error and not failed: the wrappers look at the transfer. -/
structure IBCV2Transfer.Live (t : IBCV2Transfer) : Prop where
  error : t.error = ""
  state : t.state ≠ .failed

/-- A processor gets live transfers only. -/
theorem Taken.live {c : Contract} {t : IBCV2Transfer} {evs : List Event} (h : Taken c t evs) :
    t.Live :=
  ⟨h.error, h.state⟩

/-- The finisher does not mark a transfer as failed. -/
theorem finalState_ne_failed {t : IBCV2Transfer} {state : Ibcv2RelayStatus}
    (h : StateFinisher.finalState t = some state) : state ≠ .failed := by
  unfold StateFinisher.finalState at h
  split at h
  · cases h
    simp
  · obtain ⟨status, -, rfl⟩ := Option.map_eq_some_iff.mp h
    split
    · simp
    · split <;> simp

/-- A processor leaves the state that the wrapper has set. -/
theorem Change.state {t t' : IBCV2Transfer} {stage : Stage} {us : List TransferUpdate}
    (h : Change t stage t' us) : t'.state = t.state := by
  cases h <;> rfl

section Visit

variable {pl : Pipeline} {keys : List RowKey} {stage : Stage} {c : Contract} {u u' : IBCV2Transfer}
  {evs : List Event}

/-- A visit that ends without an error began without one. -/
theorem StageVisit.error_before (h : StageVisit pl keys u stage (some u') evs)
    (herror : u'.error = "") : u.error = "" := by
  cases h with
  | wrapped hc h =>
    have hstep := h.step
    generalize updatesOf u.rowKey evs = us at hstep
    cases hstep with
    | passed => exact herror
    | refused => exact herror
    | stateNotSaved err err' htext => exact absurd herror htext
    | failed htaken => exact htaken.error
    | done htaken => exact htaken.error
  | finisher h =>
    cases h with
    | passed => exact herror
    | notComplete herror' => exact herror'
    | withoutStatus herror' => exact herror'
    | finished herror' => exact herror'
    | notSaved herror' => exact herror'

/-- How a transfer without an error leaves a wrapped stage. -/
theorem StageVisit.settled (h : StageVisit pl keys u stage (some u') evs)
    (hc : stage.contract pl = some c) (herror : u'.error = "") :
    (u' = u ∧ (u.state = .failed ∨ (c.guard.Refused u evs ∧ (c.packet = none →
        ∀ reader now, ⟨.now reader u.rowKey, now⟩ ∈ evs → c.guard.wants u now = false))))
      ∨ ∃ us own, Taken c u evs ∧ own ⊆ evs ∧ (∀ e ∈ evs, e.call.isQuery = true → e ∈ own)
        ∧ c.Ok { u with state := c.state } u' us own := by
  cases h with
  | finisher => cases hc
  | wrapped hc' h =>
    rw [hc] at hc'
    cases hc'
    have hstep := h.step
    generalize updatesOf u.rowKey evs = us at hstep
    cases hstep with
    | passed hpassed => exact Or.inl ⟨rfl, Or.inl (hpassed.resolve_left (not_not.mpr herror))⟩
    | refused hrefused hreadings => exact Or.inl ⟨rfl, Or.inr ⟨hrefused, hreadings⟩⟩
    | stateNotSaved err err' htext => exact absurd herror htext
    -- an error was set, and it has a text
    | failed _ err htext o ho =>
      cases ho.resolve_left (by simp)
      exact absurd herror htext
    | done htaken _ us' own hown hquery hok =>
      exact Or.inr ⟨us', own, htaken, hown, hquery, hok⟩

/-- A live transfer that the guard wants, at every reading there is, is processed. -/
theorem StageVisit.done (h : StageVisit pl keys u stage (some u') evs)
    (hc : stage.contract pl = some c) (hstate : u.state ≠ .failed) (herror : u'.error = "")
    (hwants : ∃ now, c.guard.wants u now = true)
    (hreadings : ∀ reader now, c.guard.reader = some reader → ⟨.now reader u.rowKey, now⟩ ∈ evs →
      c.guard.wants u now = true) :
    ∃ us own, Taken c u evs ∧ own ⊆ evs ∧ (∀ e ∈ evs, e.call.isQuery = true → e ∈ own)
      ∧ c.Ok { u with state := c.state } u' us own := by
  obtain ⟨now, hwants⟩ := hwants
  rcases h.settled hc herror with ⟨-, hfailed | ⟨hrefused, -⟩⟩ | hdone
  · exact absurd hfailed hstate
  · rcases hrefused with hnever | ⟨reader, now', hreader, hin, hfalse⟩
    · rw [hnever now] at hwants
      cases hwants
    · rw [hreadings reader now' hreader hin] at hfalse
      cases hfalse
  · exact hdone

/-- A transfer that the guard does not want, at any reading there is, goes by. -/
theorem StageVisit.skipped (h : StageVisit pl keys u stage (some u') evs)
    (hc : stage.contract pl = some c) (herror : u'.error = "")
    (hrefuses : ∀ now, (∀ reader, c.guard.reader = some reader →
      ⟨.now reader u.rowKey, now⟩ ∈ evs) → c.guard.wants u now = false) : u' = u := by
  rcases h.settled hc herror with ⟨heq, -⟩ | ⟨us, own, htaken, -⟩
  · exact heq
  · obtain ⟨now, hwants, hread⟩ := htaken.granted
    rw [hrefuses now hread] at hwants
    cases hwants

/-- A stage other than the finisher passes a failed transfer on as it is. -/
theorem StageVisit.live_before (h : StageVisit pl keys u stage (some u') evs)
    (hstage : stage ≠ .stateFinisher) (hlive : u'.Live) : u.Live := by
  refine ⟨h.error_before hlive.error, fun hfailed => hlive.state ?_⟩
  obtain ⟨c, hc⟩ : ∃ c, stage.contract pl = some c := by
    cases stage <;> first | exact absurd rfl hstage | exact ⟨_, rfl⟩
  rcases h.settled hc hlive.error with ⟨rfl, -⟩ | ⟨us, own, htaken, -⟩
  · exact hfailed
  · exact absurd hfailed htaken.state

/-- No stage marks a transfer as failed. -/
theorem StageVisit.not_failed (h : StageVisit pl keys u stage (some u') evs)
    (herror : u'.error = "") (hstate : u.state ≠ .failed) : u'.state ≠ .failed := by
  cases h with
  | @wrapped _ c _ _ hc h =>
    rcases (StageVisit.wrapped hc h).settled hc herror with ⟨rfl, -⟩ | ⟨us, own, -, -, -, hok⟩
    · exact hstate
    · intro hfailed
      have hstate' : u'.state = c.state := (ok_change hc hok).state
      have hfinished := contract_state hc
      rw [← hstate', hfailed] at hfinished
      cases hfinished
  | finisher h =>
    cases h with
    | finished _ _ state hfinal => exact finalState_ne_failed hfinal
    | notSaved _ _ _ _ _ _ err err' htext => exact absurd herror htext
    | _ => exact hstate

/-! ## Which stage can change which field -/

/-- The hashes that an un-errored visit can change. A hash is never changed once it is there. -/
structure Flow (stage : Stage) (u u' : IBCV2Transfer) : Prop where
  recvTxHash : u'.recvTxHash = u.recvTxHash ∨ (u.recvTxHash = none ∧ stage.recordsRecv)
  writeAck : (u'.writeAckTxHash = u.writeAckTxHash ∧ u'.writeAckStatus = u.writeAckStatus)
    ∨ (u.writeAckTxHash = none ∧ stage = .waitForWriteAckPacket)
  ackTxHash : u'.ackTxHash = u.ackTxHash
    ∨ (u.ackTxHash = none ∧ (stage.checksCommitment ∨ stage = .batchAckPacket))
  timeoutTxHash : u'.timeoutTxHash = u.timeoutTxHash
    ∨ (u.timeoutTxHash = none ∧ (stage.checksCommitment ∨ stage = .batchTimeoutPacket))

theorem Flow.refl (stage : Stage) (u : IBCV2Transfer) (state : Ibcv2RelayStatus) :
    Flow stage u { u with state } :=
  ⟨Or.inl rfl, Or.inl ⟨rfl, rfl⟩, Or.inl rfl, Or.inl rfl⟩

/-- The change that a processor makes to a hash was allowed by its guard: the hash was not there. -/
theorem change_flow {us : List TransferUpdate} {now : Time}
    (hwants : (stage.guard pl).wants u now = true) (h : Change u stage u' us)
    (herror : u'.error = "") : Flow stage u u' := by
  cases h with
  | recvTx hstage tx =>
    exact { Flow.refl stage u u.state with
      recvTxHash := Or.inr ⟨guard_recvTx hstage hwants, hstage⟩ }
  | ackTx hstage tx address =>
    exact { Flow.refl stage u u.state with
      ackTxHash := Or.inr ⟨(guard_ackTx hstage hwants).1, hstage⟩ }
  | timeoutTx hstage tx address =>
    exact { Flow.refl stage u u.state with
      timeoutTxHash := Or.inr ⟨(guard_timeoutTx hstage hwants).2, hstage⟩ }
  | writeAck hash time status hhash =>
    refine { Flow.refl _ u u.state with writeAck := Or.inr ⟨?_, rfl⟩ }
    simp [Stage.guard] at hwants
    exact hwants.1.2
  -- the visit would have ended with an error
  | marked err htext => exact absurd herror htext
  | _ => exact ⟨Or.inl rfl, Or.inl ⟨rfl, rfl⟩, Or.inl rfl, Or.inl rfl⟩

/-- **What an un-errored visit to any stage can do to the hashes.** -/
theorem StageVisit.flow (h : StageVisit pl keys u stage (some u') evs) (herror : u'.error = "") :
    Flow stage u u' := by
  cases h with
  | wrapped hc h =>
    rcases (StageVisit.wrapped hc h).settled hc herror with ⟨rfl, -⟩ | ⟨us, own, htaken, -, -, hok⟩
    · exact Flow.refl stage _ _
    · -- the guard was asked before the state was saved, and the change is about the copy after it
      obtain ⟨now, hwants⟩ := htaken.wants_saved hc
      have hflow := change_flow hwants (ok_change hc hok) herror
      exact ⟨hflow.recvTxHash, hflow.writeAck, hflow.ackTxHash, hflow.timeoutTxHash⟩
  | finisher h =>
    cases h with
    | finished _ _ state => exact Flow.refl _ u state
    | notSaved _ _ _ _ _ _ err err' htext => exact absurd herror htext
    | _ => exact Flow.refl _ _ _

end Visit

/-! ## Along a trace -/

section Trace

variable {pl : Pipeline} {key : RowKey} {mates : Stage → Mates key} {stages : List Stage}
  {stage : Stage} {t u : IBCV2Transfer} {o : Option IBCV2Transfer} {evs : List Event}

/-- A pass that ends without an error began without one. -/
theorem Trace.error_before (h : Trace pl mates stages t o evs) (ho : o = some u)
    (herror : u.error = "") : t.error = "" := by
  induction h with
  | nil t =>
    cases ho
    exact herror
  | lost => cases ho
  | cons h _ ih => exact h.error_before (ih ho)

/-- A transfer that is live after some stages was live before them. -/
theorem Trace.live_before (h : Trace pl mates stages t o evs) (hstages : .stateFinisher ∉ stages)
    (ho : o = some u) (hlive : u.Live) : t.Live := by
  induction h with
  | nil t =>
    cases ho
    exact hlive
  | lost => cases ho
  | @cons stage rest t t' o _ _ h _ ih =>
    -- backwards: a live copy was live in front of the last stage, and so on
    have hlive' := ih (fun hin => hstages (List.mem_cons_of_mem stage hin)) ho
    exact h.live_before (fun heq => hstages (heq ▸ List.mem_cons_self)) hlive'

/-- No stage marks a transfer as failed. -/
theorem Trace.not_failed (h : Trace pl mates stages t o evs) (ho : o = some u)
    (herror : u.error = "") (hstate : t.state ≠ .failed) : u.state ≠ .failed := by
  induction h with
  | nil t =>
    cases ho
    exact hstate
  | lost => cases ho
  | cons h hrest ih => exact ih ho (h.not_failed (hrest.error_before ho herror) hstate)

/-- A field that only the stages `S` change, and only while it is not set. -/
theorem Trace.field {β : Type} (F : IBCV2Transfer → Option β) (S : Stage → Prop)
    (hF : ∀ {stage u u'}, Flow stage u u' → F u' = F u ∨ (F u = none ∧ S stage))
    (h : Trace pl mates stages t o evs) (ho : o = some u) (herror : u.error = "") :
    F u = F t ∨ (F t = none ∧ ∃ s ∈ stages, S s) := by
  -- once a stage has set the field, the later stages find it set
  induction h with
  | nil t =>
    cases ho
    exact Or.inl rfl
  | lost => cases ho
  | @cons stage rest t t' o _ _ h hrest ih =>
    rcases hF (h.flow (hrest.error_before ho herror)) with heq | ⟨hnone, hS⟩
    · rcases ih ho with heq' | ⟨hnone, s, hs, hS⟩
      · exact Or.inl (heq'.trans heq)
      · exact Or.inr ⟨heq.symm.trans hnone, s, List.mem_cons_of_mem stage hs, hS⟩
    · exact Or.inr ⟨hnone, stage, List.mem_cons_self, hS⟩

/-- A recv tx that is there stays, and a new one was found or submitted. -/
theorem Trace.recvTxHash (h : Trace pl mates stages t (some u) evs) (herror : u.error = "") :
    u.recvTxHash = t.recvTxHash ∨ (t.recvTxHash = none ∧ ∃ s ∈ stages, s.recordsRecv) :=
  h.field (·.recvTxHash) Stage.recordsRecv Flow.recvTxHash rfl herror

/-- An ack tx that is there stays, and a new one was found by a commitment check or submitted. -/
theorem Trace.ackTxHash (h : Trace pl mates stages t (some u) evs) (herror : u.error = "") :
    u.ackTxHash = t.ackTxHash ∨ (t.ackTxHash = none
      ∧ ∃ s ∈ stages, s.checksCommitment ∨ s = .batchAckPacket) :=
  h.field (·.ackTxHash) _ Flow.ackTxHash rfl herror

/-- A timeout tx that is there stays, and a new one was found by a commitment check or submitted. -/
theorem Trace.timeoutTxHash (h : Trace pl mates stages t (some u) evs) (herror : u.error = "") :
    u.timeoutTxHash = t.timeoutTxHash ∨ (t.timeoutTxHash = none
      ∧ ∃ s ∈ stages, s.checksCommitment ∨ s = .batchTimeoutPacket) :=
  h.field (·.timeoutTxHash) _ Flow.timeoutTxHash rfl herror

/-- The write ack of a transfer: its hash and its status. -/
def IBCV2Transfer.writeAck (t : IBCV2Transfer) : Option (String × Option Ibcv2WriteAckStatus) :=
  t.writeAckTxHash.map (·, t.writeAckStatus)

/-- A write ack that is there stays, its hash and its status together. -/
theorem Trace.writeAck (h : Trace pl mates stages t (some u) evs) (herror : u.error = "") :
    u.writeAck = t.writeAck ∨ (t.writeAck = none ∧ ∃ s ∈ stages, s = .waitForWriteAckPacket) := by
  refine h.field (·.writeAck) _ (fun hflow => ?_) rfl herror
  rcases hflow.writeAck with ⟨hhash, hstatus⟩ | ⟨hnone, hstage⟩
  · exact Or.inl (by rw [IBCV2Transfer.writeAck, IBCV2Transfer.writeAck, hhash, hstatus])
  · exact Or.inr ⟨by rw [IBCV2Transfer.writeAck, hnone]; rfl, hstage⟩

/-! ### Taking a trace apart -/

/-- The visit to one of the stages, with what is before and after it. -/
theorem Trace.visited (h : Trace pl mates stages t (some u) evs) (hstage : stage ∈ stages) :
    ∃ before after v v' evs₁ evs₂ evs₃, stages = before ++ stage :: after
      ∧ Trace pl mates before t (some v) evs₁
      ∧ StageVisit pl (stage.keys pl (mates stage)) v stage (some v') evs₂
      ∧ Trace pl mates after v' (some u) evs₃ ∧ evs = evs₃ ++ (evs₂ ++ evs₁) := by
  obtain ⟨before, after, rfl⟩ := List.append_of_mem hstage
  rcases h.append with ⟨hnone, -⟩ | ⟨v, evs₁, evs', hbefore, hrest, rfl⟩
  · cases hnone
  · cases hrest with
    | cons hvisit hafter =>
      exact ⟨before, after, v, _, evs₁, _, _, rfl, hbefore, hvisit, hafter, by simp⟩

/-- The visit that an event belongs to, with what is before and after it. -/
theorem Trace.at_event (h : Trace pl mates stages t o evs) {post pre : List Event} {e : Event}
    (hevs : evs = post ++ e :: pre) :
    ∃ before stage after v o' evs₁ later post' pre', stages = before ++ stage :: after
      ∧ Trace pl mates before t (some v) evs₁
      ∧ StageVisit pl (stage.keys pl (mates stage)) v stage o' (post' ++ e :: pre')
      ∧ pre = pre' ++ evs₁ ∧ post = later ++ post' := by
  induction h generalizing post pre with
  | nil t => simp at hevs
  | @lost stage rest t evs h =>
    subst hevs
    exact ⟨[], stage, rest, t, none, [], [], post, pre, rfl, .nil t, h, by simp, rfl⟩
  | @cons stage rest t t' o evs₁ evs₂ h hrest ih =>
    rcases List.append_eq_append_iff.mp hevs with ⟨mid, rfl, hmid⟩ | ⟨mid, rfl, hmid⟩
    · -- the event is in this visit
      rw [hmid] at h
      exact ⟨[], stage, rest, t, some t', [], evs₂, mid, pre, rfl, .nil t, h, by simp, rfl⟩
    · cases mid with
      | nil =>
        rw [List.nil_append] at hmid
        rw [← hmid] at h
        exact ⟨[], stage, rest, t, some t', [], post, [], pre, rfl, .nil t, h, by simp, by simp⟩
      | cons e' mid =>
        obtain ⟨rfl, rfl⟩ := List.cons.inj hmid
        obtain ⟨before, s, after, v, o', evs₀, later, post', pre', rfl, hbefore, hvisit, rfl,
          rfl⟩ := ih rfl
        exact ⟨stage :: before, s, after, v, o', evs₀ ++ evs₁, later, post', pre', rfl,
          .cons h hbefore, hvisit, by simp, rfl⟩

/-- `Trace.at_event` for a pass that comes to its end: with what is after the visit, too. -/
theorem Trace.visited_of_mem (h : Trace pl mates stages t (some u) evs) {e : Event} (he : e ∈ evs) :
    ∃ before stage after v v' evs₁ evs₂ evs₃, stages = before ++ stage :: after
      ∧ Trace pl mates before t (some v) evs₁
      ∧ StageVisit pl (stage.keys pl (mates stage)) v stage (some v') evs₂ ∧ e ∈ evs₂
      ∧ Trace pl mates after v' (some u) evs₃ ∧ evs = evs₃ ++ (evs₂ ++ evs₁) := by
  generalize ho : some u = o at h
  induction h with
  | nil t => cases he
  | lost => cases ho
  | @cons stage rest t t' o evs₁ evs₂ h hrest ih =>
    subst ho
    rcases List.mem_append.mp he with he | he
    · obtain ⟨before, s, after, v, v', f₁, f₂, f₃, rfl, hbefore, hvisit, hin, hafter, rfl⟩ :=
        ih he rfl
      exact ⟨stage :: before, s, after, v, v', f₁ ++ evs₁, f₂, f₃, rfl, .cons h hbefore, hvisit,
        hin, hafter, by simp⟩
    · exact ⟨[], stage, rest, t, t', [], evs₁, evs₂, rfl, .nil t, h, he, hrest, by simp⟩

end Trace

end IbcRelayer
