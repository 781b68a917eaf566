import Mathlib.Data.List.Induction
import Mathlib.Data.List.Infix
import IbcRelayer.LifeCycle

/-!
# IbcRelayer — the copy and its row after every stage

Each stage makes its own `UPDATE` and its own change to the copy. `Agrees` is what should hold after
every stage that leaves no error. It does for every stage but one: `CheckWriteAckFinality` makes its
`UPDATE` without a key, so it hits no row, and the time it saw is on the copy alone
(`LosesFinalizedTime`). `agreement_iff` says that this is the only way in which a pass can break the
agreement.
-/

namespace IbcRelayer

open CallTree Prog IBCV2Transfer

/-- The fields of a copy that have a column of their own and that stages look at. -/
structure Columns where
  state : Ibcv2RelayStatus
  recvTxHash : Option String
  recvTxTime : Option Time
  writeAckTxHash : Option String
  writeAckTxTime : Option Time
  writeAckStatus : Option Ibcv2WriteAckStatus
  ackTxHash : Option String
  ackTxTime : Option Time
  timeoutTxHash : Option String
  timeoutTxTime : Option Time
  sourceTxFinalizedTime : Option Time
  writeAckTxFinalizedTime : Option Time
  deriving DecidableEq, Repr

/-- The columns of a copy. -/
def IBCV2Transfer.columns (t : IBCV2Transfer) : Columns where
  state := t.state
  recvTxHash := t.recvTxHash
  recvTxTime := t.recvTxTime
  writeAckTxHash := t.writeAckTxHash
  writeAckTxTime := t.writeAckTxTime
  writeAckStatus := t.writeAckStatus
  ackTxHash := t.ackTxHash
  ackTxTime := t.ackTxTime
  timeoutTxHash := t.timeoutTxHash
  timeoutTxTime := t.timeoutTxTime
  sourceTxFinalizedTime := t.sourceTxFinalizedTime
  writeAckTxFinalizedTime := t.writeAckTxFinalizedTime

/-- The row, read back through `NewIBCV2Transfer`, has the columns of the copy. -/
def Agrees (r : Ibcv2Transfer) (t : IBCV2Transfer) : Prop :=
  (newIBCV2Transfer r).columns = t.columns

instance (r : Ibcv2Transfer) (t : IBCV2Transfer) : Decidable (Agrees r t) :=
  inferInstanceAs (Decidable (_ = _))

/-- To agree is to mirror the row, and to have its time of the write ack's finality, which a mirror
leaves out. -/
theorem agrees_iff {r : Ibcv2Transfer} {t : IBCV2Transfer} :
    Agrees r t ↔ Mirrors r t ∧ r.writeAckTxFinalizedTime = t.writeAckTxFinalizedTime := by
  unfold Agrees IBCV2Transfer.columns
  rw [Columns.mk.injEq]
  constructor
  · rintro ⟨h1, h2, h3, h4, h5, h6, h7, h8, h9, h10, h11, h12⟩
    exact ⟨⟨h1, h2, h3, h4, h5, h6, h7, h8, h9, h10, h11⟩, h12⟩
  · rintro ⟨⟨h1, h2, h3, h4, h5, h6, h7, h8, h9, h10, h11⟩, h12⟩
    exact ⟨h1, h2, h3, h4, h5, h6, h7, h8, h9, h10, h11, h12⟩

/-! ## One stage -/

/-- The stage is `CheckWriteAckFinality`, it wants the transfer, and it is the first to see that the
write ack is final. -/
def LosesFinalizedTime (pl : Pipeline) (stage : Stage) (u : IBCV2Transfer) : Prop :=
  stage = .checkWriteAckFinality ∧ u.state ≠ .failed ∧ u.isRelayedAck pl.opts = true
    ∧ u.writeAckTxFinalizedTime = none

section Visit

variable {pl : Pipeline} {stage : Stage} {keys : List RowKey} {r : Ibcv2Transfer}
  {u u' : IBCV2Transfer} {us : List TransferUpdate} {evs : List Event}

/-- The time at which the write ack was seen to be final changes in one place only. -/
theorem change_finalizedTime (h : Change u stage u' us) :
    (u'.writeAckTxFinalizedTime = u.writeAckTxFinalizedTime
        ∧ (applyAll us r).writeAckTxFinalizedTime = r.writeAckTxFinalizedTime)
      ∨ (stage = .checkWriteAckFinality ∧ u.writeAckTxFinalizedTime = none) := by
  cases h with
  | writeAckTxFinalized time htime => exact Or.inr ⟨rfl, htime⟩
  | gasCost u hu =>
    left
    cases u <;> first | exact ⟨rfl, rfl⟩ | cases hu
  | _ => exact Or.inl ⟨rfl, rfl⟩

/-- A stage that does not lose the time keeps the agreement. -/
theorem visit_agrees (h : StageVisit pl keys u stage (some u') evs)
    (hu : u.error = "" → Agrees r u) (herror : u'.error = "")
    (hloses : ¬ LosesFinalizedTime pl stage u) :
    Agrees (applyAll (updatesOf u.rowKey evs) r) u' := by
  refine agrees_iff.mpr ⟨visit_mirrors h (fun h => (agrees_iff.mp (hu h)).1) herror, ?_⟩
  have htime : u.error = "" → r.writeAckTxFinalizedTime = u.writeAckTxFinalizedTime :=
    fun h => (agrees_iff.mp (hu h)).2
  cases h with
  | finisher h =>
    rcases updatesOf_finish h with ⟨hus, hend⟩ | ⟨state, -, -, herror', rfl, hus⟩
    · rw [hus]
      rcases hend with rfl | hend
      · exact htime herror
      · exact absurd herror hend
    · rw [hus]
      exact htime herror'
  | @wrapped _ c _ _ hc h =>
    have hstep := h.step
    generalize updatesOf u.rowKey evs = us at hstep
    -- only a visit that is done changes the copy without an error
    cases hstep with
    | passed => exact htime herror
    | refused => exact htime herror
    | stateNotSaved err err' htext => exact absurd herror htext
    | failed _ err htext o ho =>
      cases ho.resolve_left (by simp)
      exact absurd herror htext
    | done htaken _ us' own _ _ hok =>
      rw [applyAll_cons]
      rcases change_finalizedTime (r := (TransferUpdate.updateTransferState c.state).apply r)
        (ok_change hc hok) with ⟨hcopy, hrow⟩ | ⟨rfl, hnone⟩
      · exact hrow.trans ((htime htaken.error).trans hcopy.symm)
      · -- the guard granted the visit, so this is the stage that loses the time
        obtain ⟨now, hwants⟩ := htaken.wants hc
        exact absurd ⟨rfl, htaken.state, hwants, hnone⟩ hloses

/-- A stage that loses the time breaks the agreement. -/
theorem visit_disagrees (h : StageVisit pl keys u stage (some u') evs)
    (hkey : u.rowKey ≠ RowKey.zero) (hu : Agrees r u) (herror : u'.error = "")
    (hloses : LosesFinalizedTime pl stage u) :
    ¬ Agrees (applyAll (updatesOf u.rowKey evs) r) u' := by
  obtain ⟨rfl, hstate, hwants, hnone⟩ := hloses
  intro hagrees
  cases h with
  | @wrapped _ c _ _ hc h =>
    cases hc
    have hstep := h.step
    generalize updatesOf u.rowKey evs = us at hstep hagrees
    cases hstep with
    | passed hpassed => exact hpassed.elim (fun h => h herror) hstate
    | refused hrefused =>
      rcases hrefused with hnever | ⟨reader, now, hreader, -⟩
      · cases (hnever .zero).symm.trans hwants
      · cases hreader
    | stateNotSaved err err' htext => exact absurd herror htext
    | failed _ err htext o ho =>
      cases ho.resolve_left (by simp)
      exact absurd herror htext
    | done htaken _ us' own _ _ hok =>
      cases hok with
      -- a time that is known already is not lost
      | timeKnown _ _ _ htime =>
        change u.writeAckTxFinalizedTime.isSome = true at htime
        rw [hnone] at htime
        cases htime
      | timeSet _ time =>
        split at hagrees
        · rename_i hzero
          exact hkey hzero
        · -- the copy has the time, the row does not
          have htime : r.writeAckTxFinalizedTime = some time := (agrees_iff.mp hagrees).2
          rw [(agrees_iff.mp hu).2, hnone] at htime
          cases htime

/-- The rows of transfers that are not in the stage stay as they are; the row that an `UPDATE`
without a key would hit does not exist. -/
theorem visit_others {w : World} (h : StageVisit pl keys u stage (some u') evs)
    (hzero : w.row RowKey.zero = none) (hkey : u.rowKey ∈ keys) {k : RowKey} (hk : k ∉ keys) :
    (w.after evs).row k = w.row k := by
  by_cases hk0 : k = RowKey.zero
  · rw [row_after, hk0, hzero]
    rfl
  · exact row_after_of_nil (h.updates_others hkey hk hk0)

end Visit

/-! ## A pass -/

section Pass

variable {pl : Pipeline} {key : RowKey} {mates : Stage → Mates key} {env : Environment}
  {w w₁ w₂ : World} {r : Ibcv2Transfer} {stage : Stage} {u u' : IBCV2Transfer}

/-- The row that the transfer is the copy of agrees with it. -/
def AgreesAt (w : World) (key : RowKey) (t : IBCV2Transfer) : Prop :=
  ∃ r, w.row key = some r ∧ Agrees r t

theorem agreesAt_new (hrow : w.row key = some r) : AgreesAt w key (newIBCV2Transfer r) :=
  ⟨r, hrow, rfl⟩

/-- One stage of a pass: the agreement holds after it, if it held before, exactly when the stage
does not lose the time. -/
theorem VisitedAt.agreesAt_iff (h : VisitedAt pl mates env w (newIBCV2Transfer r) stage u w₁
    (some u') w₂) (hrow : w.row key = some r) (hkey : key ≠ RowKey.zero)
    (hu : AgreesAt w₁ key u) (herror : u'.error = "") :
    AgreesAt w₂ key u' ↔ ¬ LosesFinalizedTime pl stage u := by
  obtain ⟨evs, hvisit, rfl, hukey, -, -⟩ := h.visit (rowKey_new hrow) (honest_new r)
  subst hukey
  obtain ⟨r₁, hrow₁, hagrees⟩ := hu
  have hrow₂ : (w₁.after evs).row u.rowKey = some (applyAll (updatesOf u.rowKey evs) r₁) := by
    rw [row_after, hrow₁]
    rfl
  constructor
  · rintro ⟨r₂, hr₂, hagrees₂⟩ hloses
    rw [hrow₂] at hr₂
    cases hr₂
    exact visit_disagrees hvisit hkey hagrees herror hloses hagrees₂
  · intro hloses
    exact ⟨_, hrow₂, visit_agrees hvisit (fun _ => hagrees) herror hloses⟩

/-- A transfer arrives at its first stage as the copy of the row, and at every other stage as the
stage before left it. -/
theorem arrival {before after : List Stage} {t : IBCV2Transfer}
    (hstages : newPipeline pl = before ++ after)
    (hrun : execute env (runStages pl mates before t) w = (some u, w₁)) :
    (u = t ∧ w₁ = w) ∨ ∃ stage u₀ w₀, VisitedAt pl mates env w t stage u₀ w₀ (some u) w₁ := by
  rcases List.eq_nil_or_concat before with rfl | ⟨before, stage, rfl⟩
  · cases hrun
    exact Or.inl ⟨rfl, rfl⟩
  · rw [List.concat_eq_append] at hstages hrun
    obtain ⟨u₀, w₀, -, hvisited⟩ := visitedAt_of_append hstages hrun
    exact Or.inr ⟨stage, u₀, w₀, hvisited⟩

/-- As long as no stage loses the time, the transfer arrives at every stage in agreement with its
row. -/
theorem agreesAt_of_run (hrow : w.row key = some r) (hkey : key ≠ RowKey.zero)
    (hnever : ∀ stage u w₁ u' w₂, VisitedAt pl mates env w (newIBCV2Transfer r) stage u w₁ (some u')
      w₂ → u'.processingError = none → ¬ LosesFinalizedTime pl stage u)
    {before after : List Stage} (hstages : newPipeline pl = before ++ after)
    (hrun : execute env (runStages pl mates before (newIBCV2Transfer r)) w = (some u, w₁))
    (herror : u.error = "") : AgreesAt w₁ key u := by
  -- on the stages that are behind the transfer, the latest last
  induction before using List.reverseRecOn generalizing after u w₁ with
  | nil =>
    cases hrun
    exact agreesAt_new hrow
  | append_singleton before stage ih =>
    obtain ⟨u₀, w₀, hrun₀, hvisited⟩ := visitedAt_of_append hstages hrun
    obtain ⟨evs, hvisit, -, -, hhonest, -⟩ := hvisited.visit (rowKey_new hrow) (honest_new r)
    have herror₀ := hvisit.error_before herror
    have hu₀ := ih (by rw [hstages, List.append_assoc]) hrun₀ herror₀
    refine (hvisited.agreesAt_iff hrow hkey hu₀ herror).mpr ?_
    exact hnever stage u₀ w₀ u w₁ hvisited (hvisit.honest hhonest herror)

/-- **Memory and database agree after every successful stage**, and no row of a transfer that is not
in the stage has changed, exactly when no successful stage is a `CheckWriteAckFinality` that is the
first to see the write ack final. The two hypotheses are what `Relay` promises: the row is there,
and no row was inserted without a chain id. -/
theorem agreement_iff (pl : Pipeline) {key : RowKey} (mates : Stage → Mates key) (env : Environment)
    {w : World} {r : Ibcv2Transfer} (hrow : w.row key = some r) (hzero : w.row RowKey.zero = none) :
    (∀ stage u w₁ u' w₂,
        VisitedAt pl mates env w (newIBCV2Transfer r) stage u w₁ (some u') w₂ →
        u'.processingError = none →
        (∃ r', w₂.row key = some r' ∧ Agrees r' u')
          ∧ ∀ k, k ∉ stage.keys pl (mates stage) → w₂.row k = w₁.row k)
      ↔ ∀ stage u w₁ u' w₂,
        VisitedAt pl mates env w (newIBCV2Transfer r) stage u w₁ (some u') w₂ →
        u'.processingError = none → ¬ LosesFinalizedTime pl stage u := by
  have hkey : key ≠ RowKey.zero := by
    rintro rfl
    rw [hzero] at hrow
    cases hrow
  constructor
  -- the copy agreed when it arrived: it is new, or the visit before left it so
  · intro hagree stage u w₁ u' w₂ hvisited herror
    obtain ⟨before, after, hstages, hrun⟩ := hvisited.arrives
    obtain ⟨evs, hvisit, -, -, hhonest, -⟩ := hvisited.visit (rowKey_new hrow) (honest_new r)
    have hu : AgreesAt w₁ key u := by
      rcases arrival hstages hrun with ⟨rfl, rfl⟩ | ⟨stage₀, u₀, w₀, hvisited₀⟩
      · exact agreesAt_new hrow
      · have herror₀ := hhonest (hvisit.error_before (error_of_none herror))
        exact (hagree stage₀ u₀ w₀ u w₁ hvisited₀ herror₀).1
    refine (hvisited.agreesAt_iff hrow hkey hu (error_of_none herror)).mp ?_
    exact (hagree stage u w₁ u' w₂ hvisited herror).1
  -- the other way the run up to the stage is followed; the other rows are the frame of one visit
  · intro hnever stage u w₁ u' w₂ hvisited herror
    obtain ⟨before, after, hstages, hrun⟩ := hvisited.arrives
    obtain ⟨evs, hvisit, hw₂, hukey, -, -⟩ := hvisited.visit (rowKey_new hrow) (honest_new r)
    constructor
    · have hu := agreesAt_of_run hrow hkey hnever hstages hrun
        (hvisit.error_before (error_of_none herror))
      refine (hvisited.agreesAt_iff hrow hkey hu (error_of_none herror)).mpr ?_
      exact hnever stage u w₁ u' w₂ hvisited herror
    · intro k hk
      have hzero₁ : w₁.row RowKey.zero = none := by
        obtain ⟨_, _, evs₀, -, -, rfl⟩ := hvisited.before (rowKey_new hrow) (honest_new r)
        rw [row_after, hzero]
        rfl
      have hmem : u.rowKey ∈ stage.keys pl (mates stage) := by
        rw [hukey]
        exact stage.mem_keys pl (mates stage)
      rw [hw₂]
      exact visit_others hvisit hzero₁ hmem hk

end Pass

/-- A pass that ends by a timeout never comes to a write ack, so all its stages agree. -/
theorem agreement_iff_timeout :
    (Sample.world.row Sample.row.key = some Sample.row ∧ Sample.world.row RowKey.zero = none)
      ∧ ∀ stage u w₁ u' w₂,
        VisitedAt Sample.pipeline Sample.alone (Sample.obliging { unixNano := 2000 }) Sample.world
          (newIBCV2Transfer Sample.row) stage u w₁ (some u') w₂ →
        u'.processingError = none →
        (∃ r', w₂.row Sample.row.key = some r' ∧ Agrees r' u')
          ∧ ∀ k, k ∉ stage.keys Sample.pipeline (Sample.alone stage) → w₂.row k = w₁.row k := by
  have hrow : Sample.world.row Sample.row.key = some Sample.row := by decide +kernel
  have hzero : Sample.world.row RowKey.zero = none := by decide +kernel
  have hunacked : ∀ before ∈ (newPipeline Sample.pipeline).inits,
      (execute (Sample.obliging { unixNano := 2000 }) (runStages Sample.pipeline Sample.alone before
        (newIBCV2Transfer Sample.row)) Sample.world).1.all (·.writeAckTxHash.isNone) = true := by
    decide +kernel
  refine ⟨⟨hrow, hzero⟩, (agreement_iff _ _ _ hrow hzero).mpr ?_⟩
  rintro stage u w₁ u' w₂ hvisited - ⟨-, -, hack, -⟩
  obtain ⟨before, after, hstages, hrun⟩ := hvisited.arrives
  have hnone := hunacked before ((List.mem_inits _ _).mpr ⟨_, hstages.symm⟩)
  rw [hrun] at hnone
  simp only [Option.all_some, Option.isNone_iff_eq_none] at hnone
  simp [isRelayedAck, hnone] at hack

/-- The sample packet as it comes to `CheckWriteAckFinality` in its first pass. -/
def Sample.received : IBCV2Transfer :=
  { newIBCV2Transfer Sample.row with
    state := .waitForWriteAck
    sourceTxFinalizedTime := some .zero
    recvTxHash := some "0xd1"
    recvTxTime := some { unixNano := 500 }
    recvTxRelayerAddress := some "relayer"
    writeAckTxHash := some "0xd1"
    writeAckTxTime := some { unixNano := 500 }
    writeAckStatus := some .success }

/-- The first pass of a packet that is received and acknowledged: `CheckWriteAckFinality` ends
without an error and has set the time on the copy, and the row does not have it. -/
theorem writeAckFinality_breaks_agreement : ∃ w₁ u' w₂,
    VisitedAt Sample.pipeline Sample.alone (Sample.obliging .zero) Sample.world
        (newIBCV2Transfer Sample.row) .checkWriteAckFinality Sample.received w₁ (some u') w₂
      ∧ u'.processingError = none ∧ u'.writeAckTxFinalizedTime = some .zero
      ∧ ∃ r', w₂.row Sample.row.key = some r' ∧ r'.writeAckTxFinalizedTime = none
        ∧ ¬ Agrees r' u' := by
  let before : List Stage := [.checkRecvPacketDelivery, .checkInitialPacketCommitment,
    .checkSendPacketFinality, .checkTimeoutTimestampFinality, .batchTimeoutPacket,
    .retryTimeoutPacket, .batchRecvPacket, .retryRecvPacket, .waitForWriteAckPacket]
  let after : List Stage := [.checkPostReceivePacketCommitment, .batchAckPacket, .retryAckPacket,
    .stateFinisher]
  have hstages : newPipeline Sample.pipeline = before ++ .checkWriteAckFinality :: after := by
    decide +kernel
  have harrived : (execute (Sample.obliging .zero) (runStages Sample.pipeline Sample.alone before
      (newIBCV2Transfer Sample.row)) Sample.world).1 = some Sample.received := by
    decide +kernel
  obtain ⟨w₁, hw₁⟩ : ∃ w₁, (execute (Sample.obliging .zero) (runStages Sample.pipeline Sample.alone
      before (newIBCV2Transfer Sample.row)) Sample.world).2 = w₁ := ⟨_, rfl⟩
  obtain ⟨left, hleft⟩ : ∃ left, execute (Sample.obliging .zero)
      ((Stage.checkWriteAckFinality.processor Sample.pipeline).run [] [] Sample.received) w₁
        = left := ⟨_, rfl⟩
  have hend : left.1 = some { Sample.received with
      state := .awaitingWriteAckFinality, writeAckTxFinalizedTime := some .zero } := by
    rw [← hleft, ← hw₁]
    decide +kernel
  have hrow : (left.2.row Sample.row.key).map (fun r =>
      (r.writeAckTxFinalizedTime, decide (left.1.all (Agrees r)))) = some (none, false) := by
    rw [← hleft, ← hw₁]
    decide +kernel
  have hvisited := visitedAt_of_execute hstages hw₁ harrived hleft
  rw [hend] at hvisited hrow
  obtain ⟨r', hr', hpair⟩ := Option.map_eq_some_iff.mp hrow
  rw [Prod.mk.injEq] at hpair
  exact ⟨w₁, _, left.2, hvisited, rfl, rfl, r', hr', hpair.1, by simpa using hpair.2⟩

end IbcRelayer
