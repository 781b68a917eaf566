import IbcRelayer.Completion

/-!
# IbcRelayer — which txs a pass delivers together

The three stages that deliver txs look at different fields and each reads the clock for itself. Two
deliveries of one pass are always by two stages (`Submits.once`), and the later stage has
seen what the earlier one did: a timeout tx leaves its hash on the copy, which keeps the ack from
being delivered, and the reading it was granted at keeps the recv tx from being delivered, because
the clock does not go back.
-/

namespace IbcRelayer

open CallTree Prog IBCV2Transfer

/-- Whether an event delivers a tx of this kind for the transfer. -/
def deliversFor (kind : TxType) (key : RowKey) (e : Event) : Bool :=
  delivers e && submits kind key e

/-- What the test of an event says. -/
theorem deliversFor_spec {kind : TxType} {key : RowKey} {e : Event}
    (h : deliversFor kind key e = true) :
    e.call.isDelivery = true
      ∧ ∃ s, e.call.submission = some s ∧ s.Includes key ∧ s.kind = kind := by
  obtain ⟨hdelivers, hsubmits⟩ := Bool.and_eq_true_iff.mp h
  obtain ⟨call, answer⟩ := e
  unfold delivers at hdelivers
  split at hdelivers
  · rename_i chainID tx address s hcall
    cases hcall
    exact ⟨rfl, s, rfl, includes_of_submits rfl hsubmits⟩
  · cases hdelivers

/-! ## Two deliveries -/

theorem Nondecreasing.le {evs later earlier : List Event} (h : Nondecreasing evs)
    (hevs : evs = later ++ earlier) {e e' : Event} (he : e ∈ later) (he' : e' ∈ earlier)
    {time time' : Time} (hread : readingOf e = some time) (hread' : readingOf e' = some time') :
    time'.unixNano ≤ time.unixNano := by
  rw [hevs, Nondecreasing, List.filterMap_append, List.pairwise_append] at h
  exact h.2.2 time (List.mem_filterMap.mpr ⟨e, he, hread⟩) time'
    (List.mem_filterMap.mpr ⟨e', he', hread'⟩)

section Two

variable {pl : Pipeline} {key : RowKey} {mates : Stage → Mates key} {t : IBCV2Transfer}
  {o : Option IBCV2Transfer} {evs post pre : List Event} {e₁ e₂ : Event} {kind₁ kind₂ : TxType}

/-- The reading that the timeout tx was granted at keeps the recv tx from being delivered. -/
theorem not_recv_after_timeout {u v : IBCV2Transfer} {f f' evs₂ : List Event}
    (hgranted : (Stage.batchTimeoutPacket.guard pl).Granted u f)
    (hgranted' : (Stage.batchRecvPacket.guard pl).Granted v evs₂) (hpacket : SamePacket u v)
    (hclock : Nondecreasing evs) (hevs : evs = f' ++ (evs₂ ++ f)) : False := by
  obtain ⟨now, hwants, hread⟩ := hgranted
  obtain ⟨now', hwants', hread'⟩ := hgranted'
  have htimedOut : now.after u.packetTimeoutTimestamp = true := (Bool.and_eq_true_iff.mp hwants).1
  have hnot : v.isTimedOut now' = false := by
    simpa using (Bool.and_eq_true_iff.mp hwants').2
  have hle := hclock.le (hevs.trans (List.append_assoc f' evs₂ f).symm)
    (List.mem_append_right f' (hread' _ rfl)) (hread _ rfl) rfl rfl
  rw [hpacket.isTimedOut] at hnot
  simp only [IBCV2Transfer.isTimedOut, Time.after, decide_eq_true_eq,
    decide_eq_false_iff_not] at htimedOut hnot
  omega

/-- A timeout tx that was delivered is on the copy, unless the stage left an error. -/
theorem timeoutTxHash_of_taken {u u' : IBCV2Transfer} {keys : List RowKey} {c : Contract}
    {f : List Event} (hc : Stage.batchTimeoutPacket.contract pl = some c)
    (hvisit : Visit c keys u (some u') f) (htaken : Taken c u f) (herror : u'.error = "") :
    u'.timeoutTxHash ≠ none := by
  cases hc
  have hstage : StageVisit pl keys u .batchTimeoutPacket (some u') f := .wrapped rfl hvisit
  -- the stage ended without an error, and so it has recorded its tx
  obtain ⟨us, own, -, -, -, hok⟩ := hstage.done rfl htaken.state herror
    (htaken.granted.imp fun now h => h.1)
    (fun reader now hreader hin => htaken.readings reader now hin (by cases hreader; rfl))
  obtain ⟨tx, rfl⟩ := hok.tx_recorded (batchTimeoutPacket_lawful _) herror
  simp [batchTimeoutPacket]

/-- Two deliveries for the transfer, `e₁` before `e₂`, are by two stages in the order of the
pipeline, and the first is not of a timeout if the clock does not go back. -/
theorem Trace.two_deliveries (h : Trace pl mates (newPipeline pl) t o evs) (hkey : t.rowKey = key)
    (hevs : evs = post ++ e₂ :: pre) (he₁ : e₁ ∈ pre) (h₁ : deliversFor kind₁ key e₁ = true)
    (h₂ : deliversFor kind₂ key e₂ = true) :
    kind₁.stage.rank < kind₂.stage.rank ∧ (Nondecreasing evs → kind₁ ≠ .timeoutPacket) := by
  obtain ⟨hdelivery₁, s₁, hs₁, hincludes₁, rfl⟩ := deliversFor_spec h₁
  obtain ⟨hdelivery₂, s₂, hs₂, hincludes₂, rfl⟩ := deliversFor_spec h₂
  obtain ⟨before, stage, after, v, c, p, o', evs₁, evs₂, pre', hstages, hbefore, hc, -, htaken,
    hsubmits, -, rfl, later, hlater⟩ := h.submission hkey hevs hs₂ hincludes₂
  have hstage := stage_of_packet hc hsubmits.packet
  rw [← hsubmits.kind] at hstage
  subst hstage
  rcases List.mem_append.mp he₁ with hin | hin
  · -- a stage delivers once
    rw [hsubmits.once hdelivery₂ e₁ hin] at hdelivery₁
    cases hdelivery₁
  obtain
    ⟨before₁, stage₁, between, u, u', f₁, f₂, f₃, rfl, hbefore₁, hvisit₁, hmem, hbetween, rfl⟩ :=
    hbefore.visited_of_mem hin
  have hsorted := newPipeline_sorted pl
  rw [hstages] at hsorted
  have hukey : u.rowKey = key := (hbefore₁.samePacket rfl).rowKey.trans hkey
  cases hvisit₁ with
  | finisher hfinish =>
    rw [hfinish.submission hmem] at hs₁
    cases hs₁
  | wrapped hc₁ hvisit =>
    obtain ⟨post₁, pre₁, rfl⟩ := List.append_of_mem hmem
    obtain ⟨htaken₁, p₁, hsubmits₁⟩ :=
      hvisit.submission post₁ e₁ pre₁ s₁ rfl hs₁ (hukey ▸ hincludes₁)
    have hstage₁ := stage_of_packet hc₁ hsubmits₁.packet
    rw [← hsubmits₁.kind] at hstage₁
    subst hstage₁
    have hrank : s₁.kind.stage.rank < s₂.kind.stage.rank := rank_before hsorted (by simp)
    refine ⟨hrank, fun hclock htimeout => ?_⟩
    have hpacket := (StageVisit.wrapped hc₁ hvisit).samePacket.trans (hbetween.samePacket rfl)
    rw [htimeout] at hc₁ hrank
    have herror : u'.error = "" := hbetween.error_before rfl htaken.error
    -- the first delivered a timeout: each kind of a second delivery is excluded in its own way
    cases hkind : s₂.kind with
    | recvPacket =>
      rw [hkind] at hc
      have hgranted := htaken₁.granted
      have hgranted' := htaken.granted
      rw [contract_guard hc₁] at hgranted
      rw [contract_guard hc] at hgranted'
      refine not_recv_after_timeout (hgranted.mono ?_) hgranted' hpacket hclock hlater
      exact fun e he => List.mem_append_right _ (List.mem_append_left _ he)
    -- the hash of the timeout tx is on the copy, and `BatchAckPacket` does not want it
    | ackPacket =>
      have hsome := timeoutTxHash_of_taken hc₁ hvisit htaken₁ herror
      rw [hkind] at hc
      obtain ⟨now, hwants⟩ := htaken.wants hc
      have hnone := (guard_ackTx (Or.inr rfl) hwants).2
      rcases hbetween.timeoutTxHash htaken.error with heq | ⟨hnone', -⟩
      · exact hsome (heq.symm.trans hnone)
      · exact hsome hnone'
    | timeoutPacket =>
      rw [hkind] at hrank
      exact Nat.lt_irrefl _ hrank

end Two

/-! ## All deliveries of a pass -/

/-- What never happens again happens at most once. -/
theorem countP_le_one {α : Type} {p : α → Bool} {l : List α}
    (h : ∀ post a pre, l = post ++ a :: pre → p a = true → ∀ b ∈ pre, p b = false) :
    l.countP p ≤ 1 := by
  induction l with
  | nil => exact Nat.zero_le 1
  | cons a l ih =>
    cases ha : p a with
    | false =>
      rw [List.countP_cons_of_neg (by simp [ha])]
      refine ih fun post b pre hl hb => h (a :: post) b pre ?_ hb
      rw [hl, List.cons_append]
    | true =>
      have hzero : l.countP p = 0 :=
        List.countP_eq_zero.mpr fun b hb => by simp [h [] a l rfl ha b hb]
      have hone : (a :: l).countP p = 1 := by rw [List.countP_cons_of_pos ha, hzero]
      exact Nat.le_of_eq hone

/-- One of two members of a list comes before the other. -/
theorem before_or_after {α : Type} {l : List α} {a b : α} (ha : a ∈ l) (hb : b ∈ l) (hne : a ≠ b) :
    (∃ post pre, l = post ++ a :: pre ∧ b ∈ pre) ∨ ∃ post pre, l = post ++ b :: pre ∧ a ∈ pre := by
  obtain ⟨post, pre, rfl⟩ := List.append_of_mem ha
  rcases List.mem_append.mp hb with hb | hb
  · obtain ⟨post', mid, rfl⟩ := List.append_of_mem hb
    exact Or.inr ⟨post', mid ++ a :: pre, by simp, by simp⟩
  · exact Or.inl ⟨post, pre, rfl, (List.mem_cons.mp hb).resolve_left (Ne.symm hne)⟩

/-- **What a pass delivers.** Over a transfer with any hashes, whatever the clients and the storage
answer, a pass delivers at most one tx of each kind for the transfer; and if the clock does not go
back, it does not deliver a timeout tx and a tx of another kind. -/
theorem pass_deliveries_exclusive (pl : Pipeline) (r : Ibcv2Transfer) (mates : Stage → Mates r.key)
    (env : Environment) (w : World) : ∃ evs,
    (execute env (pass pl mates (newIBCV2Transfer r)) w).2.log = evs ++ w.log
      ∧ (∀ kind, evs.countP (deliversFor kind r.key) ≤ 1)
      ∧ (Nondecreasing evs → ∀ kind, kind ≠ .timeoutPacket → ∀ e ∈ evs, ∀ e' ∈ evs,
        deliversFor .timeoutPacket r.key e = true → deliversFor kind r.key e' = false) := by
  have hkey := newIBCV2Transfer_rowKey r
  obtain ⟨evs, htrace, hw, -⟩ := execute_trace pl mates (newPipeline pl) hkey (honest_new r) env w
  refine ⟨evs, ?_, fun kind => countP_le_one fun post e pre hevs he e' he' => ?_, ?_⟩
  · change World.log (execute env (runStages pl mates (newPipeline pl) _) w).2 = _
    rw [hw, World.after_log]
  · rw [Bool.eq_false_iff]
    -- the rank of the stage rises from one delivery to the next
    intro htwice
    exact Nat.lt_irrefl _ (htrace.two_deliveries hkey hevs he' htwice he).1
  · intro hclock kind hkind e he e' he' htimeout
    rw [Bool.eq_false_iff]
    intro hother
    have hne : e ≠ e' := by
      rintro rfl
      obtain ⟨-, s, hs, -, hs'⟩ := deliversFor_spec htimeout
      obtain ⟨-, s', hs'', -, rfl⟩ := deliversFor_spec hother
      cases hs.symm.trans hs''
      exact hkind hs'
    rcases before_or_after he he' hne with ⟨post, pre, hevs, hin⟩ | ⟨post, pre, hevs, hin⟩
    · -- `BatchTimeoutPacket` is the first of the three stages
      have hrank := (htrace.two_deliveries hkey hevs hin hother htimeout).1
      cases kind <;> exact absurd hrank (by decide)
    · exact (htrace.two_deliveries hkey hevs hin htimeout hother).2 hclock rfl

end IbcRelayer
