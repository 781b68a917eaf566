import IbcRelayer.Provenance

/-!
# IbcRelayer — a recorded tx stays until it is dismissed

The columns of a recv, ack or timeout tx are written by ten stages: two record a recv tx, three an
ack tx, three a timeout tx, and four clear one. Whether a stage overwrites a tx is decided by a
guard that looks at a copy; the columns are those of the row.

* `visit_writes` — one visit makes at most one statement on the columns of a kind, after the status.
  It is the one that clears the tx, or the copy had none.
* `recorded_tx_stays` — so in runs that push no outdated row, no step replaces a recorded tx. A step
  takes it away only after the client of its chain has dismissed this tx.
-/

namespace IbcRelayer

open CallTree Prog IBCV2Transfer

/-- The statement does not write the columns of this kind. -/
def TxType.Spares (kind : TxType) (u : TransferUpdate) : Prop :=
  ∀ r, (u.apply r).tx kind = r.tx kind

section Statements

variable {kind : TxType} {r : Ibcv2Transfer} {t : IBCV2Transfer}

theorem TxType.spares_save (kind : TxType) (state : Ibcv2RelayStatus) :
    kind.Spares (.updateTransferState state) := by
  intro r
  cases kind <;> rfl

theorem TxType.spares_all {us : List TransferUpdate} (h : ∀ u ∈ us, kind.Spares u) :
    (applyAll us r).tx kind = r.tx kind := by
  induction us generalizing r with
  | nil => rfl
  | cons u us ih =>
    obtain ⟨hu, hus⟩ := List.forall_mem_cons.mp h
    rw [applyAll_cons, ih hus, hu r]

theorem TxType.clear_tx (kind : TxType) (r : Ibcv2Transfer) :
    ((kind.clear.apply r).tx kind).1 = none := by
  cases kind <;> rfl

/-- Clearing a tx of one kind spares the others. -/
theorem TxType.spares_clear {other : TxType} (h : kind ≠ other) : kind.Spares other.clear := by
  intro r
  cases kind <;> cases other <;> first | rfl | exact absurd rfl h

theorem TxType.clear_inj {other : TxType} (h : kind.clear = other.clear) : kind = other := by
  cases kind <;> cases other <;> first | rfl | cases h

theorem Mirrors.tx (h : Mirrors r t) (kind : TxType) :
    t.tx kind = ((r.tx kind).1, (r.tx kind).2.1) := by
  cases kind with
  | recvPacket => exact Prod.ext h.recvTxHash.symm h.recvTxTime.symm
  | ackPacket => exact Prod.ext h.ackTxHash.symm h.ackTxTime.symm
  | timeoutPacket => exact Prod.ext h.timeoutTxHash.symm h.timeoutTxTime.symm

/-- A statement that clears a tx is backed by the dismissal of a tx of the copies. -/
theorem Backed.of_clear {route : Route} {ts : List IBCV2Transfer} {key : RowKey} {log : List Event}
    (h : Backed route ts key log kind.clear) :
    ∃ hash time, ∃ e ∈ log, Copied ts key kind hash time
      ∧ Dismisses route key hash time kind e := by
  generalize hu : kind.clear = u at h
  cases h with
  | @tx other =>
    cases kind <;> cases other <;> cases hu
  | writeAck => cases kind <;> cases hu
  | clear other he hcopied hdismisses =>
    obtain rfl := TxType.clear_inj hu
    exact ⟨_, _, _, he, hcopied, hdismisses⟩
  | other hother =>
    subst hu
    cases kind <;> cases hother

end Statements

/-! ## One visit -/

/-- What a visit writes to the columns of this kind: nothing, or one statement that comes after the
status, from a copy without an error. -/
def Writes (t : IBCV2Transfer) (kind : TxType) (us : List TransferUpdate) : Prop :=
  (∀ u ∈ us, kind.Spares u) ∨ t.error = "" ∧ ∃ state u, us = [.updateTransferState state, u]
    ∧ (u = kind.clear ∨ (t.tx kind).1 = none)

section Visit

variable {pl : Pipeline} {stage : Stage} {c : Contract} {keys : List RowKey} {kind : TxType}
  {t t' : IBCV2Transfer} {o : Option IBCV2Transfer} {us : List TransferUpdate} {evs : List Event}

theorem Writes.save (t : IBCV2Transfer) (kind : TxType) (state : Ibcv2RelayStatus) :
    Writes t kind [.updateTransferState state] := by
  refine .inl fun u hu => ?_
  rw [List.mem_singleton.mp hu]
  exact kind.spares_save state

theorem Writes.spared {state : Ibcv2RelayStatus} {u : TransferUpdate} (h : kind.Spares u) :
    Writes t kind [.updateTransferState state, u] := by
  refine .inl fun u' hu' => ?_
  rcases List.mem_cons.mp hu' with rfl | hu'
  · exact kind.spares_save state
  · rw [List.mem_singleton.mp hu']
    exact h

/-- A statement about the txs of one kind. -/
theorem Writes.of_kind (other : TxType) (herror : t.error = "") {state : Ibcv2RelayStatus}
    {u : TransferUpdate} (hspares : ∀ kind, kind ≠ other → kind.Spares u)
    (hown : u = other.clear ∨ (t.tx other).1 = none) :
    Writes t kind [.updateTransferState state, u] := by
  by_cases heq : kind = other
  · subst heq
    exact .inr ⟨herror, state, u, rfl, hown⟩
  · exact .spared (hspares kind heq)

/-- The statements that a stage may clear with are those of the three kinds. -/
theorem clear_of_clears (hc : stage.contract pl = some c) (h : Taken c t evs) {u : TransferUpdate}
    (hu : u ∈ c.clears) : ∃ other : TxType, u = other.clear := by
  rcases h.clears hc hu with ⟨rfl, -⟩ | rfl | rfl
  · exact ⟨.recvPacket, rfl⟩
  · exact ⟨.ackPacket, rfl⟩
  · exact ⟨.timeoutPacket, rfl⟩

/-- A stage records a tx for a copy that has none of this kind, by its guard. -/
theorem change_writes (herror : t.error = "") {now : Time}
    (hwants : (stage.guard pl).wants t now = true) (h : Change t stage t' us)
    (state : Ibcv2RelayStatus) : Writes t kind (.updateTransferState state :: us) := by
  cases h with
  | nothing => exact .save t kind state
  | recvTx hstage tx =>
    refine .of_kind .recvPacket herror ?_ (.inr (guard_recvTx hstage hwants))
    intro kind hne r
    cases kind <;> first | rfl | exact absurd rfl hne
  | ackTx hstage tx address =>
    refine .of_kind .ackPacket herror ?_ (.inr (guard_ackTx hstage hwants).1)
    intro kind hne r
    cases kind <;> first | rfl | exact absurd rfl hne
  | timeoutTx hstage tx address =>
    refine .of_kind .timeoutPacket herror ?_ (.inr (guard_timeoutTx hstage hwants).2)
    intro kind hne r
    cases kind <;> first | rfl | exact absurd rfl hne
  -- what is left writes columns of no tx
  | sourceTxFinalized time => exact .spared fun r => by cases kind <;> rfl
  | writeAck hash time status hhash => exact .spared fun r => by cases kind <;> rfl
  | writeAckTxFinalized time htime =>
    split
    · exact .spared fun r => by cases kind <;> rfl
    · exact .save t kind state
  | gasCost u hu =>
    refine .spared fun r => ?_
    cases u <;> cases kind <;> first | rfl | cases hu
  | marked err htext => exact .save t kind state

/-- A wrapped stage makes at most two statements, the first of which saves the status. -/
theorem step_writesTx (hc : stage.contract pl = some c) (h : Step c t o us evs) :
    Writes t kind us := by
  have hnone : Writes t kind [] := .inl fun u hu => by cases hu
  cases h with
  | passed => exact hnone
  | refused => exact hnone
  | stateNotSaved => exact hnone
  | lost => exact hnone
  -- a processor that fails may clear a tx, whatever the copy has
  | failed htaken err htext o ho us hus =>
    rcases hus with rfl | ⟨u, hu, rfl⟩
    · exact .save t kind c.state
    · obtain ⟨other, rfl⟩ := clear_of_clears hc htaken hu
      exact .of_kind other htaken.error (fun kind hne => TxType.spares_clear hne) (.inl rfl)
  | done htaken t' us own _ _ hok =>
    obtain ⟨now, hwants⟩ := htaken.wants_saved hc
    -- the copy that the processor gets has its new state, and the same txs
    have hwrites : Writes { t with state := c.state } kind (.updateTransferState c.state :: us) :=
      change_writes (t := { t with state := c.state }) htaken.error hwants (ok_change hc hok)
        c.state
    cases kind <;> exact hwrites

/-- One visit makes at most one statement on the columns of a kind, after the status. It is the one
that clears the tx, or the copy had none. -/
theorem visit_writes (h : StageVisit pl keys t stage o evs) (kind : TxType) :
    Writes t kind (updatesOf t.rowKey evs) := by
  cases h with
  | wrapped hc h => exact step_writesTx hc h.step
  | finisher h =>
    rcases updatesOf_finish h with ⟨hus, -⟩ | ⟨state, -, -, -, -, hus⟩
    · rw [hus]
      exact .inl fun u hu => by cases hu
    · rw [hus]
      exact .save t kind state

/-- The statements of a visit, cut in two: the later ones leave a tx that the row has at the cut, or
the last of them clears it and the copy had it. -/
theorem Writes.cut {past next : List TransferUpdate} {r : Ibcv2Transfer}
    (h : Writes t kind (past ++ next)) (hm : t.error = "" → Mirrors r t)
    (hkind : ((applyAll past r).tx kind).1 ≠ none) :
    (applyAll next (applyAll past r)).tx kind = (applyAll past r).tx kind
      ∨ kind.clear ∈ next ∧ ((applyAll next (applyAll past r)).tx kind).1 = none
        ∧ t.tx kind = (((applyAll past r).tx kind).1, ((applyAll past r).tx kind).2.1) := by
  rcases h with hspares | ⟨herror, state, u, hus, hu⟩
  · exact .inl (TxType.spares_all fun u hu => hspares u (List.mem_append_right _ hu))
  · have hcopy := (hm herror).tx kind
    have hsave := kind.spares_save state
    -- a tx that is there at the cut was there before, so the statement clears it
    have hclears : (applyAll past r).tx kind = r.tx kind → u = kind.clear := by
      intro hpast
      refine hu.resolve_right ?_
      rw [hcopy, ← hpast]
      exact hkind
    -- the cut is before both statements, between them, or after them
    match past, next, hus with
    | [], [_, _], rfl =>
      obtain rfl := hclears rfl
      exact .inr ⟨by simp, kind.clear_tx _, hcopy⟩
    | [_], [_], rfl =>
      have hpast : (applyAll [.updateTransferState state] r).tx kind = r.tx kind := hsave r
      obtain rfl := hclears hpast
      refine .inr ⟨by simp, kind.clear_tx _, ?_⟩
      rw [hpast]
      exact hcopy
    | [_, _], [], rfl => exact .inl rfl

end Visit

/-! ## Every run -/

section Run

variable {config : ConfigReader} {priceClient : Bool} {s s' : System} {key : RowKey}
  {r : Ibcv2Transfer} {kind : TxType}

/-- A row after a call of the stage that has its copy. -/
theorem visiting_writes {w : World} {pl : Pipeline} {stage : Stage} {rest : List Stage}
    {t : IBCV2Transfer} {c : Call} {k : c.Answer → Eff (List IBCV2Transfer)}
    (h : Visiting (fun _ t r => Tracked r t) w pl stage rest t (.call c k))
    (hr : w.row t.rowKey = some r) (hkind : (r.tx kind).1 ≠ none) (answer : c.Answer) :
    (applyAll (updatesOfEvent t.rowKey ⟨c, answer⟩) r).tx kind = r.tx kind
      ∨ kind.clear ∈ updatesOfEvent t.rowKey ⟨c, answer⟩
        ∧ ((applyAll (updatesOfEvent t.rowKey ⟨c, answer⟩) r).tx kind).1 = none
        ∧ t.tx kind = ((r.tx kind).1, (r.tx kind).2.1) := by
  obtain ⟨keys, past, r₀, htracked, hrow, hprog⟩ := h.visit
  cases hr.symm.trans hrow
  -- the visit is completed by a storage that fails from now on
  obtain ⟨out, evs, hvisit, hsilent⟩ := silent_end (hprog.resume answer)
  have hwrites := visit_writes hvisit kind
  rw [updatesOf_append, hsilent, List.append_nil, updatesOf_cons] at hwrites
  exact hwrites.cut htracked.mirrors hkind

/-- A call of a stage. -/
theorem call_keeps_tx (hinv : s.Inv fun _ t r => Tracked r t) (hsourced : s.Sourced)
    {i : Nat} {env : Environment} (hstep : s.call i env = some s')
    (hr : s.world.row key = some r) {hash : String} (hkind : (r.tx kind).1 = some hash) :
    ∃ r', s'.world.row key = some r' ∧ (r'.tx kind = r.tx kind ∨ (r'.tx kind).1 = none
      ∧ ∃ e ∈ s.world.log, Dismisses r.route key hash (r.tx kind).2.1 kind e) := by
  obtain ⟨pl, rest, stage, ts, c, k, htask, rfl⟩ := System.call_inv hstep
  have hmem := List.mem_of_getElem? htask
  have hr' : (s.world.next c (env s.world c)).row key
      = some (applyAll (updatesOfEvent key ⟨c, env s.world c⟩) r) := by
    rw [row_next s.world ⟨c, env s.world c⟩, hr]
    rfl
  refine ⟨_, hr', ?_⟩
  -- a row of the stage is written by a visit; the others are left alone
  by_cases hkey : key ∈ ts.map (·.rowKey)
  · obtain ⟨t, ht, rfl⟩ := List.mem_map.mp hkey
    have hvisiting := (hinv.sound _ hmem).2 t ht
    have hsome : (r.tx kind).1 ≠ none := by
      rw [hkind]
      exact Option.some_ne_none hash
    rcases visiting_writes hvisiting hr hsome (env s.world c) with hsame | ⟨hclear, hnone, hcopy⟩
    · exact .inl hsame
    · -- the statement is backed by a dismissal of the tx of a copy, and that is the tx of the row
      refine .inr ⟨hnone, ?_⟩
      have hbacked := call_backed hinv hsourced hmem (env s.world c) hr _ hclear
      obtain ⟨hash', time, e, he, ⟨t', ht', hsame, htx⟩, hdismisses⟩ := hbacked.of_clear
      have hnodup : (ts.map (·.rowKey)).Nodup := hinv.keys_nodup hmem
      obtain rfl := List.inj_on_of_nodup_map hnodup ht' ht hsame
      rw [hcopy, hkind] at htx
      cases htx
      exact ⟨e, he, hdismisses⟩
  · rw [(hinv.pending hmem (env s.world c)).frame key hkey (hinv.table.ne_zero hr)]
    exact .inl rfl

/-- **A recorded tx stays until it is dismissed.** In a run that pushes no outdated row, a step
leaves the hash, the time and the relayer of every recv, ack and timeout tx that is on a row; or it
takes the tx away, and then the client of its chain has dismissed a tx with this hash and time
before. -/
theorem recorded_tx_stays {s₀ : System} {a : Action} (hstart : s₀.Started)
    (hrows : AllRows WellFormed s₀)
    (hrun : System.Run config priceClient (PushesOnly UpToDate) s₀ s)
    (hstep : s.step config priceClient a = some s') (hr : s.world.row key = some r) {hash : String}
    (hkind : (r.tx kind).1 = some hash) :
    ∃ r', s'.world.row key = some r' ∧ (r'.tx kind = r.tx kind ∨ (r'.tx kind).1 = none
      ∧ ∃ e ∈ s.world.log, Dismisses r.route key hash (r.tx kind).2.1 kind e) := by
  obtain ⟨hinv, -⟩ := run_tracked hstart hrows hrun
  obtain ⟨-, hsourced⟩ :=
    run_sourced hstart (Machine.Run.mono (fun _ _ _ => trivial) hrun)
  rcases step_writes hstep with h | ⟨hworld, hsilent⟩ | @⟨q, answer, -, -, hworld⟩ | h
  -- a row that is added comes after this one
  · have hr' : s'.world.row key = some r := by
      unfold World.row
      rw [h]
      exact row_append hr
    exact ⟨r, hr', .inl rfl⟩
  · rw [hworld, row_after_of_nil (hsilent key)]
    exact ⟨r, hr, .inl rfl⟩
  · -- the dispatcher marks a row that no pipeline has, and leaves its txs
    have hr' := row_next s.world ⟨.update (.updateTransferState .failed) q.key, answer⟩ key
    rw [← hworld, hr] at hr'
    refine ⟨_, hr', .inl (TxType.spares_all fun u hu => ?_)⟩
    have hmark : u = .updateTransferState .failed := by
      have hu := updatesOfEvent_subset _ _ hu
      simp only [Call.updates] at hu
      split at hu
      · exact List.mem_singleton.mp hu
      · cases hu
    rw [hmark]
    exact kind.spares_save .failed
  · exact call_keeps_tx hinv hsourced h hr hkind

end Run

namespace Sample

/-- As `obliging`, but the chains have lost every tx they are asked about. -/
def forgetful : Environment := fun w c =>
  match c with
  | .shouldRetryTx .. => .ok true
  | c => obliging .zero w c

end Sample

/-- `recorded_tx_stays` at the step that takes a tx away: the chain of the recv tx does not know it
any more. -/
theorem recorded_tx_stays_dismissed :
    ∃ s s' r, System.Run Sample.config false (PushesOnly UpToDate) Sample.idle s
      ∧ s.step Sample.config false (.call 0 Sample.forgetful) = some s'
      ∧ s.world.row Sample.row.key = some r ∧ r.recvTxHash = some "0xd1"
      ∧ (∃ r', s'.world.row Sample.row.key = some r' ∧ r'.recvTxHash = none)
      ∧ ∃ e ∈ s.world.log,
        Dismisses r.route Sample.row.key "0xd1" r.recvTxTime .recvPacket e := by
  have hscript : (Sample.idle.script Sample.config false
      (Sample.pushes fun polled current => polled = current)
      (Sample.polledTwice ++ Sample.untilRecv Sample.forgetful ++ Sample.work Sample.forgetful 11
        ++ [.start 0] ++ List.replicate 3 (.call 0 Sample.forgetful))).any
      (fun s => (s.world.row Sample.row.key).any (fun r => r.recvTxHash = some "0xd1")
        && (s.step Sample.config false (.call 0 Sample.forgetful)).any fun s' =>
          (s'.world.row Sample.row.key).any fun r => r.recvTxHash = none) = true := by
    decide +kernel
  obtain ⟨s, hs, hboth⟩ := (Option.any_eq_true _ _).mp hscript
  obtain ⟨hbefore, hafter⟩ := Bool.and_eq_true_iff.mp hboth
  obtain ⟨r, hr, hhash⟩ := (Option.any_eq_true _ _).mp hbefore
  obtain ⟨s', hstep, hafter⟩ := (Option.any_eq_true _ _).mp hafter
  obtain ⟨r', hr', hnone⟩ := (Option.any_eq_true _ _).mp hafter
  have hhash : (r.tx .recvPacket).1 = some "0xd1" := of_decide_eq_true hhash
  have hnone : r'.recvTxHash = none := of_decide_eq_true hnone
  have hrun : System.Run Sample.config false (PushesOnly UpToDate) Sample.idle s := by
    refine System.run_of_script _ _ (Sample.pushesOnly fun r r' h => ?_) hs
    rw [← of_decide_eq_true h]
    exact mirrors_new r
  obtain ⟨_, hrow, hsame | ⟨-, hdismissed⟩⟩ :=
    recorded_tx_stays Sample.started (by simp [AllRows, Sample.idle]) hrun hstep hr hhash
  · -- the tx is gone, so it is not the same
    cases hrow.symm.trans hr'
    have hsame : r'.recvTxHash = some "0xd1" := (congrArg Prod.fst hsame).trans hhash
    rw [hnone] at hsame
    cases hsame
  · exact ⟨s, s', r, hrun, hstep, hr, hhash, ⟨r', hr', hnone⟩, hdismissed⟩

end IbcRelayer
