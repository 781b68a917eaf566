import IbcRelayer.Snapshot

/-!
# IbcRelayer — the rows at every moment of a run

A run of the system can be looked at between any two calls: a stage has made some of its statements
and not the others, and the copies of other transfers are elsewhere. What a completed visit keeps is
known (`visit_wellFormed`); a visit that is under way is completed by a storage that fails from now
on, which leaves the rows as they are (`Visiting.cut`).

* `run_rows_keep` — the rule: a property of rows that every visit keeps holds of every row at every
  moment of every run.
* `rows_dated` — whatever the age of the dispatcher's rows: a hash comes with its time, a write ack
  with a status.
* `rows_wellFormed` — in runs that push no outdated row: the rows are `WellFormed`.
-/

namespace IbcRelayer

open CallTree Prog IBCV2Transfer

/-! ## A visit that is cut short -/

/-- No statement succeeds any more. -/
def storageDown : (c : Call) → c.Answer
  | .update .. => .error (.new "connection refused")
  | .txCommit _ => .error (.new "connection refused")
  | c => Sample.obliging .zero Sample.world c

theorem updatesOfEvent_storageDown (key : RowKey) (c : Call) :
    updatesOfEvent key ⟨c, storageDown c⟩ = [] := by
  cases c <;> rfl

/-- Every program has an end that writes no row. -/
theorem silent_end {α : Type} {prog : Eff α} {Post : α → List Event → Prop}
    (h : prog.Ensures Post) : ∃ out evs, Post out evs ∧ ∀ key, updatesOf key evs = [] := by
  obtain ⟨evs, hpost, -, hanswers⟩ := h.run (fun (_ : Unit) _ _ => ()) (fun _ => storageDown) ()
  refine ⟨_, evs, hpost, fun key => updatesOf_eq_nil fun e he => ?_⟩
  -- every answer is that of a storage that is down
  obtain ⟨c, answer⟩ := e
  obtain ⟨-, hanswer⟩ := hanswers _ he
  change answer = storageDown c at hanswer
  rw [hanswer]
  exact updatesOfEvent_storageDown key c

section Cut

variable {Good : List Stage → IBCV2Transfer → Ibcv2Transfer → Prop} {w : World} {pl : Pipeline}
  {stage : Stage} {rest : List Stage} {t : IBCV2Transfer} {prog : Eff (List IBCV2Transfer)}

/-- The row as it is now is what a completed visit leaves. -/
theorem Visiting.cut (h : Visiting Good w pl stage rest t prog) :
    ∃ keys o evs r₀, Good (stage :: rest) t r₀ ∧ StageVisit pl keys t stage o evs
      ∧ w.row t.rowKey = some (applyAll (updatesOf t.rowKey evs) r₀) := by
  obtain ⟨keys, past, r₀, hgood, hrow, hprog⟩ := h.visit
  obtain ⟨out, evs, hvisit, hsilent⟩ := silent_end hprog
  refine ⟨keys, _, evs ++ past, r₀, hgood, hvisit, ?_⟩
  -- the calls to come write nothing, so the visit has the updates of the calls so far
  rw [updatesOf_append, hsilent, List.append_nil]
  exact hrow

end Cut

/-! ## Steps -/

section Steps

variable {config : ConfigReader} {priceClient : Bool} {s s' : System} {a : Action}

/-- Packets are inserted, or calls are made. -/
theorem world_step (hstep : s.step config priceClient a = some s') :
    (∃ chainID txHash packets, a = .relay chainID txHash packets)
      ∨ ∃ evs, s'.world = s.world.after evs := by
  cases a with
  | relay chainID txHash packets => exact .inl ⟨chainID, txHash, packets, rfl⟩
  | poll =>
    obtain ⟨-, rfl⟩ := System.poll_inv hstep
    exact .inr ⟨[], rfl⟩
  | submit answer =>
    obtain ⟨r, rest, -, ⟨d, ds, -, -, -, -, rfl⟩ | rfl | ⟨-, rfl⟩⟩ := System.submit_inv hstep
    · exact .inr ⟨[], rfl⟩
    · exact .inr ⟨[], rfl⟩
    -- the dispatcher writes once, for a route without a pipeline
    · exact .inr ⟨[⟨.update (.updateTransferState .failed) r.key, answer⟩], rfl⟩
  | route i env j =>
    obtain ⟨pl, stage, rest, t, q, wanted, world, -, hq, hrun, hend⟩ := System.route_inv hstep
    obtain ⟨evs, -, -, rfl⟩ := routeToBatch_run hq hrun
    rcases hend with ⟨-, rfl⟩ | ⟨-, rfl⟩ | ⟨-, j, ts, -, rfl⟩ <;> exact .inr ⟨evs, rfl⟩
  | start i =>
    obtain ⟨task, task', -, -, rfl⟩ := System.step_start_inv hstep
    exact .inr ⟨[], rfl⟩
  | call i env =>
    obtain ⟨pl, rest, stage, ts, c, k, -, rfl⟩ := System.call_inv hstep
    exact .inr ⟨[⟨c, env s.world c⟩], rfl⟩
  | finish i =>
    obtain ⟨pl, rest, stage, ts, output, -, rfl⟩ := System.finish_inv hstep
    exact .inr ⟨[], rfl⟩
  | watch i =>
    obtain ⟨pl, t, -, rfl⟩ := System.watch_inv hstep
    exact .inr ⟨[], rfl⟩

theorem log_step (hstep : s.step config priceClient a = some s') : s.world.log ⊆ s'.world.log := by
  rcases world_step hstep with ⟨chainID, txHash, packets, rfl⟩ | ⟨evs, hworld⟩
  · cases hstep
    exact List.Subset.refl _
  · rw [hworld, World.after_log]
    exact List.subset_append_right _ _

/-- A task is at work because it was before the step, has just begun, or has made a call. -/
theorem running_step (hstep : s.step config priceClient a = some s') {task : Task}
    (htask : task ∈ s'.tasks) {stage : Stage} {ts : List IBCV2Transfer}
    {prog : Eff (List IBCV2Transfer)} (hwork : task.work = .running stage ts prog) :
    task ∈ s.tasks ∨ (∃ old ∈ s.tasks, old.start = some task) ∨ ∃ i env, a = .call i env := by
  -- most steps add a task that waits
  have hold : ∀ {old : List Task} {new : Task}, old ⊆ s.tasks →
      (∀ stage ts prog, new.work ≠ .running stage ts prog) → task ∈ old ++ [new] →
      task ∈ s.tasks := by
    intro old new hsub hnew hin
    rcases List.mem_append.mp hin with hin | hin
    · exact hsub hin
    · rw [List.mem_singleton.mp hin] at hwork
      exact absurd hwork (hnew _ _ _)
  have herase : ∀ i, s.tasks.eraseIdx i ⊆ s.tasks := fun i => List.eraseIdx_subset
  cases a with
  | relay chainID txHash packets =>
    cases hstep
    exact .inl htask
  | poll =>
    obtain ⟨-, rfl⟩ := System.poll_inv hstep
    exact .inl htask
  | submit answer =>
    obtain ⟨r, rest, -, ⟨d, ds, -, -, -, -, rfl⟩ | rfl | ⟨-, rfl⟩⟩ := System.submit_inv hstep
    · exact .inl (hold (List.Subset.refl _) (by rintro _ _ _ ⟨⟩) htask)
    · exact .inl htask
    · exact .inl htask
  | route i env j =>
    obtain ⟨pl, stage, rest, t, q, wanted, world, -, hq, hrun, hend⟩ := System.route_inv hstep
    rcases hend with ⟨-, rfl⟩ | ⟨-, rfl⟩ | ⟨-, j, ts, -, rfl⟩
    · exact .inl (hold (herase i) (by rintro _ _ _ ⟨⟩) htask)
    · exact .inl (hold (herase i) (by rintro _ _ _ ⟨⟩) htask)
    · exact .inl
        (hold (List.Subset.trans List.eraseIdx_subset (herase i)) (by rintro _ _ _ ⟨⟩) htask)
  | start i =>
    obtain ⟨old, new, hmem, hstart, rfl⟩ := System.step_start_inv hstep
    rcases List.mem_append.mp htask with hin | hin
    · exact .inl (herase i hin)
    · rw [List.mem_singleton.mp hin]
      exact .inr (.inl ⟨old, List.mem_of_getElem? hmem, hstart⟩)
  | call i env => exact .inr (.inr ⟨i, env, rfl⟩)
  | finish i =>
    obtain ⟨pl, rest, stage, ts, output, -, rfl⟩ := System.finish_inv hstep
    rcases List.mem_append.mp htask with hin | hin
    · exact .inl (herase i hin)
    · obtain ⟨t, -, rfl⟩ := List.mem_map.mp hin
      cases hwork
  | watch i =>
    obtain ⟨pl, t, -, rfl⟩ := System.watch_inv hstep
    exact .inl (herase i (by simpa [System.replace] using htask))

end Steps

/-! ## The rule -/

/-- Every row of the table has the property. -/
def AllRows (Row : Ibcv2Transfer → Prop) (s : System) : Prop := ∀ r ∈ s.world.transfers, Row r

section Rule

variable {Good : List Stage → IBCV2Transfer → Ibcv2Transfer → Prop}
  {Fresh : Ibcv2Transfer → Ibcv2Transfer → Prop} {Row : Ibcv2Transfer → Prop}
  {config : ConfigReader} {priceClient : Bool} {s s' : System}

theorem AllRows.row (h : AllRows Row s) {key : RowKey} {r : Ibcv2Transfer}
    (hr : s.world.row key = some r) : Row r :=
  h r (List.mem_of_find?_eq_some hr)

theorem AllRows.of_row (htable : Table s.world.transfers)
    (h : ∀ key r, s.world.row key = some r → Row r) : AllRows Row s :=
  fun r hr => h r.key r (htable.row_of_mem hr)

theorem pushesOnly_true (s : System) (a : Action) : PushesOnly (fun _ _ => True) s a := by
  cases a with
  | submit answer => exact fun _ _ _ _ _ _ => trivial
  | _ => trivial

/-- The current row of a transfer that is pushed has the property, as all rows have. -/
theorem PushesOnly.and_rows {a : Action} (h : PushesOnly Fresh s a) (hrows : AllRows Row s) :
    PushesOnly (fun r r' => Fresh r r' ∧ Row r') s a := by
  cases a with
  | submit answer =>
    intro r rest hsnapshot hlacks r' hr'
    exact ⟨h r rest hsnapshot hlacks r' hr', hrows.row hr'⟩
  | _ => trivial

/-- A call of a stage writes the rows of its own transfers. -/
theorem AllRows.call (hrows : AllRows Row s) (hinv : s.Inv Good) (hinv' : s'.Inv Good)
    (hvisit : ∀ ⦃pl keys stage rest t o evs r⦄, StageVisit pl keys t stage o evs →
      Good (stage :: rest) t r → Row (applyAll (updatesOf t.rowKey evs) r))
    {i : Nat} {env : Environment} (hstep : s.call i env = some s') : AllRows Row s' := by
  obtain ⟨pl, rest, stage, ts, c, k, htask, rfl⟩ := System.call_inv hstep
  refine .of_row hinv'.table fun key r hr => ?_
  by_cases hkey : key ∈ ts.map (·.rowKey)
  · obtain ⟨t, ht, rfl⟩ := List.mem_map.mp hkey
    obtain ⟨-, hvisits⟩ := hinv'.sound _ (List.mem_append_right _ (List.mem_singleton_self _))
    obtain ⟨keys, o, evs, r₀, hgood, hstage, hrow⟩ := (hvisits t ht).cut
    cases hr.symm.trans hrow
    exact hvisit hstage hgood
  · -- the row is not one of the stage's, unless it has the zero key, which no row has
    have howned := hinv.pending (List.mem_of_getElem? htask) (env s.world c)
    have hzero := hinv'.table.ne_zero hr
    exact hrows.row ((row_next_of_nil (howned.frame key hkey hzero)).symm.trans hr)

/-- Every step keeps the rows, given that the calls of the stages do. -/
theorem AllRows.step (hrows : AllRows Row s) (hinv' : s'.Inv Good)
    (hinsert : ∀ p id, Row (InsertIBCV2TransferParams.toRow p id))
    (hmark : ∀ r, Row r → Row ((TransferUpdate.updateTransferState .failed).apply r))
    (hcall : ∀ i env, s.call i env = some s' → AllRows Row s')
    {a : Action} (hstep : s.step config priceClient a = some s') : AllRows Row s' := by
  cases a with
  | relay chainID txHash packets =>
    cases hstep
    intro r hr
    rcases relay_rows hr with hin | ⟨p, id, rfl⟩
    · exact hrows r hin
    · exact hinsert p id
  | poll =>
    obtain ⟨-, rfl⟩ := System.poll_inv hstep
    exact hrows
  | submit answer =>
    obtain ⟨r, rest, -, ⟨d, ds, -, -, -, -, rfl⟩ | rfl | ⟨-, rfl⟩⟩ := System.submit_inv hstep
    · exact hrows
    · exact hrows
    · -- the row whose route has no pipeline is marked
      cases answer with
      | error err => exact hrows
      | ok =>
        intro r' hr'
        obtain ⟨r'', hr'', rfl⟩ := List.mem_map.mp hr'
        split
        · exact hmark r'' (hrows r'' hr'')
        · exact hrows r'' hr''
  -- the router asks and writes nothing
  | route i env j =>
    obtain ⟨pl, stage, rest, t, q, wanted, world, -, hq, hrun, hend⟩ := System.route_inv hstep
    obtain ⟨evs, -, hsilent, rfl⟩ := routeToBatch_run hq hrun
    have hsame : ∀ key r, (s.world.after evs).row key = some r → Row r :=
      fun key r hr => hrows.row ((row_after_of_nil (hsilent key)).symm.trans hr)
    rcases hend with ⟨-, rfl⟩ | ⟨-, rfl⟩ | ⟨-, j, ts, -, rfl⟩ <;> exact .of_row hinv'.table hsame
  | start i =>
    obtain ⟨task, task', -, -, rfl⟩ := System.step_start_inv hstep
    exact hrows
  | call i env => exact hcall i env hstep
  | finish i =>
    obtain ⟨pl, rest, stage, ts, output, -, rfl⟩ := System.finish_inv hstep
    exact hrows
  | watch i =>
    obtain ⟨pl, t, -, rfl⟩ := System.watch_inv hstep
    exact hrows

/-- **The rule.** What an inserted row has, and what the mark of the dispatcher and every visit that
starts from a `Good` row keep, every row has at every moment of a run. `Good` is about a copy and
its row when a stage begins, `Row` about a row at any time. -/
theorem run_rows_keep (hkeeps : Keeps Good)
    (hinsert : ∀ p id, Row (InsertIBCV2TransferParams.toRow p id))
    (hmark : ∀ r, Row r → Row ((TransferUpdate.updateTransferState .failed).apply r))
    (hvisit : ∀ ⦃pl keys stage rest t o evs r⦄, StageVisit pl keys t stage o evs →
      Good (stage :: rest) t r → Row (applyAll (updatesOf t.rowKey evs) r))
    (hfresh : ∀ pl r r', Fresh r r' → Row r' → Good (newPipeline pl) (newIBCV2Transfer r) r')
    {s₀ : System} (hstart : s₀.Started) (hrows : AllRows Row s₀)
    (hrun : System.Run config priceClient (PushesOnly Fresh) s₀ s) :
    s.Inv Good ∧ AllRows Row s := by
  refine Machine.Run.inv (I := fun s => s.Inv Good ∧ AllRows Row s) hrun ⟨hstart.inv, hrows⟩ ?_
  rintro s a s' ⟨hinv, hrows⟩ honly hstep
  -- the row that is pushed is `Fresh`, and has the property as all rows have
  have hinv' : s'.Inv Good :=
    step_inv hkeeps (fun pl r r' h => hfresh pl r r' h.1 h.2) hinv (honly.and_rows hrows) hstep
  exact ⟨hinv', hrows.step hinv' hinsert hmark (fun _ _ => hrows.call hinv hinv' hvisit) hstep⟩

end Rule

/-! ## Well-formed rows -/

/-- The row of the poll is as the current one. -/
def UpToDate (polled current : Ibcv2Transfer) : Prop := Mirrors current (newIBCV2Transfer polled)

/-- The stages keep `Tracked`. -/
theorem keeps_tracked : Keeps fun _ t r => Tracked r t :=
  fun _ _ _ _ _ _ _ _ _ hvisit htracked => visit_tracked hvisit htracked

/-- The copies of a run that pushes no outdated row are those of well-formed rows. -/
theorem run_tracked {config : ConfigReader} {priceClient : Bool} {s₀ s : System}
    (hstart : s₀.Started) (hrows : AllRows WellFormed s₀)
    (hrun : System.Run config priceClient (PushesOnly UpToDate) s₀ s) :
    (s.Inv fun _ t r => Tracked r t) ∧ AllRows WellFormed s :=
  run_rows_keep keeps_tracked wellFormed_inserted (fun _ h => h.save .failed)
    (fun _ _ _ _ _ _ _ _ hvisit htracked => visit_wellFormed hvisit htracked)
    (fun _ _ _ hfresh hwf => ⟨hwf, fun _ => hfresh⟩) hstart hrows hrun

/-- **Rows are well-formed at every moment.** In every run of the system that pushes no outdated
row, whatever is answered and however the stages of different transfers interleave, every row of the
table is `WellFormed` between any two calls. -/
theorem rows_wellFormed {config : ConfigReader} {priceClient : Bool} {s₀ s : System}
    (hstart : s₀.Started) (hrows : AllRows WellFormed s₀)
    (hrun : System.Run config priceClient (PushesOnly UpToDate) s₀ s) : AllRows WellFormed s :=
  (run_tracked hstart hrows hrun).2

/-- `rows_wellFormed` when a batch has just recorded its recv tx. -/
theorem rows_wellFormed_recorded :
    ∃ s, System.Run Sample.config false (PushesOnly UpToDate) Sample.idle s
      ∧ (∃ r ∈ s.world.transfers, r.recvTxHash = some "0xd1") ∧ AllRows WellFormed s := by
  have hscript : (Sample.idle.script Sample.config false
      (Sample.pushes fun polled current => polled = current)
      (Sample.polledTwice ++ Sample.untilRecv (Sample.obliging .zero) ++ [.start 0]
        ++ List.replicate 11 (.call 0 (Sample.obliging .zero)))).any
      (fun s => s.world.transfers.any fun r => r.recvTxHash = some "0xd1") = true := by
    decide +kernel
  obtain ⟨s, hs, hrecorded⟩ := (Option.any_eq_true _ _).mp hscript
  have hrun : System.Run Sample.config false (PushesOnly UpToDate) Sample.idle s := by
    refine System.run_of_script _ _ (Sample.pushesOnly fun r r' h => ?_) hs
    rw [← of_decide_eq_true h]
    exact mirrors_new r
  obtain ⟨r, hr, hhash⟩ := List.any_eq_true.mp hrecorded
  exact ⟨s, hrun, ⟨r, hr, of_decide_eq_true hhash⟩,
    rows_wellFormed Sample.started (by simp [AllRows, Sample.idle]) hrun⟩

/-! ## Hashes and their times -/

/-- What is left of `WellFormed` when outdated rows are pushed. -/
structure Dated (r : Ibcv2Transfer) : Prop where
  recvTx : r.recvTxHash = none ↔ r.recvTxTime = none
  writeAckTx : r.writeAckTxHash = none ↔ r.writeAckTxTime = none
  ackTx : r.ackTxHash = none ↔ r.ackTxTime = none
  timeoutTx : r.timeoutTxHash = none ↔ r.timeoutTxTime = none
  writeAckStatus : r.writeAckTxHash = none ↔ r.writeAckStatus = none

section Dated

variable {pl : Pipeline} {stage : Stage} {c : Contract} {keys : List RowKey} {r : Ibcv2Transfer}
  {t t' : IBCV2Transfer} {o : Option IBCV2Transfer} {us : List TransferUpdate} {evs : List Event}

theorem Dated.save (h : Dated r) (state : Ibcv2RelayStatus) :
    Dated ((TransferUpdate.updateTransferState state).apply r) :=
  { h with }

theorem Dated.gasCost (h : Dated r) {u : TransferUpdate} (hu : u.isGasCost = true) :
    Dated (u.apply r) := by
  cases u <;> first | exact { h with } | cases hu

/-- What a processor records, it records with its time, and a write ack with its status. -/
theorem Dated.change (h : Dated r) (hchange : Change t stage t' us) : Dated (applyAll us r) := by
  cases hchange with
  | nothing => exact h
  | recvTx hstage tx => exact { h with recvTx := by simp [applyAll, TransferUpdate.apply] }
  | ackTx hstage tx address => exact { h with ackTx := by simp [applyAll, TransferUpdate.apply] }
  | timeoutTx hstage tx address =>
    exact { h with timeoutTx := by simp [applyAll, TransferUpdate.apply] }
  | sourceTxFinalized time => exact { h with }
  | writeAck hash time status hhash =>
    exact { h with
      writeAckTx := by simp [applyAll, TransferUpdate.apply]
      writeAckStatus := by simp [applyAll, TransferUpdate.apply] }
  | writeAckTxFinalized time htime => split <;> exact { h with }
  | gasCost u hu => exact h.gasCost hu
  | marked err htext => exact h

/-- A stage that fails clears a hash together with its time. -/
theorem Dated.step (h : Dated r) (hc : stage.contract pl = some c) (hstep : Step c t o us evs) :
    Dated (applyAll us r) := by
  cases hstep with
  | failed htaken err htext o ho us' hus =>
    rcases hus with rfl | ⟨u, hu, rfl⟩
    · exact h.save c.state
    · rcases htaken.clears hc hu with ⟨rfl, -⟩ | rfl | rfl
      · exact { h.save c.state with recvTx := by simp [applyAll, TransferUpdate.apply] }
      · exact { h.save c.state with ackTx := by simp [applyAll, TransferUpdate.apply] }
      · exact { h.save c.state with timeoutTx := by simp [applyAll, TransferUpdate.apply] }
  | done htaken t' us' own _ _ hok =>
    rw [applyAll_cons]
    exact (h.save c.state).change (ok_change hc hok)
  | _ => exact h

/-- A visit to any stage, whatever the copy says about the row. -/
theorem Dated.visit (h : Dated r) (hvisit : StageVisit pl keys t stage o evs) :
    Dated (applyAll (updatesOf t.rowKey evs) r) := by
  cases hvisit with
  | wrapped hc hvisit => exact h.step hc hvisit.step
  | finisher hfinish =>
    rcases updatesOf_finish hfinish with ⟨hus, -⟩ | ⟨state, -, -, -, -, hus⟩
    · rw [hus]
      exact h
    · rw [hus]
      exact h.save state

end Dated

/-- A row that was just inserted has no hashes. -/
theorem dated_inserted (p : InsertIBCV2TransferParams) (id : Int32) : Dated (p.toRow id) := by
  constructor <;> simp [InsertIBCV2TransferParams.toRow]

/-- **A hash comes with its time, at every moment**, and a write ack with its status. This is what
holds of every row in every run, also in those that push outdated rows: the stages write the columns
together, whatever the row has. -/
theorem rows_dated {config : ConfigReader} {priceClient : Bool} {s₀ s : System}
    (hstart : s₀.Started) (hrows : AllRows Dated s₀)
    (hrun : System.Run config priceClient (fun _ _ => True) s₀ s) : AllRows Dated s := by
  have hpushes : System.Run config priceClient (PushesOnly fun _ _ => True) s₀ s :=
    Machine.Run.mono (fun s a _ => pushesOnly_true s a) hrun
  have hkeeps : Keeps fun _ _ r => Dated r := fun _ _ _ _ _ _ _ _ _ hvisit h => h.visit hvisit
  exact (run_rows_keep hkeeps dated_inserted (fun _ h => h.save .failed)
    (fun _ _ _ _ _ _ _ _ hvisit h => h.visit hvisit) (fun _ _ _ _ h => h) hstart hrows hpushes).2

/-- `rows_dated` while a copy that knows of no recv tx goes through the pipeline of a row with one.
-/
theorem rows_dated_outdated :
    ∃ s, System.Run Sample.config false (fun _ _ => True) Sample.idle s
      ∧ (∃ task ∈ s.tasks, ∃ t ∈ task.work.copies, ∃ r, s.world.row t.rowKey = some r
        ∧ t.recvTxHash = none ∧ r.recvTxHash = some "0xd1") ∧ AllRows Dated s := by
  have hscript : (Sample.idle.script Sample.config false (fun _ _ => true)
      (Sample.polledTwice ++ Sample.failedPass ++ [.watch 0, .submit (.ok ())]
        ++ Sample.untilRecv Sample.unsure ++ [.start 0]
        ++ List.replicate 5 (.call 0 Sample.unsure))).any
      (fun s => s.tasks.any fun task => task.work.copies.any fun t => (s.world.row t.rowKey).any
        fun r => t.recvTxHash.isNone && r.recvTxHash = some "0xd1") = true := by
    decide +kernel
  obtain ⟨s, hs, houtdated⟩ := (Option.any_eq_true _ _).mp hscript
  obtain ⟨task, htask, houtdated⟩ := List.any_eq_true.mp houtdated
  obtain ⟨t, ht, houtdated⟩ := List.any_eq_true.mp houtdated
  obtain ⟨r, hr, houtdated⟩ := (Option.any_eq_true _ _).mp houtdated
  obtain ⟨hnone, hhash⟩ := Bool.and_eq_true_iff.mp houtdated
  have hrun : System.Run Sample.config false (fun _ _ => True) Sample.idle s :=
    System.run_of_script _ _ (fun _ _ _ => trivial) hs
  exact ⟨s, hrun, ⟨task, htask, t, ht, r, hr, Option.isNone_iff_eq_none.mp hnone,
    of_decide_eq_true hhash⟩, rows_dated Sample.started (by simp [AllRows, Sample.idle]) hrun⟩

end IbcRelayer
