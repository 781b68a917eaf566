import Mathlib.Data.List.Perm.Basic
import IbcRelayer.Spec.Insert
import IbcRelayer.Spec.Task

/-!
# IbcRelayer — what holds in every run of the system

The stages interleave call by call, but a row is only written by the one stage that has its
transfer: the deduplication sets keep the transfers of all tasks apart. So the visit of a transfer
can be followed as if the stage were alone.

* `System.Inv` — the table has unique keys, the transfers of the tasks are apart and each is known
  to the deduplication set of its route, and every task is `Sound`;
* `Task.Sound` — for a property `Good` of a copy and its row, at some point of the pipeline: it
  holds while the transfer waits, and it held when the stage that is at work began, with what the
  stage has done since;
* `Keeps` — every visit keeps `Good`. Then a run keeps it (`run_inv`), if it holds of every row that
  is pushed: this is where the age of the dispatcher's rows comes in.
-/

namespace IbcRelayer

open CallTree Prog IBCV2Transfer

/-! ## The table -/

/-- The route of a row's packet. -/
def Ibcv2Transfer.route (r : Ibcv2Transfer) : Route := newPipelineKey (newIBCV2Transfer r)

/-- No statement changes the chains and clients of a packet. -/
@[simp] theorem TransferUpdate.apply_route (u : TransferUpdate) (r : Ibcv2Transfer) :
    (u.apply r).route = r.route := by
  cases u <;> rfl

@[simp] theorem applyAll_route (us : List TransferUpdate) (r : Ibcv2Transfer) :
    (applyAll us r).route = r.route := by
  induction us generalizing r with
  | nil => rfl
  | cons u us ih => rw [applyAll_cons, ih, u.apply_route]

theorem IBCV2Transfer.SamePacket.newPipelineKey {t t' : IBCV2Transfer} (h : SamePacket t t') :
    newPipelineKey t' = newPipelineKey t := by
  simp [IbcRelayer.newPipelineKey, h.sourceChainID, h.packetSourceClientID, h.destinationChainID,
    h.packetDestinationClientID]

theorem IBCV2Transfer.SamePacket.newTransferKey {t t' : IBCV2Transfer} (h : SamePacket t t') :
    newTransferKey t' = newTransferKey t :=
  newTransferKey_eq_iff.mpr h.rowKey

/-- With unique keys, an element is found by its key. -/
theorem find?_eq_of_nodup {α κ : Type} [DecidableEq κ] {key : α → κ} {l : List α}
    (h : (l.map key).Nodup) {a : α} (ha : a ∈ l) : l.find? (fun b => key b = key a) = some a := by
  induction l with
  | nil => cases ha
  | cons b l ih =>
    rw [List.map_cons, List.nodup_cons] at h
    rcases List.mem_cons.mp ha with rfl | ha
    · simp
    · have hne : key b ≠ key a := fun heq => h.1 (heq ▸ List.mem_map_of_mem ha)
      rw [List.find?_cons_of_neg (by simpa using hne)]
      exact ih h.2 ha

/-- The unique index, and the check of `Relay` that a request names a chain. -/
structure Table (rows : List Ibcv2Transfer) : Prop where
  unique : (rows.map (·.key)).Nodup
  named : ∀ k ∈ rows.map (·.key), k.sourceChainID ≠ ""

/-- No row has the zero key, so that the statement without key columns of `CheckWriteAckFinality`
hits none. -/
theorem Table.ne_zero {rows : List Ibcv2Transfer} (h : Table rows) {key : RowKey}
    {r : Ibcv2Transfer} (hrow : row rows key = some r) : key ≠ RowKey.zero := by
  rintro rfl
  have hmem := List.mem_map_of_mem (f := (·.key)) (List.mem_of_find?_eq_some hrow)
  exact h.named _ hmem (by rw [key_of_row hrow]; rfl)

/-- With unique keys a row is found by its key. -/
theorem Table.row_of_mem {rows : List Ibcv2Transfer} (h : Table rows) {r : Ibcv2Transfer}
    (hr : r ∈ rows) : row rows r.key = some r :=
  find?_eq_of_nodup h.unique hr

/-- What a step leaves of the table: the keys and the routes. -/
structure SameKeys (w w' : World) : Prop where
  keys : w'.transfers.map (·.key) = w.transfers.map (·.key)
  routes : ∀ key, (w'.row key).map (·.route) = (w.row key).map (·.route)

theorem SameKeys.table {w w' : World} (h : SameKeys w w') (hw : Table w.transfers) :
    Table w'.transfers := by
  constructor
  · rw [h.keys]
    exact hw.unique
  · rw [h.keys]
    exact hw.named

/-- An `UPDATE` leaves the keys. -/
theorem keys_updateWhere (u : TransferUpdate) (key : RowKey) (rows : List Ibcv2Transfer) :
    (updateWhere u key rows).map (·.key) = rows.map (·.key) := by
  rw [updateWhere, List.map_map]
  refine List.map_congr_left fun r _ => ?_
  dsimp only [Function.comp]
  split
  · exact u.apply_key r
  · rfl

/-- So does a transaction. -/
theorem keys_foldl_apply (body : List TxStmt) (rows : List Ibcv2Transfer) :
    (body.foldl (fun rows stmt => stmt.apply rows) rows).map (·.key) = rows.map (·.key) := by
  induction body generalizing rows with
  | nil => rfl
  | cons stmt body ih =>
    rw [List.foldl_cons, ih]
    cases stmt with
    | update u k => exact keys_updateWhere u k rows
    | _ => rfl

/-- No call adds a row or takes one away: `Relay` is the only one who does. -/
theorem sameKeys_next (w : World) (e : Event) : SameKeys w (w.next e.call e.answer) where
  keys := by
    obtain ⟨c, r⟩ := e
    cases c with
    | update u k =>
      cases r with
      | error err => rfl
      | ok a => exact keys_updateWhere u k w.transfers
    | txCommit body =>
      cases r with
      | error err => rfl
      | ok a => exact keys_foldl_apply body w.transfers
    | _ => rfl
  routes key := by
    rw [row_next, Option.map_map]
    congr 1
    funext r
    exact applyAll_route _ r

theorem SameKeys.refl (w : World) : SameKeys w w := ⟨rfl, fun _ => rfl⟩

/-- A list of calls leaves the keys of the table. -/
theorem sameKeys_after (w : World) (evs : List Event) : SameKeys w (w.after evs) := by
  induction evs with
  | nil => exact .refl w
  | cons e evs ih =>
    have hnext := sameKeys_next (w.after evs) e
    exact ⟨hnext.keys.trans ih.keys, fun key => (hnext.routes key).trans (ih.routes key)⟩

/-! ## Sound tasks -/

def Work.copies : Work → List IBCV2Transfer
  | .waiting t => [t]
  | .collecting _ ts => ts
  | .running _ ts _ => ts

/-- The keys of a task's transfers. -/
def Task.keys (task : Task) : List RowKey := task.work.copies.map (·.rowKey)

section Sound

variable (Good : List Stage → IBCV2Transfer → Ibcv2Transfer → Prop)

/-- A transfer is in the pipeline of its row's route, with some stages of the pipeline left. -/
structure OnWay (w : World) (pl : Pipeline) (stages : List Stage) (t : IBCV2Transfer) : Prop where
  honest : t.Honest
  route : pl.route = newPipelineKey t
  row : (w.row t.rowKey).map (·.route) = some (newPipelineKey t)
  isSuffix : stages <:+ newPipeline pl

/-- A transfer that waits. -/
structure Waits (w : World) (pl : Pipeline) (stages : List Stage) (t : IBCV2Transfer) : Prop
    extends OnWay w pl stages t where
  good : ∀ r, w.row t.rowKey = some r → Good stages t r

/-- A transfer that a stage is at work with: `past` is what the stage has done, `r₀` was the row
when it began. -/
structure Visiting (w : World) (pl : Pipeline) (stage : Stage) (rest : List Stage)
    (t : IBCV2Transfer) (prog : Eff (List IBCV2Transfer)) : Prop
    extends OnWay w pl (stage :: rest) t where
  visit : ∃ keys past r₀, Good (stage :: rest) t r₀
    ∧ w.row t.rowKey = some (applyAll (updatesOf t.rowKey past) r₀)
    ∧ prog.Ensures fun out evs =>
      StageVisit pl keys t stage (out.find? (·.rowKey = t.rowKey)) (evs ++ past)

def Work.Sound (w : World) (pl : Pipeline) (rest : List Stage) : Work → Prop
  | .waiting t => Waits Good w pl rest t
  | .collecting stage ts => ∀ t ∈ ts, Waits Good w pl (stage :: rest) t
  | .running stage ts prog => prog.Ensures (Kept pl stage ts)
      ∧ ∀ t ∈ ts, Visiting Good w pl stage rest t prog

def Task.Sound (w : World) (task : Task) : Prop := task.work.Sound Good w task.pl task.rest

variable {Good}

theorem OnWay.of_row {w w' : World} {pl : Pipeline} {stages : List Stage} {t : IBCV2Transfer}
    (h : OnWay w pl stages t) (hrow : w'.row t.rowKey = w.row t.rowKey) : OnWay w' pl stages t :=
  { h with row := by rw [hrow]; exact h.row }

theorem Waits.of_row {w w' : World} {pl : Pipeline} {stages : List Stage} {t : IBCV2Transfer}
    (h : Waits Good w pl stages t) (hrow : w'.row t.rowKey = w.row t.rowKey) :
    Waits Good w' pl stages t :=
  { h.toOnWay.of_row hrow with good := fun r hr => h.good r (hrow ▸ hr) }

theorem Visiting.of_row {w w' : World} {pl : Pipeline} {stage : Stage} {rest : List Stage}
    {t : IBCV2Transfer} {prog : Eff (List IBCV2Transfer)}
    (h : Visiting Good w pl stage rest t prog) (hrow : w'.row t.rowKey = w.row t.rowKey) :
    Visiting Good w' pl stage rest t prog :=
  { h.toOnWay.of_row hrow with visit := by rw [hrow]; exact h.visit }

/-- A task stays sound when the rows of its transfers stay. -/
theorem Task.Sound.of_rows {w w' : World} {task : Task} (h : task.Sound Good w)
    (hrows : ∀ k ∈ task.keys, w'.row k = w.row k) : task.Sound Good w' := by
  have hrow : ∀ t ∈ task.work.copies, w'.row t.rowKey = w.row t.rowKey :=
    fun t ht => hrows _ (List.mem_map_of_mem ht)
  obtain ⟨pl, rest, work⟩ := task
  cases work with
  | waiting t => exact Waits.of_row h (hrow t (List.mem_singleton_self t))
  | collecting stage ts => exact fun t ht => (h t ht).of_row (hrow t ht)
  | running stage ts prog => exact ⟨h.1, fun t ht => (h.2 t ht).of_row (hrow t ht)⟩

/-- Every transfer of a sound task is on its way. -/
theorem Task.Sound.onWay {w : World} {task : Task} (h : task.Sound Good w) {t : IBCV2Transfer}
    (ht : t ∈ task.work.copies) : ∃ stages, OnWay w task.pl stages t := by
  obtain ⟨pl, rest, work⟩ := task
  cases work with
  | waiting t' =>
    cases List.mem_singleton.mp ht
    exact ⟨rest, Waits.toOnWay h⟩
  | collecting stage ts => exact ⟨_, (h t ht).toOnWay⟩
  | running stage ts prog => exact ⟨_, (h.2 t ht).toOnWay⟩

end Sound

/-! ## What a step does -/

namespace System

variable {config : ConfigReader} {priceClient : Bool} {s s' : System} {i : Nat}

/-- A stage makes its next call and goes on with the answer. -/
theorem call_inv {env : Environment} (h : s.call i env = some s') :
    ∃ pl rest stage ts c k, s.tasks[i]? = some ⟨pl, rest, .running stage ts (.call c k)⟩
      ∧ s' = { s with
          world := s.world.next c (env s.world c)
          tasks := s.tasks.eraseIdx i ++ [⟨pl, rest, .running stage ts (k (env s.world c))⟩] } := by
  unfold System.call at h
  obtain ⟨task, htask, h⟩ := Option.bind_eq_some_iff.mp h
  split at h
  · exact ⟨_, _, _, _, _, _, htask, (Option.some.inj h).symm⟩
  · cases h

/-- A stage has returned; each transfer on its output waits for the next stage. -/
theorem finish_inv (h : s.finish i = some s') :
    ∃ pl rest stage ts output, s.tasks[i]? = some ⟨pl, rest, .running stage ts (.done output)⟩
      ∧ s' = s.replace i (output.map fun t => ⟨pl, rest, .waiting t⟩) := by
  unfold System.finish at h
  obtain ⟨task, htask, h⟩ := Option.bind_eq_some_iff.mp h
  split at h
  · exact ⟨_, _, _, _, _, htask, (Option.some.inj h).symm⟩
  · cases h

/-- The goroutine that watches the end of a pipeline takes a transfer out of the deduplication set.
-/
theorem watch_inv (h : s.watch i = some s') :
    ∃ pl t, s.tasks[i]? = some ⟨pl, [], .waiting t⟩
      ∧ s' = { s.replace i [] with
          pipelines := updatePipeline pl.route (·.delete t) s.pipelines } := by
  unfold System.watch at h
  obtain ⟨task, htask, h⟩ := Option.bind_eq_some_iff.mp h
  split at h
  · exact ⟨_, _, htask, (Option.some.inj h).symm⟩
  · cases h

/-- A poll reads the rows into the snapshot that the last one has used up. -/
theorem poll_inv (h : s.step config priceClient .poll = some s') :
    s.snapshot = []
      ∧ s' = { s with snapshot := getUnfinishedIBCV2Transfers s.world.transfers } := by
  rw [System.step] at h
  split at h
  · exact ⟨List.isEmpty_iff.mp ‹_›, (Option.some.inj h).symm⟩
  · cases h

/-- A task that starts takes the place of the one that waited. -/
theorem step_start_inv (h : s.step config priceClient (.start i) = some s') :
    ∃ task task', s.tasks[i]? = some task ∧ task.start = some task'
      ∧ s' = s.replace i [task'] := by
  obtain ⟨task, htask, h⟩ := Option.bind_eq_some_iff.mp h
  obtain ⟨task', hstart, h⟩ := Option.bind_eq_some_iff.mp h
  exact ⟨task, task', htask, hstart, (Option.some.inj h).symm⟩

/-- A stage starts with the transfer that waits for it, or with the batch that was collected. -/
theorem start_inv {task task' : Task} (h : task.start = some task') :
    (∃ pl stage rest t, task = ⟨pl, stage :: rest, .waiting t⟩ ∧ stage.isSingle pl
      ∧ task' = ⟨pl, rest, .running stage [t] ((stage.processor pl).runAlone t)⟩)
    ∨ ∃ pl stage rest ts q, task = ⟨pl, rest, .collecting stage ts⟩
      ∧ stage.processor pl = .batch q ∧ task' = ⟨pl, rest, .running stage ts (q.runBatch ts)⟩ := by
  unfold Task.start at h
  split at h
  · split at h
    · cases h
    · rename_i hsingle
      exact Or.inl ⟨_, _, _, _, rfl, hsingle, (Option.some.inj h).symm⟩
  · split at h
    · rename_i q hq
      exact Or.inr ⟨_, _, _, _, q, rfl, hq, (Option.some.inj h).symm⟩
    · cases h
  · cases h

/-- The router lets the transfer by, starts a batch with it, or lets it join one. -/
theorem route_inv {env : Environment} {j : Option Nat} (h : s.route i env j = some s') :
    ∃ pl stage rest t q wanted world, s.tasks[i]? = some ⟨pl, stage :: rest, .waiting t⟩
      ∧ stage.processor pl = .batch q
      ∧ execute env (routeToBatch q t) s.world = (wanted, world)
      ∧ (wanted = false
          ∧ s' = { s with world, tasks := s.tasks.eraseIdx i ++ [⟨pl, rest, .waiting t⟩] }
        ∨ wanted = true
          ∧ s' = { s with
              world, tasks := s.tasks.eraseIdx i ++ [⟨pl, rest, .collecting stage [t]⟩] }
        ∨ wanted = true ∧ ∃ j ts, (s.tasks.eraseIdx i)[j]? = some ⟨pl, rest, .collecting stage ts⟩
          ∧ s' = { s with
              world
              tasks := (s.tasks.eraseIdx i).eraseIdx j
                ++ [⟨pl, rest, .collecting stage (ts ++ [t])⟩] }) := by
  unfold System.route at h
  obtain ⟨task, htask, h⟩ := Option.bind_eq_some_iff.mp h
  split at h
  · rename_i pl stage rest t
    split at h
    · rename_i q hq
      obtain ⟨wanted, world, hrun⟩ :
          ∃ wanted world, execute env (routeToBatch q t) s.world = (wanted, world) := ⟨_, _, rfl⟩
      rw [hrun] at h
      refine ⟨pl, stage, rest, t, q, wanted, world, htask, hq, hrun, ?_⟩
      cases wanted with
      | false => exact Or.inl ⟨rfl, (Option.some.inj h).symm⟩
      | true =>
        refine Or.inr ?_
        cases j with
        | none => exact Or.inl ⟨rfl, (Option.some.inj h).symm⟩
        | some j =>
          obtain ⟨task', htask', h⟩ := Option.bind_eq_some_iff.mp h
          split at h
          · split at h
            -- the batch has to be of the same stage of the same pipeline
            · rename_i heq
              obtain ⟨rfl, rfl, rfl⟩ := heq
              exact Or.inr ⟨rfl, j, _, htask', (Option.some.inj h).symm⟩
            · cases h
          · cases h
    · cases h
  · cases h

end System

/-! ## The invariant -/

/-- **The invariant of all runs.** `snapshot` is what the dispatcher has left of its last poll: its
rows are in the table, but may have changed since. `unfinished` is for the rows that may still be
marked as failed. `admitted` and `apart` say what the deduplication sets are for: a transfer of a
task is known to the set of its route, and no two tasks have copies of one row. -/
structure System.Inv (Good : List Stage → IBCV2Transfer → Ibcv2Transfer → Prop) (s : System) :
    Prop where
  table : Table s.world.transfers
  snapshot : ∀ r ∈ s.snapshot, (s.world.row r.key).map (·.route) = some r.route
  distinct : (s.snapshot.map (·.key)).Nodup
  unfinished : ∀ r ∈ s.snapshot, (∀ d ∈ s.pipelines, d.pipeline.route ≠ r.route) →
    ∀ r', s.world.row r.key = some r' → r'.status.isFinished = false
  routes : (s.pipelines.map (·.pipeline.route)).Nodup
  admitted : ∀ task ∈ s.tasks, ∀ t ∈ task.work.copies,
    ∃ d ∈ s.pipelines, d.pipeline.route = newPipelineKey t ∧ newTransferKey t ∈ d.inPipeline
  apart : (s.tasks.flatMap Task.keys).Nodup
  sound : ∀ task ∈ s.tasks, task.Sound Good s.world

section Inv

variable {Good : List Stage → IBCV2Transfer → Ibcv2Transfer → Prop} {s : System}

/-- A row whose route has no pipeline is not that of a task's transfer. -/
theorem System.Inv.not_in_task (h : s.Inv Good) {r : Ibcv2Transfer} (hr : r ∈ s.snapshot)
    (hroute : ∀ d ∈ s.pipelines, d.pipeline.route ≠ r.route) {task : Task}
    (htask : task ∈ s.tasks) :
    r.key ∉ task.keys := by
  intro hin
  obtain ⟨t, ht, hkey⟩ := List.mem_map.mp hin
  obtain ⟨d, hd, hdroute, -⟩ := h.admitted task htask t ht
  obtain ⟨stages, hway⟩ := (h.sound task htask).onWay ht
  have hrow := hway.row
  rw [hkey, h.snapshot r hr] at hrow
  exact hroute d hd (hdroute.trans (Option.some.inj hrow).symm)

/-- The rows of a poll are still in the table, with the same route. -/
theorem System.Inv.snapshot_row (h : s.Inv Good) {r : Ibcv2Transfer} (hr : r ∈ s.snapshot) :
    ∃ r', s.world.row r.key = some r' ∧ r'.route = r.route := by
  have hrow := h.snapshot r hr
  cases hfind : s.world.row r.key with
  | none =>
    rw [hfind] at hrow
    cases hrow
  | some r' =>
    rw [hfind] at hrow
    exact ⟨r', rfl, Option.some.inj hrow⟩

/-- The row of a transfer that is on its way exists. -/
theorem OnWay.row_some {w : World} {pl : Pipeline} {stages : List Stage} {t : IBCV2Transfer}
    (h : OnWay w pl stages t) : ∃ r, w.row t.rowKey = some r := by
  have hrow := h.row
  cases hfind : w.row t.rowKey with
  | none =>
    rw [hfind] at hrow
    cases hrow
  | some r => exact ⟨r, rfl⟩

/-- Some tasks become others, with the same transfers or fewer, and write no other rows. -/
theorem System.Inv.replace (h : s.Inv Good) {old others new : List Task} {w' : World}
    (htasks : s.tasks.Perm (old ++ others)) (hw : SameKeys s.world w')
    (hrows : ∀ k, k ∉ old.flatMap Task.keys → k ≠ RowKey.zero → w'.row k = s.world.row k)
    (hnew : ∀ task ∈ new, task.Sound Good w')
    (hkeys : (new.flatMap Task.keys).Subperm (old.flatMap Task.keys))
    (hpackets : ∀ task ∈ new, ∀ u ∈ task.work.copies,
      ∃ task' ∈ old, ∃ t ∈ task'.work.copies, SamePacket t u) :
    { s with world := w', tasks := others ++ new }.Inv Good := by
  have hold : ∀ task ∈ old, task ∈ s.tasks :=
    fun task hin => htasks.symm.subset (List.mem_append_left _ hin)
  have hothers : ∀ task ∈ others, task ∈ s.tasks :=
    fun task hin => htasks.symm.subset (List.mem_append_right _ hin)
  -- the transfers of the old tasks and those of the others are apart
  have hapart : (old.flatMap Task.keys ++ others.flatMap Task.keys).Nodup := by
    rw [← List.flatMap_append]
    exact (htasks.flatMap_right Task.keys).nodup_iff.mp h.apart
  refine ⟨hw.table h.table, ?_, h.distinct, ?_, h.routes, ?_, ?_, ?_⟩
  · intro r hr
    rw [hw.routes]
    exact h.snapshot r hr
  · intro r hr hroute r' hr'
    refine h.unfinished r hr hroute r' ?_
    obtain ⟨r'', hrow, -⟩ := h.snapshot_row hr
    rw [← hr']
    refine (hrows r.key (fun hin => ?_) (h.table.ne_zero hrow)).symm
    obtain ⟨task, htask, hkey⟩ := List.mem_flatMap.mp hin
    exact h.not_in_task hr hroute (hold task htask) hkey
  · intro task htask u hu
    rcases List.mem_append.mp htask with hin | hin
    · exact h.admitted task (hothers task hin) u hu
    · obtain ⟨task', htask', t, ht, hpacket⟩ := hpackets task hin u hu
      rw [hpacket.newPipelineKey, hpacket.newTransferKey]
      exact h.admitted task' (hold task' htask') t ht
  · rw [List.flatMap_append]
    have hall : (others.flatMap Task.keys ++ new.flatMap Task.keys).Subperm
        (old.flatMap Task.keys ++ others.flatMap Task.keys) :=
      ((List.subperm_append_left _).mpr hkeys).trans List.perm_append_comm.subperm
    obtain ⟨l, hperm, hsub⟩ := hall
    exact hperm.nodup_iff.mp (hapart.sublist hsub)
  · intro task htask
    rcases List.mem_append.mp htask with hin | hin
    · have hsound := h.sound task (hothers task hin)
      refine hsound.of_rows fun k hk => hrows k (fun hin' => ?_) ?_
      · have hk' : k ∈ others.flatMap Task.keys := List.mem_flatMap.mpr ⟨task, hin, hk⟩
        -- a row that was written belongs to an old task, so the others keep theirs
        exact (List.nodup_append.mp hapart).2.2 k hin' k hk' rfl
      · obtain ⟨t, ht, rfl⟩ := List.mem_map.mp hk
        obtain ⟨stages, hway⟩ := hsound.onWay ht
        obtain ⟨r, hr⟩ := hway.row_some
        exact h.table.ne_zero hr
    · exact hnew task hin

theorem perm_cons_eraseIdx {tasks : List Task} {i : Nat} {task : Task}
    (h : tasks[i]? = some task) : tasks.Perm ([task] ++ tasks.eraseIdx i) := by
  obtain ⟨hi, rfl⟩ := List.getElem?_eq_some_iff.mp h
  exact (List.getElem_cons_eraseIdx_perm hi).symm

theorem System.Inv.keys_nodup (h : s.Inv Good) {task : Task} (htask : task ∈ s.tasks) :
    task.keys.Nodup :=
  (List.nodup_flatMap.mp h.apart).1 task htask

end Inv

/-! ## The steps of the stages -/

/-- Every visit keeps `Good`. -/
def Keeps (Good : List Stage → IBCV2Transfer → Ibcv2Transfer → Prop) : Prop :=
  ∀ ⦃pl keys stage rest t t' evs r⦄, stage :: rest <:+ newPipeline pl →
    StageVisit pl keys t stage (some t') evs → Good (stage :: rest) t r →
    Good rest t' (applyAll (updatesOf t.rowKey evs) r)

/-- What is promised for a whole program is promised after its first call, for the rest of it, and
that call is owned. -/
theorem Kept.resume {pl : Pipeline} {stage : Stage} {ts : List IBCV2Transfer} {c : Call}
    {k : c.Answer → Eff (List IBCV2Transfer)} (h : Ensures (.call c k) (Kept pl stage ts))
    (answer : c.Answer) :
    (k answer).Ensures (Kept pl stage ts) ∧ Owned pl stage ts ⟨c, answer⟩ := by
  constructor
  · exact (h answer).mono fun out evs hkept =>
      ⟨fun e he => hkept.1 e (List.mem_append_left _ he), hkept.2⟩
  -- the call belongs to every end of the program, and there is one
  · obtain ⟨out, evs, hkept⟩ := (h answer).exists_end (Sample.obliging .zero Sample.world)
    exact hkept.1 _ (List.mem_append_right _ (List.mem_singleton_self _))

section Stages

variable {Good : List Stage → IBCV2Transfer → Ibcv2Transfer → Prop} {s s' : System} {i : Nat}
  {env : Environment}

/-- A task goes on with the same transfers. -/
theorem System.Inv.replace_same (h : s.Inv Good) {task task' : Task} {w' : World}
    (htask : s.tasks[i]? = some task) (hw : SameKeys s.world w')
    (hrows : ∀ k, k ∉ task.keys → k ≠ RowKey.zero → w'.row k = s.world.row k)
    (hsound : task'.Sound Good w') (hcopies : task'.work.copies = task.work.copies) :
    { s with world := w', tasks := s.tasks.eraseIdx i ++ [task'] }.Inv Good := by
  refine h.replace (perm_cons_eraseIdx htask) hw (by simpa using hrows) ?_ ?_ ?_
  · intro task'' htask''
    rw [List.mem_singleton.mp htask'']
    exact hsound
  · simp [Task.keys, hcopies, List.Subperm.refl]
  · intro task'' htask'' u hu
    rw [List.mem_singleton.mp htask'', hcopies] at hu
    exact ⟨task, List.mem_singleton_self task, u, hu, .refl u⟩

/-- A call of a stage. The row of each of its transfers changes as the event says, which joins the
past of the visit; no other row changes. -/
theorem System.Inv.call (h : s.Inv Good) (hstep : s.call i env = some s') : s'.Inv Good := by
  obtain ⟨pl, rest, stage, ts, c, k, htask, rfl⟩ := call_inv hstep
  obtain ⟨hkept, hvisits⟩ := h.sound _ (List.mem_of_getElem? htask)
  -- whatever the answer is
  generalize env s.world c = answer
  obtain ⟨hkept', howned⟩ := Kept.resume hkept answer
  refine h.replace_same htask (sameKeys_next s.world ⟨c, answer⟩) ?_ ⟨hkept', fun t ht => ?_⟩ rfl
  · intro key hkey hzero
    exact row_next_of_nil (howned.frame key hkey hzero)
  · obtain ⟨hway, keys, past, r₀, hgood, hrow, hprog⟩ := hvisits t ht
    refine ⟨{ hway with row := ?_ }, keys, ⟨c, answer⟩ :: past, r₀, hgood, ?_, hprog.resume answer⟩
    · rw [(sameKeys_next s.world ⟨c, answer⟩).routes]
      exact hway.row
    · rw [row_next s.world ⟨c, answer⟩, hrow, updatesOf_cons, applyAll_append]
      rfl

/-- A stage returns: its visits are over, and `Keeps` carries `Good` to the next stage. -/
theorem System.Inv.finish (h : s.Inv Good) (hkeeps : Keeps Good) (hstep : s.finish i = some s') :
    s'.Inv Good := by
  obtain ⟨pl, rest, stage, ts, output, htask, rfl⟩ := finish_inv hstep
  have hmem := List.mem_of_getElem? htask
  obtain ⟨⟨-, hkeys⟩, hvisits⟩ := h.sound _ hmem
  have hnodup : (output.map (·.rowKey)).Nodup := by
    obtain ⟨l, hperm, hsub⟩ := hkeys
    exact hperm.nodup_iff.mp ((h.keys_nodup hmem).sublist hsub)
  -- each transfer on the output is what became of one that the stage was given
  have hfrom : ∀ u ∈ output, ∃ t ∈ ts, SamePacket t u ∧ Waits Good s.world pl rest u := by
    intro u hu
    obtain ⟨t, ht, hkey⟩ := List.mem_map.mp (hkeys.subset (List.mem_map_of_mem hu))
    obtain ⟨hway, keys, past, r₀, hgood, hrow, hvisit⟩ := hvisits t ht
    have hfind : output.find? (·.rowKey = t.rowKey) = some u := by
      rw [hkey]
      exact find?_eq_of_nodup hnodup hu
    change StageVisit pl keys t stage (output.find? (·.rowKey = t.rowKey)) ([] ++ past) at hvisit
    rw [hfind, List.nil_append] at hvisit
    have hpacket := hvisit.samePacket
    refine ⟨t, ht, hpacket, ⟨hvisit.honest hway.honest, ?_, ?_, ?_⟩, ?_⟩
    · rw [hpacket.newPipelineKey]
      exact hway.route
    · rw [hpacket.newPipelineKey, hpacket.rowKey]
      exact hway.row
    · exact (List.suffix_cons stage rest).trans hway.isSuffix
    · intro r hr
      rw [hpacket.rowKey, hrow] at hr
      cases hr
      exact hkeeps hway.isSuffix hvisit hgood
  refine h.replace (perm_cons_eraseIdx htask) (.refl _) (fun _ _ _ => rfl) ?_ ?_ ?_
  · intro task' htask'
    obtain ⟨u, hu, rfl⟩ := List.mem_map.mp htask'
    exact (hfrom u hu).choose_spec.2.2
  · have hout : (output.map fun t => (⟨pl, rest, .waiting t⟩ : Task)).flatMap Task.keys
        = output.map (·.rowKey) := by
      rw [List.flatMap_map, List.map_eq_flatMap]
      rfl
    rw [hout]
    simpa [Task.keys, Work.copies] using hkeys
  · intro task' htask' u' hu'
    obtain ⟨u, hu, rfl⟩ := List.mem_map.mp htask'
    rw [show u' = u from List.mem_singleton.mp hu']
    obtain ⟨t, ht, hpacket, -⟩ := hfrom u hu
    exact ⟨_, List.mem_singleton_self _, t, ht, hpacket⟩

/-- A stage begins with the rows as they are. -/
theorem Waits.visiting {w : World} {pl : Pipeline} {stage : Stage} {rest : List Stage}
    {t : IBCV2Transfer} (h : Waits Good w pl (stage :: rest) t) {keys : List RowKey}
    {prog : Eff (List IBCV2Transfer)} (hprog : prog.Ensures fun out evs =>
      StageVisit pl keys t stage (out.find? (·.rowKey = t.rowKey)) evs) :
    Visiting Good w pl stage rest t prog := by
  obtain ⟨r, hr⟩ := h.toOnWay.row_some
  refine ⟨h.toOnWay, keys, [], r, h.good r hr, hr, ?_⟩
  simpa only [List.append_nil] using hprog

/-- A stage starts its visits. -/
theorem System.Inv.start (h : s.Inv Good) {task task' : Task} (htask : s.tasks[i]? = some task)
    (hstep : task.start = some task') : (s.replace i [task']).Inv Good := by
  have hmem := List.mem_of_getElem? htask
  have hsound := h.sound task hmem
  have hnodup := h.keys_nodup hmem
  -- a stage with one transfer, or with a batch
  rcases start_inv hstep with ⟨pl, stage, rest, t, rfl, hsingle, rfl⟩
    | ⟨pl, stage, rest, ts, q, rfl, hq, rfl⟩
  · have hspec := runAlone_spec hsingle (Waits.toOnWay hsound).honest
    refine h.replace_same htask (.refl _) (fun _ _ _ => rfl) ⟨?_, fun t' ht' => ?_⟩ rfl
    · exact hspec.mono fun _ _ hboth => hboth.1
    · rw [show t' = t from List.mem_singleton.mp ht']
      exact Waits.visiting hsound (hspec.mono fun _ _ hboth => hboth.2)
  · refine h.replace_same htask (.refl _) (fun _ _ _ => rfl) ⟨?_, fun t ht => ?_⟩ rfl
    · exact runBatch_kept hq ts
    · exact (hsound t ht).visiting (runBatch_visit hq ht hnodup (hsound t ht).honest)

/-- The router in front of a batch writes nothing. -/
theorem routeToBatch_run {pl : Pipeline} {stage : Stage} {q : IBCV2BatchProcessor}
    (hq : stage.processor pl = .batch q) {t : IBCV2Transfer} {w w' : World} {wanted : Bool}
    (hrun : execute env (routeToBatch q t) w = (wanted, w')) :
    ∃ evs, (wanted = false → StageVisit pl [t.rowKey] t stage (some t) evs)
      ∧ (∀ key, updatesOf key evs = []) ∧ w' = w.after evs := by
  obtain ⟨p, hmeets, hc⟩ := batch_meets hq
  obtain ⟨evs, ⟨hsilent, hanswer⟩, hworld, -⟩ :=
    execute_of_ensures (route_spec hmeets [t.rowKey] t) env w
  rw [hrun] at hanswer hworld
  refine ⟨evs, ?_, hsilent, hworld⟩
  rintro rfl
  exact .wrapped hc hanswer

/-- The router asks: for a transfer that passes by this was the whole visit, and for the others
nothing has happened yet. -/
theorem System.Inv.route (h : s.Inv Good) (hkeeps : Keeps Good) {j : Option Nat}
    (hstep : s.route i env j = some s') : s'.Inv Good := by
  obtain ⟨pl, stage, rest, t, q, wanted, world, htask, hq, hrun, hend⟩ := route_inv hstep
  have hmem := List.mem_of_getElem? htask
  have hwaits : Waits Good s.world pl (stage :: rest) t := h.sound _ hmem
  obtain ⟨evs, hvisit, hsilent, rfl⟩ := routeToBatch_run hq hrun
  have hkeys := sameKeys_after s.world evs
  have hrows := fun key => row_after_of_nil (w := s.world) (hsilent key)
  rcases hend with ⟨rfl, rfl⟩ | ⟨rfl, rfl⟩ | ⟨rfl, j, ts, hbatch, rfl⟩
  · -- the transfer passes by: the visit is over
    refine h.replace_same htask hkeys (fun key _ _ => hrows key) ?_ rfl
    refine ⟨⟨hwaits.honest, hwaits.route, ?_, ?_⟩, fun r hr => ?_⟩
    · rw [hrows]
      exact hwaits.row
    · exact (List.suffix_cons stage rest).trans hwaits.isSuffix
    · rw [hrows] at hr
      have hgood := hkeeps hwaits.isSuffix (hvisit rfl) (hwaits.good r hr)
      rwa [hsilent] at hgood
  -- the transfer starts a batch, for the stage that it waited for
  · refine h.replace_same htask hkeys (fun key _ _ => hrows key) (fun t' ht' => ?_) rfl
    rw [show t' = t from List.mem_singleton.mp ht']
    exact hwaits.of_row (hrows _)
  · -- two tasks become one: the batch and the transfer that joins it
    have htasks := (perm_cons_eraseIdx htask).trans
      ((perm_cons_eraseIdx hbatch).append_left [⟨pl, stage :: rest, .waiting t⟩])
    rw [← List.append_assoc] at htasks
    have hcollecting : ∀ t' ∈ ts, Waits Good s.world pl (stage :: rest) t' :=
      h.sound _ (List.mem_of_mem_eraseIdx (List.mem_of_getElem? hbatch))
    refine h.replace htasks hkeys (fun key _ _ => hrows key) ?_ ?_ ?_
    · intro task' htask'
      rw [List.mem_singleton.mp htask']
      intro t' ht'
      rcases List.mem_append.mp ht' with ht' | ht'
      · exact (hcollecting t' ht').of_row (hrows _)
      · rw [show t' = t from List.mem_singleton.mp ht']
        exact hwaits.of_row (hrows _)
    · have hperm : (ts.map (·.rowKey) ++ [t.rowKey]).Perm ([t.rowKey] ++ ts.map (·.rowKey)) :=
        List.perm_append_comm
      simpa [Task.keys, Work.copies] using hperm.subperm
    · intro task' htask' u hu
      rw [List.mem_singleton.mp htask'] at hu
      rcases List.mem_append.mp hu with hu | hu
      · exact ⟨_, List.mem_cons_of_mem _ (List.mem_singleton_self _), u, hu, .refl u⟩
      · exact ⟨_, List.mem_cons_self, u, hu, .refl u⟩

end Stages

/-! ## The pipelines and their sets -/

section Pipelines

variable {route : Route} {f : PipelineDeduper → PipelineDeduper} {ds : List PipelineDeduper}

/-- A change of the sets leaves the routes. -/
theorem routes_updatePipeline (hf : ∀ d, (f d).pipeline = d.pipeline) :
    (updatePipeline route f ds).map (·.pipeline.route) = ds.map (·.pipeline.route) := by
  rw [updatePipeline, List.map_map]
  refine List.map_congr_left fun d _ => ?_
  dsimp only [Function.comp]
  split
  · rw [hf]
  · rfl

theorem mem_updatePipeline {d : PipelineDeduper} (hd : d ∈ ds) :
    (if d.pipeline.route = route then f d else d) ∈ updatePipeline route f ds :=
  List.mem_map_of_mem hd

theorem eq_of_route (h : (ds.map (·.pipeline.route)).Nodup) {d d' : PipelineDeduper} (hd : d ∈ ds)
    (hd' : d' ∈ ds) (heq : d.pipeline.route = d'.pipeline.route) : d = d' :=
  List.inj_on_of_nodup_map h hd hd' heq

/-- A route still has one pipeline when one of a new route is added. -/
theorem routes_nodup_of_new {d : PipelineDeduper} {old : List PipelineDeduper}
    (hold : (old.map (·.pipeline.route)).Nodup)
    (hds : ds = old ∨ (∀ d' ∈ old, d'.pipeline.route ≠ d.pipeline.route) ∧ ds = d :: old) :
    (ds.map (·.pipeline.route)).Nodup := by
  rcases hds with rfl | ⟨hnone, rfl⟩
  · exact hold
  · rw [List.map_cons, List.nodup_cons]
    refine ⟨fun hin => ?_, hold⟩
    obtain ⟨d', hd', heq⟩ := List.mem_map.mp hin
    exact hnone d' hd' heq

/-- A key is added to the set of a route: that set grows, and the others stay. -/
theorem grown_of_added (h : (ds.map (·.pipeline.route)).Nodup) {d : PipelineDeduper} (hd : d ∈ ds)
    (key : TransferKey) {d' : PipelineDeduper} (hd' : d' ∈ ds) :
    ∃ d'' ∈ updatePipeline d.pipeline.route
        (fun _ => { d with inPipeline := key :: d.inPipeline }) ds,
      d''.pipeline.route = d'.pipeline.route ∧ d'.inPipeline ⊆ d''.inPipeline := by
  refine ⟨_, mem_updatePipeline hd', ?_⟩
  split
  · rename_i heq
    rw [eq_of_route h hd' hd heq]
    exact ⟨rfl, List.subset_cons_self _ _⟩
  · exact ⟨rfl, List.Subset.refl _⟩

/-- Adding a key leaves the routes. -/
theorem routes_added (d : PipelineDeduper) (key : TransferKey) :
    (updatePipeline d.pipeline.route (fun _ => { d with inPipeline := key :: d.inPipeline })
      ds).map (·.pipeline.route) = ds.map (·.pipeline.route) := by
  rw [updatePipeline, List.map_map]
  refine List.map_congr_left fun d' _ => ?_
  dsimp only [Function.comp]
  split
  · rename_i heq
    exact heq.symm
  · rfl

end Pipelines

/-- The key of the transfer is not in the deduplication set of its route. -/
def System.lacks (s : System) (t : IBCV2Transfer) : Prop :=
  ∀ d ∈ s.pipelines, d.pipeline.route = newPipelineKey t → newTransferKey t ∉ d.inPipeline

/-- What `SubmitTransfer` does. A pipeline that is created has an empty set. -/
theorem submitTransfer_cases (config : ConfigReader) (priceClient : Bool)
    (ds : List PipelineDeduper) (t : IBCV2Transfer) :
    (∃ d ds', submitTransfer config priceClient ds t
          = (.pushed d.pipeline, updatePipeline d.pipeline.route
              (fun _ => { d with inPipeline := newTransferKey t :: d.inPipeline }) ds')
        ∧ d ∈ ds' ∧ d.pipeline.route = newPipelineKey t ∧ newTransferKey t ∉ d.inPipeline
        ∧ (ds' = ds ∨ (∀ d' ∈ ds, d'.pipeline.route ≠ newPipelineKey t) ∧ ds' = d :: ds))
      ∨ (submitTransfer config priceClient ds t = (.alreadyInPipeline, ds)
        ∧ ∃ d ∈ ds, d.pipeline.route = newPipelineKey t ∧ newTransferKey t ∈ d.inPipeline)
      ∨ ∃ err, submitTransfer config priceClient ds t = (.failed err, ds)
        ∧ ∀ d ∈ ds, d.pipeline.route ≠ newPipelineKey t := by
  unfold submitTransfer IBCV2PipelineManager.pipeline
  -- there is a pipeline for the route, or one has to be made
  cases hfind : ds.find? (·.pipeline.route = newPipelineKey t) with
  | some d =>
    have hd := List.mem_of_find?_eq_some hfind
    have hroute : d.pipeline.route = newPipelineKey t := by simpa using List.find?_some hfind
    by_cases hin : newTransferKey t ∈ d.inPipeline
    · refine Or.inr (Or.inl ⟨?_, d, hd, hroute, hin⟩)
      simp [PipelineDeduper.push, hin]
    · refine Or.inl ⟨d, ds, ?_, hd, hroute, hin, Or.inl rfl⟩
      simp [PipelineDeduper.push, hin]
  | none =>
    have hnone : ∀ d ∈ ds, d.pipeline.route ≠ newPipelineKey t := by
      simpa using List.find?_eq_none.mp hfind
    cases hnew : IBCV2PipelineManager.newPipelineForTransfer config priceClient t with
    | error err => exact Or.inr (Or.inr ⟨_, rfl, hnone⟩)
    | ok d =>
      have hd : d.pipeline.route = newPipelineKey t ∧ d.inPipeline = [] := by
        unfold IBCV2PipelineManager.newPipelineForTransfer at hnew
        split at hnew
        · cases hnew
        · cases hnew
          exact ⟨rfl, rfl⟩
      refine Or.inl ⟨d, d :: ds, ?_, List.mem_cons_self, hd.1, by simp [hd.2],
        Or.inr ⟨hnone, rfl⟩⟩
      simp [PipelineDeduper.push, hd.2]

/-! ## The steps of the dispatcher, the request handler and the watching goroutine -/

section Dispatcher

variable {Good : List Stage → IBCV2Transfer → Ibcv2Transfer → Prop} {s s' : System}
  {config : ConfigReader} {priceClient : Bool}

/-- A transfer leaves its pipeline. Its key is deleted from the set, and as the tasks are apart no
other task needs that key. -/
theorem System.Inv.watch (h : s.Inv Good) {i : Nat} (hstep : s.watch i = some s') :
    s'.Inv Good := by
  obtain ⟨pl, t, htask, rfl⟩ := watch_inv hstep
  have hperm := perm_cons_eraseIdx htask
  have hwaits : Waits Good s.world pl [] t := h.sound _ (List.mem_of_getElem? htask)
  have hrest : (s.replace i []).Inv Good := by
    refine h.replace hperm (.refl _) (fun _ _ _ => rfl) ?_ List.nil_subperm ?_ <;>
      · intro task htask
        cases htask
  have hroutes : (updatePipeline pl.route (·.delete t) s.pipelines).map (·.pipeline.route)
      = s.pipelines.map (·.pipeline.route) := routes_updatePipeline fun _ => rfl
  -- the tasks are those that are left, and the pipelines keep their routes
  refine { hrest with unfinished := ?_, routes := ?_, admitted := ?_ }
  · intro r hr hroute
    refine hrest.unfinished r hr fun d hd heq => ?_
    have hin : r.route ∈ s.pipelines.map (·.pipeline.route) := heq ▸ List.mem_map_of_mem hd
    rw [← hroutes] at hin
    obtain ⟨d', hd', hr'⟩ := List.mem_map.mp hin
    exact hroute d' hd' hr'
  · change (List.map _ (updatePipeline pl.route (·.delete t) s.pipelines)).Nodup
    rw [hroutes]
    exact h.routes
  · intro task hin u hu
    obtain ⟨d, hd, hroute, hkey⟩ := hrest.admitted task hin u hu
    refine ⟨_, mem_updatePipeline hd, ?_, ?_⟩
    · split <;> exact hroute
    · split
      · -- the transfers of the tasks are apart, so the key that is deleted is another one
        have hne : newTransferKey u ≠ newTransferKey t := by
          intro heq
          have hapart := (hperm.flatMap_right Task.keys).nodup_iff.mp h.apart
          rw [List.flatMap_append, List.nodup_append] at hapart
          refine hapart.2.2 t.rowKey (by simp [Task.keys, Work.copies]) u.rowKey ?_
            (newTransferKey_eq_iff.mp heq.symm)
          have hin' : task ∈ s.tasks.eraseIdx i := by simpa [System.replace] using hin
          exact List.mem_flatMap.mpr ⟨task, hin', List.mem_map_of_mem hu⟩
        simpa [PipelineDeduper.delete, hkey] using hne
      · exact hkey

/-- The dispatcher polls: the rows that it finds are current, and not finished. -/
theorem System.Inv.poll (h : s.Inv Good) :
    { s with snapshot := getUnfinishedIBCV2Transfers s.world.transfers }.Inv Good := by
  have hrow : ∀ r ∈ getUnfinishedIBCV2Transfers s.world.transfers,
      s.world.row r.key = some r ∧ r.status.isFinished = false := by
    intro r hr
    obtain ⟨hr, hstatus⟩ := List.mem_filter.mp hr
    exact ⟨h.table.row_of_mem hr, by simpa using hstatus⟩
  refine { h with snapshot := ?_, distinct := ?_, unfinished := ?_ }
  · intro r hr
    change (s.world.row r.key).map (·.route) = some r.route
    rw [(hrow r hr).1]
    rfl
  · exact h.table.unique.sublist ((List.filter_sublist).map _)
  · intro r hr _ r' hr'
    have heq := (hrow r hr).1.symm.trans hr'
    cases heq
    exact (hrow r hr).2

/-- Rows are only added, under new keys. -/
theorem insertPackets_table {sourceChainID txHash : String} (hchain : sourceChainID ≠ "")
    {packets : List (PacketInfo × Int32)} {rows rows' : List Ibcv2Transfer}
    (h : RelayerAPIService.insertPackets config sourceChainID txHash packets rows = some rows')
    (hrows : Table rows) : Table rows' ∧ rows <+: rows' := by
  induction packets generalizing rows with
  | nil =>
    cases h
    exact ⟨hrows, List.prefix_rfl⟩
  | cons entry rest ih =>
    obtain ⟨packet, id⟩ := entry
    rw [RelayerAPIService.insertPackets] at h
    split at h
    · exact ih h hrows
    · rename_i destChainID hdest
      obtain ⟨rows₁, hinsert, h⟩ := Option.bind_eq_some_iff.mp h
      obtain ⟨hfresh, rfl⟩ := insertIBCV2Transfer_inv hinsert
      have htable :
          Table (rows ++ [(packet.insert sourceChainID destChainID txHash).toRow id]) := by
        constructor
        · rw [List.map_append, List.map_singleton, List.nodup_append]
          refine ⟨hrows.unique, List.nodup_singleton _, ?_⟩
          -- the insert would have failed on a key that is taken
          rintro k hk k' hk' rfl
          obtain ⟨r, hr, hkey⟩ := List.mem_map.mp hk
          rw [← List.mem_singleton.mp hk', ← hkey, hrows.row_of_mem hr] at hfresh
          cases hfresh
        · intro k hk
          rw [List.map_append, List.mem_append] at hk
          rcases hk with hk | hk
          · exact hrows.named k hk
          · rw [List.mem_singleton.mp hk]
            exact hchain
      obtain ⟨htable', hgrown⟩ := ih h htable
      exact ⟨htable', (List.prefix_append _ _).trans hgrown⟩

/-- A request leaves a table that keeps the index, with the old rows in front. -/
theorem relay_table (config : ConfigReader) (chainID txHash : String)
    (packets : List (PacketInfo × Int32)) {rows : List Ibcv2Transfer} (h : Table rows) :
    Table (RelayerAPIService.relay config chainID txHash packets rows)
      ∧ rows <+: RelayerAPIService.relay config chainID txHash packets rows := by
  unfold RelayerAPIService.relay
  split
  · exact ⟨h, List.prefix_rfl⟩
  · rename_i hnamed
    cases hinsert : RelayerAPIService.insertPackets config chainID txHash packets rows with
    | none => exact ⟨h, List.prefix_rfl⟩
    | some rows' => exact insertPackets_table (fun heq => hnamed (Or.inr heq)) hinsert h

/-- New rows do not touch the old ones, and no task has them. -/
theorem System.Inv.grow (h : s.Inv Good) {transfers : List Ibcv2Transfer}
    (htable : Table transfers) (hgrown : s.world.transfers <+: transfers) :
    { s with world := { s.world with transfers } }.Inv Good := by
  obtain ⟨added, rfl⟩ := hgrown
  have hrow : ∀ {key r}, s.world.row key = some r →
      row (s.world.transfers ++ added) key = some r := fun h => row_append h
  refine { h with table := htable, snapshot := ?_, unfinished := ?_, sound := ?_ }
  · intro r hr
    obtain ⟨r', hr', hroute⟩ := h.snapshot_row hr
    change (row (s.world.transfers ++ added) r.key).map (·.route) = some r.route
    rw [hrow hr', ← hroute]
    rfl
  · intro r hr hroute r' hr'
    obtain ⟨r'', hr'', -⟩ := h.snapshot_row hr
    cases (hrow hr'').symm.trans hr'
    exact h.unfinished r hr hroute _ hr''
  · intro task htask
    have hsound := h.sound task htask
    refine hsound.of_rows fun key hkey => ?_
    obtain ⟨t, ht, rfl⟩ := List.mem_map.mp hkey
    obtain ⟨stages, hway⟩ := hsound.onWay ht
    obtain ⟨r, hr⟩ := hway.row_some
    exact (hrow hr).trans hr.symm

/-- The dispatcher is done with the first row of its poll. -/
theorem System.Inv.rest (h : s.Inv Good) {r : Ibcv2Transfer} {rest : List Ibcv2Transfer}
    (hsnapshot : s.snapshot = r :: rest) : { s with snapshot := rest }.Inv Good := by
  have hsub : ∀ r' ∈ rest, r' ∈ s.snapshot := fun r' hr' => hsnapshot ▸ List.mem_cons_of_mem r hr'
  refine { h with snapshot := ?_, distinct := ?_, unfinished := ?_ }
  · exact fun r' hr' => h.snapshot r' (hsub r' hr')
  · have hdistinct := h.distinct
    rw [hsnapshot] at hdistinct
    exact (List.nodup_cons.mp hdistinct).2
  · exact fun r' hr' => h.unfinished r' (hsub r' hr')

/-- A transfer whose key is not in the set of its route is in no task. -/
theorem System.Inv.not_in_task_of_lacks (h : s.Inv Good) {r : Ibcv2Transfer}
    (hr : r ∈ s.snapshot) (hlacks : s.lacks (newIBCV2Transfer r)) {task : Task}
    (htask : task ∈ s.tasks) : r.key ∉ task.keys := by
  intro hin
  obtain ⟨t, ht, hkey⟩ := List.mem_map.mp hin
  obtain ⟨d, hd, hroute, hmem⟩ := h.admitted task htask t ht
  obtain ⟨stages, hway⟩ := (h.sound task htask).onWay ht
  have hrow := hway.row
  rw [hkey, h.snapshot r hr] at hrow
  have hkey' : newTransferKey (newIBCV2Transfer r) = newTransferKey t := by
    rw [newTransferKey_eq_iff, newIBCV2Transfer_rowKey, hkey]
  refine hlacks d hd (hroute.trans (Option.some.inj hrow).symm) ?_
  rw [hkey']
  exact hmem

/-- A row is pushed. -/
theorem System.Inv.push (h : s.Inv Good) {r : Ibcv2Transfer} {rest : List Ibcv2Transfer}
    (hsnapshot : s.snapshot = r :: rest) {d : PipelineDeduper} {ds : List PipelineDeduper}
    (hd : d ∈ ds) (hroute : d.pipeline.route = newPipelineKey (newIBCV2Transfer r))
    (hds : ds = s.pipelines
      ∨ (∀ d' ∈ s.pipelines, d'.pipeline.route ≠ newPipelineKey (newIBCV2Transfer r))
        ∧ ds = d :: s.pipelines)
    (hlacks : s.lacks (newIBCV2Transfer r))
    (hgood : ∀ r', s.world.row r.key = some r' →
      Good (newPipeline d.pipeline) (newIBCV2Transfer r) r') :
    { s with
      snapshot := rest
      pipelines := updatePipeline d.pipeline.route (fun _ =>
        { d with inPipeline := newTransferKey (newIBCV2Transfer r) :: d.inPipeline }) ds
      tasks := s.tasks ++ [(⟨d.pipeline, newPipeline d.pipeline,
        .waiting (newIBCV2Transfer r)⟩ : Task)] }.Inv Good := by
  have hr : r ∈ s.snapshot := hsnapshot ▸ List.mem_cons_self
  have hrest := h.rest hsnapshot
  have hsub : s.pipelines ⊆ ds := by
    rcases hds with rfl | ⟨-, rfl⟩
    · exact List.Subset.refl _
    · exact List.subset_cons_self _ _
  have hnodup : (ds.map (·.pipeline.route)).Nodup := routes_nodup_of_new h.routes (hroute ▸ hds)
  -- a pipeline may have been created, and one set has grown
  have hgrown : ∀ d' ∈ s.pipelines, ∃ d'' ∈ updatePipeline d.pipeline.route (fun _ =>
        { d with inPipeline := newTransferKey (newIBCV2Transfer r) :: d.inPipeline }) ds,
      d''.pipeline.route = d'.pipeline.route ∧ d'.inPipeline ⊆ d''.inPipeline :=
    fun d' hd' => grown_of_added hnodup hd _ (hsub hd')
  refine { hrest with unfinished := ?_, routes := ?_, admitted := ?_, apart := ?_, sound := ?_ }
  · intro r' hr' hno
    refine hrest.unfinished r' hr' fun d' hd' heq => ?_
    obtain ⟨d'', hd'', heq', -⟩ := hgrown d' hd'
    exact hno d'' hd'' (heq'.trans heq)
  · exact (routes_added d _).symm ▸ hnodup
  · intro task htask u hu
    rcases List.mem_append.mp htask with hin | hin
    · obtain ⟨d', hd', hroute', hkey⟩ := h.admitted task hin u hu
      obtain ⟨d'', hd'', heq, hkeys⟩ := hgrown d' hd'
      exact ⟨d'', hd'', heq.trans hroute', hkeys hkey⟩
    · rw [List.mem_singleton.mp hin] at hu
      rw [show u = newIBCV2Transfer r from List.mem_singleton.mp hu]
      refine ⟨_, mem_updatePipeline hd, ?_⟩
      rw [if_pos rfl]
      exact ⟨hroute, List.mem_cons_self⟩
  · change ((s.tasks ++ [_]).flatMap Task.keys).Nodup
    rw [List.flatMap_append, List.nodup_append]
    refine ⟨h.apart, by simp [Task.keys, Work.copies], ?_⟩
    rintro k hk k' hk' rfl
    obtain ⟨task, htask, hkey⟩ := List.mem_flatMap.mp hk
    have heq : k = r.key := by simpa [Task.keys, Work.copies] using hk'
    rw [heq] at hkey
    -- the set did not have the key, so no task has the transfer
    exact h.not_in_task_of_lacks hr hlacks htask hkey
  · intro task htask
    rcases List.mem_append.mp htask with hin | hin
    · exact h.sound task hin
    · rw [List.mem_singleton.mp hin]
      refine ⟨⟨honest_new r, hroute, ?_, List.suffix_rfl⟩, ?_⟩
      · rw [newIBCV2Transfer_rowKey]
        exact h.snapshot r hr
      · rw [newIBCV2Transfer_rowKey]
        exact hgood

/-- A row is marked, because its route has no pipeline. -/
theorem System.Inv.mark (h : s.Inv Good) {r : Ibcv2Transfer} {rest : List Ibcv2Transfer}
    (hsnapshot : s.snapshot = r :: rest)
    (hnone : ∀ d ∈ s.pipelines, d.pipeline.route ≠ newPipelineKey (newIBCV2Transfer r))
    (answer : Except GoError Unit) :
    { s with
      snapshot := rest
      world := s.world.next (.update (.updateTransferState .failed) r.key) answer }.Inv Good := by
  have hr : r ∈ s.snapshot := hsnapshot ▸ List.mem_cons_self
  have hrest := h.rest hsnapshot
  have hkeys := sameKeys_next s.world ⟨.update (.updateTransferState .failed) r.key, answer⟩
  have hrows : ∀ key, key ≠ r.key →
      (s.world.next (.update (.updateTransferState .failed) r.key) answer).row key
        = s.world.row key := by
    intro key hkey
    refine row_next_of_nil (e := ⟨.update (.updateTransferState .failed) r.key, answer⟩) ?_
    cases answer with
    | error err => rfl
    | ok a => simp [updatesOfEvent, Ne.symm hkey]
  refine { hrest with table := hkeys.table h.table, snapshot := ?_, unfinished := ?_, sound := ?_ }
  · intro r' hr'
    have hroute := hrest.snapshot r' hr'
    rw [← hkeys.routes] at hroute
    exact hroute
  · intro r' hr' hroute r'' hr''
    -- the rows of a poll have different keys, so the others stay unfinished
    have hne : r'.key ≠ r.key := by
      have hdistinct := h.distinct
      rw [hsnapshot, List.map_cons, List.nodup_cons] at hdistinct
      exact fun heq => hdistinct.1 (heq ▸ List.mem_map_of_mem hr')
    exact hrest.unfinished r' hr' hroute r'' ((hrows _ hne).symm.trans hr'')
  · intro task htask
    refine (h.sound task htask).of_rows fun key hkey => hrows key ?_
    rintro rfl
    -- without a pipeline the transfer is in no task
    exact h.not_in_task hr hnone htask hkey

/-- The condition on the rows that are pushed: `Fresh` holds of the row of the dispatcher's poll and
the current row. -/
def PushesOnly (Fresh : Ibcv2Transfer → Ibcv2Transfer → Prop) (s : System) : Action → Prop
  | .submit _ => ∀ r rest, s.snapshot = r :: rest → s.lacks (newIBCV2Transfer r) →
      ∀ r', s.world.row r.key = some r' → Fresh r r'
  | _ => True

/-- The dispatcher takes the next row of its poll: it is pushed into a pipeline, it is in one
already, or its route has no pipeline and cannot get one, so that it is marked as failed. -/
theorem System.submit_inv {answer : Except GoError Unit}
    (hstep : s.submit config priceClient answer = some s') :
    ∃ r rest, s.snapshot = r :: rest
      ∧ ((∃ d ds, d ∈ ds ∧ d.pipeline.route = newPipelineKey (newIBCV2Transfer r)
          ∧ newTransferKey (newIBCV2Transfer r) ∉ d.inPipeline
          ∧ (ds = s.pipelines
            ∨ (∀ d' ∈ s.pipelines, d'.pipeline.route ≠ newPipelineKey (newIBCV2Transfer r))
              ∧ ds = d :: s.pipelines)
          ∧ s' = { s with
              snapshot := rest
              pipelines := updatePipeline d.pipeline.route (fun _ =>
                { d with inPipeline := newTransferKey (newIBCV2Transfer r) :: d.inPipeline }) ds
              tasks := s.tasks ++ [⟨d.pipeline, newPipeline d.pipeline,
                .waiting (newIBCV2Transfer r)⟩] })
        ∨ s' = { s with snapshot := rest }
        ∨ (∀ d ∈ s.pipelines, d.pipeline.route ≠ newPipelineKey (newIBCV2Transfer r))
          ∧ s' = { s with
              snapshot := rest
              world := s.world.next (.update (.updateTransferState .failed) r.key) answer }) := by
  unfold System.submit at hstep
  split at hstep
  · cases hstep
  · rename_i r rest hsnapshot
    refine ⟨r, rest, hsnapshot, ?_⟩
    dsimp only at hstep
    -- the push goes in, is a duplicate, or finds no pipeline
    rcases submitTransfer_cases config priceClient s.pipelines (newIBCV2Transfer r) with
      ⟨d, ds, hsubmit, hd, hroute, hin, hds⟩ | ⟨hsubmit, -⟩ | ⟨err, hsubmit, hnone⟩
    · rw [hsubmit] at hstep
      exact Or.inl ⟨d, ds, hd, hroute, hin, hds, (Option.some.inj hstep).symm⟩
    · rw [hsubmit] at hstep
      exact Or.inr (Or.inl (Option.some.inj hstep).symm)
    · rw [hsubmit, newIBCV2Transfer_rowKey] at hstep
      exact Or.inr (Or.inr ⟨hnone, (Option.some.inj hstep).symm⟩)

/-- The dispatcher takes the next row. What is pushed has to be `Good` to start with, and `Fresh` is
the condition for that. -/
theorem System.Inv.submit (h : s.Inv Good) {Fresh : Ibcv2Transfer → Ibcv2Transfer → Prop}
    (hfresh : ∀ pl r r', Fresh r r' → Good (newPipeline pl) (newIBCV2Transfer r) r')
    {answer : Except GoError Unit} (honly : PushesOnly Fresh s (.submit answer))
    (hstep : s.submit config priceClient answer = some s') : s'.Inv Good := by
  obtain ⟨r, rest, hsnapshot, ⟨d, ds, hd, hroute, hin, hds, rfl⟩ | rfl | ⟨hnone, rfl⟩⟩ :=
    System.submit_inv hstep
  -- a pipeline that was just made knows no transfer
  · have hlacks : s.lacks (newIBCV2Transfer r) := by
      rcases hds with rfl | ⟨hnone, -⟩
      · intro d' hd' hroute'
        rw [eq_of_route h.routes hd' hd (hroute'.trans hroute.symm)]
        exact hin
      · exact fun d' hd' hroute' => absurd hroute' (hnone d' hd')
    refine h.push hsnapshot hd hroute hds hlacks fun r' hr' => ?_
    exact hfresh _ _ _ (honly r rest hsnapshot hlacks r' hr')
  · exact h.rest hsnapshot
  · exact h.mark hsnapshot hnone answer

end Dispatcher

/-! ## Runs -/

/-- The relayer has just been started on a table. -/
structure System.Started (s : System) : Prop where
  table : Table s.world.transfers
  snapshot : s.snapshot = []
  pipelines : s.pipelines = []
  tasks : s.tasks = []

section Run

variable {Good : List Stage → IBCV2Transfer → Ibcv2Transfer → Prop}
  {Fresh : Ibcv2Transfer → Ibcv2Transfer → Prop} {config : ConfigReader} {priceClient : Bool}
  {s s' : System}

/-- Without tasks there is nothing to be kept but the table. -/
theorem System.Started.inv (h : s.Started) : s.Inv Good := by
  refine ⟨h.table, ?_, ?_, ?_, ?_, ?_, ?_, ?_⟩ <;>
    simp [h.snapshot, h.pipelines, h.tasks]

/-- **One step keeps the invariant**, whoever makes it. -/
theorem step_inv (hkeeps : Keeps Good)
    (hfresh : ∀ pl r r', Fresh r r' → Good (newPipeline pl) (newIBCV2Transfer r) r')
    (h : s.Inv Good) {a : Action} (honly : PushesOnly Fresh s a)
    (hstep : s.step config priceClient a = some s') : s'.Inv Good := by
  cases a with
  | relay chainID txHash packets =>
    cases hstep
    obtain ⟨htable, hgrown⟩ := relay_table config chainID txHash packets h.table
    exact h.grow htable hgrown
  | poll =>
    obtain ⟨-, rfl⟩ := System.poll_inv hstep
    exact h.poll
  | submit answer => exact h.submit hfresh honly hstep
  | route i env j => exact h.route hkeeps hstep
  | start i =>
    obtain ⟨task, task', htask, htask', rfl⟩ := System.step_start_inv hstep
    exact h.start htask htask'
  | call i env => exact h.call hstep
  | finish i => exact h.finish hkeeps hstep
  | watch i => exact h.watch hstep

/-- A run keeps the invariant, if every row that is pushed is fresh. -/
theorem run_inv (hkeeps : Keeps Good)
    (hfresh : ∀ pl r r', Fresh r r' → Good (newPipeline pl) (newIBCV2Transfer r) r')
    (h : s.Inv Good) (hrun : System.Run config priceClient (PushesOnly Fresh) s s') :
    s'.Inv Good :=
  Machine.Run.inv hrun h fun h honly hstep => step_inv hkeeps hfresh h honly hstep

theorem System.Inv.pending (h : s.Inv Good) {pl : Pipeline} {rest : List Stage} {stage : Stage}
    {ts : List IBCV2Transfer} {c : Call} {k : c.Answer → Eff (List IBCV2Transfer)}
    (htask : ⟨pl, rest, .running stage ts (.call c k)⟩ ∈ s.tasks) (answer : c.Answer) :
    Owned pl stage ts ⟨c, answer⟩ :=
  (Kept.resume (h.sound _ htask).1 answer).2

/-- What a step does to the rows: some are added, none is written, one is marked by the dispatcher,
or a stage makes a call. -/
inductive System.Writes (s s' : System) : Prop where
  | added {rows : List Ibcv2Transfer} (h : s'.world.transfers = s.world.transfers ++ rows)
  | silent {evs : List Event} (hworld : s'.world = s.world.after evs)
      (hsilent : ∀ key, updatesOf key evs = [])
  | marked {r : Ibcv2Transfer} {answer : Except GoError Unit} (hr : r ∈ s.snapshot)
      (hnone : ∀ d ∈ s.pipelines, d.pipeline.route ≠ newPipelineKey (newIBCV2Transfer r))
      (hworld : s'.world = s.world.next (.update (.updateTransferState .failed) r.key) answer)
  | called {i : Nat} {env : Environment} (h : s.call i env = some s')

theorem System.Writes.of_world (h : s'.world = s.world) : System.Writes s s' := by
  have hworld : s'.world = s.world.after [] := h
  exact .silent hworld fun _ => rfl

/-- Every step is one of these four. -/
theorem step_writes {a : Action} (hstep : s.step config priceClient a = some s') :
    s.Writes s' := by
  cases a with
  | relay chainID txHash packets =>
    cases hstep
    obtain ⟨added, hadded, -⟩ := relay_append config chainID txHash packets s.world.transfers
    exact .added hadded
  | poll =>
    obtain ⟨-, rfl⟩ := System.poll_inv hstep
    exact .of_world rfl
  | submit answer =>
    obtain ⟨r, rest, hsnapshot, ⟨d, ds, -, -, -, -, rfl⟩ | rfl | ⟨hnone, rfl⟩⟩ :=
      System.submit_inv hstep
    · exact .of_world rfl
    · exact .of_world rfl
    -- a row without a pipeline is the one that the dispatcher writes
    · exact .marked (hsnapshot ▸ List.mem_cons_self) hnone rfl
  | route i env j =>
    obtain ⟨pl, stage, rest, t, q, wanted, world, -, hq, hrun, hend⟩ := System.route_inv hstep
    obtain ⟨evs, -, hsilent, rfl⟩ := routeToBatch_run hq hrun
    rcases hend with ⟨-, rfl⟩ | ⟨-, rfl⟩ | ⟨-, j, ts, -, rfl⟩ <;> exact .silent rfl hsilent
  | start i =>
    obtain ⟨task, task', -, -, rfl⟩ := System.step_start_inv hstep
    exact .of_world rfl
  | call i env => exact .called hstep
  | finish i =>
    obtain ⟨pl, rest, stage, ts, output, -, rfl⟩ := System.finish_inv hstep
    exact .of_world rfl
  | watch i =>
    obtain ⟨pl, t, -, rfl⟩ := System.watch_inv hstep
    exact .of_world rfl

/-- Rows are added, and what is there changes by statements. -/
theorem step_rows {a : Action} (hstep : s.step config priceClient a = some s') {key : RowKey}
    {r : Ibcv2Transfer} (hr : s.world.row key = some r) :
    ∃ us, s'.world.row key = some (applyAll us r) := by
  have hafter : ∀ evs, ∃ us, (s.world.after evs).row key = some (applyAll us r) :=
    fun evs => ⟨updatesOf key evs, by rw [row_after, hr]; rfl⟩
  cases step_writes hstep with
  | added h =>
    refine ⟨[], ?_⟩
    rw [World.row, h]
    exact row_append hr
  | silent hworld _ => exact hworld ▸ hafter _
  | @marked r' answer _ _ hworld =>
    rw [hworld]
    exact hafter [⟨.update (.updateTransferState .failed) r'.key, answer⟩]
  | @called i env h =>
    obtain ⟨pl, rest, stage, ts, c, k, -, rfl⟩ := System.call_inv h
    exact hafter [⟨c, env s.world c⟩]

/-- A row that is there stays, and it changes by statements only. -/
theorem run_rows {P : System → Action → Prop} (hrun : System.Run config priceClient P s s')
    {key : RowKey} {r : Ibcv2Transfer} (hr : s.world.row key = some r) :
    ∃ us, s'.world.row key = some (applyAll us r) := by
  -- the statements of the steps, one after the other
  refine Machine.Run.inv (I := fun s' => ∃ us, s'.world.row key = some (applyAll us r)) hrun
    ⟨[], hr⟩ fun h _ hstep => ?_
  obtain ⟨us, hus⟩ := h
  obtain ⟨vs, hvs⟩ := step_rows hstep hus
  exact ⟨us ++ vs, by rw [hvs, applyAll_append]⟩

end Run

end IbcRelayer
