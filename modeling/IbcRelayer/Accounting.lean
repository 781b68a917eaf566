import IbcRelayer.Counters
import IbcRelayer.Snapshot

/-!
# IbcRelayer — the counters count completions

The counter of a relay type is to be the number of transfers for which the relay was persisted, each
counted once. A stage counts and then makes its statement, so this is about runs in which the
statement does not fail, no outdated row is pushed, and no transfer was timed out, which is counted
as a recv (`Accurate`): `relays_counted`.

* `call_persisted` — a call persists what was due, and nothing else is won or lost.
* `Counting` — the system, with the transfers that were counted.
* `Accounts` — the invariant: what was counted is persisted or due.
* `Undisturbed` — what a step does that is not a call of a stage. The calls are `Accounts.call`.
-/

namespace IbcRelayer

open CallTree Prog IBCV2Transfer

/-! ## What a visit persists -/

section Visit

variable {pl : Pipeline} {keys : List RowKey} {stage : Stage} {t : IBCV2Transfer}
  {o : Option IBCV2Transfer} {evs : List Event}

/-- Only the stage that waits for the write ack records one, and it has a hash. -/
theorem visit_writeAck (h : StageVisit pl keys t stage o evs) {hash : Option String}
    {time : Option Time} {status : Option Ibcv2WriteAckStatus}
    (hin : .updateTransferWriteAckTx hash time status ∈ updatesOf t.rowKey evs) :
    stage = .waitForWriteAckPacket ∧ hash.isSome = true := by
  cases h with
  | finisher h =>
    rcases updatesOf_finish h with ⟨hus, -⟩ | ⟨state, -, -, -, -, hus⟩ <;> rw [hus] at hin
    · cases hin
    · cases List.mem_singleton.mp hin
  | @wrapped _ c _ _ hc h =>
    have hstep := h.step
    generalize updatesOf t.rowKey evs = us at hstep hin
    cases hstep with
    -- a stage that fails only clears
    | failed htaken err htext o ho us' hus =>
      rcases List.mem_cons.mp hin with heq | hin
      · cases heq
      · rcases hus with rfl | ⟨u, hu, rfl⟩
        · cases hin
        · cases List.mem_singleton.mp hin
          rcases htaken.clears hc hu with ⟨heq, -⟩ | heq | heq <;> cases heq
    | done htaken t' us' own _ _ hok =>
      rcases List.mem_cons.mp hin with heq | hin
      · cases heq
      · cases ok_change hc hok with
        | writeAck hash time status hhash =>
          cases List.mem_singleton.mp hin
          exact ⟨rfl, rfl⟩
        | writeAckTxFinalized time htime => split at hin <;> simp at hin
        | gasCost u hu =>
          cases List.mem_singleton.mp hin
          cases hu
        | _ => simp at hin
    | _ => cases hin

/-- Only the finisher sets a status that ends the life of a transfer. -/
theorem visit_finishes (h : StageVisit pl keys t stage o evs) {status : Ibcv2RelayStatus}
    (hin : .updateTransferState status ∈ updatesOf t.rowKey evs)
    (hfinished : status.isFinished = true) : stage = .stateFinisher := by
  cases h with
  | finisher h => rfl
  | wrapped hc h =>
    rw [step_saves hc h.step hin, contract_state hc] at hfinished
    cases hfinished

end Visit

/-- A hash was there before or is written by one of the statements. -/
theorem applyAll_writeAckTxHash (us : List TransferUpdate) (r : Ibcv2Transfer) :
    (applyAll us r).writeAckTxHash = r.writeAckTxHash
      ∨ ∃ time status,
        .updateTransferWriteAckTx (applyAll us r).writeAckTxHash time status ∈ us := by
  induction us generalizing r with
  | nil => exact .inl rfl
  | cons u us ih =>
    rw [applyAll_cons]
    rcases ih (u.apply r) with heq | ⟨time, status, hin⟩
    · cases u with
      -- the last statement that writes the hash is this one
      | updateTransferWriteAckTx hash time status =>
        refine .inr ⟨time, status, ?_⟩
        rw [heq]
        exact List.mem_cons_self
      | _ => exact .inl heq
    · exact .inr ⟨time, status, List.mem_cons_of_mem _ hin⟩

/-! ## Outdated rows -/

/-- The current row is not finished, and the row of the poll has a write ack if the current one
has. -/
def AckKnown (polled current : Ibcv2Transfer) : Prop :=
  (polled.writeAckTxHash = none → current.writeAckTxHash = none)
    ∧ current.status.isFinished = false

/-- What a copy without an error and without a write ack says about its row. -/
def AckFree (_ : List Stage) (t : IBCV2Transfer) (r : Ibcv2Transfer) : Prop :=
  t.error = "" → t.writeAckTxHash = none → r.writeAckTxHash = none

/-- A copy that leaves a stage without a write ack had none before, and its row was not given one.
-/
theorem change_writeAckTxHash {stage : Stage} {t t' : IBCV2Transfer} {us : List TransferUpdate}
    {r : Ibcv2Transfer} (h : Change t stage t' us) (hnone : t'.writeAckTxHash = none) :
    t.writeAckTxHash = none ∧ (applyAll us r).writeAckTxHash = r.writeAckTxHash := by
  cases h with
  | writeAck hash time status hhash => cases hnone
  | writeAckTxFinalized time htime =>
    refine ⟨hnone, ?_⟩
    split <;> rfl
  | gasCost u hu =>
    refine ⟨hnone, ?_⟩
    cases u <;> first | rfl | cases hu
  | _ => exact ⟨hnone, rfl⟩

/-- The stages keep `AckFree`, by the rule for a column that row and copy have in common. -/
theorem keeps_ackFree : Keeps AckFree :=
  keeps_free (·.writeAckTxHash) (·.writeAckTxHash) (fun _ _ => rfl) (fun _ _ => rfl)
    change_writeAckTxHash

/-! ## What a call persists -/

/-- The relay of this type is on the row of the transfer. -/
def World.persisted (w : World) (key : RowKey) (relayType : RelayType) : Bool :=
  (w.row key).any (·.persisted relayType)

theorem persisted_of_row {w : World} {key : RowKey} {r : Ibcv2Transfer} (h : w.row key = some r)
    (relayType : RelayType) : w.persisted key relayType = r.persisted relayType := by
  rw [World.persisted, h]
  rfl

/-- A statement that does not fail. -/
def Call.succeeds : (c : Call) → c.Answer → Bool
  | .update _ _, r => r.toBool
  | _, _ => true

/-- A row is changed by a statement of its own, or as part of a transaction. -/
theorem mem_updatesOfEvent {u : TransferUpdate} {key : RowKey} {c : Call} {a : c.Answer}
    (h : u ∈ updatesOfEvent key ⟨c, a⟩) : c = .update u key ∨ ∃ body, c = .txCommit body := by
  cases c with
  | update u' key' =>
    cases a with
    | error err => cases h
    | ok _ =>
      by_cases hkey : key' = key
      · rw [updatesOfEvent, if_pos hkey] at h
        rw [List.mem_singleton.mp h, hkey]
        exact .inl rfl
      · rw [updatesOfEvent, if_neg hkey] at h
        cases h
  | txCommit body => exact .inr ⟨body, rfl⟩
  | _ => cases h

/-- A statement that is due persists. -/
theorem persisted_of_due {c : Call} {a : c.Answer} {key : RowKey} {relayType : RelayType}
    (hdue : c.due = some (key, relayType)) (hok : c.succeeds a = true)
    (hhash : ∀ hash time status, .updateTransferWriteAckTx hash time status
      ∈ updatesOfEvent key ⟨c, a⟩ → hash.isSome = true) (r : Ibcv2Transfer) :
    (applyAll (updatesOfEvent key ⟨c, a⟩) r).persisted relayType = true := by
  cases c with
  | update u key' =>
    obtain ⟨relayType', hpersists, heq⟩ := Option.map_eq_some_iff.mp hdue
    cases heq
    cases a with
    | error err => cases hok
    | ok _ =>
      have hus : updatesOfEvent key ⟨.update u key, .ok ()⟩ = [u] := if_pos rfl
      rw [hus] at hhash ⊢
      change (u.apply r).persisted relayType = true
      cases u with
      | updateTransferState status => cases status <;> cases hpersists <;> rfl
      | updateTransferWriteAckTx hash time status =>
        cases hpersists
        exact hhash hash time status (List.mem_singleton_self _)
      | _ => cases hpersists
  | _ => cases hdue

/-- What is new on the row after a visit's event is due, unless the stage is one that does not
count. -/
theorem due_of_mem {stage : Stage} {ts : List IBCV2Transfer} {g : Phase} {c : Call} {a : c.Answer}
    (hallows : (countProtocol stage ts).allows g c) (hstage : stage.relayType ≠ none)
    {key : RowKey} {u : TransferUpdate} (hu : u ∈ updatesOfEvent key ⟨c, a⟩)
    {relayType : RelayType} (hpersists : u.persists = some relayType) :
    c.due = some (key, relayType) := by
  rcases mem_updatesOfEvent hu with rfl | ⟨body, rfl⟩
  · change u.persists.map _ = _
    rw [hpersists]
    rfl
  · exact absurd hallows.2 hstage

/-- The other two relay types are about a status that ends the life of a transfer. -/
theorem persisted_status {relayType : RelayType} (h : relayType ≠ .sendToRecv) :
    ∃ status, status.isFinished = true
      ∧ (TransferUpdate.updateTransferState status).persists = some relayType
      ∧ ∀ r : Ibcv2Transfer, r.persisted relayType = true ↔ r.status = status := by
  cases relayType with
  | sendToRecv => exact absurd rfl h
  | sendToTimeout => exact ⟨.completeWithTimeout, rfl, rfl, fun r => decide_eq_true_iff⟩
  | recvToAck => exact ⟨.completeWithAck, rfl, rfl, fun r => decide_eq_true_iff⟩

section Call

variable {pl : Pipeline} {stage : Stage} {ts : List IBCV2Transfer} {c : Call} {g : Phase}

/-- An event of a visit persists what was due. -/
theorem visit_persisted {keys : List RowKey} {t : IBCV2Transfer} {o : Option IBCV2Transfer}
    {evs past : List Event} {a : c.Answer} {r : Ibcv2Transfer}
    (hvisit : StageVisit pl keys t stage o (evs ++ ⟨c, a⟩ :: past))
    (hallows : (countProtocol stage ts).allows g c)
    (hok : c.due ≠ none → c.succeeds a = true)
    (hstays : r.status.isFinished = true → applyAll (updatesOfEvent t.rowKey ⟨c, a⟩) r = r)
    (relayType : RelayType) :
    (applyAll (updatesOfEvent t.rowKey ⟨c, a⟩) r).persisted relayType = true
      ↔ r.persisted relayType = true ∨ c.due = some (t.rowKey, relayType) := by
  have hall : updatesOfEvent t.rowKey ⟨c, a⟩ ⊆ updatesOf t.rowKey (evs ++ ⟨c, a⟩ :: past) := by
    intro u hu
    rw [updatesOf_append, updatesOf_cons]
    exact List.mem_append_left _ (List.mem_append_right _ hu)
  have hhash : ∀ hash time status, .updateTransferWriteAckTx hash time status
      ∈ updatesOfEvent t.rowKey ⟨c, a⟩ → hash.isSome = true :=
    fun hash time status hin => (visit_writeAck hvisit (hall hin)).2
  -- a write ack stays on the row; the other two types are about a final status, which stays too
  by_cases hrecv : relayType = .sendToRecv
  · subst hrecv
    have hwrites := applyAll_writeAckTxHash (updatesOfEvent t.rowKey ⟨c, a⟩) r
    refine ⟨fun hafter => ?_, ?_⟩
    · rcases hwrites with heq | ⟨time, status, hin⟩
      · refine .inl ?_
        rwa [Ibcv2Transfer.persisted, heq] at hafter
      · obtain ⟨rfl, -⟩ := visit_writeAck hvisit (hall hin)
        exact .inr (due_of_mem hallows (by rintro ⟨⟩) hin rfl)
    · rintro (hbefore | hdue)
      · rcases hwrites with heq | ⟨time, status, hin⟩
        · rwa [Ibcv2Transfer.persisted, heq]
        · exact hhash _ time status hin
      · exact persisted_of_due hdue (hok (by rw [hdue]; rintro ⟨⟩)) hhash r
  · obtain ⟨status, hfinished, hpersists, hiff⟩ := persisted_status hrecv
    refine ⟨fun hafter => ?_, ?_⟩
    · rcases applyAll_status (updatesOfEvent t.rowKey ⟨c, a⟩) r with heq | hin
      · exact .inl ((hiff r).mpr (heq.symm.trans ((hiff _).mp hafter)))
      · rw [(hiff _).mp hafter] at hin
        -- a final status is set by the finisher, which counts before
        obtain rfl := visit_finishes hvisit (hall hin) hfinished
        exact .inr (due_of_mem hallows (by rintro ⟨⟩) hin hpersists)
    · rintro (hbefore | hdue)
      · rw [hstays (by rw [(hiff r).mp hbefore]; exact hfinished)]
        exact hbefore
      · exact persisted_of_due hdue (hok (by rw [hdue]; rintro ⟨⟩)) hhash r

variable {s : System} {i : Nat} {env : Environment} {rest : List Stage}
  {k : c.Answer → Eff (List IBCV2Transfer)}

/-- **A call persists what was due.** Nothing else is won, and nothing is lost. -/
theorem call_persisted (hinv : s.Inv OpenBefore)
    (htask : s.tasks[i]? = some ⟨pl, rest, .running stage ts (.call c k)⟩)
    (hallows : (countProtocol stage ts).allows g c)
    (hok : c.due ≠ none → c.succeeds (env s.world c) = true) (key : RowKey)
    (relayType : RelayType) :
    (s.world.next c (env s.world c)).persisted key relayType = true
      ↔ s.world.persisted key relayType = true ∨ c.due = some (key, relayType) := by
  obtain ⟨hkept, hvisits⟩ := hinv.sound _ (List.mem_of_getElem? htask)
  have hstep : s.call i env = some { s with
      world := s.world.next c (env s.world c)
      tasks := s.tasks.eraseIdx i ++ [⟨pl, rest, .running stage ts (k (env s.world c))⟩] } := by
    unfold System.call
    rw [htask]
    rfl
  have hrow' := row_next s.world ⟨c, env s.world c⟩ key
  -- a row of the stage: the call belongs to a visit of its transfer
  by_cases hkey : key ∈ ts.map (·.rowKey)
  · obtain ⟨t, ht, rfl⟩ := List.mem_map.mp hkey
    obtain ⟨hway, keys, past, r₀, -, -, hprog⟩ := hvisits t ht
    obtain ⟨r, hrow⟩ := hway.row_some
    have hstays := call_status_stays hinv hstep hrow
    obtain ⟨out, evs, hvisit⟩ :=
      (hprog.resume (env s.world c)).exists_end (Sample.obliging .zero Sample.world)
    rw [hrow] at hrow'
    rw [persisted_of_row hrow', persisted_of_row hrow]
    exact visit_persisted hvisit hallows hok
      (fun hfinished => Option.some.inj (hrow'.symm.trans (hstays hfinished))) relayType
  -- a row of another transfer: nothing is due for it, and the stage leaves it alone
  · have hnot : c.due ≠ some (key, relayType) := by
      intro hdue
      obtain ⟨-, t, rfl, rfl⟩ := due_of_allows hallows hdue
      exact hkey (List.mem_singleton_self _)
    rw [or_iff_left hnot]
    have hsame : (s.world.next c (env s.world c)).row key = s.world.row key := by
      cases hrow : s.world.row key with
      | none =>
        rw [hrow] at hrow'
        exact hrow'
      | some r =>
        rw [← hrow]
        exact row_next_of_nil ((Kept.resume hkept (env s.world c)).2.frame key hkey
          (hinv.table.ne_zero hrow))
    rw [World.persisted, World.persisted, hsame]

end Call

/-! ## The system, and who was counted -/

/-- The rest of a program may still count or has to persist. -/
def Phase.awaits (stage : Stage) : Phase → RelayType → Prop
  | .ready, relayType => stage.relayType = some relayType
  | .owes relayType', relayType => relayType' = relayType
  | .over, _ => False

/-- What may still be counted or has to be persisted is not persisted. -/
def Phase.Fresh (w : World) (stage : Stage) (ts : List IBCV2Transfer) (g : Phase) : Prop :=
  ∀ relayType, g.awaits stage relayType → ∀ t ∈ ts, w.persisted t.rowKey relayType = false

/-- The stage that is at work obeys, and what it may count is not persisted. -/
def Work.Counts (w : World) : Work → Prop
  | .running stage ts prog =>
    ∃ g, (countProtocol stage ts).Obeys prog g (fun _ g' => g'.Clear) ∧ g.Fresh w stage ts
  | _ => True

/-- What is persisted by the next call. -/
def Work.due : Work → Option (RowKey × RelayType)
  | .running _ _ prog => Prog.due prog
  | _ => none

/-- What the tasks have counted and persist next. -/
def System.due (s : System) : List (RowKey × RelayType) := s.tasks.filterMap (·.work.due)

/-- The number of calls that count under a relay type. -/
def relayCount (relayType : RelayType) (log : List Event) : Nat :=
  log.countP fun e => e.call.counted = some relayType

/-- The system, with the transfers that were counted, the latest first. -/
structure Counting where
  system : System
  counts : List (RowKey × RelayType) := []

/-- The transfers of the stage, if it makes a call that counts. -/
def Call.counts (c : Call) (ts : List IBCV2Transfer) : List (RowKey × RelayType) :=
  match c.counted with
  | some relayType => ts.map (·.rowKey, relayType)
  | none => []

theorem counts_of_none {c : Call} (h : c.counted = none) (ts : List IBCV2Transfer) :
    c.counts ts = [] := by
  rw [Call.counts, h]

/-- A call that counts is about the one transfer of the stage. -/
theorem counts_of_some {c : Call} {relayType : RelayType} (h : c.counted = some relayType)
    (t : IBCV2Transfer) : c.counts [t] = [(t.rowKey, relayType)] := by
  rw [Call.counts, h]
  rfl

/-- The transfers that an action counts. -/
def System.counting (s : System) : Action → List (RowKey × RelayType)
  | .call i _ =>
    match s.tasks[i]? with
    | some ⟨_, _, .running _ ts (.call c _)⟩ => c.counts ts
    | _ => []
  | _ => []

/-- A step of the system, with the transfers that it counts. -/
def Counting.step (config : ConfigReader) (priceClient : Bool) (s : Counting) (a : Action) :
    Option Counting :=
  (s.system.step config priceClient a).map fun system => ⟨system, s.system.counting a ++ s.counts⟩

/-- Who was counted is recorded beside the system: every run of it is one that counts. -/
theorem counting_of_run {config : ConfigReader} {priceClient : Bool} {P : System → Action → Prop}
    {s s' : System} (h : System.Run config priceClient P s s')
    (counts : List (RowKey × RelayType)) :
    ∃ counts', Machine.Run (Counting.step config priceClient) (fun s a => P s.system a)
      ⟨s, counts⟩ ⟨s', counts'⟩ := by
  induction h with
  | refl => exact ⟨counts, .refl⟩
  | @tail s₁ s₂ _ hstep ih =>
    obtain ⟨counts₁, hrun⟩ := ih
    obtain ⟨a, hP, hstep⟩ := hstep
    refine ⟨s₁.counting a ++ counts₁, hrun.trans (.cons hP ?_ .refl)⟩
    rw [Counting.step, hstep]
    rfl

/-- No outdated row is pushed, no transfer that was timed out comes to the last stage, and a
statement that persists does not fail. -/
def Accurate (s : System) : Action → Prop
  | .submit answer => PushesOnly AckKnown s (.submit answer)
  | .start i => ∀ pl rest t, s.tasks[i]? = some ⟨pl, .stateFinisher :: rest, .waiting t⟩ →
      t.error = "" → t.timeoutTxHash = none
  | .call i env => ∀ pl rest stage ts c k,
      s.tasks[i]? = some ⟨pl, rest, .running stage ts (.call c k)⟩ → c.due ≠ none →
      c.succeeds (env s.world c) = true
  | _ => True

theorem Accurate.pushesOnly {s : System} {a : Action} (h : Accurate s a) :
    PushesOnly AckKnown s a := by
  cases a with
  | submit answer => exact h
  | _ => trivial

section Tasks

variable {w w' : World} {task : Task} {key : RowKey} {relayType : RelayType}

/-- What is due is about a transfer of the task, and not persisted. -/
theorem Work.Counts.of_due (h : task.work.Counts w) (hdue : task.work.due = some (key, relayType)) :
    key ∈ task.keys ∧ w.persisted key relayType = false := by
  obtain ⟨pl, rest, work⟩ := task
  cases work with
  | running stage ts prog =>
    obtain ⟨g, hobeys, hfresh⟩ := h
    cases prog with
    | done output => cases hdue
    | call c k =>
      obtain ⟨rfl, t, rfl, rfl⟩ := due_of_allows hobeys.1 hdue
      exact ⟨List.mem_singleton_self _, hfresh relayType rfl t (List.mem_singleton_self t)⟩
  | _ => cases hdue

/-- The obligations of a task do not change while nothing is persisted of its transfers. -/
theorem Work.Counts.of_persisted (h : task.work.Counts w)
    (hsame : ∀ key ∈ task.keys, ∀ relayType,
      w'.persisted key relayType = w.persisted key relayType) : task.work.Counts w' := by
  obtain ⟨pl, rest, work⟩ := task
  cases work with
  | running stage ts prog =>
    obtain ⟨g, hobeys, hfresh⟩ := h
    refine ⟨g, hobeys, fun relayType hawaits t ht => ?_⟩
    rw [hsame t.rowKey (List.mem_map_of_mem ht)]
    exact hfresh relayType hawaits t ht
  | _ => trivial

end Tasks

/-! ## The accounts -/

/-- **The invariant**: what was counted was persisted since the start, or is due. It needs the two
invariants about the rows, `AckFree` and `OpenBefore`, since a relay that was persisted before would
be counted again. -/
structure Accounts (base : World) (s : Counting) : Prop where
  ackFree : s.system.Inv AckFree
  openBefore : s.system.Inv OpenBefore
  counts : ∀ task ∈ s.system.tasks, task.work.Counts s.system.world
  kept : ∀ key relayType, base.persisted key relayType = true →
    s.system.world.persisted key relayType = true
  mem_counts : ∀ key relayType, (key, relayType) ∈ s.counts
    ↔ s.system.world.persisted key relayType = true ∧ base.persisted key relayType = false
      ∨ (key, relayType) ∈ s.system.due
  nodup : s.counts.Nodup
  total : ∀ relayType, relayCount relayType s.system.world.log
    = relayCount relayType base.log + s.counts.countP (·.2 = relayType)

/-- Nothing is counted or persisted, and what is due is still due. -/
structure Undisturbed (s s' : System) : Prop where
  persisted : ∀ key relayType, s'.world.persisted key relayType = s.world.persisted key relayType
  total : ∀ relayType, relayCount relayType s'.world.log = relayCount relayType s.world.log
  tasks : ∃ old others new, s.tasks.Perm (old ++ others) ∧ s'.tasks = others ++ new
    ∧ (∀ task ∈ old, task.work.due = none)
    ∧ ∀ task ∈ new, task.work.due = none ∧ task.work.Counts s.world

/-- What is due is with the tasks that stay as they are. -/
theorem Undisturbed.due {s s' : System} (h : Undisturbed s s') (d : RowKey × RelayType) :
    d ∈ s'.due ↔ d ∈ s.due := by
  obtain ⟨old, others, new, hperm, htasks, hold, hnew⟩ := h.tasks
  have hnone : ∀ {tasks : List Task}, (∀ task ∈ tasks, task.work.due = none) →
      tasks.filterMap (·.work.due) = [] := fun h => List.filterMap_eq_nil_iff.mpr h
  have hs : d ∈ s.due ↔ d ∈ others.filterMap (·.work.due) := by
    rw [System.due, (hperm.filterMap _).mem_iff, List.filterMap_append, hnone hold, List.nil_append]
  rw [hs, System.due, htasks, List.filterMap_append, hnone fun task ht => (hnew task ht).1,
    List.append_nil]

/-- Such a step keeps the accounts, without a new entry. -/
theorem Undisturbed.accounts {base : World} {s : Counting} {s' : System}
    (h : Undisturbed s.system s') (hinv : Accounts base s) (hack : s'.Inv AckFree)
    (hopen : s'.Inv OpenBefore) : Accounts base ⟨s', s.counts⟩ := by
  refine ⟨hack, hopen, ?_, ?_, ?_, hinv.nodup, ?_⟩
  · obtain ⟨old, others, new, hperm, htasks, -, hnew⟩ := h.tasks
    intro task htask
    have hcounts : task.work.Counts s.system.world := by
      rcases List.mem_append.mp (htasks ▸ htask) with hin | hin
      · exact hinv.counts task (hperm.symm.subset (List.mem_append_right _ hin))
      · exact (hnew task hin).2
    exact hcounts.of_persisted fun key _ => h.persisted key
  · intro key relayType hbase
    exact (h.persisted key relayType).trans (hinv.kept key relayType hbase)
  · intro key relayType
    rw [h.due, h.persisted]
    exact hinv.mem_counts key relayType
  · exact fun relayType => (h.total relayType).trans (hinv.total relayType)

/-! ### The steps that make no call of a stage -/

section Steps

variable {config : ConfigReader} {priceClient : Bool} {s s' : System} {i : Nat}

theorem persisted_of_rows {w w' : World} (h : ∀ key, w'.row key = w.row key) (key : RowKey)
    (relayType : RelayType) : w'.persisted key relayType = w.persisted key relayType := by
  rw [World.persisted, h key, World.persisted]

/-- Nothing is persisted of an open row but its write ack. -/
theorem persisted_open {r : Ibcv2Transfer} (hopen : r.status.isFinished = false)
    {relayType : RelayType} (hack : relayType = .sendToRecv → r.writeAckTxHash = none) :
    r.persisted relayType = false := by
  cases relayType with
  | sendToRecv => rw [Ibcv2Transfer.persisted, hack rfl, Option.isSome_none]
  | _ =>
    refine decide_eq_false fun heq => ?_
    rw [heq] at hopen
    cases hopen

/-- A row that `Relay` adds is that of an open packet. -/
theorem relay_persisted (htable : Table s.world.transfers) (chainID txHash : String)
    (packets : List (PacketInfo × Int32)) (key : RowKey) (relayType : RelayType) :
    World.persisted { s.world with
        transfers := RelayerAPIService.relay config chainID txHash packets s.world.transfers }
      key relayType = s.world.persisted key relayType := by
  set rows := RelayerAPIService.relay config chainID txHash packets s.world.transfers with hrows
  obtain ⟨-, added, hadded⟩ := relay_table config chainID txHash packets htable
  cases hrow : s.world.row key with
  | some r =>
    have hrow' : row rows key = some r := by
      rw [hrows, ← hadded]
      exact row_append hrow
    rw [persisted_of_row hrow, persisted_of_row (w := { s.world with transfers := rows }) hrow']
  | none =>
    rw [World.persisted, World.persisted, hrow]
    change (row rows key).any _ = _
    cases hrow' : row rows key with
    | none => rfl
    | some r =>
      -- the row of the packet was not there, so it is new
      rcases relay_rows (List.mem_of_find?_eq_some hrow') with hin | ⟨arg, id, rfl⟩
      · have hrow'' := htable.row_of_mem hin
        rw [key_of_row hrow'] at hrow''
        cases hrow.symm.trans hrow''
      · exact persisted_open rfl fun _ => rfl

/-- A row is marked that is not finished. -/
theorem mark_persisted (hinv : s.Inv OpenBefore) {r : Ibcv2Transfer} (hr : r ∈ s.snapshot)
    (hnone : ∀ d ∈ s.pipelines, d.pipeline.route ≠ newPipelineKey (newIBCV2Transfer r))
    (answer : Except GoError Unit) (key : RowKey) (relayType : RelayType) :
    (s.world.next (.update (.updateTransferState .failed) r.key) answer).persisted key relayType
      = s.world.persisted key relayType := by
  have hrow' := row_next s.world ⟨.update (.updateTransferState .failed) r.key, answer⟩ key
  cases hrow : s.world.row key with
  | none =>
    rw [hrow] at hrow'
    rw [World.persisted, hrow', World.persisted, hrow]
    rfl
  | some r' =>
    rw [hrow] at hrow'
    rw [persisted_of_row hrow', persisted_of_row hrow]
    cases answer with
    | error err => rfl
    | ok _ =>
      -- the row is open, and stays without a relay that was persisted
      by_cases hkey : r.key = key
      · subst hkey
        have hopen := hinv.unfinished r hr hnone r' hrow
        rw [show updatesOfEvent r.key ⟨.update (.updateTransferState .failed) r.key, .ok ()⟩
          = [.updateTransferState .failed] from if_pos rfl]
        cases relayType with
        | sendToRecv => rfl
        | _ => exact (persisted_open hopen (by rintro ⟨⟩)).symm
      · rw [show updatesOfEvent key ⟨.update (.updateTransferState .failed) r.key, .ok ()⟩
          = [] from if_neg hkey]
        rfl

theorem Undisturbed.of_world {others old new : List Task} (hworld : s'.world = s.world)
    (hperm : s.tasks.Perm (old ++ others)) (htasks : s'.tasks = others ++ new)
    (hold : ∀ task ∈ old, task.work.due = none)
    (hnew : ∀ task ∈ new, task.work.due = none ∧ task.work.Counts s.world) : Undisturbed s s' where
  persisted _ _ := by rw [hworld]
  total _ := by rw [hworld]
  tasks := ⟨old, others, new, hperm, htasks, hold, hnew⟩

theorem Undisturbed.of_tasks (htasks : s'.tasks = s.tasks)
    (hpersisted : ∀ key relayType,
      s'.world.persisted key relayType = s.world.persisted key relayType)
    (htotal : ∀ relayType, relayCount relayType s'.world.log = relayCount relayType s.world.log) :
    Undisturbed s s' :=
  ⟨hpersisted, htotal, [], s.tasks, [], .refl _, htasks.trans (List.append_nil _).symm, by simp,
    by simp⟩

/-- The dispatcher adds a task that waits, drops a row, or marks an open row as failed. -/
theorem submit_undisturbed (hinv : s.Inv OpenBefore) {answer : Except GoError Unit}
    (hstep : s.submit config priceClient answer = some s') : Undisturbed s s' := by
  obtain ⟨r, rest, hsnapshot, ⟨d, ds, -, -, -, -, rfl⟩ | rfl | ⟨hnone, rfl⟩⟩ :=
    System.submit_inv hstep
  · refine ⟨fun _ _ => rfl, fun _ => rfl, [], s.tasks, _, .refl _, rfl, by simp, fun task hin => ?_⟩
    rw [List.mem_singleton.mp hin]
    exact ⟨rfl, trivial⟩
  · exact .of_tasks rfl (fun _ _ => rfl) fun _ => rfl
  · exact .of_tasks rfl (mark_persisted hinv (hsnapshot ▸ List.mem_cons_self) hnone answer)
      fun _ => rfl

/-- The batch router asks the guard of a stage, and moves transfers between tasks that wait. -/
theorem route_undisturbed {env : Environment} {j : Option Nat}
    (hstep : s.route i env j = some s') : Undisturbed s s' := by
  obtain ⟨pl, stage, rest, t, q, wanted, world, htask, hq, hrun, hend⟩ := System.route_inv hstep
  obtain ⟨evs, -, hsilent, hworld⟩ := routeToBatch_run hq hrun
  have hpersisted : ∀ key relayType,
      world.persisted key relayType = s.world.persisted key relayType := by
    refine persisted_of_rows fun key => ?_
    rw [hworld]
    exact row_after_of_nil (hsilent key)
  have hcount : ∀ relayType, relayCount relayType world.log = relayCount relayType s.world.log := by
    intro relayType
    obtain ⟨evs', hplain, hlog, -⟩ :=
      execute_of_ensures (routeToBatch_plain hq t).ensures env s.world
    rw [hrun] at hlog
    dsimp only at hlog
    rw [hlog, World.after_log, relayCount, List.countP_append, List.countP_eq_zero.mpr,
      Nat.zero_add, relayCount]
    intro e he
    rw [(hplain e he).counted]
    rintro ⟨⟩
  have hperm := perm_cons_eraseIdx htask
  -- no stage is at work with the transfers before or after
  rcases hend with ⟨-, rfl⟩ | ⟨-, rfl⟩ | ⟨-, j, ts, hbatch, rfl⟩
  · exact ⟨hpersisted, hcount, _, _, _, hperm, rfl, by simp [Work.due],
      by simp [Work.due, Work.Counts]⟩
  · exact ⟨hpersisted, hcount, _, _, _, hperm, rfl, by simp [Work.due],
      by simp [Work.due, Work.Counts]⟩
  · have hperm' := hperm.trans ((perm_cons_eraseIdx hbatch).append_left _)
    rw [← List.append_assoc] at hperm'
    exact ⟨hpersisted, hcount, _, _, _, hperm', rfl, by simp [Work.due],
      by simp [Work.due, Work.Counts]⟩

/-- What a stage that is about to start may count is not persisted. -/
theorem start_counts (hack : s.Inv AckFree) (hopen : s.Inv OpenBefore) {task task' : Task}
    (htask : s.tasks[i]? = some task) (hstep : task.start = some task')
    (haccurate : Accurate s (.start i)) :
    task'.work.due = none ∧ task'.work.Counts s.world := by
  have hmem := List.mem_of_getElem? htask
  rcases System.start_inv hstep with ⟨pl, stage, rest, t, rfl, hsingle, rfl⟩
    | ⟨pl, stage, rest, ts, q, rfl, hq, rfl⟩
  · obtain ⟨g, hobeys, hg⟩ := runAlone_counts (t := t) hsingle fun hstage => by
      subst hstage
      exact haccurate pl rest t htask
    have hwaits : Waits OpenBefore s.world pl (stage :: rest) t := hopen.sound _ hmem
    have hwaits' : Waits AckFree s.world pl (stage :: rest) t := hack.sound _ hmem
    obtain ⟨r, hrow⟩ := hwaits.toOnWay.row_some
    have hclear : g.Clear := by
      rcases hg with rfl | ⟨rfl, -⟩ | ⟨rfl, -⟩
      · exact clear_over
      · exact clear_ready
      · exact clear_ready
    refine ⟨due_none_of_clear hobeys hclear, g, hobeys, fun relayType hawaits t' ht' => ?_⟩
    rw [show t' = t from List.mem_singleton.mp ht', persisted_of_row hrow]
    refine persisted_open (hwaits.good r hrow (by simp)) ?_
    rintro rfl
    -- the stage does not count, or is the finisher, or waits for a write ack that is not there
    rcases hg with rfl | ⟨rfl, rfl⟩ | ⟨rfl, rfl, herror, hnone⟩
    · exact hawaits.elim
    · cases hawaits
    · exact hwaits'.good r hrow herror hnone
  · have hobeys := runBatch_counts hq ts
    exact ⟨due_none_of_clear hobeys clear_over, .over, hobeys, fun _ hawaits => hawaits.elim⟩

/-- A stage that starts owes nothing yet. -/
theorem start_undisturbed (hack : s.Inv AckFree) (hopen : s.Inv OpenBefore)
    (haccurate : Accurate s (.start i)) (hstep : s.step config priceClient (.start i) = some s') :
    Undisturbed s s' := by
  obtain ⟨task, task', htask, htask', rfl⟩ := System.step_start_inv hstep
  have hnew := start_counts hack hopen htask htask' haccurate
  refine .of_world rfl (perm_cons_eraseIdx htask) rfl (fun task'' hin => ?_) fun task'' hin => ?_
  · rw [List.mem_singleton.mp hin]
    rcases System.start_inv htask' with ⟨pl, stage, rest, t, rfl, -⟩
      | ⟨pl, stage, rest, ts, q, rfl, -⟩
    · rfl
    · rfl
  · rw [List.mem_singleton.mp hin]
    exact hnew

/-- **A step that is not a call of a stage counts and persists nothing.** -/
theorem step_undisturbed (hack : s.Inv AckFree) (hopen : s.Inv OpenBefore) {a : Action}
    (hcall : ∀ i env, a ≠ .call i env) (haccurate : Accurate s a)
    (hstep : s.step config priceClient a = some s') : Undisturbed s s' := by
  cases a with
  | relay chainID txHash packets =>
    cases hstep
    exact .of_tasks rfl (relay_persisted hopen.table chainID txHash packets) fun _ => rfl
  | poll =>
    obtain ⟨-, rfl⟩ := System.poll_inv hstep
    exact .of_tasks rfl (fun _ _ => rfl) fun _ => rfl
  | submit answer => exact submit_undisturbed hopen hstep
  | route i env j => exact route_undisturbed hstep
  | start i => exact start_undisturbed hack hopen haccurate hstep
  | call i env => exact absurd rfl (hcall i env)
  -- a stage that has returned owes nothing, and nor do the tasks that wait
  | finish i =>
    obtain ⟨pl, rest, stage, ts, output, htask, rfl⟩ := System.finish_inv hstep
    refine .of_world rfl (perm_cons_eraseIdx htask) rfl (by simp [Work.due, Prog.due]) ?_
    intro task hin
    obtain ⟨t, -, rfl⟩ := List.mem_map.mp hin
    exact ⟨rfl, trivial⟩
  | watch i =>
    obtain ⟨pl, t, htask, rfl⟩ := System.watch_inv hstep
    exact .of_world rfl (perm_cons_eraseIdx htask) rfl (by simp [Work.due]) (by simp)

end Steps

/-! ### The calls of the stages -/

section Calls

variable {base : World} {s : Counting} {i : Nat} {env : Environment} {pl : Pipeline}
  {rest : List Stage} {stage : Stage} {ts : List IBCV2Transfer} {c : Call}
  {k : c.Answer → Eff (List IBCV2Transfer)}

/-- What is due before a call and after it. -/
theorem mem_due_call {sys : System}
    (htask : sys.tasks[i]? = some ⟨pl, rest, .running stage ts (.call c k)⟩)
    (d : RowKey × RelayType) :
    d ∈ sys.due ↔ c.due = some d ∨ ∃ task ∈ sys.tasks.eraseIdx i, task.work.due = some d := by
  rw [System.due, List.mem_filterMap]
  constructor
  · rintro ⟨task, hin, hdue⟩
    rcases List.mem_cons.mp ((perm_cons_eraseIdx htask).subset hin) with rfl | hin
    · exact .inl hdue
    · exact .inr ⟨task, hin, hdue⟩
  · rintro (hdue | ⟨task, hin, hdue⟩)
    · exact ⟨_, List.mem_of_getElem? htask, hdue⟩
    · exact ⟨task, List.mem_of_mem_eraseIdx hin, hdue⟩

/-- The other tasks have other transfers. -/
theorem not_mem_other_keys {Good : List Stage → IBCV2Transfer → Ibcv2Transfer → Prop} {sys : System}
    (hinv : sys.Inv Good) {task task' : Task} (htask : sys.tasks[i]? = some task)
    (hin : task' ∈ sys.tasks.eraseIdx i) {key : RowKey} (hkey : key ∈ task.keys) :
    key ∉ task'.keys := by
  intro hkey'
  have hapart := ((perm_cons_eraseIdx htask).flatMap_right Task.keys).nodup_iff.mp hinv.apart
  rw [List.flatMap_append, List.nodup_append] at hapart
  exact hapart.2.2 key (by simpa using hkey) key (List.mem_flatMap.mpr ⟨task', hin, hkey'⟩) rfl

/-- What is due before a call is not persisted, and was not at the start. -/
theorem Accounts.base_of_due (h : Accounts base s) {task : Task} (hin : task ∈ s.system.tasks)
    {key : RowKey} {relayType : RelayType} (hdue : task.work.due = some (key, relayType)) :
    base.persisted key relayType = false := by
  have hnot := ((h.counts task hin).of_due hdue).2
  cases hbase : base.persisted key relayType with
  | false => rfl
  | true => exact absurd (h.kept key relayType hbase) (by rw [hnot]; exact Bool.false_ne_true)

section Next

variable {g : Phase} (h : Accounts base s)
  (htask : s.system.tasks[i]? = some ⟨pl, rest, .running stage ts (.call c k)⟩)
  (hobeys : (countProtocol stage ts).Obeys (.call c k) g fun _ g' => g'.Clear)

include h htask hobeys

/-- What the call counts is new. -/
theorem call_counts_nodup (hfresh : g.Fresh s.system.world stage ts) :
    (c.counts ts ++ s.counts).Nodup := by
  cases hcounted : c.counted with
  | none =>
    rw [counts_of_none hcounted]
    exact h.nodup
  | some relayType =>
    obtain ⟨rfl, hstage, ⟨t, rfl⟩, hdue, -⟩ := counted_of_allows hobeys.1 hcounted
    rw [counts_of_some hcounted, List.singleton_append]
    refine List.nodup_cons.mpr ⟨?_, h.nodup⟩
    rw [h.mem_counts, mem_due_call htask, hdue]
    have ht : t ∈ [t] := List.mem_singleton_self t
    -- it is not persisted, nor due by this task or by another one
    rintro (⟨hpersisted, -⟩ | hnone | ⟨task, hin, hdue'⟩)
    · rw [hfresh relayType hstage t ht] at hpersisted
      cases hpersisted
    · cases hnone
    · refine not_mem_other_keys h.openBefore htask hin (List.mem_map_of_mem ht) ?_
      exact ((h.counts task (List.mem_of_mem_eraseIdx hin)).of_due hdue').1

omit htask

/-- The counter goes up with the number of transfers that were counted. -/
theorem call_total (answer : c.Answer) (relayType : RelayType) :
    relayCount relayType (s.system.world.next c answer).log
      = relayCount relayType base.log + (c.counts ts ++ s.counts).countP (·.2 = relayType) := by
  have htotal := h.total relayType
  unfold relayCount at htotal ⊢
  rw [World.next_log, List.countP_cons, List.countP_append, htotal]
  cases hcounted : c.counted with
  | none => simp [counts_of_none hcounted]
  | some relayType' =>
    obtain ⟨-, -, ⟨t, rfl⟩, -, -⟩ := counted_of_allows hobeys.1 hcounted
    rw [counts_of_some hcounted, List.countP_singleton]
    simp only [decide_eq_true_eq, Option.some.injEq]
    omega

include htask

variable (hok : c.due ≠ none → c.succeeds (env s.system.world c) = true)

include hok

/-- A call of one task persists nothing of the transfers of another. -/
theorem call_others_count {task : Task} (hin : task ∈ s.system.tasks.eraseIdx i) :
    task.work.Counts (s.system.world.next c (env s.system.world c)) := by
  have hcounts := h.counts task (List.mem_of_mem_eraseIdx hin)
  refine hcounts.of_persisted fun key hkey relayType => ?_
  rw [Bool.eq_iff_iff, call_persisted h.openBefore htask hobeys.1 hok, or_iff_left]
  -- what the call persists is of the transfer of its own task
  intro hdue
  obtain ⟨-, t, rfl, rfl⟩ := due_of_allows hobeys.1 hdue
  exact not_mem_other_keys h.openBefore htask hin (List.mem_singleton_self _) hkey

/-- The task that makes the call goes on with what was not persisted before. -/
theorem call_task_counts (hfresh : g.Fresh s.system.world stage ts) :
    (Work.running stage ts (k (env s.system.world c))).Counts
      (s.system.world.next c (env s.system.world c)) := by
  refine ⟨_, hobeys.2 (env s.system.world c), fun relayType hawaits t ht => ?_⟩
  -- only a call that persists changes what is persisted, and then the stage is over
  have hnot : c.due = none := by
    cases hdue : c.due with
    | none => rfl
    | some due =>
      rw [next_due hdue] at hawaits
      exact hawaits.elim
  have hsame : (s.system.world.next c (env s.system.world c)).persisted t.rowKey relayType
      = s.system.world.persisted t.rowKey relayType := by
    rw [Bool.eq_iff_iff, call_persisted h.openBefore htask hobeys.1 hok, hnot]
    simp
  rw [hsame]
  refine hfresh relayType ?_ t ht
  cases hcounted : c.counted with
  | none => rwa [next_same hnot hcounted] at hawaits
  | some relayType' =>
    obtain ⟨rfl, hstage, -, -, hnext⟩ := counted_of_allows hobeys.1 hcounted
    rw [hnext] at hawaits
    cases hawaits
    exact hstage

/-- What was counted is persisted or due, after the call as before: what was due is persisted now,
what is counted is due now. -/
theorem call_mem_counts (key : RowKey) (relayType : RelayType) :
    (key, relayType) ∈ c.counts ts ++ s.counts
      ↔ (s.system.world.next c (env s.system.world c)).persisted key relayType = true
          ∧ base.persisted key relayType = false
        ∨ (∃ task ∈ s.system.tasks.eraseIdx i, task.work.due = some (key, relayType))
        ∨ Prog.due (k (env s.system.world c)) = some (key, relayType) := by
  have hbase : c.due = some (key, relayType) → base.persisted key relayType = false :=
    fun hdue => h.base_of_due (List.mem_of_getElem? htask) hdue
  rw [List.mem_append, h.mem_counts, mem_due_call htask,
    call_persisted h.openBefore htask hobeys.1 hok]
  have hrest := hobeys.2 (env s.system.world c)
  cases hcounted : c.counted with
  | none =>
    -- what was due is persisted
    rw [counts_of_none hcounted, due_none_of_clear hrest (next_clear hobeys.1 hcounted _)]
    simp only [List.not_mem_nil, false_or, reduceCtorEq, or_false]
    tauto
  | some relayType' =>
    -- what is counted is due
    obtain ⟨-, -, ⟨t, rfl⟩, hnone, hnext⟩ := counted_of_allows hobeys.1 hcounted
    rw [hnext] at hrest
    obtain ⟨_, ⟨⟩, hdue⟩ := due_of_owes hrest
    rw [counts_of_some hcounted, hdue, hnone, List.mem_singleton, Option.some_inj,
      eq_comm (a := (key, relayType))]
    simp only [reduceCtorEq, false_or, or_false]
    rw [or_comm, or_assoc]

end Next

/-- **A call keeps the accounts.** -/
theorem Accounts.call (h : Accounts base s) (haccurate : Accurate s.system (.call i env))
    {sys : System} (hstep : s.system.call i env = some sys) :
    Accounts base ⟨sys, s.system.counting (.call i env) ++ s.counts⟩ := by
  have hack := h.ackFree.call hstep
  have hopen := h.openBefore.call hstep
  obtain ⟨pl, rest, stage, ts, c, k, htask, rfl⟩ := System.call_inv hstep
  obtain ⟨g, hobeys, hfresh⟩ := h.counts _ (List.mem_of_getElem? htask)
  have hok := haccurate pl rest stage ts c k htask
  rw [show s.system.counting (.call i env) = c.counts ts by rw [System.counting, htask]]
  refine ⟨hack, hopen, ?_, ?_, ?_, call_counts_nodup h htask hobeys hfresh,
    call_total h hobeys (env s.system.world c)⟩
  · intro task hin
    rcases List.mem_append.mp hin with hin | hin
    · exact call_others_count h htask hobeys hok hin
    · rw [List.mem_singleton.mp hin]
      exact call_task_counts h htask hobeys hok hfresh
  · intro key relayType hbase
    rw [call_persisted h.openBefore htask hobeys.1 hok]
    exact .inl (h.kept key relayType hbase)
  · intro key relayType
    rw [call_mem_counts h htask hobeys hok, System.due, List.filterMap_append, List.mem_append,
      List.mem_filterMap, List.mem_filterMap]
    simp [Work.due]

end Calls

/-! ## Runs -/

/-- Every step keeps the accounts. -/
theorem step_accounts {config : ConfigReader} {priceClient : Bool} {base : World} {s s' : Counting}
    {a : Action} (h : Accounts base s) (haccurate : Accurate s.system a)
    (hstep : s.step config priceClient a = some s') : Accounts base s' := by
  obtain ⟨sys, hsys, rfl⟩ := Option.map_eq_some_iff.mp hstep
  by_cases hcall : ∃ i env, a = .call i env
  · obtain ⟨i, env, rfl⟩ := hcall
    exact h.call haccurate hsys
  · have hnot : ∀ i env, a ≠ .call i env := fun i env heq => hcall ⟨i, env, heq⟩
    have hnone : s.system.counting a = [] := by
      cases a with
      | call i env => exact absurd rfl (hnot i env)
      | _ => rfl
    rw [hnone]
    refine (step_undisturbed h.ackFree h.openBefore hnot haccurate hsys).accounts h ?_ ?_
    · exact step_inv keeps_ackFree (fun _ _ _ hknown _ => hknown.1) h.ackFree haccurate.pushesOnly
        hsys
    · exact step_inv keeps_openBefore (fun _ _ _ hknown _ => hknown.2) h.openBefore
        haccurate.pushesOnly hsys

/-- At the start nothing was counted and nothing is due. -/
theorem System.Started.accounts {s : System} (h : s.Started) : Accounts s.world ⟨s, []⟩ where
  ackFree := h.inv
  openBefore := h.inv
  counts := by simp [h.tasks]
  kept _ _ hbase := hbase
  mem_counts := by simp [System.due, h.tasks]
  nodup := List.nodup_nil
  total _ := rfl

/-- The rows for which a relay was persisted since the start. -/
def World.persistedSince (w base : World) (relayType : RelayType) : List Ibcv2Transfer :=
  w.transfers.filter fun r => r.persisted relayType && !base.persisted r.key relayType

section Number

variable {base w : World} {s : Counting}

/-- The keys of these rows, by what is persisted now and what was at the start. -/
theorem mem_persistedSince (htable : Table w.transfers) (key : RowKey) (relayType : RelayType) :
    key ∈ (w.persistedSince base relayType).map (·.key)
      ↔ w.persisted key relayType = true ∧ base.persisted key relayType = false := by
  simp only [World.persistedSince, List.mem_map, List.mem_filter, Bool.and_eq_true,
    Bool.not_eq_true']
  constructor
  · rintro ⟨r, ⟨hr, hpersisted, hbase⟩, rfl⟩
    rw [persisted_of_row (htable.row_of_mem hr)]
    exact ⟨hpersisted, hbase⟩
  · rintro ⟨hpersisted, hbase⟩
    obtain ⟨r, hrow, hpersisted⟩ := (Option.any_eq_true _ _).mp hpersisted
    have hkey : r.key = key := key_of_row hrow
    exact ⟨r, ⟨List.mem_of_find?_eq_some hrow, hpersisted, hkey ▸ hbase⟩, hkey⟩

/-- What is due is due once: the transfers of the tasks are apart. -/
theorem Accounts.due_nodup (h : Accounts base s) : s.system.due.Nodup := by
  have hapart := (List.nodup_flatMap.mp h.openBefore.apart).2
  refine List.pairwise_filterMap.mpr (hapart.imp_of_mem fun {task task'} hin hin' hdisjoint => ?_)
  rintro ⟨key, relayType⟩ hdue _ hdue' rfl
  exact hdisjoint ((h.counts task hin).of_due hdue).1 ((h.counts task' hin').of_due hdue').1

/-- What was counted under a relay type is what was persisted since the start, and what is due. Both
sides are without repetition, so it is enough to compare their members. -/
theorem Accounts.perm (h : Accounts base s) (relayType : RelayType) :
    (s.counts.filter (·.2 = relayType)).Perm
      (((s.system.world.persistedSince base relayType).map (·.key)).map (·, relayType)
        ++ s.system.due.filter (·.2 = relayType)) := by
  have htable := h.openBefore.table
  refine (List.perm_ext_iff_of_nodup (h.nodup.filter _) ?_).mpr ?_
  · refine List.nodup_append.mpr ⟨?_, h.due_nodup.filter _, ?_⟩
    · refine (htable.unique.sublist (List.filter_sublist.map _)).map fun key key' heq => ?_
      exact (Prod.mk.inj heq).1
    · -- what is due is not persisted
      rintro _ hin d hdue rfl
      obtain ⟨key, hkey, rfl⟩ := List.mem_map.mp hin
      obtain ⟨task, htask, hdue⟩ := List.mem_filterMap.mp (List.mem_filter.mp hdue).1
      have hpersisted := ((mem_persistedSince htable key relayType).mp hkey).1
      rw [((h.counts task htask).of_due hdue).2] at hpersisted
      cases hpersisted
  · rintro ⟨key, relayType'⟩
    rw [List.mem_filter, List.mem_append, List.mem_filter, h.mem_counts, List.mem_map]
    simp only [mem_persistedSince htable, decide_eq_true_eq, Prod.mk.injEq]
    constructor
    · rintro ⟨hpersisted | hdue, rfl⟩
      · exact .inl ⟨key, hpersisted, rfl, rfl⟩
      · exact .inr ⟨hdue, rfl⟩
    · rintro (⟨_, hpersisted, rfl, rfl⟩ | ⟨hdue, rfl⟩)
      · exact ⟨.inl hpersisted, rfl⟩
      · exact ⟨.inr hdue, rfl⟩

/-- The number of transfers that were counted under a relay type. -/
theorem Accounts.counted (h : Accounts base s) (relayType : RelayType) :
    s.counts.countP (·.2 = relayType)
      = (s.system.world.persistedSince base relayType).length
        + s.system.due.countP (·.2 = relayType) := by
  have hlength := (h.perm relayType).length_eq
  rw [List.length_append, List.length_map, List.length_map] at hlength
  rw [List.countP_eq_length_filter, List.countP_eq_length_filter]
  exact hlength

end Number

/-- **The counters count completions.** In a run in which no outdated row is pushed, no transfer
that was timed out comes to the last stage and no statement that persists fails, each transfer is
counted at most once under a relay type, and the number of transfers that were counted is the number
of those for which the relay was persisted and those for which the statement is the next call. -/
theorem relays_counted {config : ConfigReader} {priceClient : Bool} {s₀ : System} {s : Counting}
    (hstart : s₀.Started)
    (hrun : Machine.Run (Counting.step config priceClient) (fun s a => Accurate s.system a)
      ⟨s₀, []⟩ s) :
    s.counts.Nodup ∧ ∀ relayType,
      relayCount relayType s.system.world.log
          = relayCount relayType s₀.world.log + s.counts.countP (·.2 = relayType)
        ∧ s.counts.countP (·.2 = relayType)
          = (s.system.world.persistedSince s₀.world relayType).length
            + s.system.due.countP (·.2 = relayType) := by
  have h : Accounts s₀.world s :=
    hrun.inv hstart.accounts fun h haccurate hstep => step_accounts h haccurate hstep
  exact ⟨h.nodup, fun relayType => ⟨h.total relayType, h.counted relayType⟩⟩

namespace Sample

/-- A check of `Accurate`. -/
def accurate (s : Counting) : Action → Bool
  | .submit answer => pushes (fun polled current =>
      (polled.writeAckTxHash.isSome || current.writeAckTxHash.isNone) && !current.status.isFinished)
      s.system (.submit answer)
  | .start i => s.system.tasks[i]?.all fun task =>
      match task.work with
      | .waiting t => t.timeoutTxHash.isNone
      | _ => true
  | .call i env => s.system.tasks[i]?.all fun task =>
      match task.work with
      | .running _ _ (.call c _) => c.due.isNone || c.succeeds (env s.system.world c)
      | _ => true
  | _ => true

/-- The check implies `Accurate`. -/
theorem accurate_spec (s : Counting) (a : Action) (h : accurate s a = true) :
    Accurate s.system a := by
  cases a with
  | submit answer =>
    refine pushesOnly (fun r r' hfresh => ?_) s.system (.submit answer) h
    obtain ⟨hack, hopen⟩ := Bool.and_eq_true_iff.mp hfresh
    refine ⟨fun hnone => ?_, by simpa using hopen⟩
    simpa [hnone] using hack
  | start i =>
    intro pl rest t htask _
    rw [accurate, htask] at h
    exact Option.isNone_iff_eq_none.mp h
  | call i env =>
    intro pl rest stage ts c k htask hdue
    rw [accurate, htask] at h
    rcases Bool.or_eq_true_iff.mp h with hnone | hok
    · exact absurd (Option.isNone_iff_eq_none.mp hnone) hdue
    · exact hok
  | _ => trivial

/-- The number of calls that count and of rows for which the relay was persisted, when nothing is
due. -/
def numbers (relayType : RelayType) (calls rows : Nat) (s : Counting) : Bool :=
  s.system.due.isEmpty && relayCount relayType s.system.world.log = calls
    && (s.system.world.persistedSince idle.world relayType).length = rows

end Sample

/-- `relays_counted` after a pass that relays the packet and its ack. -/
theorem relays_counted_acked :
    ∃ s, Machine.Run (Counting.step Sample.config false) (fun s a => Accurate s.system a)
        ⟨Sample.idle, []⟩ s
      ∧ Sample.numbers .sendToRecv 1 1 s = true ∧ Sample.numbers .recvToAck 1 1 s = true
      ∧ s.counts.Nodup ∧ ∀ relayType,
        relayCount relayType s.system.world.log
            = relayCount relayType Sample.idle.world.log + s.counts.countP (·.2 = relayType)
          ∧ s.counts.countP (·.2 = relayType)
            = (s.system.world.persistedSince Sample.idle.world relayType).length
              + s.system.due.countP (·.2 = relayType) := by
  have hscript : (Machine.script (Counting.step Sample.config false) Sample.accurate
      ⟨Sample.idle, []⟩ (Sample.polledTwice ++ Sample.completePass)).any (fun s =>
        Sample.numbers .sendToRecv 1 1 s && Sample.numbers .recvToAck 1 1 s) = true := by
    decide +kernel
  obtain ⟨s, hs, h⟩ := (Option.any_eq_true _ _).mp hscript
  obtain ⟨hrecv, hack⟩ := Bool.and_eq_true_iff.mp h
  have hrun := Machine.run_of_script Sample.accurate_spec hs
  exact ⟨s, hrun, hrecv, hack, relays_counted Sample.started hrun⟩

namespace Sample

/-- A pass of a packet that is timed out. -/
def timedOutPass : List Action :=
  let env := obliging { unixNano := 2000 }
  work env 3 ++ work env 3 ++ work env 5 ++ work env 4 ++ [.route 0 env none] ++ work env 11
    ++ work env 3 ++ [.route 0 env none] ++ work env 0 ++ work env 0 ++ work env 0 ++ work env 0
    ++ [.route 0 env none] ++ work env 0 ++ work env 2

/-- As `obliging`, but the final status cannot be saved. -/
def unsaved : Environment := fun w c =>
  match c with
  | .update (.updateTransferState .completeWithAck) _ => .error (.new "connection reset")
  | c => obliging .zero w c

/-- A stage's call is answered by another environment. -/
def answeredBy (env : Environment) : Action → Action
  | .call i _ => .call i env
  | a => a

/-- The system after some actions, from the empty table. -/
def counting (as : List Action) : Option Counting :=
  Machine.script (Counting.step config false) (fun _ _ => true) ⟨idle, []⟩ as

theorem run_of_counting {as : List Action} {s : Counting} (h : counting as = some s) :
    Machine.Run (Counting.step config false) (fun _ _ => True) ⟨idle, []⟩ s :=
  Machine.run_of_script (fun _ _ _ => trivial) h

end Sample

/-- A timeout is counted as a recv: the transfer is persisted as timed out, the counter of timeouts
is 0, and that of recvs is 1 with no write ack. A completion that cannot be saved is counted, and
when an outdated row is pushed, a transfer is counted twice. -/
theorem relays_miscounted :
    (∃ s, Machine.Run (Counting.step Sample.config false) (fun _ _ => True) ⟨Sample.idle, []⟩ s
      ∧ Sample.numbers .sendToTimeout 0 1 s = true ∧ Sample.numbers .sendToRecv 1 0 s = true)
    ∧ (∃ s, Machine.Run (Counting.step Sample.config false) (fun _ _ => True) ⟨Sample.idle, []⟩ s
      ∧ Sample.numbers .recvToAck 1 0 s = true)
    ∧ ∃ s, Machine.Run (Counting.step Sample.config false) (fun _ _ => True) ⟨Sample.idle, []⟩ s
      ∧ ¬s.counts.Nodup := by
  have htimedOut : (Sample.counting (Sample.polledTwice ++ Sample.timedOutPass)).any (fun s =>
      Sample.numbers .sendToTimeout 0 1 s && Sample.numbers .sendToRecv 1 0 s) = true := by
    decide +kernel
  have hunsaved : (Sample.counting (Sample.polledTwice
      ++ Sample.completePass.map (Sample.answeredBy Sample.unsaved))).any
      (Sample.numbers .recvToAck 1 0) = true := by decide +kernel
  have htwice : (Sample.counting (Sample.polledTwice ++ Sample.completePass
      ++ [.watch 0, .submit (.ok ())] ++ Sample.completePass)).any (fun s => ¬s.counts.Nodup)
      = true := by decide +kernel
  -- the three runs are computed
  refine ⟨?_, ?_, ?_⟩
  · obtain ⟨s, hs, h⟩ := (Option.any_eq_true _ _).mp htimedOut
    exact ⟨s, Sample.run_of_counting hs, Bool.and_eq_true_iff.mp h⟩
  · obtain ⟨s, hs, h⟩ := (Option.any_eq_true _ _).mp hunsaved
    exact ⟨s, Sample.run_of_counting hs, h⟩
  · obtain ⟨s, hs, h⟩ := (Option.any_eq_true _ _).mp htwice
    exact ⟨s, Sample.run_of_counting hs, of_decide_eq_true h⟩

end IbcRelayer
