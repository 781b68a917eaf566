import IbcRelayer.Pipeline

/-!
# IbcRelayer — what the events of a program say

A program is specified by the events it leaves behind (`Prog.Ensures`). This module reads off a
list of events what it does to a row, and sets up the rules by which the processors are specified.

* `updatesOf key evs` — the statements that the events made on the row `key`, in order;
  `row_after` says that they are all that happened to the row.
* `Harmless` — the events of a processor that submits nothing: no tx, no warning, and no statement
  on other rows than the ones named.
* `Runs` — the judgment about a processor's `Process` method: after the events `past` the rest `x`
  of the method ends in a result that satisfies `Ok`, or in an error. The rule `Runs.ask` is a
  line `if err != nil { return nil, fmt.Errorf(…) }`: the error case is dealt with in the rule.
-/

namespace IbcRelayer

open CallTree Prog

/-! ## The statements on a row -/

/-- What a statement of a transaction does to the row `key`. -/
def TxStmt.updates (key : RowKey) : TxStmt → List TransferUpdate
  | .update u k => if k = key then [u] else []
  | _ => []

/-- What an event does to the row `key`. -/
def updatesOfEvent (key : RowKey) : Event → List TransferUpdate
  | ⟨.update u k, .ok _⟩ => if k = key then [u] else []
  | ⟨.txCommit body, .ok _⟩ => body.flatMap (TxStmt.updates key)
  | _ => []

/-- What a list of events, the latest first, does to the row `key`, in order. -/
def updatesOf (key : RowKey) : List Event → List TransferUpdate
  | [] => []
  | e :: evs => updatesOf key evs ++ updatesOfEvent key e

@[simp] theorem updatesOf_nil (key : RowKey) : updatesOf key [] = [] := rfl

@[simp] theorem updatesOf_cons (key : RowKey) (e : Event) (evs : List Event) :
    updatesOf key (e :: evs) = updatesOf key evs ++ updatesOfEvent key e := rfl

/-- Events one after the other: the later ones stand first in the list, and their statements come
last. -/
theorem updatesOf_append (key : RowKey) (evs evs' : List Event) :
    updatesOf key (evs' ++ evs) = updatesOf key evs ++ updatesOf key evs' := by
  induction evs' with
  | nil => simp
  | cons e evs' ih => simp [ih]

/-- Events that each do nothing to the row do nothing together. -/
theorem updatesOf_eq_nil {key : RowKey} {evs : List Event}
    (h : ∀ e ∈ evs, updatesOfEvent key e = []) : updatesOf key evs = [] := by
  induction evs with
  | nil => rfl
  | cons e evs ih =>
    rw [updatesOf_cons, ih fun e' he' => h e' (List.mem_cons_of_mem e he'),
      h e List.mem_cons_self]
    rfl

/-- A transaction does to a row what its statements on that row do, in order; those on other rows
and the inserts into the submission tables do not matter. -/
theorem row_foldl_apply (key : RowKey) (body : List TxStmt) (rows : List Ibcv2Transfer) :
    row (body.foldl (fun rows stmt => stmt.apply rows) rows) key
      = (row rows key).map (applyAll (body.flatMap (TxStmt.updates key))) := by
  -- the statements are applied from the left, so the table changes under the induction
  induction body generalizing rows with
  | nil => simp [show applyAll [] = id from rfl]
  | cons stmt body ih =>
    rw [List.foldl_cons, ih, List.flatMap_cons]
    cases stmt with
    | update u k =>
      rw [TxStmt.apply, row_updateWhere]
      by_cases h : key = k
      · subst h
        cases row rows key <;> simp [TxStmt.updates]
      · simp [TxStmt.updates, h, Ne.symm h]
    | _ => simp [TxStmt.apply, TxStmt.updates]

/-- What one event does to a row is what `updatesOfEvent` says. -/
theorem row_next (w : World) (e : Event) (key : RowKey) :
    (w.next e.call e.answer).row key = (w.row key).map (applyAll (updatesOfEvent key e)) := by
  have hid : (w.row key).map (applyAll []) = w.row key := by
    simp [show applyAll [] = id from rfl]
  obtain ⟨c, r⟩ := e
  cases c with
  -- only a statement and a commit that succeeded change the table
  | update u k =>
    cases r with
    | error err => exact hid.symm
    | ok a =>
      change row (updateWhere u k w.transfers) key = _
      rw [row_updateWhere]
      by_cases h : key = k
      · subst h
        simp only [updatesOfEvent, if_true]
        rfl
      · simp only [updatesOfEvent, Ne.symm h, h, if_false]
        exact hid.symm
  | txCommit body =>
    cases r with
    | error err => exact hid.symm
    | ok a => exact row_foldl_apply key body w.transfers
  | _ => exact hid.symm

theorem row_next_of_nil {w : World} {e : Event} {key : RowKey} (h : updatesOfEvent key e = []) :
    (w.next e.call e.answer).row key = w.row key := by
  rw [row_next, h, show applyAll [] = id from rfl, Option.map_id]
  rfl

/-- The row after a list of events. -/
theorem row_after (w : World) (evs : List Event) (key : RowKey) :
    (w.after evs).row key = (w.row key).map (applyAll (updatesOf key evs)) := by
  induction evs with
  | nil => simp [World.after, show applyAll [] = id from rfl]
  | cons e evs ih =>
    change ((w.after evs).next e.call e.answer).row key = _
    rw [row_next, ih, Option.map_map, updatesOf_cons]
    congr 1
    funext r
    exact (applyAll_append _ _ r).symm

theorem row_after_of_nil {w : World} {evs : List Event} {key : RowKey}
    (h : updatesOf key evs = []) : (w.after evs).row key = w.row key := by
  rw [row_after, h, show applyAll [] = id from rfl, Option.map_id]
  rfl

/-! ## The events of a `Process` method -/

/-- The readings of the clock that `IsTimedOut` makes. -/
def ClockReader.isTimeoutCheck : ClockReader → Bool
  | .checkTimeoutFinality | .batchTimeoutPacket | .batchRecvPacket => true
  | .sourceTxFinalizedTime | .writeAckTxFinalizedTime => false

/-- No `Process` method logs a warning, evaluates `IsTimedOut` or saves a state. -/
structure Quiet (e : Event) : Prop where
  warn : ∀ warning key, e.call ≠ .warn warning key
  save : ∀ status key, e.call ≠ .update (.updateTransferState status) key
  reading : ∀ reader key, e.call = .now reader key → reader.isTimeoutCheck = false

/-- What a chain is asked about a packet or a tx. -/
def Call.isQuery : Call → Bool
  | .isPacketReceived .. | .isPacketCommitted .. | .findRecvTx .. | .findAckTx ..
  | .findTimeoutTx .. | .packetWriteAckStatus .. | .shouldRetryTx .. | .isTxFinalized ..
  | .isTimestampFinalized .. => true
  | _ => false

/-- Quiet, no tx is submitted, the queries are those of the method, and no row but those of `keys`
is written. -/
structure Harmless (queries : Call → Bool) (keys : List RowKey) (e : Event) : Prop
    extends Quiet e where
  submission : e.call.submission = none
  query : e.call.isQuery = true → queries e.call = true
  frame : ∀ k, k ∉ keys → updatesOfEvent k e = []

/-- The quiet calls that neither submit a tx, write a row nor ask a chain. -/
def Call.isSilent : Call → Bool
  | .relayByTx .. | .deliverTx .. | .warn .. | .update .. | .txCommit _ => false
  | .now reader _ => !reader.isTimeoutCheck
  | c => !c.isQuery

/-- The silent calls, and the queries of a method. -/
def Call.isSilentFor (queries : Call → Bool) (c : Call) : Bool :=
  c.isSilent || (c.isQuery && queries c)

section Silent

variable {queries : Call → Bool} {e : Event}

/-- The silent calls and the queries of a method are quiet. -/
theorem quiet_silentFor (h : e.call.isSilentFor queries = true) : Quiet e where
  warn warning key hc := by
    rw [hc] at h
    cases h
  save status key hc := by
    rw [hc] at h
    cases h
  reading reader key hc := by
    rw [hc] at h
    simpa [Call.isSilentFor, Call.isSilent, Call.isQuery] using h

/-- The silent calls and the queries of a method write nothing. -/
theorem updatesOfEvent_silentFor (h : e.call.isSilentFor queries = true) (key : RowKey) :
    updatesOfEvent key e = [] := by
  obtain ⟨c, r⟩ := e
  cases c <;> first | rfl | cases h

theorem submission_silentFor (h : e.call.isSilentFor queries = true) :
    e.call.submission = none := by
  obtain ⟨c, r⟩ := e
  cases c <;> first | rfl | cases h

/-- A silent call may be made by every method, whatever its queries are. -/
theorem silentFor_of_silent (queries : Call → Bool) (h : e.call.isSilent = true) :
    e.call.isSilentFor queries = true := by
  rw [Call.isSilentFor, h, Bool.true_or]

theorem quiet_silent (h : e.call.isSilent = true) : Quiet e :=
  quiet_silentFor (silentFor_of_silent (fun _ => false) h)

theorem updatesOfEvent_silent (h : e.call.isSilent = true) (key : RowKey) :
    updatesOfEvent key e = [] :=
  updatesOfEvent_silentFor (silentFor_of_silent (fun _ => false) h) key

theorem submission_silent (h : e.call.isSilent = true) : e.call.submission = none :=
  submission_silentFor (silentFor_of_silent (fun _ => false) h)

theorem query_silent (h : e.call.isSilent = true) : e.call.isQuery = false := by
  obtain ⟨c, r⟩ := e
  cases c <;> first | rfl | cases h

/-- Silent calls are harmless, whichever rows the method works on. -/
theorem harmless_silent (h : e.call.isSilentFor queries = true) (keys : List RowKey) :
    Harmless queries keys e where
  toQuiet := quiet_silentFor h
  submission := submission_silentFor h
  query hquery := by
    rcases Bool.or_eq_true_iff.mp h with hsilent | hqueries
    · rw [query_silent hsilent] at hquery
      cases hquery
    · exact (Bool.and_eq_true_iff.mp hqueries).2
  frame k _ := updatesOfEvent_silentFor h k

end Silent

/-- A statement on a row of the method is harmless as long as it does not save a state: that is for
the wrapper. -/
theorem harmless_update {queries : Call → Bool} {keys : List RowKey} {key : RowKey}
    (hkey : key ∈ keys) {u : TransferUpdate} (hu : ∀ status, u ≠ .updateTransferState status)
    (r : Except GoError Unit) : Harmless queries keys ⟨.update u key, r⟩ where
  warn := by simp
  save status k hc := by
    cases hc
    exact hu status rfl
  reading := by simp
  submission := rfl
  query := by simp [Call.isQuery]
  frame k hk := by
    have hne : key ≠ k := fun h => hk (h ▸ hkey)
    cases r with
    | error err => rfl
    | ok a => simp [updatesOfEvent, hne]

/-! ## The judgment about a `Process` method -/

/-- The call by which a tx is delivered. -/
def Call.isDelivery : Call → Bool
  | .deliverTx .. => true
  | _ => false

theorem Call.not_delivery {c : Call} (h : c.submission = none) : c.isDelivery = false := by
  cases c <;> first | rfl | cases h

/-- Nothing is written before the last submission: the events fall into early ones that write
nothing and late ones that submit nothing. -/
def Orderly (evs : List Event) : Prop :=
  ∃ late early, evs = late ++ early ∧ (∀ e ∈ late, e.call.submission = none)
    ∧ ∀ e ∈ early, ∀ key, updatesOfEvent key e = []

theorem Orderly.silent {evs : List Event} (h : ∀ e ∈ evs, ∀ key, updatesOfEvent key e = []) :
    Orderly evs :=
  ⟨[], evs, rfl, by simp, h⟩

theorem Orderly.append {evs E : List Event} (h : Orderly evs)
    (hE : ∀ e ∈ E, e.call.submission = none) : Orderly (E ++ evs) := by
  -- the new events are added to the late ones
  obtain ⟨late, early, rfl, hlate, hearly⟩ := h
  refine ⟨E ++ late, early, (List.append_assoc _ _ _).symm, ?_, hearly⟩
  exact List.forall_mem_append.mpr ⟨hE, hlate⟩

/-- Before a submission nothing was written. -/
theorem Orderly.before {post pre : List Event} {e : Event} (h : Orderly (post ++ e :: pre))
    (he : e.call.submission ≠ none) (key : RowKey) : updatesOf key pre = [] := by
  obtain ⟨late, early, hevs, hlate, hearly⟩ := h
  refine updatesOf_eq_nil fun e' he' => hearly e' ?_ key
  -- `e` is not late, so everything before it is early
  rcases List.append_eq_append_iff.mp hevs with ⟨mid, rfl, hmid⟩ | ⟨mid, rfl, rfl⟩
  · cases mid with
    | nil =>
      rw [List.nil_append] at hmid
      rw [← hmid]
      exact List.mem_cons_of_mem e he'
    | cons e'' mid =>
      obtain ⟨rfl, -⟩ := List.cons.inj hmid
      exact absurd (hlate e (by simp)) he
  · exact List.mem_append_right mid (List.mem_cons_of_mem e he')

/-- The end of a `Process` method for the row `key`, whose events all satisfy `A`: a result that
satisfies `Ok`, or an error with a text, with at most one of the statements `clears` made on the
row. -/
def Outcome {ρ : Type} (A : Event → Prop) (key : RowKey) (clears : List TransferUpdate)
    (Ok : ρ → List Event → Prop) (r : Except GoError ρ) (evs : List Event) : Prop :=
  (∀ e ∈ evs, A e) ∧ Orderly evs ∧
    match r with
    | .ok result => Ok result evs
    | .error err => err.text ≠ "" ∧
        (updatesOf key evs = [] ∨ ∃ u ∈ clears, updatesOf key evs = [u])

theorem Outcome.ok {ρ : Type} {A : Event → Prop} {key : RowKey} {clears : List TransferUpdate}
    {Ok : ρ → List Event → Prop} {result : ρ} {evs : List Event}
    (h : Outcome A key clears Ok (.ok result) evs) : Ok result evs :=
  h.2.2

/-- An allowed event that writes nothing. -/
structure Past (A : Event → Prop) (e : Event) : Prop where
  allowed : A e
  updates : ∀ key, updatesOfEvent key e = []

theorem Past.silent {queries : Call → Bool} {keys : List RowKey} {e : Event}
    (h : e.call.isSilentFor queries = true) : Past (Harmless queries keys) e :=
  ⟨harmless_silent h keys, updatesOfEvent_silentFor h⟩

/-- After the events `past`, the rest `x` of a method has an outcome. -/
def Runs {ρ : Type} (A : Event → Prop) (key : RowKey) (clears : List TransferUpdate)
    (past : List Event) (x : ExceptT GoError Eff ρ) (Ok : ρ → List Event → Prop) : Prop :=
  (∀ e ∈ past, Past A e) → x.run.Ensures fun r evs => Outcome A key clears Ok r (evs ++ past)

/-- A wrapped program has the same events, and the same result up to the text of an error. -/
theorem ensures_wrapErr {α : Type} (msg : String) (x : ExceptT GoError Eff α)
    (R : Except GoError α → List Event → Prop) :
    (wrapErr msg x).run.Ensures R ↔ x.run.Ensures fun r evs => match r with
      | .ok a => R (.ok a) evs
      | .error err => R (.error (err.wrap msg)) evs := by
  unfold wrapErr
  rw [ExceptT.run_mk, ensures_bind]
  constructor <;> intro h <;> refine h.mono ?_ <;>
    · rintro (err | a) evs he <;> simpa using he

section Rules

variable {α ρ : Type} {A : Event → Prop} {key : RowKey} {clears : List TransferUpdate}
  {past : List Event} {Ok : ρ → List Event → Prop}

theorem updatesOf_past (h : ∀ e ∈ past, Past A e) (key : RowKey) : updatesOf key past = [] :=
  updatesOf_eq_nil fun e he => (h e he).updates key

theorem orderly_past (h : ∀ e ∈ past, Past A e) : Orderly past :=
  .silent fun e he => (h e he).updates

/-- A whole method starts without a past. -/
theorem Runs.ensures {x : ExceptT GoError Eff ρ} (h : Runs A key clears [] x Ok) :
    x.run.Ensures (Outcome A key clears Ok) := by
  simpa using h (by simp)

/-- The method returns a result without writing. -/
theorem Runs.pure {result : ρ} (h : Ok result past) :
    Runs A key clears past (Pure.pure result) Ok :=
  fun hpast => ⟨fun e he => (hpast e he).allowed, orderly_past hpast, h⟩

/-- The method returns an error of its own; nothing was written, so that nothing has to be cleared.
-/
theorem Runs.throw {err : GoError} (h : err.text ≠ "") :
    Runs A key clears past (MonadExcept.throw err) Ok :=
  fun hpast => ⟨fun e he => (hpast e he).allowed, orderly_past hpast, h,
    Or.inl (updatesOf_past hpast key)⟩

/-- A call that may fail, its error being wrapped and returned. -/
theorem Runs.ask {msg : String} {x : ExceptT GoError Eff α} {E : Except GoError α → Event}
    {f : α → ExceptT GoError Eff ρ}
    (hx : x.run.Ensures fun r evs => evs = [E r]) (hev : ∀ r, Past A (E r))
    (hf : ∀ a, Runs A key clears (E (.ok a) :: past) (f a) Ok) :
    Runs A key clears past (wrapErr msg x >>= f) Ok := by
  intro hpast
  have hcons : ∀ r, ∀ e ∈ E r :: past, Past A e :=
    fun r => List.forall_mem_cons.mpr ⟨hev r, hpast⟩
  rw [ensures_except_bind, ensures_wrapErr]
  refine hx.mono ?_
  -- an error ends the method here; with an answer the event joins the past
  rintro (err | a) evs rfl
  · exact ⟨fun e he => (hcons _ e he).allowed, orderly_past (hcons _), by simp,
      Or.inl (updatesOf_past (hcons _) key)⟩
  · refine (hf a (hcons _)).mono fun r evs h => ?_
    simpa using h

/-- A call whose answer, error or not, the method looks at itself. -/
theorem Runs.look {p : Eff α} {E : α → Event} {f : α → ExceptT GoError Eff ρ}
    (hp : p.Ensures fun a evs => evs = [E a]) (hev : ∀ a, Past A (E a))
    (hf : ∀ a, Runs A key clears (E a :: past) (f a) Ok) :
    Runs A key clears past ((liftM p : ExceptT GoError Eff α) >>= f) Ok := by
  intro hpast
  rw [ensures_except_bind, ensures_except_lift]
  refine hp.mono ?_
  rintro a evs rfl
  refine (hf a (List.forall_mem_cons.mpr ⟨hev a, hpast⟩)).mono fun r evs h => ?_
  simpa using h

/-- `Runs.ask` for a silent call of a processor that submits nothing. -/
theorem Runs.query {queries : Call → Bool} {keys : List RowKey} {msg : String}
    {x : ExceptT GoError Eff α} {E : Except GoError α → Event} {f : α → ExceptT GoError Eff ρ}
    (hx : x.run.Ensures fun r evs => evs = [E r])
    (hev : ∀ r, (E r).call.isSilentFor queries = true)
    (hf : ∀ a, Runs (Harmless queries keys) key clears (E (.ok a) :: past) (f a) Ok) :
    Runs (Harmless queries keys) key clears past (wrapErr msg x >>= f) Ok :=
  Runs.ask hx (fun r => .silent (hev r)) hf

/-- `Runs.look` for a silent call of a processor that submits nothing. -/
theorem Runs.peek {queries : Call → Bool} {keys : List RowKey} {p : Eff α} {E : α → Event}
    {f : α → ExceptT GoError Eff ρ} (hp : p.Ensures fun a evs => evs = [E a])
    (hev : ∀ a, (E a).call.isSilentFor queries = true)
    (hf : ∀ a, Runs (Harmless queries keys) key clears (E a :: past) (f a) Ok) :
    Runs (Harmless queries keys) key clears past ((liftM p : ExceptT GoError Eff α) >>= f) Ok :=
  Runs.look hp (fun a => .silent (hev a)) hf

/-- The statement that ends the work of a method: it fails, or it is made and `x` is what is left
to do. -/
theorem Runs.update {msg : String} {u : TransferUpdate} {k : RowKey} {x : ExceptT GoError Eff ρ}
    (hA : ∀ r, A ⟨.update u k, r⟩)
    (hx : (∀ e ∈ (⟨.update u k, .ok ()⟩ : Event) :: past, A e) →
      Orderly (⟨.update u k, .ok ()⟩ :: past) → updatesOf key past = [] →
      x.run.Ensures fun r evs => Outcome A key clears Ok r (evs ++ ⟨.update u k, .ok ()⟩ :: past)) :
    Runs A key clears past (wrapErr msg (IbcRelayer.update u k) >>= fun _ => x) Ok := by
  intro hpast
  have hallowed : ∀ r, ∀ e ∈ (⟨.update u k, r⟩ : Event) :: past, A e :=
    fun r => List.forall_mem_cons.mpr ⟨hA r, fun e he => (hpast e he).allowed⟩
  have horderly : ∀ r, Orderly ((⟨.update u k, r⟩ : Event) :: past) :=
    fun r => (orderly_past hpast).append (E := [⟨.update u k, r⟩]) (by simp [Call.submission])
  rw [ensures_except_bind, ensures_wrapErr]
  -- a failed statement has written nothing
  rintro (err | a)
  · refine ⟨hallowed _, horderly _, by simp, Or.inl ?_⟩
    change updatesOf key past ++ [] = []
    rw [updatesOf_past hpast, List.append_nil]
  · refine (hx (hallowed _) (horderly _) (updatesOf_past hpast key)).mono fun r evs h => ?_
    simpa using h

/-- The statement that records the result of the method on its own row. -/
theorem Runs.write {msg : String} {u : TransferUpdate} {result : ρ}
    (hA : ∀ r, A ⟨.update u key, r⟩)
    (h : updatesOf key (⟨.update u key, .ok ()⟩ :: past) = [u] →
      Ok result (⟨.update u key, .ok ()⟩ :: past)) :
    Runs A key clears past
      (wrapErr msg (IbcRelayer.update u key) >>= fun _ => Pure.pure result) Ok :=
  Runs.update hA fun hallowed horderly hpast =>
    ⟨hallowed, horderly, h (by simp [updatesOfEvent, hpast])⟩

/-- The statement that clears a tx, before the method ends with an error. -/
theorem Runs.clear {msg : String} {u : TransferUpdate} {err : GoError}
    (hA : ∀ r, A ⟨.update u key, r⟩) (hu : u ∈ clears) (herr : err.text ≠ "") :
    Runs A key clears past
      (wrapErr msg (IbcRelayer.update u key) >>= fun _ => MonadExcept.throw err) Ok :=
  Runs.update hA fun hallowed horderly hpast => ⟨hallowed, horderly, herr, Or.inr ⟨u, hu, by
    simp [updatesOfEvent, hpast]⟩⟩

end Rules

end IbcRelayer
