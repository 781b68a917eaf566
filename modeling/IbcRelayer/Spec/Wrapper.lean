import IbcRelayer.Spec.Batch

/-!
# IbcRelayer — a transfer's visit to a wrapped stage

What the two wrappers do is followed here for one transfer `t`, alone or in a batch, and for any
processor that keeps a `Contract`.

* `Guard`, `Asked` — a `ShouldProcess` method and one evaluation of it;
* `Admits` — the decision of the wrapper, with the events it leaves;
* `Step` — the six ways in which a visit can end for the copy and for its row;
* `Visit` — a step, with what the events say about warnings, clock readings, submissions and the
  rows of others. `mw_visit` proves it for the wrapper of single transfers.
-/

namespace IbcRelayer

open CallTree Prog IBCV2Transfer

/-! ## Guards -/

/-- What a `ShouldProcess` method decides: `wants` is its answer when the clock reads the given
time, `reader` reads the clock, and `warning` is logged for a write ack without a status. -/
structure Guard where
  wants : IBCV2Transfer → Time → Bool
  reader : Option ClockReader := none
  warning : Option Warning := none

/-- An evaluation of a `ShouldProcess` method, with its events. -/
inductive Asked (g : Guard) (t : IBCV2Transfer) : Bool → List Event → Prop where
  | unread {answer : Bool} (h : ∀ now, g.wants t now = answer)
      (hreader : answer = true → g.reader = none) : Asked g t answer []
  | read {reader : ClockReader} (hreader : g.reader = some reader) (now : Time) :
      Asked g t (g.wants t now) [⟨.now reader t.rowKey, now⟩]
  | warned {warning : Warning} (hwarning : g.warning = some warning)
      (hhash : t.writeAckTxHash.isSome = true) (hstatus : t.writeAckStatus = none)
      (h : ∀ now, g.wants t now = false) : Asked g t false [⟨.warn warning t.rowKey, ()⟩]

/-- The method said yes, at a reading that is among the events. -/
def Guard.Granted (g : Guard) (t : IBCV2Transfer) (evs : List Event) : Prop :=
  ∃ now, g.wants t now = true
    ∧ ∀ reader, g.reader = some reader → ⟨.now reader t.rowKey, now⟩ ∈ evs

/-- The method said no, whatever the clock reads or at a reading that is among the events. -/
def Guard.Refused (g : Guard) (t : IBCV2Transfer) (evs : List Event) : Prop :=
  (∀ now, g.wants t now = false)
    ∨ ∃ reader now, g.reader = some reader ∧ ⟨.now reader t.rowKey, now⟩ ∈ evs
      ∧ g.wants t now = false

section Asked

variable {g : Guard} {t : IBCV2Transfer} {evs evs' : List Event}

/-- A yes stays a yes when more events are looked at. -/
theorem Guard.Granted.mono (h : g.Granted t evs) (hsub : evs ⊆ evs') : g.Granted t evs' := by
  obtain ⟨now, hwants, hread⟩ := h
  exact ⟨now, hwants, fun reader hreader => hsub (hread reader hreader)⟩

theorem Guard.Refused.mono (h : g.Refused t evs) (hsub : evs ⊆ evs') : g.Refused t evs' := by
  rcases h with h | ⟨reader, now, hreader, hin, hwants⟩
  · exact Or.inl h
  · exact Or.inr ⟨reader, now, hreader, hsub hin, hwants⟩

/-- A method that answers `true` has granted the visit at the reading it made, if it made one. -/
theorem Asked.granted (h : Asked g t true evs) : g.Granted t evs := by
  generalize hanswer : true = answer at h
  cases h with
  | unread h hreader =>
    -- no clock is read, so any time will do
    refine ⟨.zero, (h .zero).trans hanswer.symm, fun reader hr => ?_⟩
    rw [hreader hanswer.symm] at hr
    cases hr
  | read hreader now =>
    refine ⟨now, hanswer.symm, fun reader hr => ?_⟩
    rw [hreader] at hr
    cases hr
    exact List.mem_singleton_self _
  | warned => cases hanswer

theorem Asked.refused (h : Asked g t false evs) : g.Refused t evs := by
  generalize hanswer : false = answer at h
  cases h with
  | unread h => exact Or.inl fun now => (h now).trans hanswer.symm
  | read hreader now => exact Or.inr ⟨_, now, hreader, List.mem_singleton_self _, hanswer.symm⟩
  | warned _ _ _ h => exact Or.inl h

/-- The clock is read by the guard's own reader, and the answer is the one at that reading. -/
theorem Asked.reading {answer : Bool} (h : Asked g t answer evs) {reader : ClockReader} {now : Time}
    {key : RowKey} (hin : ⟨.now reader key, now⟩ ∈ evs) :
    g.reader = some reader ∧ g.wants t now = answer := by
  cases h with
  | unread => cases hin
  | read hreader now' =>
    cases List.mem_singleton.mp hin
    exact ⟨hreader, rfl⟩
  | warned => cases List.mem_singleton.mp hin

/-- A warning of the method is about a write ack without a status. -/
theorem Asked.warning {answer : Bool} (h : Asked g t answer evs) {warning : Warning} {key : RowKey}
    (hin : ⟨.warn warning key, ()⟩ ∈ evs) :
    g.warning = some warning ∧ t.writeAckTxHash.isSome = true ∧ t.writeAckStatus = none := by
  cases h with
  | unread => cases hin
  | read => cases List.mem_singleton.mp hin
  | warned hwarning hhash hstatus =>
    cases List.mem_singleton.mp hin
    exact ⟨hwarning, hhash, hstatus⟩

end Asked

/-! ## The decision of the wrapper -/

/-- The statement that saves the state of a transfer. -/
def saveEvent (state : Ibcv2RelayStatus) (key : RowKey) (r : Except GoError Unit) : Event :=
  ⟨.update (.updateTransferState state) key, r⟩

/-- `admitTransfer`, decision by decision. -/
inductive Admits (g : Guard) (state : Ibcv2RelayStatus) (t : IBCV2Transfer) :
    Admission → List Event → Prop where
  | passed (h : t.error ≠ "" ∨ t.state = .failed) : Admits g state t .skipped []
  | refused {evs : List Event} (herror : t.error = "") (hstate : t.state ≠ .failed)
      (hasked : Asked g t false evs) : Admits g state t .skipped evs
  | stateNotSaved {evs : List Event} (herror : t.error = "") (hstate : t.state ≠ .failed)
      (hasked : Asked g t true evs) (err err' : GoError) (htext : err'.text ≠ "") :
      Admits g state t (.stateNotUpdated err') (saveEvent state t.rowKey (.error err) :: evs)
  | admitted {evs : List Event} (herror : t.error = "") (hstate : t.state ≠ .failed)
      (hasked : Asked g t true evs) :
      Admits g state t .admitted (saveEvent state t.rowKey (.ok ()) :: evs)

/-- The decision of the wrapper is one of the four of `Admits`, for any processor whose
`ShouldProcess` is the guard `g`. -/
theorem admitTransfer_admits {g : Guard} {shouldProcess : IBCV2Transfer → Eff Bool}
    {t : IBCV2Transfer} (hasked : (shouldProcess t).Ensures (Asked g t))
    (state : Ibcv2RelayStatus) :
    (admitTransfer state shouldProcess t).Ensures (Admits g state t) := by
  unfold admitTransfer
  split
  · rename_i herror
    exact .passed (Or.inl herror)
  · rename_i herror
    have herror' : t.error = "" := not_not.mp herror
    split
    · rename_i hstate
      exact .passed (Or.inr hstate)
    · rename_i hstate
      -- the guard is asked only here, behind both checks
      refine hasked.bind fun answer evs h => ?_
      cases answer with
      | false => exact .refused herror' hstate h
      | true =>
        rintro (err | _)
        · exact .stateNotSaved herror' hstate h err _ (by simp)
        · exact .admitted herror' hstate h

/-- Asking does not save a state. -/
theorem Asked.not_save {g : Guard} {t : IBCV2Transfer} {answer : Bool} {evs : List Event}
    (h : Asked g t answer evs) {state : Ibcv2RelayStatus} {key : RowKey} {r : Except GoError Unit} :
    saveEvent state key r ∉ evs := by
  intro hin
  cases h with
  | unread => cases hin
  | read => cases List.mem_singleton.mp hin
  | warned => cases List.mem_singleton.mp hin

/-- The events of a decision all name the transfer. -/
def OfAdmission (key : RowKey) (e : Event) : Prop :=
  (∃ reader, e.call = .now reader key) ∨ (∃ warning, e.call = .warn warning key)
    ∨ ∃ state, e.call = .update (.updateTransferState state) key

/-- The events of an evaluation name the transfer. -/
theorem Asked.ofAdmission {g : Guard} {t : IBCV2Transfer} {answer : Bool} {evs : List Event}
    (h : Asked g t answer evs) : ∀ e ∈ evs, OfAdmission t.rowKey e := by
  intro e he
  cases h with
  | unread => cases he
  | read hreader now =>
    cases List.mem_singleton.mp he
    exact Or.inl ⟨_, rfl⟩
  | warned =>
    cases List.mem_singleton.mp he
    exact Or.inr (Or.inl ⟨_, rfl⟩)

/-- So do the events of the whole decision. -/
theorem Admits.ofAdmission {g : Guard} {state : Ibcv2RelayStatus} {t : IBCV2Transfer}
    {a : Admission} {evs : List Event} (h : Admits g state t a evs) :
    ∀ e ∈ evs, OfAdmission t.rowKey e := by
  have hsave : ∀ r, OfAdmission t.rowKey (saveEvent state t.rowKey r) :=
    fun r => Or.inr (Or.inr ⟨state, rfl⟩)
  cases h with
  | passed h => simp
  | refused _ _ hasked => exact hasked.ofAdmission
  | stateNotSaved _ _ hasked => exact List.forall_mem_cons.mpr ⟨hsave _, hasked.ofAdmission⟩
  | admitted _ _ hasked => exact List.forall_mem_cons.mpr ⟨hsave _, hasked.ofAdmission⟩

/-- A decision does not touch the rows of others. -/
theorem OfAdmission.frame {key k : RowKey} {e : Event} (h : OfAdmission key e) (hk : k ≠ key) :
    updatesOfEvent k e = [] := by
  obtain ⟨c, r⟩ := e
  rcases h with ⟨reader, hc⟩ | ⟨warning, hc⟩ | ⟨state, hc⟩
  · cases hc
    rfl
  · cases hc
    rfl
  · cases hc
    cases r with
    | error err => rfl
    | ok a => simp [updatesOfEvent, Ne.symm hk]

/-- A decision submits nothing. -/
theorem OfAdmission.submission {key : RowKey} {e : Event} (h : OfAdmission key e) :
    e.call.submission = none := by
  rcases h with ⟨reader, hc⟩ | ⟨warning, hc⟩ | ⟨state, hc⟩ <;> rw [hc] <;> rfl

theorem OfAdmission.query {key : RowKey} {e : Event} (h : OfAdmission key e) :
    e.call.isQuery = false := by
  rcases h with ⟨reader, hc⟩ | ⟨warning, hc⟩ | ⟨state, hc⟩ <;> rw [hc] <;> rfl

/-- Asking writes nothing, not even on the row of the transfer. -/
theorem Asked.frame {g : Guard} {t : IBCV2Transfer} {answer : Bool} {evs : List Event}
    (h : Asked g t answer evs) (key : RowKey) : ∀ e ∈ evs, updatesOfEvent key e = [] := by
  cases h <;> simp [updatesOfEvent]

theorem updatesOf_asked {g : Guard} {t : IBCV2Transfer} {answer : Bool} {evs : List Event}
    (h : Asked g t answer evs) (key : RowKey) : updatesOf key evs = [] :=
  updatesOf_eq_nil (h.frame key)

/-- What the decision does to the row of the transfer. -/
theorem updatesOf_admits {g : Guard} {state : Ibcv2RelayStatus} {t : IBCV2Transfer}
    {a : Admission} {evs : List Event} (h : Admits g state t a evs) :
    updatesOf t.rowKey evs = if a = .admitted then [.updateTransferState state] else [] := by
  cases h with
  | passed h => rfl
  | refused _ _ hasked => exact updatesOf_asked hasked _
  | stateNotSaved _ _ hasked err =>
    rw [updatesOf_cons, updatesOf_asked hasked]
    rfl
  | admitted _ _ hasked =>
    rw [updatesOf_cons, updatesOf_asked hasked]
    simp [saveEvent, updatesOfEvent]

/-! ## Visits -/

def Submission.Includes (s : Submission) (key : RowKey) : Prop := ∃ t ∈ s.transfers, t.rowKey = key

/-- What is promised of the processor of a stage: the state it saves, its guard, its queries, the
statements that may stay behind when it fails, what it submits, the rows it hits besides those it is
called for, and what an un-errored end says about the transfer, the statements on its row and the
events. -/
structure Contract where
  state : Ibcv2RelayStatus
  guard : Guard
  queries : Call → Bool := Call.asksNothing
  clears : List TransferUpdate := []
  packet : Option BatchPacket := none
  strays : List RowKey := []
  Ok : IBCV2Transfer → IBCV2Transfer → List TransferUpdate → List Event → Prop

/-- The processor got the transfer. -/
structure Taken (c : Contract) (t : IBCV2Transfer) (evs : List Event) : Prop where
  error : t.error = ""
  state : t.state ≠ .failed
  granted : c.guard.Granted t evs
  readings : ∀ reader now, ⟨.now reader t.rowKey, now⟩ ∈ evs → reader.isTimeoutCheck = true →
    c.guard.wants t now = true
  saves : ∀ r, saveEvent c.state t.rowKey r ∈ evs → r = .ok ()
  requested : ∀ p, c.packet = some p → p.hashError { t with state := c.state } = none →
    ∃ req s r, ⟨.relayByTx req s, r⟩ ∈ evs ∧ s.kind = p.txType ∧ s.Includes t.rowKey

/-- The processor did not get the transfer. -/
def Untaken (c : Contract) (t : IBCV2Transfer) (evs : List Event) : Prop :=
  (t.error ≠ "" ∨ t.state = .failed) ∨ c.guard.Refused t evs
    ∨ ∃ err, saveEvent c.state t.rowKey (.error err) ∈ evs

/-- How a visit ends: with the transfer on the output or not, the statements on its row, and the
events. A transfer that the processor did not get can still be lost with its batch. A stage that
does not batch asks its guard once. -/
inductive Step (c : Contract) (t : IBCV2Transfer) :
    Option IBCV2Transfer → List TransferUpdate → List Event → Prop where
  | passed {evs : List Event} (h : t.error ≠ "" ∨ t.state = .failed) : Step c t (some t) [] evs
  | refused {evs : List Event} (h : c.guard.Refused t evs)
      (hreadings : c.packet = none → ∀ reader now, ⟨.now reader t.rowKey, now⟩ ∈ evs →
        c.guard.wants t now = false) : Step c t (some t) [] evs
  | stateNotSaved {evs : List Event} (err err' : GoError) (htext : err'.text ≠ "")
      (h : saveEvent c.state t.rowKey (.error err) ∈ evs) : Step c t (some (t.fail err')) [] evs
  | lost {evs : List Event} (h : Untaken c t evs) : Step c t none [] evs
  | failed {evs : List Event} (htaken : Taken c t evs) (err : GoError) (htext : err.text ≠ "")
      (o : Option IBCV2Transfer) (ho : o = none ∨ o = some ({ t with state := c.state }.fail err))
      (us : List TransferUpdate) (hus : us = [] ∨ ∃ u ∈ c.clears, us = [u]) :
      Step c t o (.updateTransferState c.state :: us) evs
  | done {evs : List Event} (htaken : Taken c t evs) (t' : IBCV2Transfer)
      (us : List TransferUpdate) (own : List Event) (hown : own ⊆ evs)
      (hquery : ∀ e ∈ evs, e.call.isQuery = true → e ∈ own)
      (hok : c.Ok { t with state := c.state } t' us own) :
      Step c t (some t') (.updateTransferState c.state :: us) evs

/-- A tx is submitted for the transfer: it is in the request in its new state, its hash has bytes
and they are in the request, which is this call or an earlier one, and of this visit only the state
is on its row so far. It is delivered once. -/
structure Submits (c : Contract) (t : IBCV2Transfer) (s : Submission) (call : Call)
    (pre : List Event) (p : BatchPacket) : Prop where
  packet : c.packet = some p
  kind : s.kind = p.txType
  mem : { t with state := c.state } ∈ s.transfers
  hashError : p.hashError { t with state := c.state } = none
  updates : updatesOf t.rowKey pre = [.updateTransferState c.state]
  once : call.isDelivery = true → ∀ e ∈ pre, e.call.isDelivery = false
  request : ∃ hash bytes txIDs sequences,
    p.txHash { t with state := c.state } = .ok hash ∧ decodeString (trimHexMark hash) = .ok bytes
      ∧ bytes ∈ txIDs ∧ (call = .relayByTx (p.request txIDs sequences) s
        ∨ ∃ r, ⟨.relayByTx (p.request txIDs sequences) s, r⟩ ∈ pre)

/-- A visit of `t` to a stage whose transfers have the keys `keys`. -/
structure Visit (c : Contract) (keys : List RowKey) (t : IBCV2Transfer)
    (o : Option IBCV2Transfer) (evs : List Event) : Prop where
  step : Step c t o (updatesOf t.rowKey evs) evs
  warning : ∀ warning, ⟨.warn warning t.rowKey, ()⟩ ∈ evs → t.error = ""
    ∧ c.guard.warning = some warning ∧ t.writeAckTxHash.isSome = true ∧ t.writeAckStatus = none
  reading : ∀ reader now, ⟨.now reader t.rowKey, now⟩ ∈ evs → reader.isTimeoutCheck = true →
    c.guard.reader = some reader
  save : ∀ state r, saveEvent state t.rowKey r ∈ evs → state = c.state
  query : ∀ e ∈ evs, e.call.isQuery = true → c.queries e.call = true ∧ Taken c t evs
  frame : ∀ k, k ∉ keys ++ c.strays → ∀ e ∈ evs, updatesOfEvent k e = []
  submission : ∀ post e pre s, evs = post ++ e :: pre → e.call.submission = some s →
    s.Includes t.rowKey → Taken c t evs ∧ ∃ p, Submits c t s e.call pre p

/-- An event that is not part of the decision for the row `key`. -/
structure Aside (key : RowKey) (e : Event) : Prop where
  warn : ∀ warning, e.call ≠ .warn warning key
  save : ∀ state, e.call ≠ .update (.updateTransferState state) key
  reading : ∀ reader, e.call = .now reader key → reader.isTimeoutCheck = false

theorem Quiet.aside {e : Event} (h : Quiet e) (key : RowKey) : Aside key e where
  warn warning := h.warn warning key
  save state := h.save state key
  reading reader := h.reading reader key

/-- The events of the decision for another transfer are no part of a decision. -/
theorem OfAdmission.aside {key k : RowKey} {e : Event} (h : OfAdmission k e) (hk : k ≠ key) :
    Aside key e := by
  rcases h with ⟨reader, hc⟩ | ⟨warning, hc⟩ | ⟨state, hc⟩ <;>
    constructor <;> rw [hc] <;> simp [hk]

section Decision

variable {c : Contract} {t : IBCV2Transfer} {a : Admission} {own evs : List Event}

/-- Among the events of a visit, those of the decision are told by their kind. -/
theorem mem_own_of_not_aside (hall : ∀ e ∈ evs, e ∈ own ∨ Aside t.rowKey e) {e : Event}
    (he : e ∈ evs) (hnot : ¬ Aside t.rowKey e) : e ∈ own :=
  (hall e he).resolve_right hnot

/-- The events of a decision: none, or those of one evaluation of the guard, perhaps followed by the
statement that saves the state. -/
theorem Admits.asked (h : Admits c.guard c.state t a own) :
    own = [] ∨ ∃ answer asked, t.error = "" ∧ Asked c.guard t answer asked
      ∧ (own = asked ∨ ∃ r, own = saveEvent c.state t.rowKey r :: asked) := by
  cases h with
  | passed h => exact Or.inl rfl
  | refused herror _ hasked => exact Or.inr ⟨_, _, herror, hasked, Or.inl rfl⟩
  | stateNotSaved herror _ hasked => exact Or.inr ⟨_, _, herror, hasked, Or.inr ⟨_, rfl⟩⟩
  | admitted herror _ hasked => exact Or.inr ⟨_, _, herror, hasked, Or.inr ⟨_, rfl⟩⟩

/-- A warning about the transfer comes from its guard: processors do not warn, and other decisions
are about others. -/
theorem visit_warning (h : Admits c.guard c.state t a own)
    (hall : ∀ e ∈ evs, e ∈ own ∨ Aside t.rowKey e) {warning : Warning}
    (hin : ⟨.warn warning t.rowKey, ()⟩ ∈ evs) : t.error = "" ∧ c.guard.warning = some warning
      ∧ t.writeAckTxHash.isSome = true ∧ t.writeAckStatus = none := by
  have hown : (⟨.warn warning t.rowKey, ()⟩ : Event) ∈ own :=
    mem_own_of_not_aside hall hin fun haside => haside.warn warning rfl
  rcases h.asked with rfl | ⟨answer, asked, herror, hasked, rfl | ⟨r, rfl⟩⟩
  · cases hown
  · exact ⟨herror, hasked.warning hown⟩
  · rcases List.mem_cons.mp hown with heq | hown
    · cases heq
    · exact ⟨herror, hasked.warning hown⟩

/-- A reading of the clock for a timeout is one of the guard. -/
theorem visit_reading (h : Admits c.guard c.state t a own)
    (hall : ∀ e ∈ evs, e ∈ own ∨ Aside t.rowKey e) {reader : ClockReader} {now : Time}
    (hin : ⟨.now reader t.rowKey, now⟩ ∈ evs) (hcheck : reader.isTimeoutCheck = true) :
    c.guard.reader = some reader := by
  have hown : (⟨.now reader t.rowKey, now⟩ : Event) ∈ own := by
    refine mem_own_of_not_aside hall hin fun haside => ?_
    rw [haside.reading reader rfl] at hcheck
    cases hcheck
  rcases h.asked with rfl | ⟨answer, asked, -, hasked, rfl | ⟨r, rfl⟩⟩
  · cases hown
  · exact (hasked.reading hown).1
  · rcases List.mem_cons.mp hown with heq | hown
    · cases heq
    · exact (hasked.reading hown).1

/-- A state that is saved on the row of the transfer is that of the stage. -/
theorem visit_save (h : Admits c.guard c.state t a own)
    (hall : ∀ e ∈ evs, e ∈ own ∨ Aside t.rowKey e) {state : Ibcv2RelayStatus}
    {r : Except GoError Unit} (hin : saveEvent state t.rowKey r ∈ evs) : state = c.state := by
  have hown : saveEvent state t.rowKey r ∈ own :=
    mem_own_of_not_aside hall hin fun haside => haside.save state rfl
  rcases h.asked with rfl | ⟨answer, asked, -, hasked, rfl | ⟨r', rfl⟩⟩
  · cases hown
  · exact absurd hown hasked.not_save
  · rcases List.mem_cons.mp hown with heq | hown
    · cases heq
      rfl
    · exact absurd hown hasked.not_save

/-- The processor got the transfer when the wrapper let it in. -/
theorem Admits.taken (h : Admits c.guard c.state t .admitted own) (hsub : own ⊆ evs)
    (hall : ∀ e ∈ evs, e ∈ own ∨ Aside t.rowKey e)
    (hrequested : ∀ p, c.packet = some p → p.hashError { t with state := c.state } = none →
      ∃ req s r, ⟨.relayByTx req s, r⟩ ∈ evs ∧ s.kind = p.txType ∧ s.Includes t.rowKey) :
    Taken c t evs := by
  cases h with
  | admitted herror hstate hasked =>
    refine ⟨herror, hstate, ?_, ?_, ?_, hrequested⟩
    · exact hasked.granted.mono fun e he => hsub (List.mem_cons_of_mem _ he)
    · intro reader now hin hcheck
      -- a reading for a timeout is one of the decision, so the answer is the one at this reading
      have hown := mem_own_of_not_aside hall hin fun haside => by
        rw [haside.reading reader rfl] at hcheck
        cases hcheck
      rcases List.mem_cons.mp hown with heq | hown
      · cases heq
      · exact (hasked.reading hown).2
    · intro r hin
      have hown := mem_own_of_not_aside hall hin fun haside => haside.save c.state rfl
      rcases List.mem_cons.mp hown with heq | hown
      · cases heq
        rfl
      · exact absurd hown hasked.not_save

/-- The visit of a transfer that the wrapper did not let in; a wrapper of single transfers leaves no
other events. -/
theorem Admits.step_of_not_admitted (h : Admits c.guard c.state t a own) (ha : a ≠ .admitted)
    (hsub : own ⊆ evs) (hevs : c.packet = none → evs = own) :
    Step c t (notProcessing [(t, a)]).head? [] evs := by
  cases h with
  | passed h => exact .passed h
  | refused _ _ hasked =>
    refine .refused (hasked.refused.mono hsub) fun hpacket reader now hin => ?_
    rw [hevs hpacket] at hin
    exact (hasked.reading hin).2
  | stateNotSaved _ _ _ err err' htext =>
    exact .stateNotSaved err err' htext (hsub List.mem_cons_self)
  | admitted => exact absurd rfl ha

/-- Without the wrapper's consent the processor did not get the transfer. -/
theorem Admits.untaken (h : Admits c.guard c.state t a own) (ha : a ≠ .admitted)
    (hsub : own ⊆ evs) : Untaken c t evs := by
  cases h with
  | passed h => exact Or.inl h
  | refused _ _ hasked => exact Or.inr (Or.inl (hasked.refused.mono hsub))
  | stateNotSaved _ _ _ err => exact Or.inr (Or.inr ⟨err, hsub List.mem_cons_self⟩)
  | admitted => exact absurd rfl ha

end Decision

/-! ## The wrapper of single transfers -/

/-- A processor of single transfers that keeps a contract. -/
structure IBCV2Processor.Meets (p : IBCV2Processor) (c : Contract) : Prop where
  state : p.state = c.state
  packet : c.packet = none
  asked : ∀ t, (p.shouldProcess t).Ensures (Asked c.guard t)
  process : ∀ t, (p.process t).run.Ensures
    (Outcome (Harmless c.queries (t.rowKey :: c.strays)) t.rowKey c.clears
      fun t' evs => c.Ok t t' (updatesOf t.rowKey evs) evs)

/-- **A visit to a wrapped stage of single transfers**: whatever the processor does within its
contract, the visit ends in one of the ways of `Step`. Nothing is submitted, and only the row of the
transfer and the strays of the contract are written. -/
theorem mw_visit {p : IBCV2Processor} {c : Contract} (hp : p.Meets c) (t : IBCV2Transfer) :
    (IBCV2ProcessorMW.process p t).Ensures fun r evs => Visit c [t.rowKey] t r.toOption evs := by
  unfold IBCV2ProcessorMW.process
  rw [hp.state]
  refine (admitTransfer_admits (hp.asked t) c.state).bind fun a own hadmits => ?_
  have howned : ∀ e ∈ own, e ∈ own ∨ Aside t.rowKey e := fun e he => Or.inl he
  have hframe : ∀ k, k ∉ [t.rowKey] ++ c.strays → ∀ e ∈ own, updatesOfEvent k e = [] :=
    fun k hk e he => (hadmits.ofAdmission e he).frame fun hkey => hk (by simp [hkey])
  -- the transfer is not let in: all events are those of the decision
  have hskip : ∀ o, a ≠ .admitted → o = (notProcessing [(t, a)]).head? →
      Visit c [t.rowKey] t o own := by
    rintro o ha rfl
    refine ⟨?_, fun _ => visit_warning hadmits howned, fun _ _ => visit_reading hadmits howned,
      fun _ _ => visit_save hadmits howned, ?_, hframe, ?_⟩
    · rw [updatesOf_admits hadmits, if_neg ha]
      exact hadmits.step_of_not_admitted ha (fun e he => he) fun _ => rfl
    · intro e he hquery
      rw [(hadmits.ofAdmission e he).query] at hquery
      cases hquery
    · rintro post e pre s rfl hs -
      rw [(hadmits.ofAdmission e (by simp)).submission] at hs
      cases hs
  cases a with
  | skipped => exact hskip _ (by simp) rfl
  | stateNotUpdated err => exact hskip _ (by simp) rfl
  | admitted =>
    refine (hp.process { t with state := c.state }).bind fun r proc hproc => ?_
    obtain ⟨hharmless, -, hend⟩ := hproc
    -- the processor runs: its events are no part of the decision
    have hall : ∀ e ∈ proc ++ own, e ∈ own ∨ Aside t.rowKey e := by
      intro e he
      rcases List.mem_append.mp he with he | he
      · exact Or.inr ((hharmless e he).aside t.rowKey)
      · exact Or.inl he
    have hus : updatesOf t.rowKey (proc ++ own)
        = .updateTransferState c.state :: updatesOf t.rowKey proc := by
      rw [updatesOf_append, updatesOf_admits hadmits]
      rfl
    have htaken : Taken c t (proc ++ own) :=
      hadmits.taken (List.subset_append_right _ _) hall fun p hpacket => by
        rw [hp.packet] at hpacket
        cases hpacket
    have hquery : ∀ e ∈ proc ++ own, e.call.isQuery = true → e ∈ proc := by
      intro e he hq
      refine (List.mem_append.mp he).resolve_right fun hin => ?_
      rw [(hadmits.ofAdmission e hin).query] at hq
      cases hq
    have hvisit : ∀ o, Step c t o (updatesOf t.rowKey (proc ++ own)) (proc ++ own) →
        Visit c [t.rowKey] t o (proc ++ own) := by
      intro o hstep
      refine ⟨hstep, fun _ => visit_warning hadmits hall, fun _ _ => visit_reading hadmits hall,
        fun _ _ => visit_save hadmits hall, ?_, fun k hk => ?_, ?_⟩
      · intro e he hq
        exact ⟨(hharmless e (hquery e he hq)).query hq, htaken⟩
      · exact List.forall_mem_append.mpr
          ⟨fun e he => (hharmless e he).frame k hk, hframe k hk⟩
      · intro post e pre s hevs hs hincludes
        have he : e ∈ proc ++ own := by rw [hevs]; simp
        rcases List.mem_append.mp he with he | he
        · rw [(hharmless e he).submission] at hs
          cases hs
        · rw [(hadmits.ofAdmission e he).submission] at hs
          cases hs
    -- a canceled context drops the transfer; every other error stays on it
    rcases r with err | t'
    · obtain ⟨htext, hclear⟩ := hend
      dsimp only
      split
      · refine hvisit none ?_
        rw [hus]
        exact .failed htaken err htext none (Or.inl rfl) _ hclear
      · refine hvisit (some _) ?_
        rw [hus]
        exact .failed htaken err htext _ (Or.inr rfl) _ hclear
    · refine hvisit (some t') ?_
      rw [hus]
      exact .done htaken t' _ proc (List.subset_append_left _ _) hquery hend

end IbcRelayer
