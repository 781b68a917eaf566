import IbcRelayer.Bridge.TxOnce

/-!
# IbcRelayer — who is told that a context is cancelled

The request that fills an entry of `txOnce` runs under the context of the call that created the
entry, and its error goes to every call that shares the entry. So a call can get the
`context.Canceled` of another one.

* `Harmless` — the entry cannot hand out such an error any more, as long as the context of its
  creator is alive;
* `Careful` — a step that keeps every call with a live context at harmless entries;
* `Calm` — what holds of a call in a run of such steps.
-/

namespace IbcRelayer

/-! ## The clients -/

/-- The errors of the decoder are its own. -/
theorem decodeBytes_error {bytes : List UInt8} {err : GoError}
    (h : decodeBytes bytes = .error err) :
    err.is .contextCanceled = false := by
  fun_induction decodeBytes bytes generalizing err with
  | case1 => cases h
  | case6 => cases h
  | case7 high low rest dh dl hl hh err' htail ih =>
    cases h
    exact ih htail
  | _ =>
    cases h
    rfl

/-- A client that does not make up a cancelled context. -/
structure TxClient.Honest {V H : Type} (client : TxClient V H) : Prop where
  check : ∀ {q err}, client.check q = some err → err.is .contextCanceled = false
  next : ∀ {q r r'}, client.next q r = .return r' → canceled r = false → canceled r' = false
  headerTime : ∀ {r}, canceled r = false → canceled (client.headerTime r) = false

/-- Wrapping an answer in a constructor does not change whether it is a cancelled context. -/
theorem canceled_map {α β : Type} (f : α → β) (r : Except GoError α) :
    canceled (r.map f) = canceled r := by
  cases r <;> rfl

/-- The errors about the logs of a receipt are the client's own. -/
theorem EVMBridgeClient.canceled_logs (writeAckEventID : List UInt8) (sequence : UInt64)
    (sourceClientID destClientID : String) (logs : List (Option Log)) :
    canceled (writeAckStatusOfLogs writeAckEventID sequence sourceClientID destClientID logs)
      = false := by
  fun_induction writeAckStatusOfLogs writeAckEventID sequence sourceClientID destClientID logs with
  | case2 rest ih => exact ih
  | case3 log rest hne ih => exact ih
  | case6 log rest heq writeAck hparse hne ih => exact ih
  | _ => rfl

/-- An EVM client: by the query and by the outcome, the errors of the node are passed on or replaced
by errors of the client. -/
theorem EVMBridgeClient.honest (writeAckEventID : List UInt8) :
    (EVMBridgeClient.txClient writeAckEventID).Honest where
  check h := by cases h
  headerTime {r} h := by cases r <;> exact h
  next {q r r'} h hr := by
    cases q <;> cases r <;> simp only [txClient, EVMBridgeClient.next] at h
    case shouldRetryTx.error =>
      split at h
      · cases h
      · cases h
        exact hr
    case packetWriteAckStatus.error =>
      cases h
      split
      · rfl
      · exact hr
    case packetWriteAckStatus.ok =>
      cases h
      rw [canceled_map, canceled_logs]
    case txExecutionStatus.error =>
      cases h
      split
      · exact hr
      · exact hr
    case txFee.error =>
      cases h
      exact hr
    all_goals
      cases h
      rfl

/-- The errors about the attributes of an event are those of the two decoders. -/
theorem CosmosBridgeClient.canceled_attributes
    (unmarshal : List UInt8 → Except String (List (List UInt8)))
    (attributes : List (String × String)) :
    canceled (parseWriteAckStatusForPacket unmarshal attributes) = false := by
  fun_induction parseWriteAckStatusForPacket unmarshal attributes with
  | case2 key value rest hne ih => exact ih
  | case3 key value rest heq err hdecode =>
    have herr : err.is .contextCanceled = false := decodeBytes_error hdecode
    exact herr
  | _ => rfl

/-- The errors about the events of a tx are those about the attributes of one of them. -/
theorem CosmosBridgeClient.canceled_events
    (unmarshal : List UInt8 → Except String (List (List UInt8))) (sequence : UInt64)
    (sourceClientID destClientID : String) (events : List AbciEvent) :
    canceled (writeAckStatusOfEvents unmarshal sequence sourceClientID destClientID events)
      = false := by
  fun_induction writeAckStatusOfEvents unmarshal sequence sourceClientID destClientID events with
  | case1 => rfl
  | case2 event rest h => exact canceled_attributes unmarshal event.attributes
  | case3 event rest h ih => exact ih

/-- A Cosmos client. It also checks the hash of a query before it looks into the cache. -/
theorem CosmosBridgeClient.honest (unmarshal : List UInt8 → Except String (List (List UInt8))) :
    (CosmosBridgeClient.txClient unmarshal).Honest where
  check {q err} h := by
    simp only [txClient, CosmosBridgeClient.check] at h
    split at h
    · cases h
    · rename_i hash err' hdecode
      have herr := decodeBytes_error hdecode
      split at h <;>
      · cases h
        exact herr
  headerTime {r} h := by
    rcases r with err | _ | time
    · exact h
    · rfl
    · rfl
  -- `ShouldRetryTx` goes on after an error that says the tx is not found
  next {q r r'} h hr := by
    cases q <;> cases r <;> simp only [txClient, CosmosBridgeClient.next] at h
    case shouldRetryTx.error =>
      split at h
      · cases h
      · cases h
        exact hr
    case packetWriteAckStatus.error =>
      cases h
      split
      · rfl
      · exact hr
    case packetWriteAckStatus.ok =>
      cases h
      rw [canceled_map, canceled_events]
    case txExecutionStatus.error =>
      cases h
      split
      · exact hr
      · exact hr
    case txFee.error =>
      cases h
      exact hr
    case txFee.ok result =>
      cases h
      cases result.tx <;> rfl
    all_goals
      cases h
      rfl

namespace TxOnce

variable {V H : Type}

/-! ## The condition -/

/-- What the entry hands out, or will hand out while no further context is cancelled, is no error
that wraps `context.Canceled`. -/
def Harmless (cancelled : List Nat) (once : OnceWithTimeout Nat (Except GoError V)) : Prop :=
  match once.run with
  | .ran r => canceled r = false
  | _ => once.action ∉ cancelled

instance (cancelled : List Nat) (once : OnceWithTimeout Nat (Except GoError V)) :
    Decidable (Harmless cancelled once) :=
  match h : once.run with
  | .ran r => decidable_of_iff (canceled r = false) (by rw [Harmless, h])
  | .waiting => decidable_of_iff (once.action ∉ cancelled) (by rw [Harmless, h])
  | .running => decidable_of_iff (once.action ∉ cancelled) (by rw [Harmless, h])

/-- The entry that a call is at. -/
def entry : TxPlace V → Option Nat
  | .holding p => some p
  | .running p => some p
  | _ => none

/-- A call with a live context shares an entry only if it is harmless, and no context is cancelled
whose request a call with a live context waits for. -/
def Careful (s : TxOnce V) : Action V H → Prop
  | .acquire c =>
    ∀ call ∈ s.calls[c]?, call.ctx ∉ s.cancelled →
      ∀ found ∈ s.txOnce.shared (.key call.query.hash) s.now, Harmless s.cancelled found.2
  | .cancel ctx =>
    ∀ call ∈ s.calls, call.ctx ∉ ctx :: s.cancelled →
      ∀ p ∈ entry call.place, ∀ once ∈ s.txOnce.created[p]?, Harmless s.cancelled once →
        Harmless (ctx :: s.cancelled) once
  | _ => True

instance (s : TxOnce V) (a : Action V H) : Decidable (s.Careful a) := by
  cases a <;> unfold Careful <;> infer_instance

/-- No call with a live context has returned an error that wraps `context.Canceled`. -/
def Isolated (s : TxOnce V) : Prop :=
  ∀ call ∈ s.calls, call.ctx ∉ s.cancelled → ∀ r, call.place = .returned r → canceled r = false

/-! ## The invariant -/

/-- A call with a live context is at a harmless entry, or has got no cancelled context from it. -/
def Calm (cancelled : List Nat) (created : List (OnceWithTimeout Nat (Except GoError V)))
    (call : TxCall V) : Prop :=
  call.ctx ∉ cancelled →
    match call.place with
    | .holding p | .running p => ∃ once, created[p]? = some once ∧ Harmless cancelled once
    | .got _ r | .recorded _ r => canceled r = false
    | .returned r => canceled r = false
    | _ => True

/-- Every call is calm. -/
def Inv (s : TxOnce V) : Prop :=
  ∀ (c : Nat) (call : TxCall V), s.calls[c]? = some call →
    Calm s.cancelled s.txOnce.created call

theorem Inv.isolated {s : TxOnce V} (h : s.Inv) : s.Isolated := by
  intro call hcall hlive r hr
  obtain ⟨c, hc⟩ := List.getElem?_of_mem hcall
  have hcalm := h c call hc hlive
  rw [hr] at hcalm
  exact hcalm

/-- A call stays calm if the entries stay, and stay harmless. -/
theorem Calm.mono {cancelled : List Nat}
    {created created' : List (OnceWithTimeout Nat (Except GoError V))}
    {call : TxCall V} (h : Calm cancelled created call)
    (hcreated : ∀ (p : Nat) once, created[p]? = some once → Harmless cancelled once →
      ∃ once', created'[p]? = some once' ∧ Harmless cancelled once') :
    Calm cancelled created' call := by
  intro hlive
  have hcalm := h hlive
  cases hplace : call.place <;> simp only [hplace] at hcalm ⊢
  case holding p =>
    obtain ⟨once, hget, hharmless⟩ := hcalm
    exact hcreated p once hget hharmless
  case running p =>
    obtain ⟨once, hget, hharmless⟩ := hcalm
    exact hcreated p once hget hharmless
  all_goals exact hcalm

/-- One call goes on, and the cache changes. -/
theorem inv_move {s : TxOnce V} {c : Nat} {place : TxPlace V}
    {txOnce : OnceWithKey String Nat (Except GoError V)}
    (h : s.Inv)
    (hcreated : ∀ (p : Nat) once, s.txOnce.created[p]? = some once → Harmless s.cancelled once →
      ∃ once', txOnce.created[p]? = some once' ∧ Harmless s.cancelled once')
    (hplace : ∀ call, s.calls[c]? = some call →
      Calm s.cancelled txOnce.created { call with place }) :
    Inv ({ s with txOnce }.move c place) := by
  intro d call hd
  simp only [move, List.getElem?_modify] at hd
  obtain ⟨old, hold, rfl⟩ := Option.map_eq_some_iff.mp hd
  split
  · rename_i hcd
    exact hplace old (hcd ▸ hold)
  · exact (h d old hold).mono hcreated

/-- Whether an entry is harmless is a matter of its run and its context. -/
theorem harmless_of_run {cancelled : List Nat} {once once' : OnceWithTimeout Nat (Except GoError V)}
    (haction : once'.action = once.action) (hrun : once'.run = once.run)
    (h : Harmless cancelled once) : Harmless cancelled once' := by
  rw [Harmless, haction, hrun]
  exact h

/-- A new entry is under the context of the call that creates it. -/
theorem create_calm {s : TxOnce V} (key : OnceKey String) (ctx : Nat) :
    (∀ (p : Nat) once, s.txOnce.created[p]? = some once →
        (s.txOnce.create key ctx s.now).1.created[p]? = some once)
      ∧ ∃ once,
        (s.txOnce.create key ctx s.now).1.created[(s.txOnce.create key ctx s.now).2]? = some once
        ∧ once.action = ctx ∧ once.run = .waiting := by
  constructor
  · intro p once hget
    have hlt := (List.getElem?_eq_some_iff.mp hget).1
    exact (List.getElem?_append_left hlt).trans hget
  · exact ⟨_, List.getElem?_concat_length, rfl, rfl⟩

/-- The first locked section: an entry that is shared is harmless by `Careful`, and a new one is
under the call's own context. -/
theorem acquire_inv {client : TxClient V H} (hclient : client.Honest) {s : TxOnce V} (h : s.Inv)
    {c : Nat} {query : TxQuery} {ctx : Nat} (hc : s.calls[c]? = some ⟨query, ctx, .calling⟩)
    (hcareful : ctx ∉ s.cancelled →
      ∀ found ∈ s.txOnce.shared (.key query.hash) s.now, Harmless s.cancelled found.2) :
    (s.acquire client c query ctx).Inv := by
  unfold acquire
  split
  · rename_i err herr
    refine inv_move h (fun p once hget hharmless => ⟨once, hget, hharmless⟩) fun call _ _ => ?_
    exact hclient.check herr
  · rcases s.txOnce.acquire_cases (.key query.hash) ctx s.now with
      ⟨p, once, hshared, hget, hacquire⟩ | ⟨-, hacquire⟩
    · rw [hacquire]
      refine inv_move h (fun p once hget hharmless => ⟨once, hget, hharmless⟩) fun call hcall => ?_
      cases hc.symm.trans hcall
      exact fun hlive => ⟨once, hget, hcareful hlive _ hshared⟩
    · rw [hacquire]
      obtain ⟨hold, once, hget, haction, hrun⟩ :=
        create_calm (s := s) (.key query.hash) ctx
      refine inv_move h (fun p once hget hharmless => ⟨once, hold p once hget, hharmless⟩)
        fun call hcall => ?_
      cases hc.symm.trans hcall
      refine fun hlive => ⟨once, hget, ?_⟩
      rw [Harmless, hrun, haction]
      exact hlive

/-- The call runs the action of its entry, or is told its outcome. -/
theorem invoke_inv {s s' : TxOnce V} (h : s.Inv) {c p : Nat} {query : TxQuery} {ctx : Nat}
    (hc : s.calls[c]? = some ⟨query, ctx, .holding p⟩) (hstep : s.invoke c p = some s') :
    s'.Inv := by
  unfold invoke at hstep
  split at hstep
  · cases hstep
  rename_i once hget
  split at hstep
  · rename_i hrun
    cases hstep
    -- the entry is running now, and still under the same context
    have hcreated : ∀ (q : Nat) once', s.txOnce.created[q]? = some once' →
        Harmless s.cancelled once' →
        ∃ once'', (s.txOnce.update p ({ · with run := .running })).created[q]? = some once''
          ∧ Harmless s.cancelled once'' := by
      intro q once' hget' hharmless
      rw [OnceWithKey.update_get, hget']
      split
      · rename_i hpq
        subst hpq
        cases hget.symm.trans hget'
        refine ⟨_, rfl, ?_⟩
        rw [Harmless, hrun] at hharmless
        exact hharmless
      · exact ⟨once', rfl, hharmless⟩
    refine inv_move h hcreated fun call hcall => ?_
    cases hc.symm.trans hcall
    intro hlive
    obtain ⟨once', hget', hharmless⟩ := h c _ hc hlive
    exact hcreated p once' hget' hharmless
  · cases hstep
  · rename_i r hrun
    cases hstep
    refine inv_move h (fun p once hget hharmless => ⟨once, hget, hharmless⟩) fun call hcall => ?_
    cases hc.symm.trans hcall
    intro hlive
    obtain ⟨once', hget', hharmless⟩ := h c _ hc hlive
    cases hget.symm.trans hget'
    rw [Harmless, hrun] at hharmless
    exact hharmless

/-- The request is answered. Only a request whose context is cancelled may be answered with
`context.Canceled`. -/
theorem answer_inv {s s' : TxOnce V} (h : s.Inv) {c p : Nat} {query : TxQuery} {ctx : Nat}
    {r : Except GoError V} (hc : s.calls[c]? = some ⟨query, ctx, .running p⟩)
    (hstep : s.answer c p r = some s') : s'.Inv := by
  unfold answer at hstep
  split at hstep
  · cases hstep
  rename_i once hget
  split at hstep
  on_goal 2 => cases hstep
  rename_i hrun
  split at hstep
  on_goal 2 => cases hstep
  rename_i hanswers
  cases hstep
  -- a call with a live context is at this entry only if the context of the request is alive
  have hr : Harmless s.cancelled once → canceled r = false := by
    intro hharmless
    rw [Harmless, hrun] at hharmless
    have hcontext : once.action ∉ s.cancelled := hharmless
    simpa [answers, hcontext] using hanswers
  refine inv_move h (fun q once' hget' hharmless => ?_) fun call hcall => ?_
  · rw [OnceWithKey.update_get, hget']
    split
    · rename_i hpq
      subst hpq
      cases hget.symm.trans hget'
      exact ⟨_, rfl, hr hharmless⟩
    · exact ⟨once', rfl, hharmless⟩
  · cases hc.symm.trans hcall
    intro hlive
    obtain ⟨once', hget', hharmless⟩ := h c _ hc hlive
    cases hget.symm.trans hget'
    exact hr hharmless

/-- The header is asked for under the context of the call itself. -/
theorem retryUnlessFound_canceled {expiry : Int} {sentTs : Time} {header : Except GoError Time}
    (h : canceled header = false) : canceled (retryUnlessFound expiry sentTs header) = false := by
  cases header with
  | error err => exact h
  | ok headerTs =>
    simp only [retryUnlessFound]
    split <;> rfl

/-- A careful step keeps the calls calm. -/
theorem step_inv {client : TxClient V H} (hclient : client.Honest) {s s' : TxOnce V}
    {a : Action V H} (h : s.Inv) (hcareful : s.Careful a) (hstep : s.step client a = some s') :
    s'.Inv := by
  cases step_cases hstep with
  | call query ctx =>
    intro c call hc
    rcases List.mem_append.mp (List.mem_of_getElem? hc) with hold | hnew
    · obtain ⟨d, hd⟩ := List.getElem?_of_mem hold
      exact h d call hd
    · cases List.mem_singleton.mp hnew
      exact fun _ => trivial
  -- the one step that can make an entry harmful: `Careful` excludes it while others wait for it
  | cancel ctx =>
    intro c call hc hlive
    -- the calls whose context is alive after the step were alive before
    have hlive' : call.ctx ∉ s.cancelled := fun hmem => hlive (List.mem_cons_of_mem _ hmem)
    have hcalm := h c call hc hlive'
    have hentry := hcareful call (List.mem_of_getElem? hc) hlive
    cases hplace : call.place <;> simp only [hplace] at hcalm hentry ⊢
    case holding p =>
      obtain ⟨once, hget, hharmless⟩ := hcalm
      exact ⟨once, hget, hentry p rfl once hget hharmless⟩
    case running p =>
      obtain ⟨once, hget, hharmless⟩ := hcalm
      exact ⟨once, hget, hentry p rfl once hget hharmless⟩
    all_goals exact hcalm
  | tick now => exact h
  | acquire hc => exact acquire_inv hclient h hc (hcareful _ hc)
  | invoke hc hinvoke => exact invoke_inv h hc hinvoke
  | answer hc hanswer => exact answer_inv h hc hanswer
  | @setError c query ctx p r hc =>
    refine inv_move h (fun q once hget hharmless => ?_) fun call hcall => ?_
    · obtain ⟨once', hget', haction, hrun⟩ := s.txOnce.setError_get p q (errorOf r) hget
      exact ⟨once', hget', harmless_of_run haction hrun hharmless⟩
    · cases hc.symm.trans hcall
      intro hlive
      have hr : canceled r = false := h c _ hc hlive
      exact hr
  | @release c query ctx p r hc =>
    refine inv_move h (fun q once hget hharmless => ⟨once, by simpa using hget, hharmless⟩)
      fun call hcall => ?_
    cases hc.symm.trans hcall
    intro hlive
    have hr : canceled r = false := h c _ hc hlive
    cases hnext : client.next query r with
    | «return» r' => exact hclient.next hnext hr
    | latestHeader => trivial
  | header hc hanswers =>
    refine inv_move h (fun p once hget hharmless => ⟨once, hget, hharmless⟩) fun call hcall => ?_
    cases hc.symm.trans hcall
    intro hlive
    have hr := hanswers
    simp only [answers, hlive, decide_false, Bool.or_false, Bool.not_eq_eq_eq_not, Bool.not_true]
      at hr
    exact retryUnlessFound_canceled (hclient.headerTime hr)

/-- The cache of a new client. -/
def start : TxOnce V := { txOnce := { successTimeout := minute, errorTimeout := 5 * 10 ^ 9 } }

/-- The calls are calm after every run of careful steps. -/
theorem run_inv {client : TxClient V H} (hclient : client.Honest) {s : TxOnce V}
    (hrun : Machine.Run (TxOnce.step client) Careful start s) : s.Inv :=
  hrun.inv (fun _ _ hc => by cases hc) (step_inv hclient)

/-- **Calls are isolated from each other's cancellation** in every run of careful steps of the calls
of an EVM client or of a Cosmos client: a call whose context is alive has not returned an error that
wraps `context.Canceled`. -/
theorem careful_calls_isolated (writeAckEventID : List UInt8)
    (unmarshal : List UInt8 → Except String (List (List UInt8))) :
    (∀ s, Machine.Run (TxOnce.step (EVMBridgeClient.txClient writeAckEventID)) Careful start s →
        s.Isolated)
      ∧ ∀ s, Machine.Run (TxOnce.step (CosmosBridgeClient.txClient unmarshal)) Careful start s →
        s.Isolated :=
  ⟨fun _ hrun => (run_inv (EVMBridgeClient.honest _) hrun).isolated,
    fun _ hrun => (run_inv (CosmosBridgeClient.honest _) hrun).isolated⟩

end TxOnce

/-! ## Two runs -/

namespace Sample

def receipt : Receipt where
  status := 1
  effectiveGasPrice := 2
  gasUsed := 21000
  blockNumber := 7
  logs := []

/-- The pipeline asks for the fee of a tx, under the context 1, and the API for its status, under
the context 0. Both are at the entry that the first of them has created. -/
def sharing : List (TxOnce.Action Receipt UInt64) :=
  [.call (.txExecutionStatus "0xd1") 0, .call (.txFee "0xd1") 1, .acquire 0, .acquire 1, .invoke 0]

/-- The end of a call that has an outcome. -/
def leaving (c : Nat) : List (TxOnce.Action Receipt UInt64) := [.setError c, .release c]

/-- The node answers, and the context of the API request is cancelled when it has returned. -/
def answered : List (TxOnce.Action Receipt UInt64) :=
  sharing ++ [.answer 0 (.ok receipt), .invoke 1] ++ leaving 0 ++ [.cancel 0] ++ leaving 1

/-- The API request is cancelled while the node is asked. -/
def cancelledRequest : List (TxOnce.Action Receipt UInt64) :=
  sharing ++ [.cancel 0, .answer 0 (.error ⟨"context canceled", [.contextCanceled]⟩)] ++ leaving 0
    ++ [.invoke 1] ++ leaving 1

end Sample

namespace TxOnce

/-- `careful_calls_isolated` for a run in which a call shares an entry and gets the fee. -/
theorem careful_calls_isolated_fee : ∃ s : TxOnce Receipt,
    Machine.Run (TxOnce.step (EVMBridgeClient.txClient [])) Careful start s
      ∧ s.calls[1]? = some ⟨.txFee "0xd1", 1, .returned (.ok (.fee 42000))⟩ ∧ 0 ∈ s.cancelled
      ∧ s.Isolated := by
  have hscript : (Machine.script (TxOnce.step (EVMBridgeClient.txClient []))
      (fun s a => decide (s.Careful a)) start Sample.answered).any (fun s =>
        s.calls[1]? = some ⟨.txFee "0xd1", 1, .returned (.ok (.fee 42000))⟩
          && s.cancelled.contains 0)
      = true := by
    decide +kernel
  obtain ⟨s, hs, hend⟩ := (Option.any_eq_true _ _).mp hscript
  simp only [Bool.and_eq_true, decide_eq_true_eq, List.contains_iff_mem] at hend
  have hrun := Machine.run_of_script (fun _ _ => of_decide_eq_true) hs
  exact ⟨s, hrun, hend.1, hend.2, (careful_calls_isolated [] fun _ => .ok []).1 s hrun⟩

/-- A call with a live context returns the `context.Canceled` of another one. -/
theorem cancelled_request_reaches_others : ∃ s : TxOnce Receipt,
    Machine.Run (TxOnce.step (EVMBridgeClient.txClient [])) (fun _ _ => True) start s
      ∧ s.calls[1]? = some ⟨.txFee "0xd1", 1, .returned (.error
        ⟨"getting transaction receipt for tx hash 0xd1: context canceled", [.contextCanceled]⟩)⟩
      ∧ 1 ∉ s.cancelled ∧ ¬ s.Isolated := by
  have hscript : (Machine.script (TxOnce.step (EVMBridgeClient.txClient [])) (fun _ _ => true) start
      Sample.cancelledRequest).any (fun s =>
        s.calls[1]? = some ⟨.txFee "0xd1", 1, .returned (.error
          ⟨"getting transaction receipt for tx hash 0xd1: context canceled", [.contextCanceled]⟩)⟩
        && !s.cancelled.contains 1) = true := by
    decide +kernel
  obtain ⟨s, hs, hend⟩ := (Option.any_eq_true _ _).mp hscript
  simp only [Bool.and_eq_true, decide_eq_true_eq, Bool.not_eq_true', List.contains_eq_mem,
    decide_eq_false_iff_not] at hend
  refine ⟨s, Machine.run_of_script (fun _ _ _ => trivial) hs, hend.1, hend.2, fun hisolated => ?_⟩
  exact absurd (hisolated _ (List.mem_of_getElem? hend.1) hend.2 _ rfl) (by decide)

end TxOnce

end IbcRelayer
