import IbcRelayer.Bridge.Cosmos

/-!
# IbcRelayer — the txs that `signAndSubmit` makes of a list of messages

A tx with several client updates is too large to submit, so that `signAndSubmit` submits the updates
one by one and then the other messages. `Follows` says how a submission keeps to a sequence of txs:
it broadcasts them in order, up to the first call that fails.

When all messages are updates nothing is left for the last tx, and an empty one is broadcast. The
function refuses an empty list at its start.
-/

namespace IbcRelayer

open CallTree Prog

/-! ## What happened in a submission -/

abbrev CosmosEvent := CallTree.Event CosmosCall.Answer

/-- The call did not fail. -/
def CosmosEvent.Succeeds : CosmosEvent → Prop
  | ⟨.convertAndEncode .., answer⟩ => ∃ address : String, answer = .ok address
  | ⟨.accountInfo _, answer⟩ => ∃ account : BaseAccount, answer = .ok (some account)
  | ⟨.setMsgs _, answer⟩ => answer = .ok ()
  | ⟨.sign .., answer⟩ => ∃ signature : List UInt8, answer = .ok signature
  | ⟨.encode _, answer⟩ => ∃ bytes : List UInt8, answer = .ok bytes
  | ⟨.simulate _, answer⟩ => ∃ gasUsed : UInt64, answer = .ok (some gasUsed)
  | ⟨.broadcastTxSync .., answer⟩ => ∃ result : ResultBroadcastTx, answer = .ok result
      ∧ result.code = 0
  | ⟨.sleep _, _⟩ => True

/-- The messages of the tx that a call is about. -/
def CosmosCall.msgs : CosmosCall → Option (List SdkMsg)
  | .setMsgs msgs => some msgs
  | .sign _ tx _ => some tx.msgs
  | .encode signed => some signed.tx.msgs
  | .broadcastTxSync _ signed => some signed.tx.msgs
  | _ => none

/-- The messages of a tx that is broadcast. -/
def CosmosEvent.broadcast : CosmosEvent → Option (List SdkMsg)
  | ⟨.broadcastTxSync _ signed, _⟩ => some signed.tx.msgs
  | _ => none

/-- The messages of a tx that the node has taken, and its hash. -/
def CosmosEvent.taken : CosmosEvent → Option (List SdkMsg × List UInt8)
  | ⟨.broadcastTxSync _ signed, answer⟩ =>
    match (answer : Except GoError ResultBroadcastTx) with
    | .ok result => if result.code = 0 then some (signed.tx.msgs, result.hash) else none
    | .error _ => none
  | _ => none

/-- The txs that were broadcast, the first one first. -/
def broadcasts (evs : List CosmosEvent) : List (List SdkMsg) :=
  evs.reverse.filterMap CosmosEvent.broadcast

/-- The txs that the node has taken, the first one first. -/
def takenTxs (evs : List CosmosEvent) : List (List SdkMsg × List UInt8) :=
  evs.reverse.filterMap CosmosEvent.taken

/-- The tx of a broadcast is the one that the call is about. -/
theorem CosmosEvent.msgs_of_broadcast {e : CosmosEvent} {msgs : List SdkMsg}
    (h : e.broadcast = some msgs) : e.call.msgs = some msgs := by
  obtain ⟨c, answer⟩ := e
  cases c with
  | broadcastTxSync bytes signed => exact h
  | _ => cases h

/-- Events are listed with the latest first, so the order is turned round. -/
@[simp] theorem broadcasts_append (evs evs' : List CosmosEvent) :
    broadcasts (evs' ++ evs) = broadcasts evs ++ broadcasts evs' := by
  simp [broadcasts]

@[simp] theorem takenTxs_append (evs evs' : List CosmosEvent) :
    takenTxs (evs' ++ evs) = takenTxs evs ++ takenTxs evs' := by
  simp [takenTxs]

/-! ## Keeping to a sequence of txs -/

/-- A submission that only makes txs of `txs` and broadcasts those of `plan` in order. It reaches
the end of the plan, with a `good` result, iff no call has failed. -/
structure Follows {α : Type} (txs plan : List (List SdkMsg)) (good : α → Prop)
    (r : Except GoError α) (evs : List CosmosEvent) : Prop where
  made : ∀ e ∈ evs, ∀ msgs ∈ e.call.msgs, msgs ∈ txs
  broadcasts : broadcasts evs <+: plan
  taken : (takenTxs evs).map (·.1) <+: plan
  succeeds : (∃ a, r = .ok a ∧ good a) ↔ ∀ e ∈ evs, e.Succeeds
  finished : ∀ a, r = .ok a → good a →
    IbcRelayer.broadcasts evs = plan ∧ (takenTxs evs).map (·.1) = plan

section Rules

variable {α β : Type} {txs plan plan' : List (List SdkMsg)} {good : α → Prop}

theorem follows_pure {a : α} (ha : good a) :
    Ensures (pure a : Submit α).run (Follows txs [] good) := by
  change Follows txs [] good (.ok a) []
  exact ⟨by simp, List.prefix_refl _, List.prefix_refl _, by simp [ha], fun _ _ _ => ⟨rfl, rfl⟩⟩

/-- Every result has the property `Q`. -/
def Results (Q : α → Prop) (r : Except GoError α) (_ : List CosmosEvent) : Prop :=
  ∀ a, r = .ok a → Q a

/-- What is known of the first result can be used for the second. -/
theorem results_bind {Q : α → Prop} {Q' : β → Prop} {x : Submit α} {f : α → Submit β}
    (hx : Ensures x.run (Results Q)) (hf : ∀ a, Q a → Ensures (f a).run (Results Q')) :
    Ensures (x >>= f).run (Results Q') := by
  rw [ensures_except_bind]
  refine hx.mono fun r evs h => ?_
  cases r with
  | error err => exact fun _ hok => by cases hok
  | ok a => exact hf a (h a rfl)

theorem results_true (x : Submit α) : Ensures x.run (Results fun _ => True) :=
  (ensures_true _).mono fun _ _ _ _ _ => trivial

/-- Sequencing. A result that is not good ends the submission. -/
theorem follows_bind {Q : α → Prop} {good' : β → Prop} {x : Submit α} {f : α → Submit β}
    (hx : Ensures x.run (Follows txs plan good)) (hQ : Ensures x.run (Results Q))
    (hf : ∀ a, Q a → good a → Ensures (f a).run (Follows txs plan' good'))
    (hbad : ∀ a, ¬ good a → ∃ err, f a = throw err) :
    Ensures (x >>= f).run (Follows txs (plan ++ plan') good') := by
  rw [ensures_except_bind]
  refine (hx.and hQ).mono fun r evs ⟨h, hresult⟩ => ?_
  -- the end of a submission whose first half has failed
  have hfailed : ∀ err, ¬ (∃ a, r = .ok a ∧ good a) →
      Follows txs (plan ++ plan') good' (.error err) evs := fun err hno =>
    ⟨h.made, h.broadcasts.trans (List.prefix_append _ _), h.taken.trans (List.prefix_append _ _),
      ⟨fun ⟨_, hok, _⟩ => (by cases hok), fun hall => absurd (h.succeeds.mpr hall) hno⟩,
      fun _ hok => by cases hok⟩
  cases r with
  | error err => exact hfailed err (by simp)
  | ok a =>
    by_cases ha : good a
    -- the first half has reached the end of its plan
    · obtain ⟨hbroadcasts, htaken⟩ := h.finished a rfl ha
      have hall := h.succeeds.mp ⟨a, rfl, ha⟩
      refine (hf a (hresult a rfl) ha).mono fun r' evs' h' => ⟨?_, ?_, ?_, ?_, ?_⟩
      · exact List.forall_mem_append.mpr ⟨h'.made, h.made⟩
      · rw [broadcasts_append, hbroadcasts]
        exact (List.prefix_append_right_inj plan).mpr h'.broadcasts
      · rw [takenTxs_append, List.map_append, htaken]
        exact (List.prefix_append_right_inj plan).mpr h'.taken
      · rw [h'.succeeds, List.forall_mem_append]
        exact ⟨fun hall' => ⟨hall', hall⟩, fun hall' => hall'.1⟩
      · intro b hok hb
        obtain ⟨hbroadcasts', htaken'⟩ := h'.finished b hok hb
        rw [broadcasts_append, takenTxs_append, List.map_append, hbroadcasts, hbroadcasts', htaken,
          htaken']
        exact ⟨rfl, rfl⟩
    -- the caller looks at the result and gives up
    · obtain ⟨err, herr⟩ := hbad a ha
      have hno : ¬ ∃ a', Except.ok (ε := GoError) a = .ok a' ∧ good a' := by
        rintro ⟨a', heq, ha'⟩
        cases heq
        exact ha ha'
      dsimp only
      rw [herr]
      exact hfailed err hno

theorem follows_bind_of_all {good' : β → Prop} {x : Submit α} {f : α → Submit β}
    (hx : Ensures x.run (Follows txs plan fun _ => True))
    (hf : ∀ a, Ensures (f a).run (Follows txs plan' good')) :
    Ensures (x >>= f).run (Follows txs (plan ++ plan') good') :=
  follows_bind hx (results_true x) (fun a _ _ => hf a) fun _ ha => absurd trivial ha

theorem follows_quiet {good' : β → Prop} {x : Submit α} {f : α → Submit β}
    (hx : Ensures x.run (Follows txs [] fun _ => True))
    (hf : ∀ a, Ensures (f a).run (Follows txs plan good')) :
    Ensures (x >>= f).run (Follows txs plan good') :=
  follows_bind_of_all hx hf

theorem follows_checked (good : α → Prop) {good' : β → Prop} {x : Submit α} {f : α → Submit β}
    (hx : Ensures x.run (Follows txs [] good))
    (hf : ∀ a, good a → Ensures (f a).run (Follows txs plan good'))
    (hbad : ∀ a, ¬ good a → ∃ err, f a = throw err) :
    Ensures (x >>= f).run (Follows txs plan good') :=
  follows_bind hx (results_true x) (fun a _ => hf a) hbad

/-- Wrapping the error of a step. -/
theorem follows_ask {x : Submit α} (msg : String) (hx : Ensures x.run (Follows txs plan good)) :
    Ensures (Submit.ask msg x).run (Follows txs plan good) := by
  change Ensures (x.run >>= _) _
  refine hx.bind fun r evs h => ?_
  cases r with
  | ok a => simpa using h
  | error err =>
    exact ⟨by simpa using h.made, by simpa using h.broadcasts, by simpa using h.taken,
      by simpa using h.succeeds, fun _ hok => by cases hok⟩

/-- A call that broadcasts nothing. -/
theorem follows_call {c : CosmosCall} {k : c.Answer → Except GoError α}
    (hmade : ∀ msgs ∈ c.msgs, msgs ∈ txs)
    (hquiet : ∀ answer, CosmosEvent.broadcast ⟨c, answer⟩ = none
      ∧ CosmosEvent.taken ⟨c, answer⟩ = none)
    (hgood : ∀ answer, (∃ a, k answer = .ok a ∧ good a) ↔ CosmosEvent.Succeeds ⟨c, answer⟩) :
    Ensures (.call c fun answer => .done (k answer)) (Follows txs [] good) := by
  intro answer
  obtain ⟨hbroadcast, htaken⟩ := hquiet answer
  have hnone : broadcasts [⟨c, answer⟩] = [] ∧ takenTxs [⟨c, answer⟩] = [] := by
    simp [broadcasts, takenTxs, hbroadcast, htaken]
  refine ⟨by simpa using hmade, ?_, ?_, by simpa using hgood answer, fun _ _ _ => ?_⟩
  · rw [List.nil_append, hnone.1]
  · rw [List.nil_append, hnone.2, List.map_nil]
  · rw [List.nil_append, hnone.1, hnone.2, List.map_nil]
    exact ⟨rfl, rfl⟩

/-- A broadcast is one tx of the plan. A node that refuses it answers with a code, which the caller
has to look at. -/
theorem follows_broadcast (bytes : List UInt8) (signed : SignedTx) (hmsgs : signed.tx.msgs ∈ txs) :
    Ensures
      (.call (.broadcastTxSync bytes signed) .done : Prog _ (Except GoError ResultBroadcastTx))
      (Follows txs [signed.tx.msgs] fun result => result.code = 0) := by
  intro answer
  let e : CosmosEvent := ⟨.broadcastTxSync bytes signed, answer⟩
  have htaken : takenTxs [e] = e.taken.toList := by
    unfold takenTxs
    cases h : e.taken <;> simp [h]
  have hsucceeds : e.Succeeds ↔ ∀ e' ∈ [e], CosmosEvent.Succeeds e' := by simp
  refine ⟨by simpa [CosmosCall.msgs] using hmsgs, List.prefix_refl _, ?_, hsucceeds,
    fun result hok hcode => ⟨rfl, ?_⟩⟩
  · rw [List.nil_append, htaken]
    rcases answer with err | result
    · exact List.nil_prefix
    · by_cases hcode : result.code = 0
      · simp [e, CosmosEvent.taken, hcode]
      · simp [e, CosmosEvent.taken, hcode]
  · rw [List.nil_append, htaken]
    subst hok
    simp [e, CosmosEvent.taken, hcode]

/-- The result is the hash of the last tx that the node has taken. -/
def HashOfLast (r : Except GoError (List UInt8)) (evs : List CosmosEvent) : Prop :=
  ∀ hash, r = .ok hash → (takenTxs evs).getLast?.map (·.2) = some hash

/-- The last tx of the second part is the last one of both. -/
theorem hashOfLast_bind {x : Submit α} {f : α → Submit (List UInt8)}
    (hf : ∀ a, Ensures (f a).run HashOfLast) : Ensures (x >>= f).run HashOfLast := by
  rw [ensures_except_bind]
  refine (ensures_true _).mono fun r evs _ => ?_
  cases r with
  | error err => exact fun _ hok => by cases hok
  | ok a =>
    refine (hf a).mono fun r' evs' h hash hok => ?_
    obtain ⟨last, hlast, rfl⟩ := Option.map_eq_some_iff.mp (h hash hok)
    rw [takenTxs_append, List.getLast?_append, hlast]
    rfl

end Rules

/-! ## The functions of the client -/

namespace CosmosBridgeClient

variable (client : CosmosBridgeClient) {txs : List (List SdkMsg)}

/-- A client that sets a fee knows how to compute it. -/
theorem getTxFee_ok (hdenom : client.feeDenom ≠ "") (gasLimit : UInt64) :
    ∃ fee, client.getTxFee gasLimit = .ok fee := by
  unfold getTxFee
  rw [if_neg hdenom, if_neg client.oneFee]
  split
  · exact ⟨_, rfl⟩
  · exact ⟨_, rfl⟩

/-- Signing and encoding are two calls that broadcast nothing. -/
theorem signAndEncode_follows (tx : CosmosTx) (account : BaseAccount) (htx : tx.msgs ∈ txs) :
    Ensures (client.signAndEncode tx account).run (Follows txs [] fun _ => True) := by
  refine follows_quiet (follows_ask _ ?_) fun signature => ?_
  · exact follows_call (c := .sign client.chainID tx account) (k := id)
      (by simpa [CosmosCall.msgs] using htx) (fun _ => ⟨rfl, rfl⟩)
      fun _ => ⟨fun ⟨a, h, _⟩ => ⟨a, h⟩, fun ⟨a, h⟩ => ⟨a, h, trivial⟩⟩
  refine follows_quiet (follows_ask _ ?_) fun bytes => follows_pure trivial
  exact follows_call (c := .encode { tx, signature }) (k := id)
    (by simpa [CosmosCall.msgs] using htx) (fun _ => ⟨rfl, rfl⟩)
    fun _ => ⟨fun ⟨a, h, _⟩ => ⟨a, h⟩, fun ⟨a, h⟩ => ⟨a, h, trivial⟩⟩

theorem signAndEncode_results (tx : CosmosTx) (account : BaseAccount) :
    Ensures (client.signAndEncode tx account).run (Results fun signed => signed.1.tx = tx) := by
  refine results_bind (results_true _) fun signature _ => ?_
  refine results_bind (results_true _) fun bytes _ => ?_
  rintro _ ⟨⟩
  rfl

/-- The fee is computed without a call, and without an error. -/
theorem txFeeAmount_follows (gasLimit : UInt64) :
    Ensures (client.txFeeAmount gasLimit).run (Follows txs [] fun _ => True) := by
  unfold txFeeAmount
  split
  · rename_i hdenom
    obtain ⟨fee, hfee⟩ := client.getTxFee_ok hdenom gasLimit
    rw [hfee]
    exact follows_pure trivial
  · exact follows_pure trivial

/-- The gas is estimated by a simulation of the signed tx; an answer without gas info is an error.
-/
theorem getEstimatedGasLimit_follows (tx : CosmosTx) (account : BaseAccount)
    (htx : tx.msgs ∈ txs) :
    Ensures (client.getEstimatedGasLimit tx account).run (Follows txs [] fun _ => True) := by
  refine follows_quiet (client.signAndEncode_follows tx account htx)
    fun (_, bytes) => ?_
  refine follows_checked (fun gasInfo : Option UInt64 => gasInfo.isSome = true)
    (follows_ask _ ?_) (fun gasInfo hsome => ?_) fun gasInfo hnone => ?_
  · refine follows_call (c := .simulate bytes) (k := id) (by simp [CosmosCall.msgs])
      (fun _ => ⟨rfl, rfl⟩) fun answer => ?_
    constructor
    · rintro ⟨gasInfo, h, hsome⟩
      obtain ⟨gasUsed, rfl⟩ := Option.isSome_iff_exists.mp hsome
      exact ⟨gasUsed, h⟩
    · rintro ⟨gasUsed, h⟩
      exact ⟨some gasUsed, h, rfl⟩
  · obtain ⟨gasUsed, rfl⟩ := Option.isSome_iff_exists.mp hsome
    exact follows_pure trivial
  · obtain rfl := Option.not_isSome_iff_eq_none.mp hnone
    exact ⟨_, rfl⟩

/-- `signAndSubmitMessages` broadcasts one tx, which holds all the messages. -/
theorem signAndSubmitMessages_follows (msgs : List SdkMsg) (hmsgs : msgs ∈ txs) :
    Ensures (client.signAndSubmitMessages msgs).run (Follows txs [msgs] fun _ => True) := by
  refine follows_quiet (follows_ask _ ?_) fun bech32Address => ?_
  · exact follows_call (c := .convertAndEncode client.addressPrefix client.signerAddress) (k := id)
      (by simp [CosmosCall.msgs]) (fun _ => ⟨rfl, rfl⟩)
      fun _ => ⟨fun ⟨a, h, _⟩ => ⟨a, h⟩, fun ⟨a, h⟩ => ⟨a, h, trivial⟩⟩
  refine follows_checked (fun account : Option BaseAccount => account.isSome = true)
    (follows_ask _ ?_) (fun account hsome => ?_) fun account hnone => ?_
  · refine follows_call (c := .accountInfo bech32Address) (k := id) (by simp [CosmosCall.msgs])
      (fun _ => ⟨rfl, rfl⟩) fun answer => ?_
    constructor
    · rintro ⟨account, h, hsome⟩
      obtain ⟨accountInfo, rfl⟩ := Option.isSome_iff_exists.mp hsome
      exact ⟨accountInfo, h⟩
    · rintro ⟨accountInfo, h⟩
      exact ⟨some accountInfo, h, rfl⟩
  · obtain ⟨accountInfo, rfl⟩ := Option.isSome_iff_exists.mp hsome
    refine follows_quiet (follows_ask _ ?_) fun _ => ?_
    · exact follows_call (c := .setMsgs msgs) (k := id) (by simpa [CosmosCall.msgs] using hmsgs)
        (fun _ => ⟨rfl, rfl⟩) fun _ => ⟨fun ⟨_, h, _⟩ => h, fun h => ⟨(), h, trivial⟩⟩
    refine follows_quiet
      (follows_ask _ (client.getEstimatedGasLimit_follows { msgs } accountInfo hmsgs))
      fun gasLimit => ?_
    refine follows_quiet (client.txFeeAmount_follows gasLimit) fun feeAmount => ?_
    refine follows_bind
      (client.signAndEncode_follows { msgs, gasLimit, feeAmount } accountInfo hmsgs)
      (client.signAndEncode_results _ _) (fun (signed, bytes) hsigned _ => ?_)
      fun _ hno => absurd trivial hno
    change signed.tx = _ at hsigned
    -- the tx that is broadcast has the messages, the gas limit and the fee of this call
    have hsignedMsgs : signed.tx.msgs ∈ txs := by rwa [hsigned]
    have hbroadcast := follows_broadcast bytes signed hsignedMsgs
    rw [hsigned] at hbroadcast
    refine follows_bind (follows_ask _ hbroadcast) (results_true _)
      (fun result _ hcode => ?_) fun result hcode => ?_
    · rw [if_neg (not_not.mpr hcode)]
      exact follows_pure trivial
    · rw [if_pos hcode]
      exact ⟨_, rfl⟩
  · obtain rfl := Option.not_isSome_iff_eq_none.mp hnone
    exact ⟨_, rfl⟩

/-- The hash comes from the answer to the broadcast. -/
theorem signAndSubmitMessages_hash (msgs : List SdkMsg) :
    Ensures (client.signAndSubmitMessages msgs).run HashOfLast := by
  refine hashOfLast_bind fun bech32Address => ?_
  refine hashOfLast_bind fun account => ?_
  cases account with
  | none => exact fun _ hok => by cases hok
  | some accountInfo =>
    refine hashOfLast_bind fun _ => hashOfLast_bind fun gasLimit => ?_
    refine hashOfLast_bind fun feeAmount => hashOfLast_bind fun (signed, bytes) => ?_
    rintro (err | result)
    · exact fun _ hok => by cases hok
    · change Ensures (if result.code ≠ 0 then throw _ else pure result.hash : Submit _).run _
      split
      · exact fun _ hok => by cases hok
      · rename_i hcode
        rintro _ ⟨⟩
        simp [takenTxs, CosmosEvent.taken, not_not.mp hcode]

/-- The loop submits the client updates in order and returns the other messages. -/
theorem submitClientUpdates_follows (numClientUpdates numSubmitted : Nat) (msgs : List SdkMsg)
    (hmsgs : ∀ msg ∈ msgs, isUpdateClient msg = true → [msg] ∈ txs) :
    Ensures (client.submitClientUpdates numClientUpdates numSubmitted msgs).run
      (Follows txs ((msgs.filter isUpdateClient).map ([·])) fun _ => True) := by
  induction msgs generalizing numSubmitted with
  | nil => exact follows_pure trivial
  | cons msg rest ih =>
    have hrest : ∀ msg ∈ rest, isUpdateClient msg = true → [msg] ∈ txs :=
      fun msg hmem => hmsgs msg (List.mem_cons_of_mem _ hmem)
    rw [submitClientUpdates]
    -- an update is a tx of its own, followed by a pause; another message is kept for later
    by_cases hupdate : isUpdateClient msg = true
    · rw [if_neg (not_not.mpr hupdate), List.filter_cons_of_pos hupdate, List.map_cons]
      have hone := client.signAndSubmitMessages_follows [msg] (hmsgs msg List.mem_cons_self hupdate)
      refine follows_bind_of_all (follows_ask _ hone) fun _ => ?_
      refine follows_quiet ?_ fun _ => ih (numSubmitted + 1) hrest
      exact follows_call (c := .sleep client.txSubmissionDelay) (k := fun _ => .ok ())
        (by simp [CosmosCall.msgs]) (fun _ => ⟨rfl, rfl⟩)
        fun _ => ⟨fun _ => trivial, fun _ => ⟨(), rfl, trivial⟩⟩
    · rw [if_pos hupdate, List.filter_cons_of_neg hupdate, ← List.append_nil (List.map _ _)]
      exact follows_bind_of_all (ih numSubmitted hrest) fun _ => follows_pure trivial

/-- The messages that the loop has not submitted. -/
theorem submitClientUpdates_results (numClientUpdates numSubmitted : Nat) (msgs : List SdkMsg) :
    Ensures (client.submitClientUpdates numClientUpdates numSubmitted msgs).run
      (Results fun others => others = msgs.filter (!isUpdateClient ·)) := by
  induction msgs generalizing numSubmitted with
  | nil =>
    rintro _ ⟨⟩
    rfl
  | cons msg rest ih =>
    rw [submitClientUpdates]
    by_cases hupdate : isUpdateClient msg = true
    · rw [if_neg (not_not.mpr hupdate), List.filter_cons_of_neg (by simpa using hupdate)]
      refine results_bind (results_true _) fun _ _ => ?_
      exact results_bind (results_true _) fun _ _ => ih (numSubmitted + 1)
    · rw [if_pos hupdate, List.filter_cons_of_pos (by simpa using hupdate)]
      refine results_bind (ih numSubmitted) fun others hothers => ?_
      rintro _ ⟨⟩
      rw [hothers]

/-- The txs that the code makes of the messages. -/
def txsOf (msgs : List SdkMsg) : List (List SdkMsg) :=
  if msgs.countP isUpdateClient > 1 then
    (msgs.filter isUpdateClient).map ([·]) ++ [msgs.filter (!isUpdateClient ·)]
  else
    [msgs]

/-- A submission keeps to the txs that the code makes. -/
theorem submitMsgs_follows (msgs : List SdkMsg) :
    Ensures (client.submitMsgs msgs).run (Follows (txsOf msgs) (txsOf msgs) fun _ => True) := by
  by_cases hmany : msgs.countP isUpdateClient > 1
  · simp only [submitMsgs, txsOf, if_pos hmany]
    refine follows_bind (client.submitClientUpdates_follows _ _ _ fun msg hmem hupdate => ?_)
      (client.submitClientUpdates_results _ _ _) (fun others hothers _ => ?_)
      fun _ hno => absurd trivial hno
    · exact List.mem_append_left _ (List.mem_map_of_mem (List.mem_filter.mpr ⟨hmem, hupdate⟩))
    · rw [hothers]
      exact client.signAndSubmitMessages_follows _ (by simp)
  · simp only [submitMsgs, txsOf, if_neg hmany]
    exact client.signAndSubmitMessages_follows _ (by simp)

/-- The last call of `submitMsgs` is to `signAndSubmitMessages`, whose hash is returned. -/
theorem submitMsgs_hash (msgs : List SdkMsg) :
    Ensures (client.submitMsgs msgs).run HashOfLast := by
  by_cases hmany : msgs.countP isUpdateClient > 1
  · simp only [submitMsgs, if_pos hmany]
    exact hashOfLast_bind fun others => client.signAndSubmitMessages_hash others
  · simp only [submitMsgs, if_neg hmany]
    exact client.signAndSubmitMessages_hash msgs

/-- The txs that are to be made of the messages: none is empty. -/
def plannedTxs (msgs : List SdkMsg) : List (List SdkMsg) :=
  if msgs.countP isUpdateClient > 1 then
    (msgs.filter isUpdateClient).map ([·])
      ++ if msgs.filter (!isUpdateClient ·) = [] then [] else [msgs.filter (!isUpdateClient ·)]
  else
    [msgs]

/-- Every message is in the plan once. -/
theorem plannedTxs_flatten (msgs : List SdkMsg) : (plannedTxs msgs).flatten.Perm msgs := by
  unfold plannedTxs
  split
  · have hsingle : ∀ l : List SdkMsg, (l.map ([·])).flatten = l := fun l => by
      rw [← List.flatMap_def, List.flatMap_singleton']
    rw [List.flatten_append, hsingle]
    split
    · rename_i hnone
      simpa [hnone] using List.filter_append_perm isUpdateClient msgs
    · simpa using List.filter_append_perm isUpdateClient msgs
  · simp

/-- All messages are client updates, and there are several. -/
def OnlyUpdates (msgs : List SdkMsg) : Prop :=
  msgs.countP isUpdateClient > 1 ∧ ∀ msg ∈ msgs, isUpdateClient msg = true

/-- These are the planned txs, unless there are only updates. -/
theorem txsOf_eq {msgs : List SdkMsg} (h : ¬ OnlyUpdates msgs) : txsOf msgs = plannedTxs msgs := by
  unfold txsOf plannedTxs
  split
  · rename_i hmany
    have hothers : msgs.filter (!isUpdateClient ·) ≠ [] := fun hnil =>
      h ⟨hmany, by simpa [List.filter_eq_nil_iff] using hnil⟩
    rw [if_neg hothers]
  · rfl

/-- In that case none of them is empty. -/
theorem txsOf_nonempty {msgs : List SdkMsg} (hmsgs : msgs ≠ []) (h : ¬ OnlyUpdates msgs) :
    [] ∉ txsOf msgs := by
  intro hnil
  unfold txsOf at hnil
  split at hnil
  · rename_i hmany
    rcases List.mem_append.mp hnil with hnil | hnil
    · simp at hnil
    · have hothers := (List.mem_singleton.mp hnil).symm
      exact h ⟨hmany, by simpa [List.filter_eq_nil_iff] using hothers⟩
  · exact hmsgs (List.mem_singleton.mp hnil).symm

theorem empty_mem_txsOf {msgs : List SdkMsg} (h : OnlyUpdates msgs) : [] ∈ txsOf msgs := by
  have hothers : msgs.filter (!isUpdateClient ·) = [] := by
    simpa [List.filter_eq_nil_iff] using h.2
  rw [txsOf, if_pos h.1, hothers]
  simp

/-- What a submission of these messages is to do: no tx is empty, the planned txs are broadcast in
order up to the first call that fails, and the hash returned is that of the last tx. -/
structure Splits (msgs : List SdkMsg) (r : Except GoError (List UInt8)) (evs : List CosmosEvent) :
    Prop where
  nonempty : ∀ e ∈ evs, e.call.msgs ≠ some []
  broadcasts : broadcasts evs <+: plannedTxs msgs
  taken : (takenTxs evs).map (·.1) <+: plannedTxs msgs
  succeeds : (∃ hash, r = .ok hash) ↔ ∀ e ∈ evs, CosmosEvent.Succeeds e
  finished : ∀ hash, r = .ok hash →
    IbcRelayer.broadcasts evs = plannedTxs msgs
      ∧ (takenTxs evs).map (·.1) = plannedTxs msgs
      ∧ (takenTxs evs).getLast?.map (·.2) = some hash

/-- What `submitMsgs` does, in terms of the plan. -/
theorem submitMsgs_splits {msgs : List SdkMsg} (hmsgs : msgs ≠ []) (h : ¬ OnlyUpdates msgs) :
    Ensures (client.submitMsgs msgs).run (Splits msgs) := by
  refine ((client.submitMsgs_follows msgs).and (client.submitMsgs_hash msgs)).mono
    fun r evs ⟨hfollows, hhash⟩ => ?_
  have hfinished := fun hash hok => hfollows.finished hash hok trivial
  rw [txsOf_eq h] at hfinished
  refine ⟨fun e he hnil => ?_, ?_, ?_, ?_, fun hash hok => ?_⟩
  · exact txsOf_nonempty hmsgs h (hfollows.made e he [] hnil)
  · rw [← txsOf_eq h]
    exact hfollows.broadcasts
  · rw [← txsOf_eq h]
    exact hfollows.taken
  · rw [← hfollows.succeeds]
    simp
  · exact ⟨(hfinished hash hok).1, (hfinished hash hok).2, hhash hash hok⟩

/-- A node and a signer that never fail. -/
def neverFails : (c : CosmosCall) → c.Answer
  | .convertAndEncode .. => .ok ""
  | .accountInfo _ => .ok (some ⟨0, 0⟩)
  | .setMsgs _ => .ok ()
  | .sign .. => .ok []
  | .encode _ => .ok []
  | .simulate _ => .ok (some 0)
  | .broadcastTxSync .. => .ok ⟨0, "", []⟩
  | .sleep _ => ()

theorem neverFails_succeeds (c : CosmosCall) : CosmosEvent.Succeeds ⟨c, neverFails c⟩ := by
  cases c with
  | setMsgs msgs => exact rfl
  | sleep delay => exact trivial
  | broadcastTxSync bytes tx => exact ⟨_, rfl, rfl⟩
  | _ => exact ⟨_, rfl⟩

/-- An empty tx is broadcast when there are only client updates. -/
theorem submitMsgs_not_splits {msgs : List SdkMsg} (h : OnlyUpdates msgs) :
    ¬ Ensures (client.submitMsgs msgs).run (Splits msgs) := by
  intro hsplits
  obtain ⟨evs, ⟨hsplit, hfollows⟩, -, hanswers⟩ :=
    (hsplits.and (client.submitMsgs_follows msgs)).run (fun (_ : Unit) _ _ => ())
      (fun _ => neverFails) ()
  -- nothing fails, so the end of the plan is reached
  have hall : ∀ e ∈ evs, CosmosEvent.Succeeds e := by
    rintro ⟨c, answer⟩ he
    obtain ⟨-, hanswer⟩ := hanswers _ he
    change answer = neverFails c at hanswer
    subst hanswer
    exact neverFails_succeeds c
  obtain ⟨hash, hok⟩ := hsplit.succeeds.mpr hall
  obtain ⟨hbroadcasts, -⟩ := hfollows.finished hash hok trivial
  have hmem := empty_mem_txsOf h
  rw [← hbroadcasts] at hmem
  obtain ⟨e, he, hempty⟩ := List.mem_filterMap.mp hmem
  exact hsplit.nonempty e (List.mem_reverse.mp he) (CosmosEvent.msgs_of_broadcast hempty)

end CosmosBridgeClient

open CosmosBridgeClient in
/-- **Which messages are split as planned**: all but several client updates with nothing else. For a
tx body that can be decoded and has a message, whatever the node and the signer answer,
`signAndSubmit` broadcasts the planned txs in order, up to the first call that fails, and the plan
holds every message once. -/
theorem client_updates_split_iff (client : CosmosBridgeClient)
    (unmarshal : List UInt8 → Except GoError (List CodecAny))
    (unpackAny : CodecAny → Except GoError SdkMsg) (bz : List UInt8) {messages : List CodecAny}
    (hmessages : unmarshal bz = .ok messages) (hnonempty : messages ≠ []) {msgs : List SdkMsg}
    (hmsgs : messages.mapM unpackAny = .ok msgs) :
    (Ensures (client.signAndSubmit unmarshal unpackAny bz).run (Splits msgs)
        ∧ (plannedTxs msgs).flatten.Perm msgs)
      ↔ ¬ OnlyUpdates msgs := by
  have hprogram : client.signAndSubmit unmarshal unpackAny bz = client.submitMsgs msgs := by
    simp only [signAndSubmit, hmessages, hmsgs]
    rw [if_neg hnonempty]
  -- a list that is not empty stays so when its members are unpacked
  have hne : msgs ≠ [] := by
    obtain ⟨message, rest, rfl⟩ := List.exists_cons_of_ne_nil hnonempty
    rw [List.mapM_cons] at hmsgs
    rintro rfl
    cases hfirst : unpackAny message with
    | error err =>
      rw [hfirst] at hmsgs
      cases hmsgs
    | ok msg =>
      rw [hfirst] at hmsgs
      change (rest.mapM unpackAny >>= fun msgs => pure (msg :: msgs)) = .ok [] at hmsgs
      cases hrest : rest.mapM unpackAny with
      | error err =>
        rw [hrest] at hmsgs
        cases hmsgs
      | ok msgs =>
        rw [hrest] at hmsgs
        cases hmsgs
  rw [hprogram]
  constructor
  · exact fun hsplits honly => client.submitMsgs_not_splits honly hsplits.1
  · exact fun honly => ⟨client.submitMsgs_splits hne honly, plannedTxs_flatten msgs⟩

namespace Sample

def cosmosClient : CosmosBridgeClient where
  chainID := "cosmoshub-4"
  addressPrefix := "cosmos"
  signerAddress := [1]
  signerText := "\x01"
  gasPrice := ⟨0, 0⟩
  feeDenom := "uatom"
  feeAmount := 5000
  txSubmissionDelay := 2 * 10 ^ 9
  oneFee := by decide

/-- A tx body with one message for each byte: a client update for an even one. -/
def unmarshalBytes (bz : List UInt8) : Except GoError (List CodecAny) :=
  .ok (bz.map fun b =>
    ⟨if b % 2 = 0 then CosmosBridgeClient.updateClientTypeURL
      else "/ibc.core.channel.v2.MsgRecvPacket", [b]⟩)

def unpackAny (any : CodecAny) : Except GoError SdkMsg := .ok ⟨any.typeURL, any.value⟩

end Sample

open CosmosBridgeClient in
/-- `client_updates_split_iff` for two client updates with another message between them. -/
theorem client_updates_split_at_three_messages :
    (Ensures
      (Sample.cosmosClient.signAndSubmit Sample.unmarshalBytes Sample.unpackAny [2, 1, 4]).run
        (Splits [⟨updateClientTypeURL, [2]⟩, ⟨"/ibc.core.channel.v2.MsgRecvPacket", [1]⟩,
          ⟨updateClientTypeURL, [4]⟩])
      ∧ (plannedTxs [⟨updateClientTypeURL, [2]⟩, ⟨"/ibc.core.channel.v2.MsgRecvPacket", [1]⟩,
          ⟨updateClientTypeURL, [4]⟩]).flatten.Perm [⟨updateClientTypeURL, [2]⟩,
            ⟨"/ibc.core.channel.v2.MsgRecvPacket", [1]⟩, ⟨updateClientTypeURL, [4]⟩]) := by
  refine (client_updates_split_iff Sample.cosmosClient Sample.unmarshalBytes Sample.unpackAny
    [2, 1, 4] rfl (by decide) rfl).mpr ?_
  unfold OnlyUpdates
  decide

open CosmosBridgeClient in
/-- Two client updates and nothing else: the last tx that is broadcast is empty. -/
theorem empty_tx_broadcast :
    (((Sample.cosmosClient.signAndSubmit Sample.unmarshalBytes Sample.unpackAny [2, 4]).run.run
        (fun evs c answer => ⟨c, answer⟩ :: evs) (fun _ => neverFails) ([] : List CosmosEvent)).2
      |> broadcasts)
      = [[⟨updateClientTypeURL, [2]⟩], [⟨updateClientTypeURL, [4]⟩], []] := by
  decide +kernel

end IbcRelayer
