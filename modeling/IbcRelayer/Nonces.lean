import IbcRelayer.Pacing

/-!
# IbcRelayer — nonces and account sequences

Every tx to a chain is signed with a number that the client asks the chain for: the nonce of the
signer on an EVM chain, the sequence of its account on a Cosmos chain. No number is kept in between,
so that what the calls of `DeliverTx` make of the answers depends on their order.

* EVM (`evm_nonces_in_order`): on a node that counts the txs it has taken as pending, a tx takes the
  next nonce, or replaces one that is more than five behind; no nonce is left out.
* Cosmos (`cosmos_sequences_consecutive`): a node only counts the txs that are in a block. If each
  is in one by the end of `txSubmissionDelay`, the txs that the chain takes have consecutive
  sequences.

Both are for calls at the same time, with any failures and contexts that are done. The second rests
on the pace of the calls.
-/

namespace IbcRelayer

open CallTree Prog Mutex

variable {C : Type} {A : C → Type} {G α : Type}

/-! ## Protocols of the client's calls -/

/-- `DeliverTx` may make its own calls at any time. -/
def onClient (pr : Protocol A G) : Protocol (DeliverCall.Answer A) G where
  allows g
    | .client c => pr.allows g c
    | _ => True
  next g
    | .client c, r => pr.next g c r
    | .lastSubmissionTime, _ => g
    | .now, _ => g
    | .select _, _ => g
    | .setLastSubmissionTime _, _ => g

/-- A client that obeys a protocol obeys it inside `DeliverTx`. -/
theorem deliver_onClient {pr : Protocol A G} {g : G} {delay : Int}
    {submit : ExceptT GoError (Prog A) (String × String)}
    {Q : Except GoError (String × String) → G → Prop} (h : pr.Obeys submit.run g Q) :
    (onClient pr).Obeys (deliver delay submit) g fun _ _ => True := by
  refine ⟨trivial, fun last => ⟨trivial, fun now => ⟨trivial, fun waited => ?_⟩⟩⟩
  cases waited with
  | error err => exact ⟨trivial, fun _ => ⟨trivial, fun _ => trivial⟩⟩
  | ok =>
    change (onClient pr).Obeys (submit.run.translate _ >>= _) _ _
    refine Protocol.Obeys.bind ((Protocol.obeys_translate _ _ _ _).mpr h) fun r g' _ => ?_
    cases r with
    | error err => trivial
    | ok submitted => exact ⟨trivial, fun _ => ⟨trivial, fun _ => ⟨trivial, fun _ => trivial⟩⟩⟩

/-- What a call of `DeliverTx` does to something that depends on the log alone. -/
theorem Deliveries.onClient_act {b : Backend A} {pr : Protocol A G} {g : G} {s s' : Deliveries A}
    {c : DeliverCall C} {r : DeliverCall.Answer A c} (Held : G → Deliveries A → Prop)
    (hact : s.act b c r = some s') (hother : ∀ s', s'.log = s.log → Held g s')
    (hclient : ∀ (c' : C) (r : A c'), c = .client c' → pr.allows g c' →
      (∀ d ∈ b.pause c', (s.since : Int) + d ≤ s.clock) → b.honest s.clock s.log ⟨c', r⟩ = true →
      Held (pr.next g c' r) (s.push ⟨c', r⟩))
    (hallowed : (onClient pr).allows g c) : Held ((onClient pr).next g c r) s' := by
  cases c with
  | lastSubmissionTime =>
    obtain ⟨-, ⟨⟩⟩ := Option.ite_none_right_eq_some.mp hact
    exact hother _ rfl
  | now =>
    obtain ⟨-, ⟨⟩⟩ := Option.ite_none_right_eq_some.mp hact
    exact hother _ rfl
  | select d =>
    cases r with
    | error err =>
      cases hact
      exact hother _ rfl
    | ok =>
      obtain ⟨-, ⟨⟩⟩ := Option.ite_none_right_eq_some.mp hact
      exact hother _ rfl
  | setLastSubmissionTime t =>
    cases hact
    exact hother _ rfl
  | client c =>
    obtain ⟨⟨hpause, hhonest⟩, ⟨⟩⟩ := Option.ite_none_right_eq_some.mp hact
    exact hclient c r rfl hallowed hpause hhonest

/-! ## EVM: what the chain counts -/

abbrev EVMEvent := CallTree.Event EVMCall.Answer

/-- The nonce of a tx that the chain has taken. -/
def EVMEvent.nonce : EVMEvent → Option Nat
  | ⟨.sendTransaction tx _, .ok ()⟩ => some tx.nonce.toNat
  | _ => none

/-- The nonces of the txs that the chain has taken, the latest first. -/
def takenNonces (log : List (Nat × EVMEvent)) : List Nat := log.filterMap fun e => e.2.nonce

/-- The next nonce of an account that was at `start`. -/
def nextNonce (start : Nat) (nonces : List Nat) : Nat :=
  nonces.foldr (fun nonce next => max next (nonce + 1)) start

/-- A node that counts the txs it has taken. Some of those are confirmed, and the client asks for
the nonces of its signer only. -/
def countsPending (start : Nat) (_clock : Nat) (log : List (Nat × EVMEvent)) : EVMEvent → Bool
  | ⟨.pendingNonceAt _, .ok pending⟩ => pending.toNat = nextNonce start (takenNonces log)
  | ⟨.nonceAt _, .ok confirmed⟩ =>
    start ≤ confirmed.toNat ∧ confirmed.toNat ≤ nextNonce start (takenNonces log)
  | _ => true

/-- Each nonce is the next one, or replaces one that is more than five behind. -/
def NoncesInOrder (start : Nat) : List Nat → Prop
  | [] => True
  | nonce :: earlier =>
    (nonce = nextNonce start earlier ∨ start ≤ nonce ∧ nonce + 5 < nextNonce start earlier)
      ∧ NoncesInOrder start earlier

/-- No nonce is left out. -/
theorem NoncesInOrder.mem_iff {start : Nat} {nonces : List Nat} (h : NoncesInOrder start nonces)
    (n : Nat) : n ∈ nonces ↔ start ≤ n ∧ n < nextNonce start nonces := by
  induction nonces with
  | nil =>
    simp only [List.not_mem_nil, false_iff, nextNonce, List.foldr_nil]
    omega
  | cons nonce earlier ih =>
    have hnext : nextNonce start (nonce :: earlier)
        = max (nextNonce start earlier) (nonce + 1) := rfl
    -- the next nonce is never below the start
    have hstart : start ≤ nextNonce start earlier := by
      clear ih h hnext
      induction earlier with
      | nil => exact Nat.le_refl _
      | cons m rest ih => exact le_trans ih (Nat.le_max_left _ _)
    -- an old nonce is one of those that were used
    rw [List.mem_cons, ih h.2, hnext]
    have := h.1
    omega

/-! ## EVM: the protocol -/

/-- The nonces that were answered since the last tx. -/
structure NonceReads where
  pending : Option UInt64 := none
  confirmed : Option UInt64 := none

/-- The nonce of a tx, of what was read. -/
def NonceReads.Selected (g : NonceReads) (nonce : UInt64) : Prop :=
  ∃ pending ∈ g.pending, ∃ confirmed ∈ g.confirmed,
    nonce = selectNonceWithFallback pending confirmed

/-- A tx is sent with the nonce that is selected from the answers. -/
def nonceReads : Protocol EVMCall.Answer NonceReads where
  allows g
    | .sendTransaction tx _ => g.Selected tx.nonce
    | _ => True
  next g
    | .pendingNonceAt _, .ok pending => { g with pending := some pending }
    | .nonceAt _, .ok confirmed => { g with confirmed := some confirmed }
    | .sendTransaction .., _ => {}
    | _, _ => g

/-- The nonce is the pending one, or the confirmed one if it is more than five behind. The
subtraction of the source does not wrap around, since it is made only then. -/
theorem selectNonceWithFallback_spec {start next : Nat} {pending confirmed : UInt64}
    (hpending : pending.toNat = next) (hstart : start ≤ confirmed.toNat) :
    (selectNonceWithFallback pending confirmed).toNat = next
      ∨ start ≤ (selectNonceWithFallback pending confirmed).toNat
        ∧ (selectNonceWithFallback pending confirmed).toNat + 5 < next := by
  unfold selectNonceWithFallback
  split
  · rename_i hbehind
    obtain ⟨hlt, hfar⟩ := hbehind
    have hlt : confirmed.toNat < pending.toNat := UInt64.lt_iff_toNat_lt.mp hlt
    have hfar : (5 : Nat) < (pending - confirmed).toNat := UInt64.lt_iff_toNat_lt.mp hfar
    rw [UInt64.toNat_sub_of_le _ _ (UInt64.le_iff_toNat_le.mpr hlt.le)] at hfar
    right
    omega
  · exact .inl hpending

namespace EVMBridgeClient

variable {c : EVMBridgeClient} {start : Nat}

/-- The tx gets the nonce that is selected from two answers of the same section. -/
theorem newTxCalls_reads (bz : List UInt8) (address : String) (g : NonceReads) :
    nonceReads.Obeys (c.newTxCalls bz address).run g
      (Protocol.Outcome (fun tx g' => g'.Selected tx.nonce) fun _ => True) := by
  have hpending : ∀ g : NonceReads,
      nonceReads.Obeys (.call (.pendingNonceAt c.signerAddress) .done) g
        (Protocol.Outcome (fun pending g' => pending ∈ g'.pending) fun _ => True) := by
    intro g
    refine ⟨trivial, fun answer => ?_⟩
    cases answer with
    | error err => trivial
    | ok pending => exact rfl
  have hconfirmed : ∀ (pending : UInt64) (g : NonceReads), pending ∈ g.pending →
      nonceReads.Obeys (.call (.nonceAt c.signerAddress) .done) g (Protocol.Outcome
        (fun confirmed g' => pending ∈ g'.pending ∧ confirmed ∈ g'.confirmed) fun _ => True) := by
    intro pending g hpending
    refine ⟨trivial, fun answer => ?_⟩
    cases answer with
    | error err => trivial
    | ok confirmed => exact ⟨hpending, rfl⟩
  -- the fees, the code and the gas limit are asked for first and select nothing
  refine Protocol.obeys_free_bind (orWrap_always _ ⟨fun _ => trivial, fun _ => trivial⟩)
    fun baseFee g => ?_
  refine Protocol.obeys_free_bind (orWrap_always _ ⟨fun _ => trivial, fun _ => trivial⟩)
    fun gasTipCap g => ?_
  refine Protocol.obeys_free_bind (orWrap_always _ ⟨fun _ => trivial, fun _ => trivial⟩)
    fun code g => ?_
  split
  · trivial
  · refine Protocol.obeys_free_bind (orWrap_always _ ⟨fun _ => trivial, fun _ => trivial⟩)
      fun gasLimit g => ?_
    refine (orWrap_obeys _ (hpending g)).outcome_bind fun pending g hg => ?_
    refine (orWrap_obeys _ (hconfirmed pending g hg)).outcome_bind fun confirmed g hg => ?_
    exact ⟨pending, hg.1, confirmed, hg.2, rfl⟩

/-- `signAndSubmitData` sends the tx as it was made. -/
theorem submit_reads (bz : List UInt8) (address : String) (g : NonceReads) :
    nonceReads.Obeys (c.submit bz address).run g
      (Protocol.Outcome (fun _ _ => True) fun _ => True) := by
  have hsubmit : nonceReads.Obeys (c.signAndSubmitData bz address).run g
      (Protocol.Outcome (fun _ _ => True) fun _ => True) := by
    refine (orWrap_obeys _ (newTxCalls_reads bz address g)).outcome_bind fun tx g hg => ?_
    -- signing changes neither the tx nor what was read
    have hsign : nonceReads.Obeys (.call (.sign c.chainID tx) .done) g
        (Protocol.Outcome (fun _ g' => g'.Selected tx.nonce) fun _ => True) := by
      refine ⟨trivial, fun answer => ?_⟩
      cases answer with
      | error err => trivial
      | ok signature => exact hg
    refine Protocol.Obeys.outcome_bind (orWrap_obeys _ hsign) fun signature g hg => ?_
    have hsend : nonceReads.Obeys (.call (.sendTransaction tx signature) .done) g
        (Protocol.Outcome (fun _ _ => True) fun _ => True) :=
      ⟨hg, fun answer => by cases answer <;> trivial⟩
    exact Protocol.Obeys.outcome_bind (orWrap_obeys _ hsend) fun _ _ _ => trivial
  exact (orWrap_obeys _ hsubmit).outcome_bind fun _ _ _ => trivial

end EVMBridgeClient

/-- What the node counts is what the section has read. -/
structure Counted (start : Nat) (g : NonceReads) (s : Deliveries EVMCall.Answer) : Prop where
  pending : ∀ pending ∈ g.pending, pending.toNat = nextNonce start (takenNonces s.log)
  confirmed : ∀ confirmed ∈ g.confirmed, start ≤ confirmed.toNat
  inOrder : NoncesInOrder start (takenNonces s.log)

namespace Counted

variable {start : Nat} {g : NonceReads} {s s' : Deliveries EVMCall.Answer}

theorem of_log (h : Counted start g s) (hlog : takenNonces s'.log = takenNonces s.log) :
    Counted start g s' := by
  refine ⟨?_, h.confirmed, ?_⟩
  · rw [hlog]
    exact h.pending
  · rw [hlog]
    exact h.inOrder

/-- A tx is sent with the nonce that was selected; if the chain takes it, the nonce is the next one
or an old one. -/
theorem send (h : Counted start g s) {tx : DynamicFeeTx} {signature : List UInt8}
    {sent : Except GoError Unit} (hallowed : g.Selected tx.nonce) :
    Counted start {} (s.push ⟨.sendTransaction tx signature, sent⟩) := by
  refine ⟨by simp, by simp, ?_⟩
  cases sent with
  | error err => exact h.inOrder
  | ok =>
    obtain ⟨pending, hpending, confirmed, hconfirmed, hnonce⟩ := hallowed
    refine ⟨?_, h.inOrder⟩
    rw [hnonce]
    exact selectNonceWithFallback_spec (h.pending pending hpending)
      (h.confirmed confirmed hconfirmed)

/-- Every call of the client keeps the count. -/
theorem client (h : Counted start g s) {c : EVMCall} {r : EVMCall.Answer c}
    (hallowed : nonceReads.allows g c)
    (hhonest : countsPending start s.clock s.log ⟨c, r⟩ = true) :
    Counted start (nonceReads.next g c r) (s.push ⟨c, r⟩) := by
  cases c with
  | pendingNonceAt address =>
    cases r with
    | error err => exact h.of_log rfl
    | ok pending =>
      refine ⟨?_, h.confirmed, h.inOrder⟩
      rintro _ ⟨⟩
      exact of_decide_eq_true hhonest
  | nonceAt address =>
    cases r with
    | error err => exact h.of_log rfl
    | ok confirmed =>
      refine ⟨h.pending, ?_, h.inOrder⟩
      rintro _ ⟨⟩
      exact (of_decide_eq_true hhonest).1
  | sendTransaction tx signature => exact h.send hallowed
  | _ => exact h.of_log rfl

end Counted

/-- The nonces may be looked at after every step of every call. -/
def counted (start : Nat) : Resource (Deliveries.service (EVMCall.backend (countsPending start)))
    (onClient nonceReads) {} fun _ => True where
  Free := Counted start {}
  Held := Counted start
  enter h := h
  leave h _ := ⟨by simp, by simp, h.inOrder⟩
  act {g s c r s'} h hallowed hact := by
    refine Deliveries.onClient_act (Counted start) hact (fun s' hlog => ?_) ?_ hallowed
    · exact h.of_log (by rw [hlog])
    · exact fun c r _ hallowed _ hhonest => h.client hallowed hhonest
  free_event h hevent := by
    cases hevent
    exact h.of_log rfl
  held_event h hevent := by
    cases hevent
    exact h.of_log rfl

namespace EVMBridgeClient

variable {c : EVMBridgeClient} {start : Nat}

/-- **The nonces of an EVM chain are used in order.** Over every run of calls of `DeliverTx` on one
client, on a node that counts the txs it has taken: each nonce is the next one, or one that is more
than five behind and is replaced; the nonces that were used are those from the start up to the next
one; and the txs are paced. -/
theorem evm_nonces_in_order (hdelay : c.txSubmissionDelay < 2 ^ 63) {clock : Nat}
    {s : Deliverers EVMCall.Answer}
    (hrun : Deliverers.Run (EVMCall.backend (countsPending start)) c.deliverTx clock s) :
    NoncesInOrder start (takenNonces s.shared.log)
      ∧ (∀ n, n ∈ takenNonces s.shared.log
        ↔ start ≤ n ∧ n < nextNonce start (takenNonces s.shared.log))
      ∧ Spaced c.txSubmissionDelay (s.shared.accepted (EVMCall.backend (countsPending start))) := by
  have hprog : ∀ request : List UInt8 × String, Sectioned (onClient nonceReads) {} (fun _ => True)
      (c.deliverTx request.1 request.2) none :=
    fun request => sectioned_locked (deliver_onClient (submit_reads request.1 request.2 {}))
  have hstart : Counted start {} { clock } := ⟨by simp, by simp, trivial⟩
  have hinOrder : NoncesInOrder start (takenNonces s.shared.log) := by
    rcases (counted start).run hprog hstart hrun with hfree | ⟨g, hheld⟩
    · exact hfree.inOrder
    · exact hheld.inOrder
  exact ⟨hinOrder, hinOrder.mem_iff, evm_txs_spaced hdelay hrun⟩

end EVMBridgeClient

namespace Sample

def evmClient : EVMBridgeClient where
  toEVMTxClient := evmTxClient none none
  txSubmissionDelay := 2 * 10 ^ 9
  hash _ _ := "0x0a"

/-- A node that has taken a tx with the nonce 7. -/
def nodeAfterSeven : EVMTxNode := { quietNode with pendingNonceAt := fun _ => .ok 8 }

/-- The second call has to wait for the first one, and then for the delay. -/
def twoSubmissions :
    List (Mutex.Action (DeliverCall.Answer EVMCall.Answer) Nat (List UInt8 × String)) :=
  [.request ([1], "0x26"), .request ([1], "0x26")]
    ++ List.replicate 16 (.step 0 (waitingOut .zero ⟨0, 0⟩ (quietNode.answer [9])))
    ++ List.replicate 3 (.step 1 (waitingOut ⟨0, 0⟩ ⟨0, 0⟩ (nodeAfterSeven.answer [9])))
    ++ [.event (2 * 10 ^ 9)]
    ++ List.replicate 13 (.step 1 (waitingOut ⟨0, 0⟩ ⟨2 * 10 ^ 9, 0⟩ (nodeAfterSeven.answer [9])))

end Sample

namespace EVMBridgeClient

/-- `evm_nonces_in_order` for two calls at a time. -/
theorem evm_nonces_in_order_twice :
    ∃ s, Deliverers.Run (EVMCall.backend (countsPending 7)) Sample.evmClient.deliverTx 0 s
      ∧ takenNonces s.shared.log = [8, 7] ∧ NoncesInOrder 7 (takenNonces s.shared.log) := by
  have h : (Machine.script (Threads.step (Deliveries.service (EVMCall.backend (countsPending 7)))
      fun request : List UInt8 × String => Sample.evmClient.deliverTx request.1 request.2)
      (fun _ _ => true) { shared := { clock := 0 } } Sample.twoSubmissions).any
        (fun s => takenNonces s.shared.log = [8, 7]) = true := by
    decide +kernel
  obtain ⟨s, hs, htaken⟩ := (Option.any_eq_true _ _).mp h
  have hrun : Deliverers.Run (EVMCall.backend (countsPending 7)) Sample.evmClient.deliverTx 0 s :=
    Machine.run_of_script (fun _ _ _ => trivial) hs
  exact ⟨s, hrun, of_decide_eq_true htaken, (evm_nonces_in_order (by decide) hrun).1⟩

end EVMBridgeClient

/-! ## Cosmos: what the chain counts -/

/-- The times at which the chain took a tx. -/
def takenTimes (log : List (Nat × CosmosEvent)) : List Nat :=
  (log.filter fun e => (CosmosEvent.taken e.2).isSome).map Prod.fst

/-- The account that a call signs this tx for. -/
def CosmosCall.signedFor (tx : CosmosTx) : CosmosCall → Option BaseAccount
  | .sign _ tx' account => if tx' = tx then some account else none
  | _ => none

/-- The account that a tx was signed for last. -/
def signedAccount (tx : CosmosTx) (log : List (Nat × CosmosEvent)) : Option BaseAccount :=
  log.findSome? fun e => e.2.call.signedFor tx

/-- The sequence of a tx that the chain has taken after `earlier`. -/
def CosmosEvent.sequence (earlier : List (Nat × CosmosEvent)) : CosmosEvent → Option Nat
  | ⟨.broadcastTxSync _ signed, _⟩ =>
    (signedAccount signed.tx earlier).map fun account => account.sequence.toNat
  | _ => none

/-- The sequences of the txs that the chain has taken, the latest first. -/
def takenSequences : List (Nat × CosmosEvent) → List (Option Nat)
  | [] => []
  | (_, e) :: earlier =>
    if (CosmosEvent.taken e).isSome then e.sequence earlier :: takenSequences earlier
    else takenSequences earlier

/-- A node that counts the txs of the blocks. A tx is in a block no later than `delay` after the
node took it, and the client asks for the account of its signer only. -/
def countsBlocks (start : Nat) (delay : Int) (clock : Nat) (log : List (Nat × CosmosEvent)) :
    CosmosEvent → Bool
  | ⟨.accountInfo _, answer⟩ =>
    match (answer : Except GoError (Option BaseAccount)) with
    | .ok (some account) =>
      start + (takenTimes log).countP (fun t : Nat => (t : Int) + delay ≤ clock)
        ≤ account.sequence.toNat
        ∧ account.sequence.toNat ≤ start + (takenTimes log).length
    | _ => true
  | _ => true

/-! ## Cosmos: the protocol -/

/-- The account that was answered since the last tx, and the tx that was signed for it. -/
structure AccountReads where
  account : Option BaseAccount := none
  signed : Option CosmosTx := none

/-- A tx is signed for the account that was answered, and broadcast once it is signed. -/
def accountReads : Protocol CosmosCall.Answer AccountReads where
  allows g
    | .sign _ _ account => g.account = some account
    | .broadcastTxSync _ signed => g.account.isSome ∧ g.signed = some signed.tx
    | _ => True
  next g
    | .accountInfo _, answer =>
      match (answer : Except GoError (Option BaseAccount)) with
      | .ok account => { account }
      | .error _ => {}
    | .sign _ tx _, _ => { g with signed := some tx }
    | .broadcastTxSync .., _ => {}
    | _, _ => g

namespace CosmosBridgeClient

variable {client : CosmosBridgeClient} {unmarshal : List UInt8 → Except GoError (List CodecAny)}
  {unpackAny : CodecAny → Except GoError SdkMsg} {g : AccountReads}

/-- A tx that is signed and encoded is signed for the account that was read. -/
theorem signAndEncode_reads {tx : CosmosTx} {account : BaseAccount}
    (hg : g.account = some account) :
    accountReads.Obeys (client.signAndEncode tx account).run g (Protocol.Outcome
      (fun signed g' => g'.account = some account ∧ g'.signed = some signed.1.tx)
      fun _ => True) := by
  have hsign : accountReads.Obeys (.call (.sign client.chainID tx account) .done) g
      (Protocol.Outcome (fun _ g' => g'.account = some account ∧ g'.signed = some tx)
        fun _ => True) := by
    refine ⟨hg, fun answer => ?_⟩
    cases (answer : Except GoError (List UInt8)) with
    | error err => trivial
    | ok signature => exact ⟨hg, rfl⟩
  refine Protocol.Obeys.outcome_bind (orWrap_obeys _ hsign) fun signature g hg => ?_
  have hencode : accountReads.Obeys (.call (.encode { tx, signature }) .done) g
      (Protocol.Outcome (fun _ g' => g'.account = some account ∧ g'.signed = some tx)
        fun _ => True) := by
    refine ⟨trivial, fun answer => ?_⟩
    cases (answer : Except GoError (List UInt8)) with
    | error err => trivial
    | ok bytes => exact hg
  exact Protocol.Obeys.outcome_bind (orWrap_obeys _ hencode) fun bytes g hg => hg

/-- The simulation has the tx signed as well, for the same account. -/
theorem getEstimatedGasLimit_reads {tx : CosmosTx} {account : BaseAccount}
    (hg : g.account = some account) :
    accountReads.Obeys (client.getEstimatedGasLimit tx account).run g
      (Protocol.Outcome (fun _ g' => g'.account = some account) fun _ => True) := by
  refine (signAndEncode_reads hg).outcome_bind fun signed g hg => ?_
  have hsimulate : accountReads.Obeys (.call (.simulate signed.2) .done) g
      (Protocol.Outcome (fun _ g' => g'.account = some account) fun _ => True) := by
    refine ⟨trivial, fun answer => ?_⟩
    cases (answer : Except GoError (Option UInt64)) with
    | error err => trivial
    | ok gasInfo => exact hg.1
  refine Protocol.Obeys.outcome_bind (orWrap_obeys _ hsimulate) fun gasInfo g hg => ?_
  cases gasInfo with
  | none => trivial
  | some gasUsed => exact hg

theorem txFeeAmount_reads {gasLimit : UInt64} {account : BaseAccount}
    (hg : g.account = some account) :
    accountReads.Obeys (client.txFeeAmount gasLimit).run g
      (Protocol.Outcome (fun _ g' => g'.account = some account) fun _ => True) := by
  unfold txFeeAmount
  split
  · split
    · trivial
    · exact hg
  · exact hg

/-- The account is asked for anew for every tx, and the tx that is broadcast is the one that was
signed last. -/
theorem signAndSubmitMessages_reads (msgs : List SdkMsg) (g : AccountReads) :
    accountReads.Obeys (client.signAndSubmitMessages msgs).run g
      (Protocol.Outcome (fun _ _ => True) fun _ => True) := by
  refine Protocol.obeys_free_bind (orWrap_always _ ⟨fun _ => trivial, fun _ => trivial⟩)
    fun address g => ?_
  have haccount : accountReads.Obeys (.call (.accountInfo address) .done) g
      (Protocol.Outcome (fun account g' => g'.account = account) fun _ => True) := by
    refine ⟨trivial, fun answer => ?_⟩
    cases (answer : Except GoError (Option BaseAccount)) with
    | error err => trivial
    | ok account => rfl
  refine Protocol.Obeys.outcome_bind (orWrap_obeys _ haccount) fun account g hg => ?_
  cases account with
  | none => trivial
  | some account =>
    have hmsgs : accountReads.Obeys (.call (.setMsgs msgs) .done) g
        (Protocol.Outcome (fun _ g' => g'.account = some account) fun _ => True) := by
      refine ⟨trivial, fun answer => ?_⟩
      cases (answer : Except GoError Unit) with
      | error err => trivial
      | ok => exact hg
    refine Protocol.Obeys.outcome_bind (orWrap_obeys _ hmsgs) fun _ g hg => ?_
    refine (orWrap_obeys _ (getEstimatedGasLimit_reads hg)).outcome_bind fun gasLimit g hg => ?_
    refine (txFeeAmount_reads hg).outcome_bind fun feeAmount g hg => ?_
    refine (signAndEncode_reads hg).outcome_bind fun signed g hg => ?_
    have hbroadcast : accountReads.Obeys (.call (.broadcastTxSync signed.2 signed.1) .done) g
        (Protocol.Outcome (fun _ _ => True) fun _ => True) := by
      refine ⟨⟨by simp [hg.1], hg.2⟩, fun answer => ?_⟩
      cases (answer : Except GoError ResultBroadcastTx) <;> trivial
    refine Protocol.Obeys.outcome_bind (orWrap_obeys _ hbroadcast) fun result g _ => ?_
    split <;> trivial

/-- A submission is several such txs. -/
theorem submitMsgs_reads (msgs : List SdkMsg) (g : AccountReads) :
    accountReads.Obeys (client.submitMsgs msgs).run g
      (Protocol.Outcome (fun _ _ => True) fun _ => True) := by
  have hupdates : ∀ (numClientUpdates : Nat) (msgs : List SdkMsg) (numSubmitted : Nat)
      (g : AccountReads), accountReads.Obeys
        (client.submitClientUpdates numClientUpdates numSubmitted msgs).run g
        (Protocol.Outcome (fun _ _ => True) fun _ => True) := by
    intro numClientUpdates msgs
    induction msgs with
    | nil => exact fun _ _ => trivial
    | cons msg rest ih =>
      intro numSubmitted g
      rw [submitClientUpdates]
      split
      · exact (ih numSubmitted g).outcome_bind fun _ _ _ => trivial
      · refine (orWrap_obeys _ (signAndSubmitMessages_reads [msg] g)).outcome_bind fun _ g _ => ?_
        exact ⟨trivial, fun _ => ih (numSubmitted + 1) _⟩
  rw [submitMsgs]
  split
  · exact (hupdates _ msgs 0 g).outcome_bind fun msgs g _ => signAndSubmitMessages_reads msgs g
  · exact signAndSubmitMessages_reads msgs g

/-- The client of a Cosmos chain. -/
theorem submit_reads (bz : List UInt8) (g : AccountReads) :
    accountReads.Obeys (client.submit unmarshal unpackAny bz).run g
      (Protocol.Outcome (fun _ _ => True) fun _ => True) := by
  have hsubmit : ∀ g : AccountReads,
      accountReads.Obeys (client.signAndSubmit unmarshal unpackAny bz).run g
        (Protocol.Outcome (fun _ _ => True) fun _ => True) := by
    intro g
    unfold signAndSubmit
    split
    · trivial
    · rename_i messages _
      by_cases hnil : messages = []
      · simp only [hnil, if_true]
        split <;> trivial
      · simp only [hnil, if_false]
        split
        · trivial
        · exact submitMsgs_reads _ g
  refine Protocol.obeys_free_bind (orWrap_always _ ⟨fun _ => trivial, fun _ => trivial⟩)
    fun address g => ?_
  exact (orWrap_obeys _ (hsubmit g)).outcome_bind fun _ _ _ => trivial

end CosmosBridgeClient

/-! ## Cosmos: the invariant -/

/-- The account that was read counts every tx that the chain has taken. -/
structure Sequenced (start : Nat) (g : AccountReads) (log : List (Nat × CosmosEvent)) : Prop where
  account : ∀ account ∈ g.account, account.sequence.toNat = start + (takenTimes log).length
  signed : ∀ tx ∈ g.signed, signedAccount tx log = g.account
  consecutive : takenSequences log
    = (List.range (takenTimes log).length).reverse.map fun n => some (start + n)

namespace Sequenced

variable {start : Nat} {g : AccountReads} {log : List (Nat × CosmosEvent)}

/-- A call by which the chain takes no tx leaves the times. -/
theorem takenTimes_cons {t : Nat} {e : CosmosEvent} (htaken : CosmosEvent.taken e = none) :
    takenTimes ((t, e) :: log) = takenTimes log := by
  simp [takenTimes, htaken]

/-- A call by which the chain takes no tx. -/
theorem other (h : Sequenced start g log) {t : Nat} {e : CosmosEvent} {g' : AccountReads}
    (htaken : CosmosEvent.taken e = none) (haccount : g'.account = g.account)
    (hsigned : ∀ tx ∈ g'.signed, signedAccount tx ((t, e) :: log) = g'.account) :
    Sequenced start g' ((t, e) :: log) := by
  refine ⟨?_, hsigned, ?_⟩
  · rw [takenTimes_cons htaken, haccount]
    exact h.account
  · rw [takenTimes_cons htaken, takenSequences, htaken]
    exact h.consecutive

theorem unsigned (h : Sequenced start g log) {t : Nat} {e : CosmosEvent}
    (htaken : CosmosEvent.taken e = none) (hsign : ∀ tx, e.call.signedFor tx = none) :
    Sequenced start g ((t, e) :: log) := by
  refine h.other htaken rfl fun tx htx => ?_
  rw [signedAccount, List.findSome?_cons, hsign]
  exact h.signed tx htx

/-- The account that is answered when every tx is in a block. -/
theorem accountInfo (h : Sequenced start g log) {delay : Int} {clock t : Nat} {address : String}
    {answer : CosmosCall.Answer (.accountInfo address)}
    (hhonest : countsBlocks start delay clock log ⟨.accountInfo address, answer⟩ = true)
    (hquiet : ∀ t ∈ takenTimes log, (t : Int) + delay ≤ clock) :
    Sequenced start (accountReads.next g (.accountInfo address) answer)
      ((t, ⟨.accountInfo address, answer⟩) :: log) := by
  -- every tx is in a block by now, so the two bounds of an honest answer meet
  have hcount : (takenTimes log).countP (fun t : Nat => (t : Int) + delay ≤ clock)
      = (takenTimes log).length :=
    List.countP_eq_length.mpr fun t ht => decide_eq_true (hquiet t ht)
  cases (answer : Except GoError (Option BaseAccount)) with
  | error err => exact ⟨by simp [accountReads], by simp [accountReads], h.consecutive⟩
  | ok account =>
    refine ⟨?_, by simp [accountReads], h.consecutive⟩
    rintro account ⟨⟩
    have hbounds := of_decide_eq_true hhonest
    rw [hcount] at hbounds
    exact le_antisymm hbounds.2 hbounds.1

/-- A tx is signed for the account that was read. -/
theorem sign (h : Sequenced start g log) {t : Nat} {chainID : String} {tx : CosmosTx}
    {account : BaseAccount} {answer : CosmosCall.Answer (.sign chainID tx account)}
    (hallowed : g.account = some account) :
    Sequenced start (accountReads.next g (.sign chainID tx account) answer)
      ((t, ⟨.sign chainID tx account, answer⟩) :: log) := by
  refine h.other rfl rfl ?_
  rintro _ ⟨⟩
  rw [signedAccount, List.findSome?_cons]
  simp only [CosmosCall.signedFor, if_true]
  exact hallowed.symm

/-- The tx that was signed for the account that was read is broadcast. -/
theorem broadcast (h : Sequenced start g log) {t : Nat} {txBytes : List UInt8} {signed : SignedTx}
    {answer : CosmosCall.Answer (.broadcastTxSync txBytes signed)}
    (hallowed : g.account.isSome ∧ g.signed = some signed.tx) :
    Sequenced start {} ((t, ⟨.broadcastTxSync txBytes signed, answer⟩) :: log) := by
  obtain ⟨haccount, hsigned⟩ := hallowed
  obtain ⟨account, haccount⟩ := Option.isSome_iff_exists.mp haccount
  have hsequence : CosmosEvent.sequence log ⟨.broadcastTxSync txBytes signed, answer⟩
      = some (start + (takenTimes log).length) := by
    change (signedAccount signed.tx log).map _ = _
    rw [h.signed _ hsigned, haccount, Option.map_some, h.account account haccount]
  refine ⟨by simp, by simp, ?_⟩
  -- a tx that the chain refuses uses no sequence
  cases htaken : CosmosEvent.taken ⟨.broadcastTxSync txBytes signed, answer⟩ with
  | none =>
    rw [takenTimes_cons htaken, takenSequences, htaken]
    exact h.consecutive
  | some tx =>
    have htimes : takenTimes ((t, ⟨.broadcastTxSync txBytes signed, answer⟩) :: log)
        = t :: takenTimes log := by simp [takenTimes, htaken]
    rw [takenSequences, htaken, htimes, List.length_cons, List.range_succ, List.reverse_append,
      hsequence]
    simp [h.consecutive]

/-- Every call of the client keeps the sequences consecutive, if the txs before it are in a block.
-/
theorem client (h : Sequenced start g log) {delay : Int} {clock t : Nat} {c : CosmosCall}
    {answer : c.Answer} (hallowed : accountReads.allows g c)
    (hhonest : countsBlocks start delay clock log ⟨c, answer⟩ = true)
    (hquiet : ∀ t ∈ takenTimes log, (t : Int) + delay ≤ clock) :
    Sequenced start (accountReads.next g c answer) ((t, ⟨c, answer⟩) :: log) := by
  cases c with
  | accountInfo address => exact h.accountInfo hhonest hquiet
  | sign chainID tx account => exact h.sign hallowed
  | broadcastTxSync txBytes signed => exact h.broadcast hallowed
  | _ => exact h.unsigned rfl fun _ => rfl

end Sequenced

/-- The node that counts the txs of the blocks. -/
abbrev blocksBackend (start : Nat) (delay : Int) : Backend CosmosCall.Answer :=
  CosmosCall.backend (countsBlocks start delay)

/-- The pace of the calls, together with what they read. -/
def pacedReads (start : Nat) (delay : Int) :
    Protocol (DeliverCall.Answer CosmosCall.Answer) (Pace × AccountReads) :=
  (pace (blocksBackend start delay) delay).prod (onClient accountReads)

/-- The pace of the calls is needed: the account is asked for when every tx is in a block. -/
def sequenced (start : Nat) (delay : Int) :
    Resource (Deliveries.service (blocksBackend start delay))
    (pacedReads start delay) ({}, {}) (fun g => g.1.phase ≠ .busy) where
  Free s := Paced (blocksBackend start delay) delay {} s ∧ Sequenced start {} s.log
  Held g s := Paced (blocksBackend start delay) delay g.1 s ∧ Sequenced start g.2 s.log
  enter h := h
  leave h hphase := ⟨h.1.rested hphase, by simp, by simp, h.2.consecutive⟩
  act {g s c r s'} h hallowed hact := by
    refine ⟨h.1.act hallowed.1 hact, ?_⟩
    refine Deliveries.onClient_act (fun g s => Sequenced start g s.log) hact ?_ ?_ hallowed.2
    · intro s' hlog
      rw [hlog]
      exact h.2
    · rintro c r rfl hallowed' hpause hhonest
      exact h.2.client hallowed' hhonest (h.1.calls hallowed.1 hpause)
  free_event h hevent := ⟨(paced _ delay).free_event h.1 hevent, by
    cases hevent
    exact h.2⟩
  held_event h hevent := ⟨(paced _ delay).held_event h.1 hevent, by
    cases hevent
    exact h.2⟩

namespace CosmosBridgeClient

variable {client : CosmosBridgeClient} {unmarshal : List UInt8 → Except GoError (List CodecAny)}
  {unpackAny : CodecAny → Except GoError SdkMsg} {start : Nat}

/-- `DeliverTx` obeys both protocols. -/
theorem deliver_pacedReads (hdelay : client.txSubmissionDelay < 2 ^ 63) (bz : List UInt8) :
    (pacedReads start client.txSubmissionDelay).Obeys
      (deliver client.txSubmissionDelay (client.submit unmarshal unpackAny bz)) ({}, {})
      fun _ g => g.1.phase ≠ .busy := by
  have hpace : (pace (blocksBackend start client.txSubmissionDelay) client.txSubmissionDelay).Obeys
      (deliver client.txSubmissionDelay (client.submit unmarshal unpackAny bz)) {}
      fun _ g => g.phase ≠ .busy :=
    deliver_obeys hdelay (submit_paced bz)
  exact (hpace.prod (deliver_onClient (submit_reads bz {}))).mono fun _ _ h => h.1

/-- **The txs to a Cosmos chain have consecutive sequences.** Over every run of calls of `DeliverTx`
on one client, if every tx that the node takes is in a block by the end of `txSubmissionDelay`, the
txs have the sequences from the start on, in order and without a gap. -/
theorem cosmos_sequences_consecutive (hdelay : client.txSubmissionDelay < 2 ^ 63) {clock : Nat}
    {s : Deliverers CosmosCall.Answer}
    (hrun : Deliverers.Run (blocksBackend start client.txSubmissionDelay)
      (client.deliverTx unmarshal unpackAny) clock s) :
    (takenSequences s.shared.log).reverse
      = (List.range (takenTimes s.shared.log).length).map fun n => some (start + n) := by
  have hprog : ∀ request : List UInt8 × String,
      Sectioned (pacedReads start client.txSubmissionDelay) ({}, {}) (fun g => g.1.phase ≠ .busy)
        (client.deliverTx unmarshal unpackAny request.1 request.2) none :=
    fun request => sectioned_locked (deliver_pacedReads hdelay request.1)
  have hstart : (sequenced start client.txSubmissionDelay).Free { clock } :=
    ⟨Paced.start clock, by simp, by simp, rfl⟩
  have hconsecutive : takenSequences s.shared.log
      = (List.range (takenTimes s.shared.log).length).reverse.map fun n => some (start + n) := by
    rcases (sequenced start client.txSubmissionDelay).run hprog hstart hrun with hfree | ⟨g, hheld⟩
    · exact hfree.2.consecutive
    · exact hheld.2.consecutive
  rw [hconsecutive, ← List.map_reverse, List.reverse_reverse]

end CosmosBridgeClient

namespace Sample

def atSequence (sequence : UInt64) : (c : CosmosCall) → c.Answer
  | .accountInfo _ => .ok (some ⟨0, sequence⟩)
  | c => CosmosBridgeClient.neverFails c

/-- The second call asks for the account when the tx of the first one is in a block. -/
def twoBroadcasts :
    List (Mutex.Action (DeliverCall.Answer CosmosCall.Answer) Nat (List UInt8 × String)) :=
  [.request ([1], ""), .request ([1], "")]
    ++ List.replicate 18 (.step 0 (waitingOut .zero ⟨0, 0⟩ (atSequence 5)))
    ++ List.replicate 3 (.step 1 (waitingOut ⟨0, 0⟩ ⟨0, 0⟩ (atSequence 6)))
    ++ [.event (2 * 10 ^ 9)]
    ++ List.replicate 15 (.step 1 (waitingOut ⟨0, 0⟩ ⟨2 * 10 ^ 9, 0⟩ (atSequence 6)))

end Sample

namespace CosmosBridgeClient

/-- `cosmos_sequences_consecutive` for two calls at a time. -/
theorem cosmos_sequences_consecutive_twice :
    ∃ s, Deliverers.Run (blocksBackend 5 (2 * 10 ^ 9))
        (Sample.cosmosClient.deliverTx Sample.unmarshalBytes Sample.unpackAny) 0 s
      ∧ takenTimes s.shared.log = [2 * 10 ^ 9, 0]
      ∧ (takenSequences s.shared.log).reverse = [some 5, some 6] := by
  have h : (Machine.script (Threads.step (Deliveries.service (blocksBackend 5 (2 * 10 ^ 9)))
      fun request : List UInt8 × String =>
        Sample.cosmosClient.deliverTx Sample.unmarshalBytes Sample.unpackAny request.1 request.2)
      (fun _ _ => true) { shared := { clock := 0 } } Sample.twoBroadcasts).any
        (fun s => takenTimes s.shared.log = [2 * 10 ^ 9, 0]) = true := by
    decide +kernel
  obtain ⟨s, hs, htimes⟩ := (Option.any_eq_true _ _).mp h
  have htimes := of_decide_eq_true htimes
  have hrun : Deliverers.Run (blocksBackend 5 (2 * 10 ^ 9))
      (Sample.cosmosClient.deliverTx Sample.unmarshalBytes Sample.unpackAny) 0 s :=
    Machine.run_of_script (fun _ _ _ => trivial) hs
  have hdelay : Sample.cosmosClient.txSubmissionDelay < 2 ^ 63 := by decide
  have hconsecutive := cosmos_sequences_consecutive hdelay hrun
  rw [htimes] at hconsecutive
  exact ⟨s, hrun, htimes, hconsecutive⟩

end CosmosBridgeClient

end IbcRelayer
