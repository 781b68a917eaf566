import Mathlib.Logic.Function.Basic
import IbcRelayer.Cancellation

/-!
# IbcRelayer — when a tx is given up

`ShouldRetryTx` asks the node for the tx and, when it is not found, for the latest header: if the
chain is past the expiry, the tx is to be sent again. The machine of `TxOnce` is run here beside a
chain that grows, with a node that tells the truth about it.

The two requests are made at different times, and the first answer may come out of the cache. In
between, the tx can get into a block in time and the chain can pass the expiry (`late`). Moreover an
error counts as an answer of the node that it does not have the tx, if it has the words
"not found" in it.

* `Timely` — a step after which no call that has been told "not found" is late;
* `Keyed` — the invariant of a run of such steps.
-/

namespace IbcRelayer

/-! ## The chain -/

/-- A block, with its time in nanoseconds and what the node has of its txs. -/
structure Block (V : Type) where
  time : Int
  txs : List (List UInt8 × V)
  deriving DecidableEq

/-- The block has the tx. -/
def Block.has {V : Type} (b : Block V) (i : List UInt8) : Bool := b.txs.any (·.1 = i)

/-- What the answers of a node mean. -/
structure ChainView (V H : Type) where
  /-- The tx that the node is asked for. -/
  txID : String → List UInt8
  failed : V → Bool
  /-- The time of a block, if there is a header in the answer. -/
  timeOf : H → Option Int
  /-- The error of a node that does not have the tx. -/
  absent : GoError → Bool

namespace ChainView

variable {V H : Type} (view : ChainView V H)

/-- A block of time `d` or earlier has the tx. -/
def inTime (chain : List (Block V)) (i : List UInt8) (d : Int) : Bool :=
  chain.any fun b => b.time ≤ d && b.has i

/-- The tx is on chain and failed. -/
def hasFailed (chain : List (Block V)) (i : List UInt8) : Bool :=
  chain.any fun b => b.txs.any fun tx => tx.1 = i && view.failed tx.2

/-- The chain is past `d`. -/
def passed (chain : List (Block V)) (d : Int) : Bool := chain.any (d < ·.time)

/-- The chain is past `d`, and the tx was there in time and has not failed. -/
def late (chain : List (Block V)) (i : List UInt8) (d : Int) : Bool :=
  inTime chain i d && !view.hasFailed chain i && passed chain d

/-- A call of `ShouldRetryTx` must not be told any more that the tx is not found. -/
def lateFor (chain : List (Block V)) : TxQuery → Bool
  | .shouldRetryTx txHash expiry sentTs =>
    view.late chain (view.txID txHash) (sentTs.unixNano + expiry)
  | _ => false

section Answers

variable [DecidableEq V]

/-- The node has the tx that it answers with, and does not have one that it says is absent. -/
def answersTx (chain : List (Block V)) (i : List UInt8) : Except GoError V → Bool
  | .ok v => chain.any fun b => b.txs.contains (i, v)
  | .error err => !view.absent err || chain.all fun b => !b.has i

/-- The header is that of the latest block. -/
def answersHeader (chain : List (Block V)) : Except GoError H → Bool
  | .ok h => (view.timeOf h).all fun time => chain.head?.any (·.time = time)
  | .error _ => true

end Answers

end ChainView

/-! ## The machine -/

/-- The calls of a client and the chain, the latest block first. `outcome` has what each call got
out of `Do`. -/
structure Watched (V : Type) where
  client : TxOnce V
  chain : List (Block V) := []
  outcome : Nat → Option (Except GoError V) := fun _ => none

namespace Watched

/-- The calls go on, or the chain does. -/
inductive Action (V H : Type) where
  | client (a : TxOnce.Action V H)
  | grow (block : Block V)

section Machine

variable {V H : Type} [DecidableEq V] (client : TxClient V H) (view : ChainView V H)

/-- The node tells the truth about the chain as it is when it answers. -/
def truthful (s : Watched V) : TxOnce.Action V H → Bool
  | .answer c r =>
    s.client.calls[c]?.all fun call => view.answersTx s.chain (view.txID call.query.hash) r
  | .header _ r => view.answersHeader s.chain r
  | _ => true

/-- What the calls have got, after the action. -/
def outcomes (s : Watched V) : TxOnce.Action V H → Nat → Option (Except GoError V)
  | .release c =>
    match s.client.calls[c]? with
    | some ⟨_, _, .recorded _ r⟩ => Function.update s.outcome c (some r)
    | _ => s.outcome
  | _ => s.outcome

/-- A client's step changes nothing about the chain. Blocks are added with times that do not
decrease. -/
def step (s : Watched V) : Action V H → Option (Watched V)
  | .client a =>
    if s.truthful view a then
      (s.client.step client a).map fun once => { s with client := once, outcome := s.outcomes a }
    else
      none
  | .grow block =>
    if s.chain.head?.all (·.time ≤ block.time) then
      some { s with chain := block :: s.chain }
    else
      none

end Machine

end Watched

/-! ## The condition -/

section Condition

variable {V H : Type}

/-- `ShouldRetryTx` takes the outcome to mean that the tx is not found. -/
def notFoundOutcome : Except GoError V → Bool
  | .error err => err.notFound
  | .ok _ => false

/-- An entry that hands out such an outcome. -/
def OnceRun.notFound : OnceRun (Except GoError V) → Bool
  | .ran r => notFoundOutcome r
  | _ => false

/-- The call is to be told, or has been told, that its tx is not found. -/
def reliesOnAbsence (created : List (OnceWithTimeout Nat (Except GoError V))) : TxPlace V → Bool
  | .holding p | .running p => created[p]?.any (·.run.notFound)
  | .got _ r | .recorded _ r => notFoundOutcome r
  | .asking .. => true
  | _ => false

namespace Watched

variable (view : ChainView V H)

/-- The words "not found" are in no error but that of a node without the tx; and no call that relies
on the absence of its tx is late, be it that it finds an outcome in the cache or that the chain
grows. -/
def Timely (s : Watched V) : Action V H → Prop
  | .client (.answer _ (.error err)) => err.notFound = true → view.absent err = true
  | .client (.acquire c) =>
    ∀ call ∈ s.client.calls[c]?,
      ∀ found ∈ s.client.txOnce.shared (.key call.query.hash) s.client.now,
        found.2.run.notFound = true → view.lateFor s.chain call.query = false
  | .grow block =>
    ∀ call ∈ s.client.calls, reliesOnAbsence s.client.txOnce.created call.place = true →
      view.lateFor (block :: s.chain) call.query = false
  | _ => True

instance (s : Watched V) (a : Action V H) : Decidable (s.Timely view a) := by
  unfold Timely
  split <;> infer_instance

/-- The call `c` of `ShouldRetryTx` was right to order a retry: the tx is on chain and failed, or no
block has it in time; and no RPC failure was taken for the absence of the tx. -/
def RetryRight (s : Watched V) (c : Nat) (txHash : String) (expiry : Int) (sentTs : Time) : Prop :=
  ((∃ b ∈ s.chain, ∃ v, (view.txID txHash, v) ∈ b.txs ∧ view.failed v = true)
      ∨ ∀ b ∈ s.chain, b.time ≤ sentTs.unixNano + expiry → ∀ v, (view.txID txHash, v) ∉ b.txs)
    ∧ ∀ err, s.outcome c = some (.error err) → view.absent err = true

/-- Every retry that was ordered was right. -/
def RetriesRight (s : Watched V) : Prop :=
  ∀ c call txHash expiry sentTs, s.client.calls[c]? = some call →
    call.query = .shouldRetryTx txHash expiry sentTs →
    call.place = .returned (.ok (.shouldRetry true)) → s.RetryRight view c txHash expiry sentTs

end Watched

end Condition

/-! ## The clients -/

/-- What `ShouldRetryTx` does with the answers of the node. -/
structure TxClient.Retries {V H : Type} (client : TxClient V H) (view : ChainView V H) : Prop where
  returns : ∀ {txHash expiry sentTs r},
    client.next (.shouldRetryTx txHash expiry sentTs) r = .return (.ok (.shouldRetry true)) →
    ∃ v, r = .ok v ∧ view.failed v = true
  asks : ∀ {q r expiry sentTs}, client.next q r = .latestHeader expiry sentTs →
    ∃ txHash err, q = .shouldRetryTx txHash expiry sentTs ∧ r = .error err ∧ err.notFound = true
  headerTime : ∀ {r t}, client.headerTime r = .ok t →
    ∃ h time, r = .ok h ∧ view.timeOf h = some time ∧ t.unixNano ≤ time

/-- A block of an EVM chain has its time in seconds, and a tx fails with another status than 1. -/
def EVMBridgeClient.view (txID : String → List UInt8) (absent : GoError → Bool) :
    ChainView Receipt UInt64 where
  txID
  failed receipt := receipt.status ≠ 1
  timeOf header := some (header.toNat * 10 ^ 9)
  absent

/-- A block of a Cosmos chain has its time in nanoseconds, and a tx fails with another code than 0.
-/
def CosmosBridgeClient.view (txID : String → List UInt8) (absent : GoError → Bool) :
    ChainView ResultTx (Option Time) where
  txID
  failed result := result.code ≠ 0
  timeOf header := header.map (·.unixNano)
  absent

/-- `ShouldRetryTx` of an EVM client: a receipt is looked at, "not found" leads to the header, and
any other error is returned. -/
theorem EVMBridgeClient.retries (writeAckEventID : List UInt8) (txID : String → List UInt8)
    (absent : GoError → Bool) :
    (EVMBridgeClient.txClient writeAckEventID).Retries (EVMBridgeClient.view txID absent) where
  returns {txHash expiry sentTs r} h := by
    cases r with
    | error err =>
      simp only [txClient, EVMBridgeClient.next] at h
      split at h <;> simp at h
    | ok receipt =>
      simp only [txClient, EVMBridgeClient.next, TxQuery.Next.return.injEq, Except.ok.injEq,
        TxAnswer.shouldRetry.injEq] at h
      exact ⟨receipt, rfl, h⟩
  asks {q r expiry sentTs} h := by
    cases q <;> cases r <;> simp only [txClient, EVMBridgeClient.next] at h
    case shouldRetryTx.error err =>
      split at h
      · rename_i hnotFound
        cases h
        exact ⟨_, err, rfl, rfl, hnotFound⟩
      · cases h
    all_goals cases h
  headerTime {r t} h := by
    cases r with
    | error err => cases h
    | ok header =>
      simp only [txClient, Except.ok.injEq] at h
      subst h
      refine ⟨header, _, rfl, rfl, ?_⟩
      -- a time that is too large is taken for an earlier one
      simp only [Time.unix, unixSeconds_unsigned]
      split <;> omega

/-- `ShouldRetryTx` of a Cosmos client, in the same way. An answer without a header is an error. -/
theorem CosmosBridgeClient.retries (unmarshal : List UInt8 → Except String (List (List UInt8)))
    (txID : String → List UInt8) (absent : GoError → Bool) :
    (CosmosBridgeClient.txClient unmarshal).Retries (CosmosBridgeClient.view txID absent) where
  returns {txHash expiry sentTs r} h := by
    cases r with
    | error err =>
      simp only [txClient, CosmosBridgeClient.next] at h
      split at h <;> simp at h
    | ok result =>
      simp only [txClient, CosmosBridgeClient.next, TxQuery.Next.return.injEq, Except.ok.injEq,
        TxAnswer.shouldRetry.injEq] at h
      exact ⟨result, rfl, h⟩
  asks {q r expiry sentTs} h := by
    cases q <;> cases r <;> simp only [txClient, CosmosBridgeClient.next] at h
    case shouldRetryTx.error err =>
      split at h
      · rename_i hnotFound
        cases h
        exact ⟨_, err, rfl, rfl, hnotFound⟩
      · cases h
    all_goals cases h
  headerTime {r t} h := by
    rcases r with err | _ | time
    · cases h
    · cases h
    · cases h
      exact ⟨some _, _, rfl, rfl, Int.le_refl _⟩

/-! ## The invariant -/

namespace ChainView

variable {V H : Type} (view : ChainView V H) {chain : List (Block V)} {i : List UInt8} {d : Int}

/-- An outcome that the node may have answered with. -/
def Trusted (chain : List (Block V)) (i : List UInt8) : Except GoError V → Prop
  | .ok v => ∃ b ∈ chain, (i, v) ∈ b.txs
  | .error err => err.notFound = true → view.absent err = true

variable {view}

/-- The chain keeps its blocks. -/
theorem Trusted.grow {r : Except GoError V} (h : view.Trusted chain i r) (block : Block V) :
    view.Trusted (block :: chain) i r := by
  cases r with
  | error err => exact h
  | ok v =>
    obtain ⟨b, hb, hv⟩ := h
    exact ⟨b, List.mem_cons_of_mem _ hb, hv⟩

/-- A tx that no block has is not late. -/
theorem late_eq_false_of_absent (h : chain.all (fun b => !b.has i) = true) :
    view.late chain i d = false := by
  have hin : inTime chain i d = false := by
    rw [inTime, List.any_eq_false]
    intro b hb
    have hno := List.all_eq_true.mp h b hb
    simp_all
  rw [late, hin]
  rfl

/-- The node has the tx that it answers with. -/
theorem trusted_of_answer [DecidableEq V] {r : Except GoError V}
    (htruth : view.answersTx chain i r = true)
    (hgenuine : ∀ err, r = .error err → err.notFound = true → view.absent err = true) :
    view.Trusted chain i r := by
  cases r with
  | error err => exact hgenuine err rfl
  | ok v =>
    obtain ⟨b, hb, hv⟩ := List.any_eq_true.mp htruth
    exact ⟨b, hb, List.contains_iff_mem.mp hv⟩

/-- The node does not have the tx when it says so. -/
theorem lateFor_of_answer [DecidableEq V] {r : Except GoError V} {q : TxQuery}
    (htruth : view.answersTx chain (view.txID q.hash) r = true)
    (hgenuine : ∀ err, r = .error err → err.notFound = true → view.absent err = true)
    (hnotFound : notFoundOutcome r = true) : view.lateFor chain q = false := by
  cases r with
  | ok v => cases hnotFound
  | error err =>
    have hall : chain.all (fun b => !b.has (view.txID q.hash)) = true := by
      simpa [answersTx, hgenuine err rfl hnotFound] using htruth
    cases q with
    | shouldRetryTx txHash expiry sentTs => exact late_eq_false_of_absent hall
    | _ => rfl

/-- A failed tx is not late, whatever comes. -/
theorem hasFailed_of_trusted {v : V} (h : view.Trusted chain i (.ok v))
    (hfailed : view.failed v = true) : view.hasFailed chain i = true := by
  obtain ⟨b, hb, hv⟩ := h
  refine List.any_eq_true.mpr ⟨b, hb, List.any_eq_true.mpr ⟨(i, v), hv, ?_⟩⟩
  simp [hfailed]

end ChainView

namespace Watched

variable {V H : Type} (view : ChainView V H)

/-- A retry of the tx is in order, and stays so: the tx has failed, or the chain is past the
deadline without it. -/
def GivenUp (chain : List (Block V)) (i : List UInt8) (d : Int) : Prop :=
  view.hasFailed chain i = true ∨ (ChainView.inTime chain i d = false
    ∧ ChainView.passed chain d = true)

/-- What holds of a call: its entry is that of its hash, it is not late when it relies on the
absence of its tx, and what it has got can be trusted. -/
structure Placed (chain : List (Block V)) (created : List (OnceWithTimeout Nat (Except GoError V)))
    (outcome : Option (Except GoError V)) (key : Nat → String) (call : TxCall V) : Prop where
  entry : ∀ p ∈ TxOnce.entry call.place, key p = call.query.hash ∧ p < created.length
  timely : reliesOnAbsence created call.place = true → view.lateFor chain call.query = false
  got : ∀ p r, call.place = .got p r ∨ call.place = .recorded p r →
    view.Trusted chain (view.txID call.query.hash) r
  asking : ∀ expiry sentTs, call.place = .asking expiry sentTs →
    (∃ txHash, call.query = .shouldRetryTx txHash expiry sentTs)
      ∧ ∃ err, outcome = some (.error err) ∧ view.absent err = true
  returned : call.place = .returned (.ok (.shouldRetry true)) →
    ∀ txHash expiry sentTs, call.query = .shouldRetryTx txHash expiry sentTs →
      GivenUp view chain (view.txID txHash) (sentTs.unixNano + expiry)
        ∧ ∀ err, outcome = some (.error err) → view.absent err = true

/-- The invariant; `key` has the hash that each entry was created for. -/
structure Keyed (s : Watched V) (key : Nat → String) : Prop where
  sorted : s.chain.Pairwise (·.time ≥ ·.time)
  cache : ∀ hash p, (.key hash, p) ∈ s.client.txOnce.onces →
    key p = hash ∧ p < s.client.txOnce.created.length
  entries : ∀ (p : Nat) once r, s.client.txOnce.created[p]? = some once → once.run = .ran r →
    view.Trusted s.chain (view.txID (key p)) r
  calls : ∀ (c : Nat) call, s.client.calls[c]? = some call →
    Placed view s.chain s.client.txOnce.created (s.outcome c) key call

variable {view} {s : Watched V} {key : Nat → String}

/-- The invariant says that every retry was right. -/
theorem Keyed.retriesRight (h : Keyed view s key) : s.RetriesRight view := by
  intro c call txHash expiry sentTs hc hquery hplace
  obtain ⟨hgiven, hgenuine⟩ := (h.calls c call hc).returned hplace txHash expiry sentTs hquery
  refine ⟨?_, hgenuine⟩
  rcases hgiven with hfailed | ⟨hin, -⟩
  · obtain ⟨b, hb, hany⟩ := List.any_eq_true.mp hfailed
    obtain ⟨⟨i, v⟩, hv, htx⟩ := List.any_eq_true.mp hany
    simp only [Bool.and_eq_true, decide_eq_true_eq] at htx
    obtain ⟨rfl, hfail⟩ := htx
    exact .inl ⟨b, hb, v, hv, hfail⟩
  · refine .inr fun b hb htime v hv => ?_
    have hno := List.any_eq_false.mp hin b hb
    have hhas : b.has (view.txID txHash) = true := List.any_eq_true.mpr ⟨_, hv, by simp⟩
    simp [htime, hhas] at hno

/-- One call goes on, and the cache changes. -/
theorem Keyed.move (h : Keyed view s key) {c : Nat} {place : TxPlace V}
    {txOnce : OnceWithKey String Nat (Except GoError V)}
    {outcome : Nat → Option (Except GoError V)} {key' : Nat → String}
    (hcache : ∀ hash p, (.key hash, p) ∈ txOnce.onces →
      key' p = hash ∧ p < txOnce.created.length)
    (hentries : ∀ (p : Nat) once r, txOnce.created[p]? = some once → once.run = .ran r →
      view.Trusted s.chain (view.txID (key' p)) r)
    (hkey : ∀ p < s.client.txOnce.created.length, key' p = key p)
    (hlength : s.client.txOnce.created.length ≤ txOnce.created.length)
    (hrelies : ∀ (d : Nat) call, s.client.calls[d]? = some call →
      reliesOnAbsence txOnce.created call.place = true →
      reliesOnAbsence s.client.txOnce.created call.place = true
        ∨ view.lateFor s.chain call.query = false)
    (houtcome : ∀ d, d ≠ c → outcome d = s.outcome d)
    (hcall : ∀ call, s.client.calls[c]? = some call →
      Placed view s.chain txOnce.created (outcome c) key' { call with place }) :
    Keyed view { s with client := { s.client with txOnce }.move c place, outcome } key' := by
  refine ⟨h.sorted, hcache, hentries, fun d call hd => ?_⟩
  simp only [TxOnce.move, List.getElem?_modify] at hd
  obtain ⟨old, hold, rfl⟩ := Option.map_eq_some_iff.mp hd
  -- only one call moves; for the others the entries have grown and kept their keys
  by_cases hcd : c = d
  · subst hcd
    rw [if_pos rfl]
    exact hcall old hold
  · rw [if_neg hcd]
    have hplaced := h.calls d old hold
    refine ⟨fun p hp => ?_, fun hon => ?_, hplaced.got, ?_, ?_⟩
    · obtain ⟨hhash, hlt⟩ := hplaced.entry p hp
      exact ⟨(hkey p hlt).trans hhash, Nat.lt_of_lt_of_le hlt hlength⟩
    · exact (hrelies d old hold hon).elim hplaced.timely id
    · simp only [houtcome d (Ne.symm hcd)]
      exact hplaced.asking
    · simp only [houtcome d (Ne.symm hcd)]
      exact hplaced.returned

theorem Keyed.move_call (h : Keyed view s key) {c : Nat} {place : TxPlace V}
    (hcall : ∀ call, s.client.calls[c]? = some call →
      Placed view s.chain s.client.txOnce.created (s.outcome c) key { call with place }) :
    Keyed view { s with client := s.client.move c place } key :=
  h.move h.cache h.entries (fun _ _ => rfl) (Nat.le_refl _) (fun _ _ _ hon => .inl hon)
    (fun _ _ => rfl) hcall

/-- A call that has returned no retry. -/
theorem placed_returned {chain : List (Block V)}
    {created : List (OnceWithTimeout Nat (Except GoError V))}
    {outcome : Option (Except GoError V)} {query : TxQuery} {ctx : Nat}
    {r : Except GoError TxAnswer} (hr : r ≠ .ok (.shouldRetry true)) :
    Placed view chain created outcome key ⟨query, ctx, .returned r⟩ where
  entry := by simp [TxOnce.entry]
  timely := by simp [reliesOnAbsence]
  got := by simp
  asking := by simp
  returned := by simp [hr]

/-- A call that has got an outcome out of its entry, whether or not it has recorded the error. -/
theorem placed_got {chain : List (Block V)}
    {created : List (OnceWithTimeout Nat (Except GoError V))}
    {outcome : Option (Except GoError V)} {query : TxQuery} {ctx p : Nat} {r : Except GoError V}
    (htrusted : view.Trusted chain (view.txID query.hash) r)
    (htimely : notFoundOutcome r = true → view.lateFor chain query = false) :
    Placed view chain created outcome key ⟨query, ctx, .got p r⟩
      ∧ Placed view chain created outcome key ⟨query, ctx, .recorded p r⟩ := by
  refine ⟨⟨by simp [TxOnce.entry], htimely, fun q r' hgot => ?_, by simp, by simp⟩,
    ⟨by simp [TxOnce.entry], htimely, fun q r' hgot => ?_, by simp, by simp⟩⟩
  · rcases hgot with hgot | hgot
    · cases hgot
      exact htrusted
    · cases hgot
  · rcases hgot with hgot | hgot
    · cases hgot
    · cases hgot
      exact htrusted

/-- A new block is the latest. -/
theorem time_le_of_grow {block : Block V} (hsorted : s.chain.Pairwise (·.time ≥ ·.time))
    (hhead : s.chain.head?.all (·.time ≤ block.time) = true) :
    ∀ b ∈ s.chain, b.time ≤ block.time := by
  intro b hb
  cases hchain : s.chain with
  | nil => simp [hchain] at hb
  | cons first rest =>
    rw [hchain] at hb hsorted hhead
    have hfirst : first.time ≤ block.time := by simpa using hhead
    rcases List.mem_cons.mp hb with rfl | hb
    · exact hfirst
    · exact Int.le_trans (List.rel_of_pairwise_cons hsorted hb) hfirst

/-- A retry that was in order stays so. A chain that is past the deadline gets no block in time any
more. -/
theorem GivenUp.grow {chain : List (Block V)} {i : List UInt8} {d : Int} {block : Block V}
    (h : GivenUp view chain i d) (hlatest : ∀ b ∈ chain, b.time ≤ block.time) :
    GivenUp view (block :: chain) i d := by
  rcases h with hfailed | ⟨hin, hpassed⟩
  · left
    rw [ChainView.hasFailed, List.any_cons, ← ChainView.hasFailed, hfailed, Bool.or_true]
  · right
    obtain ⟨b, hb, hlt⟩ := List.any_eq_true.mp hpassed
    -- the new block is later than one that is past the deadline
    have hlate : ¬ block.time ≤ d := by
      have hle := hlatest b hb
      simp only [decide_eq_true_eq] at hlt
      omega
    constructor
    · rw [ChainView.inTime, List.any_cons, ← ChainView.inTime, hin]
      simp [hlate]
    · rw [ChainView.passed, List.any_cons, ← ChainView.passed, hpassed, Bool.or_true]

/-- The chain grows, which is where calls may become late. -/
theorem Keyed.grow (h : Keyed view s key) {block : Block V}
    (hhead : s.chain.head?.all (·.time ≤ block.time) = true)
    (htimely : s.Timely view (.grow block)) :
    Keyed view { s with chain := block :: s.chain } key := by
  have hlatest := time_le_of_grow h.sorted hhead
  refine ⟨List.pairwise_cons.mpr ⟨hlatest, h.sorted⟩, h.cache,
    fun p once r hget hrun => (h.entries p once r hget hrun).grow block, fun c call hc => ?_⟩
  have hplaced := h.calls c call hc
  refine ⟨hplaced.entry, htimely call (List.mem_of_getElem? hc),
    fun p r hgot => (hplaced.got p r hgot).grow block, hplaced.asking, ?_⟩
  intro hreturned txHash expiry sentTs hquery
  obtain ⟨hgiven, hgenuine⟩ := hplaced.returned hreturned txHash expiry sentTs hquery
  exact ⟨hgiven.grow hlatest, hgenuine⟩

/-- A call relies on an entry only if the entry has an outcome. -/
theorem reliesOnAbsence_mono {created created' : List (OnceWithTimeout Nat (Except GoError V))}
    (h : ∀ (p : Nat) once, created'[p]? = some once → once.run.notFound = true →
      ∃ once', created[p]? = some once' ∧ once'.run.notFound = true)
    {place : TxPlace V} (hon : reliesOnAbsence created' place = true) :
    reliesOnAbsence created place = true := by
  have hentry : ∀ p : Nat, created'[p]?.any (·.run.notFound) = true →
      created[p]?.any (·.run.notFound) = true := by
    intro p hany
    obtain ⟨once, hget, hnotFound⟩ := (Option.any_eq_true _ _).mp hany
    exact (Option.any_eq_true _ _).mpr (h p once hget hnotFound)
  cases place <;> first | exact hon | exact hentry _ hon

/-- An entry that is added waits, and the others are as they were. -/
theorem getElem?_create {o : OnceWithKey String Nat (Except GoError V)} {hash : OnceKey String}
    {ctx : Nat} {now : Int} {p : Nat} {once : OnceWithTimeout Nat (Except GoError V)}
    (h : (o.create hash ctx now).1.created[p]? = some once) :
    o.created[p]? = some once ∨ p = o.created.length ∧ once.run = .waiting := by
  rcases Nat.lt_or_ge p o.created.length with hlt | hge
  · left
    exact (List.getElem?_append_left hlt).symm.trans h
  · right
    obtain ⟨hlt, rfl⟩ := List.getElem?_eq_some_iff.mp h
    have hlength : (o.create hash ctx now).1.created.length = o.created.length + 1 := by
      simp [OnceWithKey.create, OnceWithKey.createAt]
    obtain rfl : p = o.created.length := by omega
    refine ⟨rfl, ?_⟩
    simp [OnceWithKey.create, OnceWithKey.createAt]

/-- An entry whose state is set, and the others are as they were. -/
theorem getElem?_setRun {o : OnceWithKey String Nat (Except GoError V)}
    {run : OnceRun (Except GoError V)} {p q : Nat}
    {once : OnceWithTimeout Nat (Except GoError V)}
    (h : (o.update p ({ · with run })).created[q]? = some once) :
    o.created[q]? = some once ∨ p = q ∧ once.run = run := by
  rw [OnceWithKey.update_get] at h
  split at h
  · rename_i hpq
    obtain ⟨_, -, rfl⟩ := Option.map_eq_some_iff.mp h
    exact .inr ⟨hpq, rfl⟩
  · exact .inl h

/-- A call creates an entry, which is then keyed by its hash. -/
theorem Keyed.create (h : Keyed view s key) {c : Nat} {query : TxQuery} {ctx : Nat}
    (hc : s.client.calls[c]? = some ⟨query, ctx, .calling⟩) :
    Keyed view
      { s with
        client := ({ s.client with
            txOnce := (s.client.txOnce.create (.key query.hash) ctx s.client.now).1 } : TxOnce V)
          |>.move c (.holding s.client.txOnce.created.length) }
      (Function.update key s.client.txOnce.created.length query.hash) := by
  have hlength : (s.client.txOnce.create (.key query.hash) ctx s.client.now).1.created.length
      = s.client.txOnce.created.length + 1 := by
    simp [OnceWithKey.create, OnceWithKey.createAt]
  have hkey : ∀ p < s.client.txOnce.created.length,
      Function.update key s.client.txOnce.created.length query.hash p = key p :=
    fun p hp => Function.update_of_ne (Nat.ne_of_lt hp) _ _
  -- the new entry is the last, and has the hash of the call as its key
  refine h.move (fun hash p hmem => ?_) (fun p once r hget hrun => ?_) hkey (by omega)
    (fun d call hd hon => .inl ?_) (fun _ _ => rfl) fun call hcall => ?_
  · rcases List.mem_cons.mp hmem with heq | hmem
    · cases heq
      exact ⟨Function.update_self _ _ _, by omega⟩
    · obtain ⟨hhash, hlt⟩ := h.cache hash p (List.mem_of_mem_filter hmem)
      exact ⟨(hkey p hlt).trans hhash, by omega⟩
  · rcases getElem?_create hget with hold | ⟨-, hwaiting⟩
    · rw [hkey p (List.getElem?_eq_some_iff.mp hold).1]
      exact h.entries p once r hold hrun
    · rw [hwaiting] at hrun
      cases hrun
  · refine reliesOnAbsence_mono (fun p once hget hnotFound => ?_) hon
    rcases getElem?_create hget with hold | ⟨-, hwaiting⟩
    · exact ⟨once, hold, hnotFound⟩
    · rw [hwaiting] at hnotFound
      cases hnotFound
  · cases hc.symm.trans hcall
    refine ⟨fun p hp => ?_, fun hon => ?_, by simp, by simp, by simp⟩
    · cases hp
      exact ⟨Function.update_self _ _ _, by omega⟩
    · -- the new entry has no outcome
      obtain ⟨once, hget, hnotFound⟩ := (Option.any_eq_true _ _).mp hon
      rcases getElem?_create hget with hold | ⟨-, hwaiting⟩
      · exact absurd (List.getElem?_eq_some_iff.mp hold).1 (Nat.lt_irrefl _)
      · rw [hwaiting] at hnotFound
        cases hnotFound

/-- The first locked section. An entry that is shared is one of the same hash, and may have an old
outcome in it. -/
theorem Keyed.acquire (client : TxClient V H) (h : Keyed view s key) {c : Nat} {query : TxQuery}
    {ctx : Nat} (hc : s.client.calls[c]? = some ⟨query, ctx, .calling⟩)
    (htimely : ∀ found ∈ s.client.txOnce.shared (.key query.hash) s.client.now,
      found.2.run.notFound = true → view.lateFor s.chain query = false) :
    ∃ key', Keyed view { s with client := s.client.acquire client c query ctx } key' := by
  unfold TxOnce.acquire
  split
  -- the hash cannot be decoded, and the call returns an error
  · refine ⟨key, h.move_call fun call _ => placed_returned ?_⟩
    exact fun hok => by cases hok
  · rcases s.client.txOnce.acquire_cases (.key query.hash) ctx s.client.now with
      ⟨p, once, hshared, hget, hacquire⟩ | ⟨-, hacquire⟩
    · rw [hacquire]
      refine ⟨key, h.move_call fun call hcall => ?_⟩
      cases hc.symm.trans hcall
      refine ⟨fun q hq => ?_, fun hon => ?_, by simp, by simp, by simp⟩
      · cases hq
        exact h.cache _ _ (s.client.txOnce.shared_mem hshared)
      -- an outcome out of the cache: this is what `Timely` is about
      · refine htimely _ hshared ?_
        simpa [reliesOnAbsence, hget] using hon
    · rw [hacquire]
      exact ⟨_, h.create hc⟩

/-- The call runs the action of its entry, or is told its outcome. -/
theorem Keyed.invoke (h : Keyed view s key) {c p : Nat} {query : TxQuery} {ctx : Nat}
    (hc : s.client.calls[c]? = some ⟨query, ctx, .holding p⟩) {client' : TxOnce V}
    (hstep : s.client.invoke c p = some client') : Keyed view { s with client := client' } key := by
  have hplaced := h.calls c _ hc
  unfold TxOnce.invoke at hstep
  split at hstep
  · cases hstep
  rename_i once hget
  split at hstep
  · rename_i hwaiting
    cases hstep
    -- the entry had no outcome before, and has none yet
    have hrelies : ∀ {place : TxPlace V}, reliesOnAbsence
        (s.client.txOnce.update p ({ · with run := .running })).created place = true →
        reliesOnAbsence s.client.txOnce.created place = true := by
      refine reliesOnAbsence_mono fun q once' hget' hnotFound => ?_
      rcases getElem?_setRun hget' with hold | ⟨-, hrunning⟩
      · exact ⟨once', hold, hnotFound⟩
      · rw [hrunning] at hnotFound
        cases hnotFound
    refine h.move (fun hash q hmem => ?_) (fun q once' r hget' hrun => ?_) (fun _ _ => rfl) ?_
      (fun _ _ _ hon => .inl (hrelies hon)) (fun _ _ => rfl) fun call hcall => ?_
    · simpa [OnceWithKey.update] using h.cache hash q hmem
    · rcases getElem?_setRun hget' with hold | ⟨-, hrunning⟩
      · exact h.entries q once' r hold hrun
      · rw [hrunning] at hrun
        cases hrun
    · simp [OnceWithKey.update]
    · cases hc.symm.trans hcall
      refine ⟨fun q hq => ?_, fun hon => hplaced.timely (hrelies hon), by simp, by simp, by simp⟩
      simpa [OnceWithKey.update] using hplaced.entry q hq
  · cases hstep
  · rename_i r hran
    cases hstep
    refine h.move_call fun call hcall => ?_
    cases hc.symm.trans hcall
    have htrusted := h.entries p once r hget hran
    rw [(hplaced.entry p rfl).1] at htrusted
    refine (placed_got htrusted fun hnotFound => hplaced.timely ?_).1
    simpa [reliesOnAbsence, hget, OnceRun.notFound, hran] using hnotFound

/-- The node has answered. All calls at the entry are told, and not only the one that has asked. -/
theorem Keyed.answer [DecidableEq V] (h : Keyed view s key) {c p : Nat} {query : TxQuery}
    {ctx : Nat} {r : Except GoError V}
    (hc : s.client.calls[c]? = some ⟨query, ctx, .running p⟩)
    (htruth : view.answersTx s.chain (view.txID query.hash) r = true)
    (htimely : ∀ err, r = .error err → err.notFound = true → view.absent err = true)
    {client' : TxOnce V} (hstep : s.client.answer c p r = some client') :
    Keyed view { s with client := client' } key := by
  obtain ⟨hkey, hlt⟩ := (h.calls c _ hc).entry p rfl
  change key p = query.hash at hkey
  have htrusted := ChainView.trusted_of_answer htruth htimely
  have habsent : notFoundOutcome r = true → ∀ q : TxQuery, q.hash = key p →
      view.lateFor s.chain q = false := fun hnotFound q hq =>
    ChainView.lateFor_of_answer (by rwa [hq, hkey]) htimely hnotFound
  -- the entry is there and runs, or there is no step
  unfold TxOnce.answer at hstep
  split at hstep
  · cases hstep
  rename_i once hget
  split at hstep
  on_goal 2 => cases hstep
  split at hstep
  on_goal 2 => cases hstep
  cases hstep
  refine h.move (fun hash q hmem => ?_) (fun q once' r' hget' hrun => ?_) (fun _ _ => rfl) ?_
    (fun d call hd hon => ?_) (fun _ _ => rfl) fun call hcall => ?_
  · simpa [OnceWithKey.update] using h.cache hash q hmem
  · rcases getElem?_setRun hget' with hold | ⟨rfl, hran⟩
    · exact h.entries q once' r' hold hrun
    · cases hran.symm.trans hrun
      rwa [hkey]
  · simp [OnceWithKey.update]
  · -- a call at this entry is told now what the node has answered
    have hentry : ∀ q ∈ TxOnce.entry call.place,
        (s.client.txOnce.update p ({ · with run := .ran r })).created[q]?.any (·.run.notFound)
          = true →
        s.client.txOnce.created[q]?.any (·.run.notFound) = true
          ∨ view.lateFor s.chain call.query = false := by
      intro q hq hany
      obtain ⟨once', hget', hnotFound⟩ := (Option.any_eq_true _ _).mp hany
      rcases getElem?_setRun hget' with hold | ⟨rfl, hran⟩
      · exact .inl ((Option.any_eq_true _ _).mpr ⟨once', hold, hnotFound⟩)
      · rw [hran] at hnotFound
        exact .inr (habsent hnotFound _ ((h.calls d call hd).entry p hq).1.symm)
    cases hplace : call.place with
    | holding q =>
      rw [hplace] at hon hentry
      exact hentry q rfl hon
    | running q =>
      rw [hplace] at hon hentry
      exact hentry q rfl hon
    | _ =>
      rw [hplace] at hon
      exact .inl hon
  · cases hc.symm.trans hcall
    exact (placed_got htrusted fun hnotFound => habsent hnotFound _ hkey.symm).1

/-- The error of the call is set on the entry. -/
theorem Keyed.setError (h : Keyed view s key) {c p : Nat} {query : TxQuery} {ctx : Nat}
    {r : Except GoError V} (hc : s.client.calls[c]? = some ⟨query, ctx, .got p r⟩) :
    Keyed view
      { s with
        client := ({ s.client with txOnce := s.client.txOnce.setError p (errorOf r) } : TxOnce V)
          |>.move c (.recorded p r) }
      key := by
  have hplaced := h.calls c _ hc
  -- the error is written beside the outcome
  have hrun : ∀ (q : Nat) once', (s.client.txOnce.setError p (errorOf r)).created[q]? = some once' →
      ∃ once, s.client.txOnce.created[q]? = some once ∧ once.run = once'.run := by
    intro q once' hget'
    have hsame := s.client.txOnce.setError_run p q (errorOf r)
    rw [hget'] at hsame
    exact Option.map_eq_some_iff.mp hsame.symm
  have hlength : (s.client.txOnce.setError p (errorOf r)).created.length
      = s.client.txOnce.created.length := by
    cases r <;> simp [errorOf, OnceWithKey.setError, OnceWithKey.update]
  refine h.move (fun hash q hmem => ?_) (fun q once' r' hget' hran => ?_) (fun _ _ => rfl)
    (Nat.le_of_eq hlength.symm) (fun d call hd hon => .inl ?_) (fun _ _ => rfl) fun call hcall => ?_
  · rw [hlength]
    refine h.cache hash q ?_
    cases r <;> exact hmem
  · obtain ⟨once, hget, hsame⟩ := hrun q once' hget'
    exact h.entries q once r' hget (hsame.trans hran)
  · refine reliesOnAbsence_mono (fun q once' hget' hnotFound => ?_) hon
    obtain ⟨once, hget, hsame⟩ := hrun q once' hget'
    exact ⟨once, hget, hsame ▸ hnotFound⟩
  · cases hc.symm.trans hcall
    exact (placed_got (hplaced.got p r (.inl rfl)) hplaced.timely).2

/-- The second locked section. The call is through with `Do`, and returns or asks for the header. -/
theorem Keyed.release {client : TxClient V H} (hclient : client.Retries view)
    (h : Keyed view s key) {c p : Nat} {query : TxQuery} {ctx : Nat} {r : Except GoError V}
    (hc : s.client.calls[c]? = some ⟨query, ctx, .recorded p r⟩) :
    Keyed view { s with
      client := s.client.release client c p query r
      outcome := Function.update s.outcome c (some r) } key := by
  have hplaced := h.calls c _ hc
  have htrusted := hplaced.got p r (.inr rfl)
  change view.Trusted s.chain (view.txID query.hash) r at htrusted
  refine h.move (fun hash q hmem => ?_) (fun q once r' hget hran => ?_) (fun _ _ => rfl) ?_
    (fun d call hd hon => .inl ?_) (fun d hd => Function.update_of_ne hd _ _) fun call hcall => ?_
  · simpa using h.cache hash q (s.client.txOnce.release_mem hmem)
  · exact h.entries q once r' (by simpa using hget) hran
  · simp
  · simpa using hon
  · cases hc.symm.trans hcall
    rw [Function.update_self]
    -- what comes next is decided by the query and the outcome alone
    cases hnext : client.next query r with
    | latestHeader expiry sentTs =>
      obtain ⟨txHash, err, rfl, rfl, hnotFound⟩ := hclient.asks hnext
      refine ⟨by simp [TxOnce.entry], fun _ => hplaced.timely hnotFound, by simp, ?_, by simp⟩
      intro expiry' sentTs' hplace
      cases hplace
      exact ⟨⟨txHash, rfl⟩, err, rfl, htrusted hnotFound⟩
    | «return» r' =>
      refine ⟨by simp [TxOnce.entry], by simp [reliesOnAbsence], by simp, by simp, ?_⟩
      intro hplace txHash expiry sentTs hquery
      cases hplace
      change query = .shouldRetryTx txHash expiry sentTs at hquery
      subst hquery
      obtain ⟨v, rfl, hfailed⟩ := hclient.returns hnext
      exact ⟨.inl (ChainView.hasFailed_of_trusted htrusted hfailed), by simp⟩

/-- The header of the latest block tells that the chain is past the deadline. -/
theorem passed_of_header {client : TxClient V H} (hclient : client.Retries view)
    {chain : List (Block V)} {expiry : Int} {sentTs : Time} {r : Except GoError H}
    (htruth : view.answersHeader chain r = true)
    (hretry : retryUnlessFound expiry sentTs (client.headerTime r) = .ok (.shouldRetry true)) :
    ChainView.passed chain (sentTs.unixNano + expiry) = true := by
  cases hheader : client.headerTime r with
  | error err =>
    rw [hheader] at hretry
    cases hretry
  | ok t =>
    obtain ⟨header, time, rfl, htime, hle⟩ := hclient.headerTime hheader
    have hafter : sentTs.unixNano + expiry < t.unixNano := by
      rw [hheader, retryUnlessFound] at hretry
      by_contra hnot
      simp [hnot] at hretry
    simp only [ChainView.answersHeader, htime, Option.all_some] at htruth
    obtain ⟨b, hb, hbtime⟩ := (Option.any_eq_true _ _).mp htruth
    refine List.any_eq_true.mpr ⟨b, List.mem_of_head? hb, ?_⟩
    simp only [decide_eq_true_eq] at hbtime ⊢
    omega

/-- The header is read. The call is not late, so if the chain is past the deadline, the tx was not
there in time or has failed. -/
theorem Keyed.header {client : TxClient V H} (hclient : client.Retries view)
    (h : Keyed view s key) {c : Nat} {query : TxQuery} {ctx : Nat} {expiry : Int} {sentTs : Time}
    {r : Except GoError H} (hc : s.client.calls[c]? = some ⟨query, ctx, .asking expiry sentTs⟩)
    (htruth : view.answersHeader s.chain r = true) :
    Keyed view
      { s with
        client := s.client.move c
          (.returned (retryUnlessFound expiry sentTs (client.headerTime r))) }
      key := by
  refine h.move_call fun call hcall => ?_
  cases hc.symm.trans hcall
  have hplaced := h.calls c _ hc
  obtain ⟨⟨txHash, hquery⟩, err, houtcome, habsent⟩ := hplaced.asking expiry sentTs rfl
  change query = _ at hquery
  subst hquery
  refine ⟨by simp [TxOnce.entry], by simp [reliesOnAbsence], by simp, by simp, ?_⟩
  intro hplace txHash' expiry' sentTs' heq
  cases heq
  refine ⟨?_, fun err' herr => ?_⟩
  · have hpassed := passed_of_header hclient htruth (by simpa using hplace)
    -- the call has relied on the absence of the tx up to now
    have hlate : view.late s.chain (view.txID txHash) (sentTs.unixNano + expiry) = false :=
      hplaced.timely rfl
    rw [ChainView.late, hpassed] at hlate
    unfold GivenUp
    cases hfailed : view.hasFailed s.chain (view.txID txHash)
    · simp_all
    · simp
  · rw [houtcome] at herr
    cases herr
    exact habsent

/-- A timely step keeps the invariant. -/
theorem Keyed.step [DecidableEq V] {client : TxClient V H} (hclient : client.Retries view)
    (h : Keyed view s key) {a : Action V H} {s' : Watched V} (htimely : s.Timely view a)
    (hstep : s.step client view a = some s') : ∃ key', Keyed view s' key' := by
  cases a with
  | grow block =>
    rw [Watched.step] at hstep
    split at hstep
    · cases hstep
      exact ⟨key, h.grow ‹_› htimely⟩
    · cases hstep
  | client a =>
    rw [Watched.step] at hstep
    split at hstep
    on_goal 2 => cases hstep
    rename_i htruth
    obtain ⟨once, honce, rfl⟩ := Option.map_eq_some_iff.mp hstep
    cases TxOnce.step_cases honce with
    | call query ctx =>
      refine ⟨key, h.sorted, h.cache, h.entries, fun c call hc => ?_⟩
      -- an old call, or the one that was just made
      rcases Nat.lt_or_ge c s.client.calls.length with hlt | hge
      · exact h.calls c call ((List.getElem?_append_left hlt).symm.trans hc)
      · rw [List.getElem?_append_right hge] at hc
        obtain rfl := List.mem_singleton.mp (List.mem_of_getElem? hc)
        exact ⟨by simp [TxOnce.entry], by simp [reliesOnAbsence], by simp, by simp, by simp⟩
    | cancel ctx => exact ⟨key, h.sorted, h.cache, h.entries, h.calls⟩
    | tick now => exact ⟨key, h.sorted, h.cache, h.entries, h.calls⟩
    | acquire hc => exact h.acquire client hc (htimely _ hc)
    | invoke hc hinvoke => exact ⟨key, h.invoke hc hinvoke⟩
    | @answer c query ctx p r s' hc hanswer =>
      have htruth' : view.answersTx s.chain (view.txID query.hash) r = true := by
        simpa [truthful, hc] using htruth
      refine ⟨key, h.answer hc htruth' (fun err herr => ?_) hanswer⟩
      subst herr
      exact htimely
    | setError hc => exact ⟨key, h.setError hc⟩
    | @release c query ctx p r hc =>
      have houtcomes : s.outcomes (H := H) (.release c) = Function.update s.outcome c (some r) := by
        rw [outcomes, hc]
      rw [houtcomes]
      exact ⟨key, h.release hclient hc⟩
    | header hc _ => exact ⟨key, h.header hclient hc htruth⟩

/-- A new client, on a chain that has not grown yet. -/
def start : Watched V := { client := TxOnce.start }

/-- The invariant holds after every run of timely steps. -/
theorem run_keyed [DecidableEq V] {client : TxClient V H} (hclient : client.Retries view)
    (hrun : Machine.Run (Watched.step client view) (Watched.Timely view) start s) :
    ∃ key, Keyed view s key := by
  refine hrun.inv (I := fun s => ∃ key, Keyed view s key) ⟨fun _ => "", ?_⟩
    fun ⟨_, h⟩ htimely hstep => h.step hclient htimely hstep
  constructor
  · exact List.Pairwise.nil
  · exact fun _ _ hmem => by cases hmem
  · exact fun _ _ _ hget => by cases hget
  · exact fun _ _ hc => by cases hc

/-- **A retry is ordered only for a tx that did not make it in time** in every run of timely steps
of the calls of an EVM client or of a Cosmos client, beside any chain and with any node that tells
the truth about it. -/
theorem timely_retries_right (writeAckEventID : List UInt8)
    (unmarshal : List UInt8 → Except String (List (List UInt8))) (txID : String → List UInt8)
    (absent : GoError → Bool) :
    (∀ s, Machine.Run (Watched.step (EVMBridgeClient.txClient writeAckEventID)
          (EVMBridgeClient.view txID absent))
        (Watched.Timely (EVMBridgeClient.view txID absent)) start s →
        s.RetriesRight (EVMBridgeClient.view txID absent))
      ∧ ∀ s, Machine.Run (Watched.step (CosmosBridgeClient.txClient unmarshal)
          (CosmosBridgeClient.view txID absent))
        (Watched.Timely (CosmosBridgeClient.view txID absent)) start s →
        s.RetriesRight (CosmosBridgeClient.view txID absent) := by
  constructor
  · intro s hrun
    obtain ⟨key, hkeyed⟩ := run_keyed (EVMBridgeClient.retries writeAckEventID txID absent) hrun
    exact hkeyed.retriesRight
  · intro s hrun
    obtain ⟨key, hkeyed⟩ := run_keyed (CosmosBridgeClient.retries unmarshal txID absent) hrun
    exact hkeyed.retriesRight

end Watched

/-! ## Three runs -/

namespace Sample

/-- The view of an EVM chain with short hashes. -/
def evmView : ChainView Receipt UInt64 :=
  EVMBridgeClient.view (fun hash => hash.toUTF8.data.toList) (·.is .ethereumNotFound)

/-- A call of `ShouldRetryTx` for a tx sent at the epoch, with an expiry of ten seconds, up to the
answer of the node. -/
def lookedUp (r : Except GoError Receipt) : List (Watched.Action Receipt UInt64) :=
  [.client (.call (.shouldRetryTx "0xd1" (10 * 10 ^ 9) ⟨0, 0⟩) 0), .client (.acquire 0),
    .client (.invoke 0), .client (.answer 0 r)]

/-- The rest of the call, with the time of the latest header. -/
def headerRead (time : UInt64) : List (Watched.Action Receipt UInt64) :=
  [.client (.setError 0), .client (.release 0), .client (.header 0 (.ok time))]

/-- The tx gets into a block after five seconds. -/
def included : Watched.Action Receipt UInt64 :=
  .grow ⟨5 * 10 ^ 9, [("0xd1".toUTF8.data.toList, receipt)]⟩

def elevenSeconds : Watched.Action Receipt UInt64 := .grow ⟨11 * 10 ^ 9, []⟩

/-- The chain passes the expiry without the tx. -/
def neverIncluded : List (Watched.Action Receipt UInt64) :=
  lookedUp (.error ethereumNotFound) ++ [elevenSeconds] ++ headerRead 11

/-- The tx is looked up before it gets into a block in time, and the header is read when the chain
is past the expiry. -/
def includedInBetween : List (Watched.Action Receipt UInt64) :=
  lookedUp (.error ethereumNotFound) ++ [included, elevenSeconds] ++ headerRead 11

/-- A proxy in front of the node does not find its way. -/
def proxyError : GoError := .new "404 Not Found: 404 page not found\n"

def lookedUpInVain : List (Watched.Action Receipt UInt64) :=
  [included, elevenSeconds] ++ lookedUp (.error proxyError) ++ headerRead 11

end Sample

namespace Watched

/-- `timely_retries_right` for a run in which a retry is ordered. -/
theorem timely_retries_right_expired : ∃ s : Watched Receipt,
    Machine.Run (Watched.step (EVMBridgeClient.txClient []) Sample.evmView)
        (Watched.Timely Sample.evmView) start s
      ∧ s.client.calls.map (·.place) = [.returned (.ok (.shouldRetry true))]
      ∧ s.RetriesRight Sample.evmView := by
  have hscript : (Machine.script (Watched.step (EVMBridgeClient.txClient []) Sample.evmView)
      (fun s a => decide (s.Timely Sample.evmView a)) start Sample.neverIncluded).any
        (fun s => s.client.calls.map (·.place) = [.returned (.ok (.shouldRetry true))]) = true := by
    decide +kernel
  obtain ⟨s, hs, hend⟩ := (Option.any_eq_true _ _).mp hscript
  have hrun := Machine.run_of_script (fun _ _ => of_decide_eq_true) hs
  exact ⟨s, hrun, of_decide_eq_true hend,
    (timely_retries_right [] (fun _ => .ok []) _ _).1 s hrun⟩

/-- A call of the samples has ordered a retry. -/
def OrdersRetry (s : Watched Receipt) : Bool :=
  s.client.calls = [⟨.shouldRetryTx "0xd1" (10 * 10 ^ 9) ⟨0, 0⟩, 0,
    .returned (.ok (.shouldRetry true))⟩]

/-- The tx of the samples is in a block of the fifth second, and has not failed. -/
def IncludedInTime (s : Watched Receipt) : Bool :=
  s.chain = [⟨11 * 10 ^ 9, []⟩, ⟨5 * 10 ^ 9, [("0xd1".toUTF8.data.toList, Sample.receipt)]⟩]

/-- The retry of a tx that is in a block of the fifth second is wrong. -/
theorem not_retriesRight {s : Watched Receipt} (hcalls : s.OrdersRetry = true)
    (hchain : s.IncludedInTime = true) : ¬ s.RetriesRight Sample.evmView := by
  intro hright
  have hcalls := of_decide_eq_true hcalls
  have hchain := of_decide_eq_true hchain
  obtain ⟨hretry, -⟩ := hright 0 _ "0xd1" (10 * 10 ^ 9) ⟨0, 0⟩ (by rw [hcalls]; rfl) rfl rfl
  rw [hchain] at hretry
  rcases hretry with ⟨b, hb, v, hv, hfailed⟩ | hnone
  · rcases List.mem_pair.mp hb with rfl | rfl
    · cases hv
    · cases List.mem_singleton.mp hv
      cases hfailed
  · exact hnone _ (List.mem_cons_of_mem _ List.mem_cons_self) (by decide) Sample.receipt
      List.mem_cons_self

/-- A script that ends with a retry of a tx that is there. -/
theorem run_of_wrong_retry {actions : List (Action Receipt UInt64)}
    (h : (Machine.script (Watched.step (EVMBridgeClient.txClient []) Sample.evmView)
      (fun _ _ => true) start actions).any (fun s => s.OrdersRetry && s.IncludedInTime) = true) :
    ∃ s, Machine.Run (Watched.step (EVMBridgeClient.txClient []) Sample.evmView) (fun _ _ => True)
        start s
      ∧ Machine.script (Watched.step (EVMBridgeClient.txClient []) Sample.evmView)
        (fun _ _ => true) start actions = some s
      ∧ s.OrdersRetry = true ∧ ¬ s.RetriesRight Sample.evmView := by
  obtain ⟨s, hs, hend⟩ := (Option.any_eq_true _ _).mp h
  obtain ⟨hcalls, hchain⟩ := Bool.and_eq_true_iff.mp hend
  exact ⟨s, Machine.run_of_script (fun _ _ _ => trivial) hs, hs, hcalls,
    not_retriesRight hcalls hchain⟩

/-- A retry is ordered for a tx that is in a block of the fifth second: it was looked up before, or
the error of a proxy was taken for its absence. -/
theorem retry_of_included_tx :
    (∃ s, Machine.Run (Watched.step (EVMBridgeClient.txClient []) Sample.evmView) (fun _ _ => True)
        start s
      ∧ Machine.script (Watched.step (EVMBridgeClient.txClient []) Sample.evmView)
        (fun _ _ => true) start Sample.includedInBetween = some s
      ∧ s.OrdersRetry = true ∧ ¬ s.RetriesRight Sample.evmView)
    ∧ ∃ s, Machine.Run (Watched.step (EVMBridgeClient.txClient []) Sample.evmView) (fun _ _ => True)
        start s
      ∧ Machine.script (Watched.step (EVMBridgeClient.txClient []) Sample.evmView)
        (fun _ _ => true) start Sample.lookedUpInVain = some s
      ∧ s.OrdersRetry = true ∧ ¬ s.RetriesRight Sample.evmView :=
  ⟨run_of_wrong_retry (by decide +kernel), run_of_wrong_retry (by decide +kernel)⟩

end Watched

end IbcRelayer
