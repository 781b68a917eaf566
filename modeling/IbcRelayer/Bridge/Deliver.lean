import IbcRelayer.Lib.Mutex
import IbcRelayer.Bridge.Cosmos
import IbcRelayer.Pricing

/-!
# IbcRelayer — submissions to a chain

`DeliverTx` of both clients (`shared/bridges/ibcv2/evm_bridge_client.go`, `cosmos_bridge_client.go`)
and `signAndSubmitData` of the EVM client. The batches of every pipeline that delivers to a chain
call it on one client. It holds `txSubmissionLock` from its first statement to its last, and waits
for `txSubmissionDelay` to pass since `lastSubmissionTime`.

* `deliver` — what both do between `Lock` and `Unlock`, given how the client submits the bytes.
* `Deliveries` — what the calls share: the clock, `lastSubmissionTime`, and the log of what the
  client asked and was answered.
* `Backend` — which calls of the client are pauses, which answers mean that the chain took a tx,
  and what the chain may answer.

The context of a call may be done at any time.
-/

namespace IbcRelayer

open CallTree Prog Mutex

/-- `t.Add(d)` -/
def Time.add (t : Time) (d : Int) : Time := { t with unixNano := t.unixNano + d }

variable {C : Type} {A : C → Type}

/-- `if err != nil { return fmt.Errorf(msg + ": %w", err) }` -/
def orWrap {α : Type} (msg : String) (x : ExceptT GoError (Prog A) α) :
    ExceptT GoError (Prog A) α :=
  .mk do
    match ← x.run with
    | .ok a => return .ok a
    | .error err => return .error (err.wrap msg)

/-! ## `DeliverTx` -/

inductive DeliverCall (C : Type) where
  | lastSubmissionTime
  | now
  /-- `time.After(d)` or `ctx.Done()`, whichever comes first -/
  | select (d : Int)
  | setLastSubmissionTime (t : Time)
  | client (c : C)

@[reducible] def DeliverCall.Answer (A : C → Type) : DeliverCall C → Type
  | .lastSubmissionTime => Time
  | .now => Time
  | .select _ => Except GoError Unit
  | .setLastSubmissionTime _ => Unit
  | .client c => A c

abbrev Deliver (A : C → Type) := Prog (DeliverCall.Answer A)

/-- The deferred function of `DeliverTx`, for an `err` that is nil. -/
def stamp : Deliver A Unit :=
  .call .now fun now => .call (.setLastSubmissionTime now) .done

/-- `DeliverTx` of both clients between `Lock` and `Unlock`. `submit` returns the hash of the tx and
the address of the relayer. -/
def deliver (txSubmissionDelay : Int) (submit : ExceptT GoError (Prog A) (String × String)) :
    Deliver A (Except GoError BridgeTx) := do
  let lastSubmissionTime ← .call .lastSubmissionTime .done
  let now ← .call .now .done
  let waited ← .call (.select ((lastSubmissionTime.add txSubmissionDelay).sub now)) .done
  match waited with
  | .error err =>
    -- the context is done; `ctx.Err()` is returned and never assigned to `err`
    stamp
    return .error err
  | .ok () =>
    match ← submit.run.translate fun c => .call (.client c) .done with
    | .error err => return .error err
    | .ok (hash, relayerAddress) =>
      let timestamp ← .call .now .done
      stamp
      return .ok { hash, timestamp := timestamp.utc, relayerAddress }

/-! ## The two clients -/

/-- `HexBytes.String` -/
def hexString (bytes : List UInt8) : String :=
  let digit (n : UInt8) : Char := Char.ofNat (if n < 10 then 0x30 + n.toNat else 0x37 + n.toNat)
  String.ofList (bytes.flatMap fun byte => [digit (byte / 16), digit (byte % 16)])

namespace CosmosBridgeClient

variable (client : CosmosBridgeClient) (unmarshal : List UInt8 → Except GoError (List CodecAny))
  (unpackAny : CodecAny → Except GoError SdkMsg)

/-- `DeliverTx` after the wait. -/
def submit (bz : List UInt8) : Submit (String × String) := do
  let bech32Address ← Submit.ask ("converting and encoding signer address " ++ client.signerText
      ++ " with prefix " ++ client.addressPrefix ++ " to bech32")
    (.mk (.call (.convertAndEncode client.addressPrefix client.signerAddress) .done))
  let hash ← Submit.ask "signing and submitting recv tx"
    (client.signAndSubmit unmarshal unpackAny bz)
  return (hexString hash, bech32Address)

/-- `DeliverTx`, which does not look at its address. -/
def deliverTx (bz : List UInt8) (_address : String) :
    Prog (Op.Answer (DeliverCall.Answer CosmosCall.Answer)) (Except GoError BridgeTx) :=
  locked (deliver client.txSubmissionDelay (client.submit unmarshal unpackAny bz))

end CosmosBridgeClient

/-- The calls of a submission. `sendTransaction` has a tx and the signature that `sign` made. -/
inductive EVMCall where
  | latestBaseFee
  | suggestGasTipCap
  | pendingCodeAt (address : String)
  | estimateGas (msg : CallMsg)
  | pendingNonceAt (address : String)
  | nonceAt (address : String)
  | sign (chainID : String) (tx : DynamicFeeTx)
  | sendTransaction (tx : DynamicFeeTx) (signature : List UInt8)
  deriving DecidableEq, Repr

@[reducible] def EVMCall.Answer : EVMCall → Type
  | .latestBaseFee => Except GoError Int
  | .suggestGasTipCap => Except GoError Int
  | .pendingCodeAt _ => Except GoError (List UInt8)
  | .estimateGas _ => Except GoError UInt64
  | .pendingNonceAt _ => Except GoError UInt64
  | .nonceAt _ => Except GoError UInt64
  | .sign .. => Except GoError (List UInt8)
  | .sendTransaction .. => Except GoError Unit

abbrev EVMSubmit := ExceptT GoError (Prog EVMCall.Answer)

/-- `EVMBridgeClient`, as far as submissions read it. -/
structure EVMBridgeClient extends EVMTxClient where
  txSubmissionDelay : Int
  /-- `signedTx.Hash().String()`, of a tx and its signature -/
  hash : DynamicFeeTx → List UInt8 → String

namespace EVMBridgeClient

variable (c : EVMBridgeClient)

/-- `newTx`, call by call -/
def newTxCalls (bz : List UInt8) (address : String) : EVMSubmit DynamicFeeTx := do
  let recipient := c.hexToAddress address
  let baseFee ← orWrap "getting latest block header" (.mk (.call .latestBaseFee .done))
  let gasTipCap ← orWrap ("getting suggested gas price for chain " ++ c.chainID)
    (.mk (.call .suggestGasTipCap .done))
  let gasFeeCap := gasTipCap + baseFee * 2
  let code ← orWrap ("getting pending code at for address " ++ recipient)
    (.mk (.call (.pendingCodeAt recipient) .done))
  if code.isEmpty then
    -- the error that is wrapped is nil
    throw (.new ("code no length response when getting pending code for address " ++ recipient
      ++ ": %!w(<nil>)"))
  let gasLimit ← orWrap ("estimating gas to deliver msg to " ++ recipient)
    (.mk (.call (.estimateGas { sender := c.signerAddress, recipient, data := bz }) .done))
  let pendingNonce ← orWrap
    ("getting pending nonce for address " ++ c.signerAddress ++ " on chain " ++ c.chainID)
    (.mk (.call (.pendingNonceAt c.signerAddress) .done))
  let confirmedNonce ← orWrap
    ("getting confirmed nonce for address " ++ c.signerAddress ++ " on chain " ++ c.chainID)
    (.mk (.call (.nonceAt c.signerAddress) .done))
  return {
    recipient
    nonce := selectNonceWithFallback pendingNonce confirmedNonce
    gasFeeCap := c.adjustGasFeeCap (some gasFeeCap)
    gasTipCap := c.adjustGasTipCap (some gasTipCap)
    gas := gasLimit
    data := bz }

/-- `signAndSubmitData` -/
def signAndSubmitData (bz : List UInt8) (address : String) : EVMSubmit String := do
  let tx ← orWrap "creating tx to sign and submit" (c.newTxCalls bz address)
  let signature ← orWrap ("signing tx with address " ++ c.signerAddress)
    (.mk (.call (.sign c.chainID tx) .done))
  orWrap "sending signed transaction" (.mk (.call (.sendTransaction tx signature) .done))
  return c.hash tx signature

/-- `DeliverTx` after the wait. -/
def submit (bz : List UInt8) (address : String) : EVMSubmit (String × String) := do
  let hash ← orWrap ("signing and submitting data to " ++ address)
    (c.signAndSubmitData bz address)
  return (hash, c.signerAddress)

/-- `DeliverTx` -/
def deliverTx (bz : List UInt8) (address : String) :
    Prog (Op.Answer (DeliverCall.Answer EVMCall.Answer)) (Except GoError BridgeTx) :=
  locked (deliver c.txSubmissionDelay (c.submit bz address))

end EVMBridgeClient

/-- The answers of a node that does not change. -/
def EVMTxNode.answer (node : EVMTxNode) (signature : List UInt8) : (c : EVMCall) → EVMCall.Answer c
  | .latestBaseFee => node.latestBaseFee
  | .suggestGasTipCap => node.suggestGasTipCap
  | .pendingCodeAt address => node.pendingCodeAt address
  | .estimateGas msg => node.estimateGas msg
  | .pendingNonceAt address => node.pendingNonceAt address
  | .nonceAt address => node.nonceAt address
  | .sign .. => .ok signature
  | .sendTransaction .. => .ok ()

/-- The result of a program whose calls are answered by a function. -/
def resultOf {α : Type} (answer : (c : C) → A c) (p : ExceptT GoError (Prog A) α) :
    Except GoError α :=
  (p.run.run (fun (_ : Unit) _ _ => ()) (fun _ => answer) ()).1

/-- The result of a call whose error is wrapped, followed by the rest of the program. -/
theorem resultOf_orWrap_bind {α β : Type} (answer : (c : C) → A c) (msg : String)
    (x : ExceptT GoError (Prog A) α) (f : α → ExceptT GoError (Prog A) β) :
    resultOf answer (orWrap msg x >>= f)
      = ((resultOf answer x).mapError (·.wrap msg) >>= fun a => resultOf answer (f a)) := by
  unfold resultOf
  rw [ExceptT.run_bind, Prog.run_bind]
  have hwrap : ((orWrap msg x).run.run (fun (_ : Unit) _ _ => ()) (fun _ => answer) ()).1
      = ((x.run.run (fun (_ : Unit) _ _ => ()) (fun _ => answer) ()).1).mapError (·.wrap msg) := by
    change ((x.run >>= _).run _ _ _).1 = _
    rw [Prog.run_bind]
    cases (x.run.run (fun (_ : Unit) _ _ => ()) (fun _ => answer) ()).1 <;> rfl
  rw [hwrap]
  cases (x.run.run (fun (_ : Unit) _ _ => ()) (fun _ => answer) ()).1 <;> rfl

/-- On a node that does not change, `newTx` builds the tx that is computed from its answers. -/
theorem EVMBridgeClient.resultOf_newTxCalls (c : EVMBridgeClient) (node : EVMTxNode)
    (signature bz : List UInt8) (address : String) :
    resultOf (node.answer signature) (c.newTxCalls bz address) = c.newTx node bz address := by
  unfold newTxCalls EVMTxClient.newTx
  rw [resultOf_orWrap_bind]
  refine bind_congr fun baseFee => ?_
  rw [resultOf_orWrap_bind]
  refine bind_congr fun gasTipCap => ?_
  rw [resultOf_orWrap_bind]
  refine bind_congr fun code => ?_
  cases code with
  | nil => rfl
  | cons byte code =>
    change resultOf _ (orWrap _ _ >>= _) = _
    rw [resultOf_orWrap_bind]
    refine bind_congr fun gasLimit => ?_
    rw [resultOf_orWrap_bind]
    refine bind_congr fun pending => ?_
    rw [resultOf_orWrap_bind]
    rfl

/-! ## What the calls share -/

/-- The clock is in nanoseconds since the Unix epoch. `since` is when the section's last call was
answered: the next one is not made before. -/
structure Deliveries (A : C → Type) where
  clock : Nat
  since : Nat := clock
  lastSubmissionTime : Time := .zero
  /-- The answers of the client's calls and their times, the latest first. -/
  log : List (Nat × CallTree.Event A) := []

structure Backend (A : C → Type) where
  /-- The duration of a `time.Sleep` -/
  pause : C → Option Int
  /-- The chain has taken a tx. -/
  accepts : CallTree.Event A → Bool
  /-- The chain may give this answer now, after what it has answered before. -/
  honest : Nat → List (Nat × CallTree.Event A) → CallTree.Event A → Bool

namespace Deliveries

variable (b : Backend A)

def answered (s : Deliveries A) : Deliveries A := { s with since := s.clock }

def push (s : Deliveries A) (e : CallTree.Event A) : Deliveries A :=
  { s.answered with log := (s.clock, e) :: s.log }

/-- What a call and its answer do. A wait is not over before its time. -/
def act (s : Deliveries A) : (c : DeliverCall C) → DeliverCall.Answer A c → Option (Deliveries A)
  | .lastSubmissionTime, t => if t = s.lastSubmissionTime then some s.answered else none
  | .now, t => if t.unixNano = s.clock then some s.answered else none
  | .select d, .ok () => if s.since + d ≤ s.clock then some s.answered else none
  | .select _, .error _ => some s.answered
  | .setLastSubmissionTime t, _ => some { s.answered with lastSubmissionTime := t }
  | .client c, r =>
    if (∀ d ∈ b.pause c, s.since + d ≤ s.clock) ∧ b.honest s.clock s.log ⟨c, r⟩ then
      some (s.push ⟨c, r⟩)
    else
      none

/-- The shared state of the calls; an event is time that passes. -/
def service : Service (DeliverCall.Answer A) (Deliveries A) Nat where
  act := act b
  event s d := some { s with clock := s.clock + d }

/-- The times at which the chain took a tx, the latest first. -/
def accepted (s : Deliveries A) : List Nat := (s.log.filter fun e => b.accepts e.2).map Prod.fst

end Deliveries

/-- Calls of `DeliverTx` on one client. -/
abbrev Deliverers (A : C → Type) :=
  Threads (DeliverCall.Answer A) (Deliveries A) (Except GoError BridgeTx)

/-- What the calls of `DeliverTx` on a client made at `clock` lead to. Each is made with the bytes
of a tx and an address, at any time, and runs in a goroutine of its own. -/
def Deliverers.Run (b : Backend A) (deliverTx : List UInt8 → String →
    Prog (Op.Answer (DeliverCall.Answer A)) (Except GoError BridgeTx)) (clock : Nat) :
    Deliverers A → Prop :=
  Machine.Run (Threads.step (Deliveries.service b) fun request : List UInt8 × String =>
    deliverTx request.1 request.2) (fun _ _ => True) { shared := { clock } }

end IbcRelayer
