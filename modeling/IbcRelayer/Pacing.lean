import IbcRelayer.Bridge.Deliver
import IbcRelayer.ClientUpdates

/-!
# IbcRelayer — txs are `txSubmissionDelay` apart

However many batches deliver to a chain at a time, whatever fails and whichever contexts are done:
the chain takes a tx of the relayer no earlier than `txSubmissionDelay` after the one before it
(`cosmos_txs_spaced`, `evm_txs_spaced`).

`DeliverTx` sets `lastSubmissionTime` only when it has no error. A submission to a Cosmos chain may
fail after the chain has taken some of its txs, which are client updates; that each of them is
followed by a pause is what keeps the next submission away from them.

* `Pace` — the ledger of a section: what it has read, and whether the next tx may be sent.
* `pace` — the protocol, and `paced`, the invariant of the shared state under it.
-/

namespace IbcRelayer

open CallTree Prog Mutex

variable {C : Type} {A : C → Type} {α : Type}

/-- Times, the latest first, that are at least `delay` apart. -/
def Spaced (delay : Int) (times : List Nat) : Prop :=
  times.Pairwise fun (later earlier : Nat) => (earlier : Int) + delay ≤ later

/-! ## The protocol -/

/-- A section is at rest until it has waited. Then it may send a tx; once the chain has taken one it
is busy, until it pauses or sets `lastSubmissionTime`. -/
inductive PacePhase where
  | resting
  | quiet
  | busy
  deriving DecidableEq

/-- What a section has read, unless a tx has been taken since, and its phase. -/
structure Pace where
  last : Option Time := none
  now : Option Time := none
  phase : PacePhase := .resting

section Protocol

variable (b : Backend A) (delay : Int)

/-- A section waits until `delay` after the `lastSubmissionTime` that it has read, and calls the
client after that. Once the chain has taken a tx, the only call is a pause of at least `delay`. -/
def pace : Protocol (DeliverCall.Answer A) Pace where
  allows g
    | .lastSubmissionTime => True
    | .now => True
    | .select d => g.phase = .resting ∧ ∃ last ∈ g.last, ∃ now ∈ g.now,
        last.unixNano ≤ now.unixNano → last.unixNano + delay ≤ now.unixNano + d
    | .setLastSubmissionTime t => g.now = some t
    | .client c => g.phase = .quiet ∨ (g.phase = .busy ∧ ∃ d ∈ b.pause c, delay ≤ d)
  next g
    | .lastSubmissionTime, t => { g with last := some t }
    | .now, t => { g with now := some t }
    | .select _, .ok () => { g with phase := .quiet }
    | .select _, .error _ => g
    | .setLastSubmissionTime t, _ => { g with last := some t, phase := .resting }
    | .client c, r =>
      if b.accepts ⟨c, r⟩ then { g with now := none, phase := .busy }
      else { g with phase := .quiet }

/-- The protocol of the client's own calls. -/
def clientPace : Protocol A Pace := (pace b delay).comap DeliverCall.client

end Protocol

/-! ## The invariant -/

section Invariant

variable {b : Backend A} {delay : Int} {g : Pace} {s s' : Deliveries A}

theorem Deliveries.accepted_push (b : Backend A) (s : Deliveries A) (e : CallTree.Event A) :
    (s.push e).accepted b = if b.accepts e then s.clock :: s.accepted b else s.accepted b := by
  rw [accepted, push, List.filter_cons]
  split <;> rfl

variable (b delay) in
/-- How far back the txs are that the chain has taken. -/
def Settled (s : Deliveries A) : PacePhase → Prop
  | .resting => ∀ t ∈ s.accepted b, t ≤ s.lastSubmissionTime.unixNano ∨ t + delay ≤ s.clock
  | .quiet => ∀ t ∈ s.accepted b, t + delay ≤ s.clock
  | .busy => True

variable (b delay) in
/-- The invariant of a section and the shared state. `since` is the time of the last answer that the
holder of the lock was given. -/
structure Paced (g : Pace) (s : Deliveries A) : Prop where
  since : s.since ≤ s.clock
  lastSubmissionTime : s.lastSubmissionTime.unixNano ≤ s.since
  accepted : ∀ t ∈ s.accepted b, t ≤ s.since
  spaced : Spaced delay (s.accepted b)
  last : ∀ t ∈ g.last, s.lastSubmissionTime = t
  now : ∀ now ∈ g.now, s.lastSubmissionTime.unixNano ≤ now.unixNano ∧ now.unixNano ≤ s.since
    ∧ ∀ t ∈ s.accepted b, t ≤ now.unixNano
  phase : Settled b delay s g.phase

namespace Paced

/-- A client is made after January 1 of year 1. -/
theorem start (clock : Nat) : Paced b delay {} ({ clock } : Deliveries A) := by
  refine ⟨Nat.le_refl _, ?_, by simp [Deliveries.accepted], .nil, ?_, ?_, ?_⟩
  · have hzero : Time.zero.unixNano ≤ 0 := by decide
    exact le_trans hzero (by simp)
  · rintro _ ⟨⟩
  · rintro _ ⟨⟩
  · simp [Settled, Deliveries.accepted]

/-- Time goes on, or a call is answered that sends nothing. -/
theorem later (h : Paced b delay g s) {clock since : Nat} (hsince : s.since ≤ since)
    (hclock : s.clock ≤ clock) (hle : since ≤ clock) :
    Paced b delay g { s with clock, since } where
  since := hle
  lastSubmissionTime := by
    have := h.lastSubmissionTime
    dsimp only
    omega
  accepted t ht := le_trans (h.accepted t ht) hsince
  spaced := h.spaced
  last := h.last
  now now hnow := by
    obtain ⟨hlast, hnow, haccepted⟩ := h.now now hnow
    refine ⟨hlast, ?_, haccepted⟩
    dsimp only
    omega
  phase := by
    have hphase := h.phase
    cases hg : g.phase with
    -- a delay that has passed has passed later too
    | resting =>
      rw [hg] at hphase
      intro t ht
      rcases hphase t ht with hlast | hdelay
      · exact .inl hlast
      · refine .inr (le_trans hdelay ?_)
        exact_mod_cast hclock
    | quiet =>
      rw [hg] at hphase
      intro t ht
      refine le_trans (hphase t ht) ?_
      exact_mod_cast hclock
    | busy => trivial

theorem answered (h : Paced b delay g s) : Paced b delay g s.answered :=
  h.later h.since (Nat.le_refl _) (Nat.le_refl _)

/-- A wait of `d` since the section's last call has passed, and the txs were taken no later than
`d` allows: the next one may be sent. -/
theorem quiet (h : Paced b delay g s)
    (hquiet : ∀ t ∈ s.accepted b, (t : Int) + delay ≤ s.clock) :
    Paced b delay { g with phase := .quiet } s where
  since := h.since
  lastSubmissionTime := h.lastSubmissionTime
  accepted := h.accepted
  spaced := h.spaced
  last := h.last
  now := h.now
  phase := hquiet

/-- The section is left, or entered by the next call of `DeliverTx`. -/
theorem rested (h : Paced b delay g s) (hphase : g.phase ≠ .busy) : Paced b delay {} s where
  since := h.since
  lastSubmissionTime := h.lastSubmissionTime
  accepted := h.accepted
  spaced := h.spaced
  last _ ht := nomatch ht
  now _ hnow := nomatch hnow
  phase := by
    have hsettled := h.phase
    cases hg : g.phase with
    | resting =>
      rw [hg] at hsettled
      exact hsettled
    | quiet =>
      rw [hg] at hsettled
      exact fun t ht => .inr (hsettled t ht)
    | busy => exact absurd hg hphase

/-- The wait is over. It began after the clock was read, so it ends `delay` after the latest
submission. -/
theorem select (h : Paced b delay g s) {d : Int} (hallowed : (pace b delay).allows g (.select d))
    (hwaited : (s.since : Int) + d ≤ s.clock) : Paced b delay { g with phase := .quiet } s := by
  obtain ⟨hresting, last, hlast, now, hnow, hd⟩ := hallowed
  obtain ⟨hle, hsince, -⟩ := h.now now hnow
  have hread : s.lastSubmissionTime = last := h.last last hlast
  have hsettled := h.phase
  rw [hresting] at hsettled
  refine h.quiet fun t ht => ?_
  rw [← hread] at hd
  have := hd hle
  -- the tx was taken before `lastSubmissionTime`, or is old enough already
  rcases hsettled t ht with hbefore | hbefore <;> omega

/-- The time that is set was read after the last tx was taken. -/
theorem setLastSubmissionTime (h : Paced b delay g s) {t : Time} (hnow : g.now = some t) :
    Paced b delay { g with last := some t, phase := .resting }
      { s with lastSubmissionTime := t } := by
  obtain ⟨-, hsince, haccepted⟩ := h.now t hnow
  refine ⟨h.since, hsince, h.accepted, h.spaced, ?_, ?_, fun a ha => .inl (haccepted a ha)⟩
  · rintro _ ⟨⟩
    rfl
  · intro now hg
    cases hnow.symm.trans hg
    exact ⟨le_refl _, hsince, haccepted⟩

/-- The client may call, and the pause it makes is over. -/
theorem calls (h : Paced b delay g s) {c : C} (hallowed : (pace b delay).allows g (.client c))
    (hpause : ∀ d ∈ b.pause c, (s.since : Int) + d ≤ s.clock) :
    ∀ t ∈ s.accepted b, (t : Int) + delay ≤ s.clock := by
  intro t ht
  rcases hallowed with hquiet | ⟨-, d, hd, hdelay⟩
  · have hsettled := h.phase
    rw [hquiet] at hsettled
    exact hsettled t ht
  · have := h.accepted t ht
    have := hpause d hd
    omega

/-- The client's call is answered, and the chain may have taken a tx by it. -/
theorem client (h : Paced b delay g s) {c : C} {r : A c}
    (hquiet : ∀ t ∈ s.accepted b, (t : Int) + delay ≤ s.clock) :
    Paced b delay ((pace b delay).next g (.client c) r)
      (s.push ⟨c, r⟩) := by
  have haccepted := s.accepted_push b ⟨c, r⟩
  by_cases haccepts : b.accepts ⟨c, r⟩ = true
  · -- the tx is the latest, and every other one is `delay` ago
    rw [if_pos haccepts] at haccepted
    have hnext : (pace b delay).next g (.client c) r = { g with now := none, phase := .busy } :=
      if_pos haccepts
    rw [hnext]
    refine ⟨Nat.le_refl _, h.answered.lastSubmissionTime, ?_, ?_, h.last, ?_, trivial⟩
    · rw [haccepted]
      exact List.forall_mem_cons.mpr ⟨Nat.le_refl _, h.answered.accepted⟩
    · rw [haccepted]
      exact List.Pairwise.cons hquiet h.spaced
    · rintro _ ⟨⟩
  -- nothing is added to the txs, so the delay since the last one still holds
  · rw [if_neg haccepts] at haccepted
    have hnext : (pace b delay).next g (.client c) r = { g with phase := .quiet } :=
      if_neg haccepts
    have hlater := h.answered.quiet hquiet
    rw [hnext]
    refine ⟨hlater.since, hlater.lastSubmissionTime, ?_, ?_, hlater.last, ?_, ?_⟩
    · rw [haccepted]
      exact hlater.accepted
    · rw [haccepted]
      exact hlater.spaced
    · rw [haccepted]
      exact hlater.now
    · change ∀ t ∈ _, _
      rw [haccepted]
      exact hquiet

/-- Every call of a section, and its answer, keep the invariant. -/
theorem act (h : Paced b delay g s) {c : DeliverCall C} {r : DeliverCall.Answer A c}
    (hallowed : (pace b delay).allows g c) (hact : s.act b c r = some s') :
    Paced b delay ((pace b delay).next g c r) s' := by
  cases c with
  | lastSubmissionTime =>
    obtain ⟨hr, ⟨⟩⟩ := Option.ite_none_right_eq_some.mp hact
    have hs := h.answered
    refine ⟨hs.since, hs.lastSubmissionTime, hs.accepted, hs.spaced, ?_, hs.now, hs.phase⟩
    rintro _ ⟨⟩
    exact hr.symm
  | now =>
    obtain ⟨hr, ⟨⟩⟩ := Option.ite_none_right_eq_some.mp hact
    have hs := h.answered
    refine ⟨hs.since, hs.lastSubmissionTime, hs.accepted, hs.spaced, hs.last, ?_, hs.phase⟩
    rintro _ ⟨⟩
    rw [hr]
    exact ⟨hs.lastSubmissionTime, le_refl _, fun t ht => by exact_mod_cast hs.accepted t ht⟩
  -- a context that is done while the section waits ends the wait early, with an error
  | select d =>
    cases r with
    | error err =>
      cases hact
      exact h.answered
    | ok =>
      obtain ⟨hwaited, ⟨⟩⟩ := Option.ite_none_right_eq_some.mp hact
      exact (h.select hallowed hwaited).answered
  | setLastSubmissionTime t =>
    cases hact
    exact h.answered.setLastSubmissionTime hallowed
  | client c =>
    obtain ⟨⟨hpause, -⟩, ⟨⟩⟩ := Option.ite_none_right_eq_some.mp hact
    exact h.client (h.calls hallowed hpause)

end Paced

variable (b delay) in
/-- A section is not left while it is busy. -/
def paced : Resource (Deliveries.service b) (pace b delay) {} (fun g => g.phase ≠ .busy) where
  Free := Paced b delay {}
  Held := Paced b delay
  enter h := h
  leave h hphase := h.rested hphase
  act h hallowed hact := h.act hallowed hact
  free_event h hevent := by
    cases hevent
    exact h.later (Nat.le_refl _) (Nat.le_add_right _ _) (le_trans h.since (Nat.le_add_right _ _))
  held_event h hevent := by
    cases hevent
    exact h.later (Nat.le_refl _) (Nat.le_add_right _ _) (le_trans h.since (Nat.le_add_right _ _))

end Invariant

/-! ## Programs under the protocol -/

section Rules

variable {b : Backend A} {delay : Int} {g : Pace} {β : Type}

/-- Wrapping an error makes no call. -/
theorem orWrap_obeys {G : Type} {pr : Protocol A G} {g : G} {ok : α → G → Prop} {failed : G → Prop}
    {x : ExceptT GoError (Prog A) α} (msg : String)
    (h : pr.Obeys x.run g (Protocol.Outcome ok failed)) :
    pr.Obeys (orWrap msg x).run g (Protocol.Outcome ok failed) := by
  change pr.Obeys (x.run >>= _) g _
  refine h.bind fun r g' hr => ?_
  cases r with
  | ok a => exact hr
  | error err => exact hr

theorem orWrap_always {P : C → Prop} {x : ExceptT GoError (Prog A) α} (msg : String)
    (h : x.run.Always P) : (orWrap msg x).run.Always P := by
  change Always P (x.run >>= _)
  refine h.bind fun r => ?_
  cases r <;> trivial

/-- The chain takes no tx by this call. -/
def Backend.Idle (b : Backend A) (c : C) : Prop := ∀ r, b.accepts ⟨c, r⟩ = false

/-- A section stays quiet while the chain takes no tx. -/
theorem quiet_of_idle {p : Prog A α} (h : p.Always b.Idle) (hg : g.phase = .quiet) :
    (clientPace b delay).Obeys p g fun _ g' => g'.phase = .quiet := by
  induction p generalizing g with
  | done a => exact hg
  | call c k ih =>
    refine ⟨.inl hg, fun r => ih r (h.2 r) ?_⟩
    change Pace.phase (if b.accepts ⟨c, r⟩ then _ else _) = _
    rw [h.1 r]
    rfl

/-- The rule for a step by which the chain takes no tx: what comes after it is quiet, too. -/
theorem quiet_bind {x : ExceptT GoError (Prog A) α} {f : α → ExceptT GoError (Prog A) β}
    {ok : β → Pace → Prop} (hx : x.run.Always b.Idle) (hg : g.phase = .quiet)
    (hf : ∀ a g', g'.phase = .quiet →
      (clientPace b delay).Obeys (f a).run g' (Protocol.Outcome ok fun g => g.phase = .quiet)) :
    (clientPace b delay).Obeys (x >>= f).run g (Protocol.Outcome ok fun g => g.phase = .quiet) := by
  have hquiet : (clientPace b delay).Obeys x.run g
      (Protocol.Outcome (fun _ g' => g'.phase = .quiet) fun g' => g'.phase = .quiet) := by
    refine (quiet_of_idle hx hg).mono fun r g' hg' => ?_
    cases r <;> exact hg'
  exact hquiet.outcome_bind hf

/-- `time.Until`, after a reading of `lastSubmissionTime`; a delay is an `int64`. -/
theorem le_until (hdelay : delay < 2 ^ 63) {last now : Time} (hle : last.unixNano ≤ now.unixNano) :
    last.unixNano + delay ≤ now.unixNano + (last.add delay).sub now := by
  dsimp only [Time.sub, Time.add]
  omega

/-- A client that does not fail while it is busy. -/
def PacedSubmit (b : Backend A) (delay : Int) (submit : ExceptT GoError (Prog A) α) : Prop :=
  ∀ g : Pace, g.phase = .quiet → (clientPace b delay).Obeys submit.run g
    (Protocol.Outcome (fun _ _ => True) fun g' => g'.phase = .quiet)

/-- `DeliverTx` obeys the protocol, if its client does: it sets `lastSubmissionTime` after every
submission that has no error. -/
theorem deliver_obeys (hdelay : delay < 2 ^ 63)
    {submit : ExceptT GoError (Prog A) (String × String)} (h : PacedSubmit b delay submit) :
    (pace b delay).Obeys (deliver delay submit) {} fun _ g => g.phase ≠ .busy := by
  refine ⟨trivial, fun last => ⟨trivial, fun now =>
    ⟨⟨rfl, last, rfl, now, rfl, le_until hdelay⟩, fun waited => ?_⟩⟩⟩
  cases waited with
  -- the context is done, and `lastSubmissionTime` is set all the same
  | error err => exact ⟨trivial, fun _ => ⟨rfl, fun _ => PacePhase.noConfusion⟩⟩
  | ok =>
    change (pace b delay).Obeys (submit.run.translate _ >>= _) _ _
    have hsubmit := h { last := some last, now := some now, phase := .quiet } rfl
    refine Protocol.Obeys.bind ((Protocol.obeys_translate _ _ _ _).mpr hsubmit) fun r g hr => ?_
    cases r with
    | error err =>
      intro hbusy
      cases hr.symm.trans hbusy
    | ok submitted =>
      exact ⟨trivial, fun _ => ⟨trivial, fun _ => ⟨rfl, fun _ => PacePhase.noConfusion⟩⟩⟩

/-- The calls of `DeliverTx` on one client, however they are interleaved: a resource rule of the
library, with `Paced` as the invariant and `deliver_obeys` for every call. -/
theorem spaced_of_submits (hdelay : delay < 2 ^ 63)
    {submit : List UInt8 → String → ExceptT GoError (Prog A) (String × String)}
    (h : ∀ bz address, PacedSubmit b delay (submit bz address)) {clock : Nat} {s : Deliverers A}
    (hrun : Deliverers.Run b (fun bz address => locked (deliver delay (submit bz address))) clock
      s) :
    Spaced delay (s.shared.accepted b) := by
  have hprog : ∀ request : List UInt8 × String,
      Sectioned (pace b delay) {} (fun g => g.phase ≠ .busy)
      (locked (deliver delay (submit request.1 request.2))) none :=
    fun request => sectioned_locked (deliver_obeys hdelay (h request.1 request.2))
  rcases (paced b delay).run hprog (Paced.start clock) hrun with hfree | ⟨g, hheld⟩
  · exact hfree.spaced
  · exact hheld.spaced

end Rules

/-! ## The two clients -/

/-- The chain takes a tx when `SendTransaction` has no error. -/
def EVMCall.backend (honest : Nat → List (Nat × CallTree.Event EVMCall.Answer) →
    CallTree.Event EVMCall.Answer → Bool) : Backend EVMCall.Answer where
  pause _ := none
  accepts
    | ⟨.sendTransaction .., .ok ()⟩ => true
    | _ => false
  honest

/-- The chain takes a tx when `BroadcastTxSync` has no error and returns the code 0. -/
def CosmosCall.backend (honest : Nat → List (Nat × CosmosEvent) → CosmosEvent → Bool) :
    Backend CosmosCall.Answer where
  pause
    | .sleep delay => some delay
    | _ => none
  accepts e := (CosmosEvent.taken e).isSome
  honest

namespace EVMBridgeClient

variable {c : EVMBridgeClient} {honest : Nat → List (Nat × CallTree.Event EVMCall.Answer) →
  CallTree.Event EVMCall.Answer → Bool}

/-- The calls before the tx is sent. -/
theorem newTxCalls_idle (bz : List UInt8) (address : String) :
    (c.newTxCalls bz address).run.Always (EVMCall.backend honest).Idle := by
  refine Always.except_bind (orWrap_always _ ⟨fun _ => rfl, fun _ => trivial⟩) fun baseFee => ?_
  refine Always.except_bind (orWrap_always _ ⟨fun _ => rfl, fun _ => trivial⟩) fun gasTipCap => ?_
  refine Always.except_bind (orWrap_always _ ⟨fun _ => rfl, fun _ => trivial⟩) fun code => ?_
  split
  · trivial
  · refine Always.except_bind (orWrap_always _ ⟨fun _ => rfl, fun _ => trivial⟩) fun gasLimit => ?_
    refine Always.except_bind (orWrap_always _ ⟨fun _ => rfl, fun _ => trivial⟩) fun pending => ?_
    exact Always.except_bind (orWrap_always _ ⟨fun _ => rfl, fun _ => trivial⟩) fun _ => trivial

/-- `SendTransaction` is the last call, so an error of the client is one before the chain has taken
the tx. -/
theorem signAndSubmitData_paced (bz : List UInt8) (address : String) :
    PacedSubmit (EVMCall.backend honest) c.txSubmissionDelay (c.signAndSubmitData bz address) := by
  intro g hg
  refine quiet_bind (orWrap_always _ (newTxCalls_idle bz address)) hg fun tx g hg => ?_
  refine quiet_bind (orWrap_always _ ⟨fun _ => rfl, fun _ => trivial⟩) hg fun signature g hg => ?_
  have hsend : (clientPace (EVMCall.backend honest) c.txSubmissionDelay).Obeys
      (.call (.sendTransaction tx signature) .done) g
      (Protocol.Outcome (fun _ _ => True) fun g' => g'.phase = .quiet) := by
    refine ⟨.inl hg, fun sent => ?_⟩
    -- an error means that the chain has not taken the tx
    cases sent with
    | error err => rfl
    | ok => trivial
  exact Protocol.Obeys.outcome_bind (orWrap_obeys _ hsend) fun _ _ _ => trivial

theorem submit_paced (bz : List UInt8) (address : String) :
    PacedSubmit (EVMCall.backend honest) c.txSubmissionDelay (c.submit bz address) := fun g hg =>
  (orWrap_obeys _ (signAndSubmitData_paced bz address g hg)).outcome_bind fun _ _ _ => trivial

/-- **Txs to an EVM chain are paced.** Over every run of calls of `DeliverTx` on one client, however
they interleave and whatever is answered, the txs that the chain has taken are at least
`txSubmissionDelay` apart. A delay is an `int64`. -/
theorem evm_txs_spaced (hdelay : c.txSubmissionDelay < 2 ^ 63) {clock : Nat}
    {s : Deliverers EVMCall.Answer}
    (hrun : Deliverers.Run (EVMCall.backend honest) c.deliverTx clock s) :
    Spaced c.txSubmissionDelay (s.shared.accepted (EVMCall.backend honest)) :=
  spaced_of_submits hdelay submit_paced hrun

end EVMBridgeClient

namespace Sample

/-- A call of `DeliverTx` that waits as long as it has to. -/
def waitingOut (last now : Time) (client : (c : C) → A c) :
    (c : DeliverCall C) → DeliverCall.Answer A c
  | .lastSubmissionTime => last
  | .now => now
  | .select _ => .ok ()
  | .setLastSubmissionTime _ => ()
  | .client c => client c

end Sample

namespace CosmosBridgeClient

variable {client : CosmosBridgeClient}
  {honest : Nat → List (Nat × CosmosEvent) → CosmosEvent → Bool}
  {unmarshal : List UInt8 → Except GoError (List CodecAny)}
  {unpackAny : CodecAny → Except GoError SdkMsg}

/-- The calls before a tx is broadcast: nothing is taken by them. -/
theorem signAndEncode_idle (tx : CosmosTx) (account : BaseAccount) :
    (client.signAndEncode tx account).run.Always (CosmosCall.backend honest).Idle := by
  refine Always.except_bind (orWrap_always _ ⟨fun _ => rfl, fun _ => trivial⟩) fun signature => ?_
  exact Always.except_bind (orWrap_always _ ⟨fun _ => rfl, fun _ => trivial⟩) fun _ => trivial

theorem getEstimatedGasLimit_idle (tx : CosmosTx) (account : BaseAccount) :
    (client.getEstimatedGasLimit tx account).run.Always (CosmosCall.backend honest).Idle := by
  refine Always.except_bind (signAndEncode_idle tx account) fun _ => ?_
  refine Always.except_bind (orWrap_always _ ⟨fun _ => rfl, fun _ => trivial⟩) fun gasInfo => ?_
  cases gasInfo <;> trivial

theorem txFeeAmount_idle (gasLimit : UInt64) :
    (client.txFeeAmount gasLimit).run.Always (CosmosCall.backend honest).Idle := by
  unfold txFeeAmount
  split
  · split <;> trivial
  · trivial

/-- A broadcast leaves the section busy if the chain has taken the tx, which the code of the answer
says. -/
theorem broadcast_obeys (msg : String) (txBytes : List UInt8) (signed : SignedTx) {delay : Int}
    {g : Pace} (hg : g.phase = .quiet) :
    (clientPace (CosmosCall.backend honest) delay).Obeys
      (Submit.ask msg (.mk (.call (.broadcastTxSync txBytes signed) .done))).run g
      (Protocol.Outcome
        (fun result g' => g'.phase = if result.code = 0 then .busy else .quiet)
        fun g' => g'.phase = .quiet) := by
  refine orWrap_obeys msg ⟨.inl hg, fun answer => ?_⟩
  cases answer with
  | error err => rfl
  | ok result =>
    change Pace.phase (if (CosmosEvent.taken ⟨.broadcastTxSync txBytes signed, .ok result⟩).isSome
      then _ else _) = _
    by_cases hcode : result.code = 0
    · simp [CosmosEvent.taken, hcode]
    · simp [CosmosEvent.taken, hcode]

/-- A submission of one tx fails while the chain has not taken it. -/
theorem signAndSubmitMessages_obeys (msgs : List SdkMsg) {delay : Int} {g : Pace}
    (hg : g.phase = .quiet) :
    (clientPace (CosmosCall.backend honest) delay).Obeys (client.signAndSubmitMessages msgs).run g
      (Protocol.Outcome (fun _ g' => g'.phase = .busy) fun g' => g'.phase = .quiet) := by
  refine quiet_bind (orWrap_always _ ⟨fun _ => rfl, fun _ => trivial⟩) hg fun address g hg => ?_
  refine quiet_bind (orWrap_always _ ⟨fun _ => rfl, fun _ => trivial⟩) hg fun account g hg => ?_
  cases account with
  | none => exact hg
  | some account =>
    refine quiet_bind (orWrap_always _ ⟨fun _ => rfl, fun _ => trivial⟩) hg fun _ g hg => ?_
    refine quiet_bind (orWrap_always _ (getEstimatedGasLimit_idle _ account)) hg
      fun gasLimit g hg => ?_
    refine quiet_bind (txFeeAmount_idle gasLimit) hg fun feeAmount g hg => ?_
    refine quiet_bind (signAndEncode_idle _ account) hg fun signed g hg => ?_
    refine (broadcast_obeys _ signed.2 signed.1 hg).outcome_bind fun result g hg => ?_
    split
    · rename_i hcode
      rwa [if_neg hcode] at hg
    · rename_i hcode
      rwa [if_pos (not_not.mp hcode)] at hg

/-- The loop over the client updates. Every tx that the chain has taken is followed by a pause. -/
theorem submitClientUpdates_obeys (numClientUpdates : Nat) (msgs : List SdkMsg) {numSubmitted : Nat}
    {g : Pace} (hg : g.phase = .quiet) :
    (clientPace (CosmosCall.backend honest) client.txSubmissionDelay).Obeys
      (client.submitClientUpdates numClientUpdates numSubmitted msgs).run g
      (Protocol.Outcome (fun _ g' => g'.phase = .quiet) fun g' => g'.phase = .quiet) := by
  induction msgs generalizing numSubmitted g with
  | nil => exact hg
  | cons msg rest ih =>
    rw [submitClientUpdates]
    split
    · exact (ih hg).outcome_bind fun _ _ hg' => hg'
    · refine (orWrap_obeys _ (signAndSubmitMessages_obeys [msg] hg)).outcome_bind
        fun _ g hbusy => ?_
      -- the pause after the tx
      refine ⟨.inr ⟨hbusy, _, rfl, le_refl _⟩, fun _ => ?_⟩
      exact ih rfl

/-- The loop leaves the section quiet, also when it fails; the last tx may leave it busy, but has no
error then. -/
theorem submitMsgs_paced (msgs : List SdkMsg) :
    PacedSubmit (CosmosCall.backend honest) client.txSubmissionDelay (client.submitMsgs msgs) := by
  intro g hg
  have hlast : ∀ (msgs : List SdkMsg) {g : Pace}, g.phase = .quiet →
      (clientPace (CosmosCall.backend honest) client.txSubmissionDelay).Obeys
        (client.signAndSubmitMessages msgs).run g
        (Protocol.Outcome (fun _ _ => True) fun g' => g'.phase = .quiet) := by
    intro msgs g hg
    refine (signAndSubmitMessages_obeys msgs hg).mono fun r g' hr => ?_
    cases r with
    | error err => exact hr
    | ok hash => trivial
  rw [submitMsgs]
  split
  · exact (submitClientUpdates_obeys _ msgs hg).outcome_bind fun msgs g hg => hlast msgs hg
  · exact hlast msgs hg

/-- A tx body that cannot be decoded, or is empty, is refused before any call. -/
theorem signAndSubmit_paced (bz : List UInt8) :
    PacedSubmit (CosmosCall.backend honest) client.txSubmissionDelay
      (client.signAndSubmit unmarshal unpackAny bz) := by
  intro g hg
  unfold signAndSubmit
  split
  · exact hg
  · rename_i messages _
    by_cases hnil : messages = []
    · simp only [hnil, if_true]
      split <;> exact hg
    · simp only [hnil, if_false]
      split
      · exact hg
      · exact submitMsgs_paced _ g hg

theorem submit_paced (bz : List UInt8) :
    PacedSubmit (CosmosCall.backend honest) client.txSubmissionDelay
      (client.submit unmarshal unpackAny bz) := by
  intro g hg
  refine quiet_bind (orWrap_always _ ⟨fun _ => rfl, fun _ => trivial⟩) hg fun address g hg => ?_
  exact (orWrap_obeys _ (signAndSubmit_paced bz g hg)).outcome_bind fun _ _ _ => trivial

/-- **Txs to a Cosmos chain are paced**, the client updates of a submission included. Over every run
of calls of `DeliverTx` on one client, whatever is answered and wherever a submission fails, the txs
that the chain has taken are at least `txSubmissionDelay` apart. -/
theorem cosmos_txs_spaced (hdelay : client.txSubmissionDelay < 2 ^ 63) {clock : Nat}
    {s : Deliverers CosmosCall.Answer}
    (hrun : Deliverers.Run (CosmosCall.backend honest) (client.deliverTx unmarshal unpackAny) clock
      s) :
    Spaced client.txSubmissionDelay (s.shared.accepted (CosmosCall.backend honest)) :=
  spaced_of_submits hdelay (fun bz _ => submit_paced bz) hrun

end CosmosBridgeClient

namespace Sample

/-- The address cannot be encoded. -/
def noAddress : (c : CosmosCall) → c.Answer
  | .convertAndEncode .. => .error (.new "invalid prefix")
  | c => CosmosBridgeClient.neverFails c

/-- Two client updates and another message, of which the chain takes the first update; `DeliverTx`
then fails. The next call does not find it in `lastSubmissionTime`. -/
def failedUpdates :
    List (Mutex.Action (DeliverCall.Answer CosmosCall.Answer) Nat (List UInt8 × String)) :=
  [.request ([2, 4, 1], ""), .request ([1], "")]
    ++ List.replicate 14 (.step 0 (waitingOut .zero ⟨0, 0⟩ CosmosBridgeClient.neverFails))
    ++ [.event (2 * 10 ^ 9)]
    ++ List.replicate 3 (.step 0 (waitingOut .zero ⟨2 * 10 ^ 9, 0⟩ noAddress))
    ++ List.replicate 18 (.step 1 (waitingOut .zero ⟨2 * 10 ^ 9, 0⟩ CosmosBridgeClient.neverFails))

end Sample

namespace CosmosBridgeClient

/-- `cosmos_txs_spaced` after a submission that failed half way. -/
theorem cosmos_txs_spaced_failed_updates :
    ∃ s, Deliverers.Run (CosmosCall.backend fun _ _ _ => true)
        (Sample.cosmosClient.deliverTx Sample.unmarshalBytes Sample.unpackAny) 0 s
      ∧ s.shared.accepted (CosmosCall.backend fun _ _ _ => true) = [2 * 10 ^ 9, 0]
      ∧ Spaced (2 * 10 ^ 9) (s.shared.accepted (CosmosCall.backend fun _ _ _ => true)) := by
  have h : (Machine.script (Threads.step (Deliveries.service (CosmosCall.backend fun _ _ _ => true))
      fun request : List UInt8 × String =>
        Sample.cosmosClient.deliverTx Sample.unmarshalBytes Sample.unpackAny request.1 request.2)
      (fun _ _ => true) { shared := { clock := 0 } } Sample.failedUpdates).any
        (fun s => s.shared.accepted (CosmosCall.backend fun _ _ _ => true) = [2 * 10 ^ 9, 0])
          = true := by
    decide +kernel
  obtain ⟨s, hs, haccepted⟩ := (Option.any_eq_true _ _).mp h
  have hrun : Deliverers.Run (CosmosCall.backend fun _ _ _ => true)
      (Sample.cosmosClient.deliverTx Sample.unmarshalBytes Sample.unpackAny) 0 s :=
    Machine.run_of_script (fun _ _ _ => trivial) hs
  exact ⟨s, hrun, of_decide_eq_true haccepted, cosmos_txs_spaced (by decide) hrun⟩

end CosmosBridgeClient

end IbcRelayer
