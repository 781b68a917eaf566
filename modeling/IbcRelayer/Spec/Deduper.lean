import IbcRelayer.Batching
import IbcRelayer.Deduper

/-!
# IbcRelayer — the goroutines of a pipeline

What `pipelineGoroutines` holds, and that it always has a step to do while it holds a transfer.

* `emitterAccount`, `emitterLive` — the input channel and its emitter;
* `Stage.account`, `Stage.live` — a stage, single or in batches;
* `pipelineAccount` — a pipeline sends each transfer at most once;
* `Working` — a pipeline goes on, as long as its context is not cancelled, and room in its input is
  kept until the next value is sent into it.
-/

namespace IbcRelayer

open Proc

/-- The item of a transfer is its key. -/
def keyOf (t : IBCV2Transfer) : Multiset TransferKey := {newTransferKey t}

/-! ## The emitter -/

section Emitter

variable {X T : Type} {size : Nat}

/-- The steps of the emitter. -/
inductive EmitterAct (e : Emitter X) : Output X T → Emitter X → Prop where
  | loop (hplace : e.place = .top) (hcancelled : e.cancelled = false) :
      EmitterAct e (.inside []) { e with place := .reading }
  | close (hplace : e.place = .top) (hcancelled : e.cancelled = true) :
      EmitterAct e .close { e with place := .closed }
  | read {x rest} (hplace : e.place = .reading) (hinput : e.input = x :: rest) :
      EmitterAct e (.inside []) { e with input := rest, place := .sending x }
  | send {x} (hplace : e.place = .sending x) : EmitterAct e (.send x) { e with place := .top }

/-- The steps of the model are those of `EmitterAct`. -/
theorem emitter_act {e e' : Emitter X} {o : Output X T} :
    (emitter size : Proc X X T).Act e o e' ↔ EmitterAct e o e' := by
  constructor
  · rintro ⟨x, h⟩
    simp only [emitter] at h
    split at h
    · split at h
      · cases h
        exact .close ‹_› ‹_›
      · cases h
        exact .loop ‹_› (Bool.eq_false_iff.mpr ‹_›)
    · split at h
      · cases h
      · cases h
        exact .read ‹_› ‹_›
    · cases h
      exact .send ‹_›
    · cases h
  · intro h
    refine ⟨(), ?_⟩
    cases h <;> simp_all [emitter]

/-- A value is sent into the channel while it has room, wherever the emitter is. -/
theorem emitter_recv {e e' : Emitter X} {x : X} :
    (emitter size : Proc X X T).recv e x = some e'
      ↔ e.input.length < size ∧ e' = { e with input := e.input ++ [x] } := by
  simp only [emitter, Option.ite_none_right_eq_some, Option.some.injEq]
  exact and_congr_right fun _ => eq_comm

/-- The context is cancelled once. -/
theorem emitter_recvClose {e e' : Emitter X} :
    (emitter size : Proc X X T).recvClose e = some e'
      ↔ e.cancelled = false ∧ e' = { e with cancelled := true } := by
  simp only [emitter, Option.ite_none_left_eq_some, Option.some.injEq, Bool.not_eq_true]
  exact and_congr_right fun _ => eq_comm

def EmitterPlace.holds (w : X → Multiset T) : EmitterPlace X → Multiset T
  | .sending x => w x
  | _ => 0

def emitterAccount (size : Nat) (w : X → Multiset T) : (emitter size : Proc X X T).Account w w where
  holds e := items w e.input + e.place.holds w
  start := rfl
  recv {e x e'} h := by
    obtain ⟨-, rfl⟩ := emitter_recv.mp h
    simp only [items_append, items_cons, items_nil]
    abel
  recvClose {e e'} h := by
    obtain ⟨-, rfl⟩ := emitter_recvClose.mp h
    rfl
  act {e o e'} h := by
    cases emitter_act.mp h with
    | loop hplace _ => simp [given, hplace, EmitterPlace.holds]
    | close hplace _ => simp [given, hplace, EmitterPlace.holds]
    | read hplace hinput =>
      simp only [given, hplace, hinput, EmitterPlace.holds, items_cons, Multiset.coe_nil]
      abel
    | send hplace =>
      simp only [given, hplace, EmitterPlace.holds]
      abel

/-- The emitter runs until the context is cancelled. -/
def emitterLive (hsize : 0 < size) (w : X → Multiset T) : Live (emitterAccount size w) where
  Inv e := e.cancelled = false ∧ e.place ≠ .closed
  start := ⟨rfl, nofun⟩
  recv {e x e'} hinv h := by
    obtain ⟨-, rfl⟩ := emitter_recv.mp h
    exact hinv
  act {e o e'} hinv h := by
    cases emitter_act.mp h with
    | loop => exact ⟨hinv.1, nofun⟩
    | close _ hcancelled => exact absurd hcancelled (Bool.eq_false_iff.mp hinv.1)
    | read => exact ⟨hinv.1, nofun⟩
    | send => exact ⟨hinv.1, nofun⟩
  stays {e e'} hinv h := by
    cases emitter_act.mp h with
    | close _ hcancelled => exact absurd hcancelled (Bool.eq_false_iff.mp hinv.1)
  busy {e} hinv hholds := by
    cases hplace : e.place with
    | top => exact ⟨_, _, emitter_act.mpr (.loop hplace hinv.1)⟩
    -- a value in the channel is read; an empty channel holds nothing
    | reading =>
      cases hinput : e.input with
      | nil => exact absurd (by simp [emitterAccount, hplace, hinput, EmitterPlace.holds]) hholds
      | cons x rest => exact ⟨_, _, emitter_act.mpr (.read hplace hinput)⟩
    | sending x => exact ⟨_, _, emitter_act.mpr (.send hplace)⟩
    | closed => exact absurd hplace hinv.2
  ready {e} hinv hholds := by
    cases hplace : e.place with
    | top => exact .inl ⟨_, _, emitter_act.mpr (.loop hplace hinv.1)⟩
    | reading =>
      cases hinput : e.input with
      | nil => exact .inr fun x => ⟨_, emitter_recv.mpr ⟨by rw [hinput]; exact hsize, rfl⟩⟩
      | cons x rest => exact .inl ⟨_, _, emitter_act.mpr (.read hplace hinput)⟩
    | sending x => exact .inl ⟨_, _, emitter_act.mpr (.send hplace)⟩
    | closed => exact absurd hplace hinv.2

/-- Only a value that is sent into the channel takes room in it. -/
theorem emitter_steady (size : Nat) : (emitter size : Proc X X T).Steady where
  act {e o e' x} h hroom := by
    obtain ⟨_, hroom⟩ := hroom
    have hlength := (emitter_recv.mp hroom).1
    refine ⟨_, emitter_recv.mpr ⟨?_, rfl⟩⟩
    cases emitter_act.mp h with
    | read _ hinput =>
      rw [hinput, List.length_cons] at hlength
      exact Nat.lt_of_succ_lt hlength
    | _ => exact hlength
  recvClose {e e' x} h hroom := by
    obtain ⟨_, hroom⟩ := hroom
    obtain ⟨-, rfl⟩ := emitter_recvClose.mp h
    exact ⟨_, emitter_recv.mpr ⟨(emitter_recv.mp hroom).1, rfl⟩⟩

end Emitter

/-! ## The stages -/

/-- A single stage returns the key that it was given, if it returns something. -/
theorem singleResult_perm {t output : IBCV2Transfer} (h : singleResult t (some output) = true) :
    [newTransferKey output].Perm [newTransferKey t] := by
  rw [of_decide_eq_true h]

theorem singleResult_some (t : IBCV2Transfer) : ∃ r, singleResult t r = true := ⟨none, rfl⟩

namespace Stage

variable (opts : PipelineOptions) (shouldProcess : Stage → IBCV2Transfer → Bool)

def account (stage : Stage) : (stage.goroutines opts shouldProcess).Account keyOf keyOf := by
  cases stage
  case batchTimeoutPacket | batchRecvPacket | batchAckPacket => exact stageAccount ..
  all_goals exact processAccount 10 singleResult_perm

/-- The batches can be processed. -/
structure Concurrent : Prop where
  timeout : 1 ≤ opts.timeoutBatchConcurrency
  recv : 1 ≤ opts.recvBatchConcurrency
  ack : 1 ≤ opts.ackBatchConcurrency

variable {opts}

def live (h : Concurrent opts) (stage : Stage) : Live (stage.account opts shouldProcess) := by
  cases stage
  case batchTimeoutPacket => exact (stageOrderly _ _ _ _ _ h.timeout).live
  case batchRecvPacket => exact (stageOrderly _ _ _ _ _ h.recv).live
  case batchAckPacket => exact (stageOrderly _ _ _ _ _ h.ack).live
  all_goals exact (processOrderly singleResult_perm (by decide) singleResult_some).live

end Stage

/-! ## The pipeline -/

variable (pl : Pipeline) (shouldProcess : Stage → IBCV2Transfer → Bool)

def pipelineAccount : (pipelineGoroutines pl shouldProcess).Account keyOf keyOf :=
  List.foldlRecOn (motive := fun P : PipelineProc => P.Account keyOf keyOf) (newPipeline pl) _
    (emitterAccount 10000 keyOf)
    fun _ A stage _ => A.pipe (stage.account pl.opts shouldProcess) fun _ => rfl

/-- A pipeline goes on while it holds a transfer, and keeps the room in its input. -/
structure Working (P : PipelineProc) where
  account : P.Account keyOf keyOf
  live : Live account
  steady : P.Steady

def pipelineWorking (h : Stage.Concurrent pl.opts) :
    Working (pipelineGoroutines pl shouldProcess) :=
  List.foldlRecOn (motive := Working) (newPipeline pl) _
    ⟨emitterAccount 10000 keyOf, emitterLive (by decide) keyOf, emitter_steady 10000⟩
    fun _ W stage _ => {
      account := W.account.pipe (stage.account pl.opts shouldProcess) fun _ => rfl
      live := W.live.pipe (stage.live shouldProcess h) fun _ => rfl
      steady := W.steady.pipe }

end IbcRelayer
