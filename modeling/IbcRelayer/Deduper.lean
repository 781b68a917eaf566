import IbcRelayer.Goroutines
import IbcRelayer.Dispatcher

/-!
# IbcRelayer — pushing into a pipeline

`PipelineDeduper.Push` and the goroutine that watches the output (`relayer/ibcv2/pipeline.go`), step
by step. `System` in `Dispatcher` takes a whole `Push` as one step; here the lock is taken and given
back, a `Push` holds it while it waits for room in the input of the pipeline, and the watching
goroutine needs it for every transfer that comes out.

* `Dedup P` — any number of goroutines that push, around a pipeline `P`;
* `pipelineGoroutines` — the pipeline that `NewPipeline` builds: the input channel with its emitter,
  and the goroutines of the stages;
* `IBCV2PipelineManager` — the pipelines of all routes.

`Close` is left out.
-/

namespace IbcRelayer

open Proc

/-- Where a goroutine is in `Push`. -/
inductive PushPlace where
  | idle
  /-- It waits for `inPipelineLock`. -/
  | locking (t : IBCV2Transfer)
  /-- It has the lock, until it has returned. -/
  | checking (t : IBCV2Transfer)
  /-- In `Push` of the pipeline, which waits for room. -/
  | sending (t : IBCV2Transfer)
  | returning (pushed : Bool)
  deriving DecidableEq

/-- A goroutine that pushes one transfer after the other. -/
structure Pusher where
  todo : List IBCV2Transfer
  place : PushPlace := .idle
  deriving DecidableEq

/-- Where the watching goroutine is. The first `Push` starts it. -/
inductive WatchPlace where
  | notStarted
  | polling
  | locking (output : IBCV2Transfer)
  | deleting (output : IBCV2Transfer)
  | returned
  deriving DecidableEq

/-- `d.once.Do` -/
def WatchPlace.started (w : WatchPlace) : WatchPlace := if w = .notStarted then .polling else w

inductive LockHolder where
  | pusher (i : Nat)
  | watcher
  deriving DecidableEq

/-- A pipeline that takes and gives transfers, which it knows by their keys. -/
abbrev PipelineProc := Proc IBCV2Transfer IBCV2Transfer TransferKey

structure Dedup (P : PipelineProc) where
  deduper : PipelineDeduper
  inPipelineLock : Option LockHolder := none
  pushers : List Pusher
  watcher : WatchPlace := .notStarted
  pipeline : P.State := P.start
  /-- The context of the pipeline is cancelled. -/
  cancelled : Bool := false
  /-- The keys of the transfers that were accepted, sent into the pipeline, polled from it, removed
  from `inPipeline`, and given up in the pipeline. -/
  accepted : List TransferKey := []
  entered : List TransferKey := []
  polled : List TransferKey := []
  observed : List TransferKey := []
  lost : List TransferKey := []

namespace Dedup

inductive Action (P : PipelineProc) where
  | call (i : Nat)
  | lock (i : Nat)
  | check (i : Nat)
  | send (i : Nat)
  | unlock (i : Nat)
  /-- A step inside the pipeline. -/
  | act (x : P.Action)
  /-- `Poll` returns. -/
  | poll (x : P.Action)
  | watchLock
  | delete
  | cancel

variable {P : PipelineProc}

def move (s : Dedup P) (i : Nat) (p : Pusher) : Dedup P := { s with pushers := s.pushers.set i p }

def step (s : Dedup P) : Action P → Option (Dedup P)
  | .call i =>
    match s.pushers[i]? with
    | some ⟨t :: todo, .idle⟩ =>
      some { s.move i ⟨todo, .locking t⟩ with watcher := s.watcher.started }
    | _ => none
  | .lock i =>
    match s.pushers[i]?, s.inPipelineLock with
    | some ⟨todo, .locking t⟩, none =>
      some { s.move i ⟨todo, .checking t⟩ with inPipelineLock := some (.pusher i) }
    | _, _ => none
  | .check i =>
    match s.pushers[i]? with
    | some ⟨todo, .checking t⟩ =>
      match s.deduper.push t with
      | none => some (s.move i ⟨todo, .returning false⟩)
      | some deduper =>
        some { s.move i ⟨todo, .sending t⟩ with
          deduper, accepted := s.accepted ++ [newTransferKey t] }
    | _ => none
  | .send i =>
    match s.pushers[i]? with
    | some ⟨todo, .sending t⟩ =>
      (P.recv s.pipeline t).map fun pipeline =>
        { s.move i ⟨todo, .returning true⟩ with
          pipeline, entered := s.entered ++ [newTransferKey t] }
    | _ => none
  | .unlock i =>
    match s.pushers[i]? with
    | some ⟨todo, .returning _⟩ => some { s.move i ⟨todo, .idle⟩ with inPipelineLock := none }
    | _ => none
  | .act x =>
    match P.act s.pipeline x with
    | some (.inside lost, pipeline) => some { s with pipeline, lost := s.lost ++ lost }
    | _ => none
  | .poll x =>
    match s.watcher, P.act s.pipeline x with
    | .polling, some (.send output, pipeline) =>
      some { s with
        pipeline, watcher := .locking output, polled := s.polled ++ [newTransferKey output] }
    | .polling, some (.close, pipeline) => some { s with pipeline, watcher := .returned }
    | _, _ => none
  | .watchLock =>
    match s.watcher, s.inPipelineLock with
    | .locking output, none =>
      some { s with watcher := .deleting output, inPipelineLock := some .watcher }
    | _, _ => none
  | .delete =>
    match s.watcher with
    | .deleting output =>
      some { s with
        watcher := .polling, inPipelineLock := none, deduper := s.deduper.delete output
        observed := s.observed ++ [newTransferKey output] }
    | _ => none
  | .cancel =>
    if s.cancelled then none
    else (P.recvClose s.pipeline).map fun pipeline => { s with pipeline, cancelled := true }

/-- Nothing is in the pipeline, and the goroutines have these transfers to push. -/
def start (P : PipelineProc) (pl : Pipeline) (todos : List (List IBCV2Transfer)) : Dedup P :=
  { deduper := { pipeline := pl }, pushers := todos.map ({ todo := · }) }

/-- One more goroutine, which pushes `t`. -/
def spawn (s : Dedup P) (t : IBCV2Transfer) : Dedup P :=
  { s with pushers := s.pushers ++ [{ todo := [t] }] }

end Dedup

/-! ## The pipeline -/

/-- Where the goroutine of `pipeline.Emitter` is. -/
inductive EmitterPlace (X : Type) where
  /-- Before it looks at the context. -/
  | top
  /-- In `next`, which reads from the input. -/
  | reading
  | sending (x : X)
  | closed
  deriving DecidableEq

/-- The input channel and the goroutine that reads from it. -/
structure Emitter (X : Type) where
  input : List X := []
  place : EmitterPlace X := .top
  cancelled : Bool := false
  deriving DecidableEq

/-- A value is received when it is put into the channel. That the input is closed stands for the
context that is cancelled: the goroutine looks at it only between two values. -/
def emitter {X T : Type} (inputBufferSize : Nat) : Proc X X T where
  State := Emitter X
  Action := Unit
  start := {}
  recv e x :=
    if e.input.length < inputBufferSize then some { e with input := e.input ++ [x] } else none
  recvClose e := if e.cancelled then none else some { e with cancelled := true }
  act e _ :=
    match e.place with
    | .top =>
      if e.cancelled then some (.close, { e with place := .closed })
      else some (.inside [], { e with place := .reading })
    | .reading =>
      match e.input with
      | [] => none
      | x :: rest => some (.inside [], { e with input := rest, place := .sending x })
    | .sending x => some (.send x, { e with place := .top })
    | .closed => none

/-- What `Process` can return for a transfer: the transfer, or an error. -/
def singleResult (t : IBCV2Transfer) : Option IBCV2Transfer → Bool
  | some output => newTransferKey output = newTransferKey t
  | none => true

/-- The goroutines of a stage. `shouldProcess` is what `ShouldProcess` of the batch processors
answers. -/
def Stage.goroutines (opts : PipelineOptions) (shouldProcess : Stage → IBCV2Transfer → Bool) :
    Stage → PipelineProc
  | .batchTimeoutPacket =>
    conditionalBatch newTransferKey (·.error ≠ "") (shouldProcess .batchTimeoutPacket) true
      opts.timeoutBatchConcurrency opts.timeoutBatchSize
  | .batchRecvPacket =>
    conditionalBatch newTransferKey (·.error ≠ "") (shouldProcess .batchRecvPacket) true
      opts.recvBatchConcurrency opts.recvBatchSize
  | .batchAckPacket =>
    conditionalBatch newTransferKey (·.error ≠ "") (shouldProcess .batchAckPacket) true
      opts.ackBatchConcurrency opts.ackBatchSize
  | _ => processConcurrently 10 (fun t => [newTransferKey t]) singleResult

/-- `NewPipeline`: each stage reads the output of the stage before it, and the first one that of the
emitter. -/
def pipelineGoroutines (pl : Pipeline) (shouldProcess : Stage → IBCV2Transfer → Bool) :
    PipelineProc :=
  (newPipeline pl).foldl
    (fun output stage => pipe .inr output (stage.goroutines pl.opts shouldProcess)) (emitter 10000)

/-! ## The pipelines of the manager -/

/-- `IBCV2PipelineManager` with its pipelines at work, one for each route that was asked for. -/
structure IBCV2PipelineManager (P : Route → PipelineProc) where
  pipelines : (route : Route) → Option (Dedup (P route)) := fun _ => none
  /-- The transfers that were submitted. -/
  submitted : List IBCV2Transfer := []

namespace IBCV2PipelineManager

variable {P : Route → PipelineProc}

inductive Action (P : Route → PipelineProc) where
  /-- `SubmitTransfer` gets the pipeline of a transfer and calls `Push` in a goroutine. -/
  | submit (t : IBCV2Transfer)
  | step (route : Route) (a : Dedup.Action (P route))

/-- The pipeline of the route is replaced. -/
def set (m : IBCV2PipelineManager P) (route : Route) (d : Dedup (P route)) :
    IBCV2PipelineManager P :=
  { m with pipelines := Function.update m.pipelines route (some d) }

/-- What the manager and its pipelines do. The dispatcher submits one transfer after the other,
which is one of the orders in which the goroutines can run. -/
def step (config : ConfigReader) (priceClient : Bool) (m : IBCV2PipelineManager P) :
    Action P → Option (IBCV2PipelineManager P)
  | .submit t =>
    let m := { m with submitted := m.submitted ++ [t] }
    match m.pipelines (newPipelineKey t) with
    | some existing => some (m.set _ (existing.spawn t))
    | none =>
      match newPipelineForTransfer config priceClient t with
      | .error _ => some m
      | .ok created => some (m.set _ (Dedup.start (P (newPipelineKey t)) created.pipeline [[t]]))
  | .step route a =>
    match m.pipelines route with
    | none => none
    | some d => (d.step a).map (m.set route)

end IBCV2PipelineManager

end IbcRelayer
