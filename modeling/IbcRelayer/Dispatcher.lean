import IbcRelayer.Lib.Machine
import IbcRelayer.Pipeline
import IbcRelayer.RelayApi

/-!
# IbcRelayer — the dispatcher and the running pipelines

`RelayDispatcher`, `IBCV2PipelineManager` and `PipelineDeduper` (`relayer/ibcv2/relay_dispatcher.go`
and `pipeline.go`), together with the stages that run at the same time, as one state machine.

* `System` is the table, the rows of the dispatcher's last poll that it has not submitted yet, the
  pipelines with their deduplication sets, and the tasks: a transfer that waits for its next stage,
  a batch that is being collected, or a stage at work.
* A stage at work is the rest of its program. It makes one call in a step, with any answer, so the
  stages interleave call by call.
* `System.step` is one step of the request handler, the dispatcher, a stage or the goroutine that
  watches the output. `System.Run` is any number of steps, in any order.

How many stages can work at once, and how large a batch can get, only restricts the order of the
steps and is left out.
-/

namespace IbcRelayer

open CallTree

/-! ## The deduplication set -/

/-- `PipelineDeduper` -/
structure PipelineDeduper where
  pipeline : Pipeline
  inPipeline : List TransferKey := []
  deriving DecidableEq, Repr

namespace PipelineDeduper

/-- `Push`, with the key added to the set, or `none` when it is there already. The lock is held from
the check to the send, so that both are one step. -/
def push (d : PipelineDeduper) (t : IBCV2Transfer) : Option PipelineDeduper :=
  if newTransferKey t ∈ d.inPipeline then
    none
  else
    some { d with inPipeline := newTransferKey t :: d.inPipeline }

/-- The watching goroutine, when it gets `t` from the output. -/
def delete (d : PipelineDeduper) (t : IBCV2Transfer) : PipelineDeduper :=
  { d with inPipeline := d.inPipeline.filter (· ≠ newTransferKey t) }

end PipelineDeduper

/-! ## The pipelines -/

namespace IBCV2PipelineManager

/-- `newPipelineForTransfer` -/
def newPipelineForTransfer (config : ConfigReader) (priceClient : Bool) (t : IBCV2Transfer) :
    Except GoError PipelineDeduper :=
  match newPipelineOpts config t with
  | .error err => .error (err.wrap "creating pipeline options")
  | .ok opts => .ok { pipeline := ⟨newPipelineKey t, opts, priceClient⟩ }

/-- `Pipeline`, with the pipelines that there are afterwards. -/
def pipeline (config : ConfigReader) (priceClient : Bool) (pipelines : List PipelineDeduper)
    (t : IBCV2Transfer) : Except GoError (PipelineDeduper × List PipelineDeduper) :=
  match pipelines.find? (·.pipeline.route = newPipelineKey t) with
  | some existing => .ok (existing, pipelines)
  | none =>
    match newPipelineForTransfer config priceClient t with
    | .error err =>
      .error (err.wrap ("creating new pipeline for transfer from " ++ t.sourceChainID ++ " to "
        ++ t.destinationChainID))
    | .ok created => .ok (created, created :: pipelines)

end IBCV2PipelineManager

/-- A change of the pipeline of a route. -/
def updatePipeline (route : Route) (f : PipelineDeduper → PipelineDeduper)
    (pipelines : List PipelineDeduper) : List PipelineDeduper :=
  pipelines.map fun d => if d.pipeline.route = route then f d else d

/-- What `SubmitTransfer` returns: no error, `ErrTransferAlreadyInPipeline`, or another error. -/
inductive Submitted where
  | pushed (pl : Pipeline)
  | alreadyInPipeline
  | failed (err : GoError)
  deriving DecidableEq, Repr

/-- `SubmitTransfer`, with the pipelines that there are afterwards. -/
def submitTransfer (config : ConfigReader) (priceClient : Bool) (pipelines : List PipelineDeduper)
    (t : IBCV2Transfer) : Submitted × List PipelineDeduper :=
  match IBCV2PipelineManager.pipeline config priceClient pipelines t with
  | .error err =>
    (.failed (err.wrap "getting pipeline to push transfer onto from manager"), pipelines)
  | .ok (d, pipelines) =>
    match d.push t with
    | none => (.alreadyInPipeline, pipelines)
    | some d' => (.pushed d.pipeline, updatePipeline d.pipeline.route (fun _ => d') pipelines)

/-! ## Tasks -/

/-- What is going on with some transfers between the two ends of a pipeline. -/
inductive Work where
  | waiting (t : IBCV2Transfer)
  | collecting (stage : Stage) (ts : List IBCV2Transfer)
  | running (stage : Stage) (ts : List IBCV2Transfer) (prog : Eff (List IBCV2Transfer))

/-- Work in a pipeline, and the stages that come after it. A transfer that waits with no stage left
is on the output. -/
structure Task where
  pl : Pipeline
  rest : List Stage
  work : Work

/-- A stage that gets transfers one by one. -/
def StageProcessor.runAlone (p : StageProcessor) (t : IBCV2Transfer) :
    Eff (List IBCV2Transfer) := do
  return (← p.run [] [] t).toList

/-- A stage that gets a batch. -/
def IBCV2BatchProcessor.runBatch (q : IBCV2BatchProcessor) (ts : List IBCV2Transfer) :
    Eff (List IBCV2Transfer) := do
  match ← IBCV2BatchProcessorMW.process q ts with
  -- the library drops a batch whose processor returns an error
  | .error _ => return []
  | .ok output => return output

/-- A stage takes a transfer, or a batch that was collected. -/
def Task.start : Task → Option Task
  | ⟨pl, stage :: rest, .waiting t⟩ =>
    match stage.processor pl with
    | .batch _ => none
    | p => some ⟨pl, rest, .running stage [t] (p.runAlone t)⟩
  | ⟨pl, rest, .collecting stage ts⟩ =>
    match stage.processor pl with
    | .batch q => some ⟨pl, rest, .running stage ts (q.runBatch ts)⟩
    | _ => none
  | _ => none

/-! ## The system -/

structure System where
  world : World
  snapshot : List Ibcv2Transfer := []
  pipelines : List PipelineDeduper := []
  tasks : List Task := []

inductive Action where
  /-- `Relay` inserts packets. -/
  | relay (chainID txHash : String) (packets : List (PacketInfo × Int32))
  /-- The dispatcher reads the unfinished rows. -/
  | poll
  /-- The dispatcher submits the next row; `answer` is that of the storage if it has to be asked. -/
  | submit (answer : Except GoError Unit)
  /-- The router in front of a batch takes the task `i`, and puts it into the batch `j` of the other
  tasks or into a new one. -/
  | route (i : Nat) (env : Environment) (j : Option Nat)
  /-- A stage takes the task `i`. -/
  | start (i : Nat)
  /-- The task `i` makes its next call. -/
  | call (i : Nat) (env : Environment)
  /-- The task `i` is done, and its transfers go on. -/
  | finish (i : Nat)
  /-- The watching goroutine takes the task `i` from the output. -/
  | watch (i : Nat)

namespace System

variable (config : ConfigReader) (priceClient : Bool)

/-- One round of the loop in `SubmitWaitingUnfinishedTransfers`. -/
def submit (answer : Except GoError Unit) (s : System) : Option System :=
  match s.snapshot with
  | [] => none
  | transfer :: rest =>
    let t := newIBCV2Transfer transfer
    match submitTransfer config priceClient s.pipelines t with
    | (.pushed pl, pipelines) =>
      some
        { s with
          snapshot := rest
          pipelines
          tasks := s.tasks ++ [⟨pl, newPipeline pl, .waiting t⟩] }
    | (.alreadyInPipeline, pipelines) => some { s with snapshot := rest, pipelines }
    -- a configuration issue: the transfer is marked so that it is not retried
    | (.failed _, pipelines) =>
      some
        { s with
          snapshot := rest
          pipelines
          world := s.world.next (.update (.updateTransferState .failed) t.rowKey) answer }

/-- The task `i` is replaced. -/
def replace (s : System) (i : Nat) (tasks : List Task) : System :=
  { s with tasks := s.tasks.eraseIdx i ++ tasks }

/-- The loop of `ConditionallyBatchProcess` that sorts out what goes into a batch. -/
def route (i : Nat) (env : Environment) (j : Option Nat) (s : System) : Option System := do
  let ⟨pl, stage :: rest, .waiting t⟩ ← s.tasks[i]? | none
  let .batch q := stage.processor pl | none
  let (wanted, world) := execute env (routeToBatch q t) s.world
  let s := { s with world }
  if !wanted then
    return s.replace i [⟨pl, rest, .waiting t⟩]
  match j with
  | none => return s.replace i [⟨pl, rest, .collecting stage [t]⟩]
  | some j =>
    let ⟨pl', rest', .collecting stage' ts⟩ ← (s.tasks.eraseIdx i)[j]? | none
    if pl' = pl ∧ rest' = rest ∧ stage' = stage then
      return { s with
        tasks := (s.tasks.eraseIdx i).eraseIdx j ++ [⟨pl, rest, .collecting stage (ts ++ [t])⟩] }
    none

def call (i : Nat) (env : Environment) (s : System) : Option System := do
  let ⟨pl, rest, .running stage ts (.call c k)⟩ ← s.tasks[i]? | none
  let answer := env s.world c
  let s := s.replace i [⟨pl, rest, .running stage ts (k answer)⟩]
  return { s with world := s.world.next c answer }

def finish (i : Nat) (s : System) : Option System := do
  let ⟨pl, rest, .running _ _ (.done output)⟩ ← s.tasks[i]? | none
  return s.replace i (output.map fun t => ⟨pl, rest, .waiting t⟩)

def watch (i : Nat) (s : System) : Option System := do
  let ⟨pl, [], .waiting t⟩ ← s.tasks[i]? | none
  let s := s.replace i []
  return { s with pipelines := updatePipeline pl.route (·.delete t) s.pipelines }

def step (s : System) : Action → Option System
  | .relay chainID txHash packets =>
    let transfers := RelayerAPIService.relay config chainID txHash packets s.world.transfers
    some { s with world := { s.world with transfers } }
  -- the next poll comes when all rows of the last one are submitted
  | .poll =>
    if s.snapshot.isEmpty then
      some { s with snapshot := getUnfinishedIBCV2Transfers s.world.transfers }
    else
      none
  | .submit answer => s.submit config priceClient answer
  | .route i env j => s.route i env j
  | .start i => do
    let task ← s.tasks[i]?
    return s.replace i [← task.start]
  | .call i env => s.call i env
  | .finish i => s.finish i
  | .watch i => s.watch i

/-- Any number of steps, each of which meets the condition `P` on the state and what is done in it.
-/
def Run (P : System → Action → Prop) : System → System → Prop :=
  Relation.ReflTransGen fun s s' => ∃ a, P s a ∧ s.step config priceClient a = some s'

/-- A run whose actions satisfy more conditions. -/
theorem Run.mono {P Q : System → Action → Prop} (hPQ : ∀ s a, P s a → Q s a) {s s' : System}
    (h : Run config priceClient P s s') : Run config priceClient Q s s' :=
  Machine.Run.mono hPQ h

/-- A list of actions, in order, each of which has to pass the check `ok`. -/
def script (ok : System → Action → Bool) (s : System) : List Action → Option System
  | [] => some s
  | a :: as => if ok s a then (s.step config priceClient a).bind (script ok · as) else none

/-- A script that goes through is a run of its actions. -/
theorem run_of_script {ok : System → Action → Bool} {P : System → Action → Prop}
    (hok : ∀ s a, ok s a = true → P s a) {as : List Action} {s s' : System}
    (h : s.script config priceClient ok as = some s') : Run config priceClient P s s' := by
  induction as generalizing s with
  | nil =>
    cases h
    exact .refl
  | cons a as ih =>
    rw [script] at h
    split at h
    · rename_i hs
      obtain ⟨s₁, hstep, h⟩ := Option.bind_eq_some_iff.mp h
      exact .head ⟨a, hok s a hs, hstep⟩ (ih h)
    · cases h

end System

/-! ## A run to start from -/

namespace Sample

/-- The two chains of the sample packet. -/
def config : ConfigReader := fun chainID =>
  if chainID = "cosmoshub-4" then
    .ok {
      ibcv2 := some {
        counterpartyChains := [("08-wasm-0", "1")]
        shouldRelaySuccessAcks := true
        shouldRelayErrorAcks := true } }
  else if chainID = "1" then
    .ok { ibcv2 := some {} }
  else
    .error (.new "unknown chain")

def packetInfo : PacketInfo where
  sequence := 7
  sourceClient := "08-wasm-0"
  destinationClient := "client-0"
  timeoutTimestamp := { unixNano := 1000 }
  timestamp := { unixNano := 0 }

/-- The table is empty, and nothing is running. -/
def idle : System := { world := ⟨[], []⟩ }

/-- A stage takes the first task, makes this many calls and is done. -/
def work (env : Environment) (calls : Nat) : List Action :=
  .start 0 :: List.replicate calls (.call 0 env) ++ [.finish 0]

/-- The sample packet is inserted and pushed, and it is polled once more. -/
def polledTwice : List Action :=
  [.relay "cosmoshub-4" "0xa1" [(packetInfo, 1)], .poll, .submit (.ok ()), .poll]

/-- The stages before the recv tx is submitted, for a packet that is not timed out. -/
def untilRecv (env : Environment) : List Action :=
  work env 3 ++ work env 3 ++ work env 5 ++ work env 1 ++ [.route 0 env none] ++ work env 0
    ++ [.route 0 env none]

end Sample

end IbcRelayer
