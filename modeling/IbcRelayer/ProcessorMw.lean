import IbcRelayer.Calls

/-!
# IbcRelayer — the wrapper around every stage

`relayer/ibcv2/processor_mw.go`: `IBCV2ProcessorMW` for a stage that works on one transfer and
`IBCV2BatchProcessorMW` for a stage that works on a batch. Both decide in the same way whether the
wrapped processor gets a transfer (`admitTransfer`), and both turn an error of the wrapped processor
into the transfer's `ProcessingError`, so that the transfer still reaches the end of the pipeline.

A processor gets the transfer it works on and hands the same transfer back, changed; this is the
`process` field. The `Cancel` methods of the processors only write log lines and are left out.
-/

namespace IbcRelayer

open CallTree

/-- `IBCV2Processor` -/
structure IBCV2Processor where
  state : Ibcv2RelayStatus
  shouldProcess : IBCV2Transfer → Eff Bool
  process : IBCV2Transfer → ExceptT GoError Eff IBCV2Transfer

/-- `IBCV2BatchProcessor` -/
structure IBCV2BatchProcessor where
  state : Ibcv2RelayStatus
  shouldProcess : IBCV2Transfer → Eff Bool
  process : List IBCV2Transfer → ExceptT GoError Eff (List IBCV2Transfer)

/-- Whether the wrapped processor gets a transfer. -/
inductive Admission where
  | skipped
  | stateNotUpdated (err : GoError)
  | admitted
  deriving DecidableEq, Repr

/-- The checks before the wrapped processor: a transfer that errored or is marked as failed is
passed on, as is one the processor does not want; the state of the others is saved first. -/
def admitTransfer (state : Ibcv2RelayStatus) (shouldProcess : IBCV2Transfer → Eff Bool)
    (input : IBCV2Transfer) : Eff Admission := do
  if input.error ≠ "" then
    return .skipped
  if input.state = .failed then
    return .skipped
  if !(← shouldProcess input) then
    return .skipped
  match ← (update (.updateTransferState state) input.rowKey).run with
  | .error err =>
    return .stateNotUpdated (err.wrap
      ("updating transfer state to " ++ state.toString ++ " from state " ++ input.state.toString))
  | .ok _ => return .admitted

/-- `IBCV2ProcessorMW.Process` -/
def IBCV2ProcessorMW.process (p : IBCV2Processor) (input : IBCV2Transfer) :
    Eff (Except GoError IBCV2Transfer) := do
  match ← admitTransfer p.state p.shouldProcess input with
  | .skipped => return .ok input
  | .stateNotUpdated err => return .ok (input.fail err)
  | .admitted =>
    let input := { input with state := p.state }
    match ← (p.process input).run with
    | .error err =>
      -- the context is taken to be over: the transfer is not put on the output
      if err.is .contextCanceled then
        return .error err
      return .ok (input.fail err)
    | .ok output => return .ok output

/-- The loop over the batch, with what was decided for each transfer. -/
def admitBatch (p : IBCV2BatchProcessor) :
    List IBCV2Transfer → Eff (List (IBCV2Transfer × Admission))
  | [] => return []
  | input :: rest => do
    let admission ← admitTransfer p.state p.shouldProcess input
    let admissions ← admitBatch p rest
    return (input, admission) :: admissions

/-- The transfers of a batch that the wrapped processor does not get. -/
def notProcessing : List (IBCV2Transfer × Admission) → List IBCV2Transfer :=
  List.filterMap fun
    | (input, .skipped) => some input
    | (input, .stateNotUpdated err) => some (input.fail err)
    | (_, .admitted) => none

/-- The transfers of a batch that the wrapped processor gets, in their new state. -/
def toProcess (state : Ibcv2RelayStatus) :
    List (IBCV2Transfer × Admission) → List IBCV2Transfer :=
  List.filterMap fun
    | (input, .admitted) => some { input with state }
    | _ => none

/-- `IBCV2BatchProcessorMW.Process` -/
def IBCV2BatchProcessorMW.process (p : IBCV2BatchProcessor) (batch : List IBCV2Transfer) :
    Eff (Except GoError (List IBCV2Transfer)) := do
  let admissions ← admitBatch p batch
  let rest := notProcessing admissions
  let inputs := toProcess p.state admissions
  if inputs.isEmpty then
    return .ok rest
  match ← (p.process inputs).run with
  | .error err =>
    if err.is .contextCanceled then
      return .error err
    return .ok (inputs.map (·.fail err) ++ rest)
  | .ok output => return .ok (output ++ rest)

end IbcRelayer
