import IbcRelayer.Lib.Proc

/-!
# IbcRelayer — the goroutines of a stage

The goroutines that a pipeline stage is made of, each as a process between its channels. Those of
the pipeline library are `ProcessConcurrently` and `Collect`; the others belong to
`ConditionallyBatchProcess` (`relayer/ibcv2/conditional_batch_processor.go`).

`X` are the values on the channels, pointers to transfers, and `key` says which item of `T` such a
value stands for: what a stage changes in a transfer, it changes behind the pointer.

Logging is left out, and so is the waiting time of `Collect`: a batch can be sent at any time.
-/

namespace IbcRelayer

variable {X T : Type}

/-! ## `pipeline.ProcessConcurrently` -/

/-- The goroutine that starts the others. -/
inductive ProcessLoop (α : Type) where
  | receiving
  /-- `sem.Add(1)` -/
  | starting (i : α)
  /-- `sem.Wait()` -/
  | waiting
  | closed
  deriving DecidableEq

/-- The goroutines of `ProcessConcurrently`: those that are in `Process`, those that send the
result, and those that are through and release the semaphore. -/
structure Workers (α : Type) where
  loop : ProcessLoop α := .receiving
  processing : List α := []
  sending : List α := []
  finishing : Nat := 0
  deriving DecidableEq

def Workers.count {α : Type} (w : Workers α) : Nat :=
  w.processing.length + w.sending.length + w.finishing

inductive WorkerAction (α : Type) where
  | start
  /-- `Process` returns for the `n`-th of those that are in it; `none` is an error. -/
  | process (n : Nat) (result : Option α)
  | send (n : Nat)
  | done
  | close

/-- `ProcessConcurrently`. `results i r` says that `Process` can return `r` for `i`; an input for
which it returns an error is given up. -/
def processConcurrently {α : Type} (concurrency : Int) (items : α → List T)
    (results : α → Option α → Bool) : Proc α α T where
  State := Workers α
  Action := WorkerAction α
  start := {}
  recv w i :=
    match w.loop with
    | .receiving => some { w with loop := .starting i }
    | _ => none
  recvClose w :=
    match w.loop with
    | .receiving => some { w with loop := .waiting }
    | _ => none
  act
    | w, .start =>
      match w.loop with
      | .starting i =>
        if w.count < concurrency then
          some (.inside [], { w with loop := .receiving, processing := w.processing ++ [i] })
        else
          none
      | _ => none
    | w, .process n result =>
      match w.processing[n]? with
      | none => none
      | some i =>
        if results i result then
          match result with
          | some o =>
            some (.inside [],
              { w with processing := w.processing.eraseIdx n, sending := w.sending ++ [o] })
          | none =>
            some (.inside (items i),
              { w with processing := w.processing.eraseIdx n, finishing := w.finishing + 1 })
        else
          none
    | w, .send n =>
      match w.sending[n]? with
      | none => none
      | some o =>
        some (.send o, { w with sending := w.sending.eraseIdx n, finishing := w.finishing + 1 })
    | w, .done =>
      match w.finishing with
      | 0 => none
      | n + 1 => some (.inside [], { w with finishing := n })
    | w, .close =>
      match w.loop with
      | .waiting => if w.count = 0 then some (.close, { w with loop := .closed }) else none
      | _ => none

/-! ## `pipeline.Collect` -/

inductive Collecting (X : Type) where
  | collecting (is : List X)
  | sending (is : List X)
  /-- The input is closed; the last batch is sent first. -/
  | finishing (is : List X)
  | closing
  | closed
  deriving DecidableEq

/-- `Collect`. A timeout with nothing collected changes nothing. -/
def collect (maxSize : Int) : Proc X (List X) T where
  State := Collecting X
  Action := Unit
  start := .collecting []
  recv
    | .collecting is, x =>
      some (if is.length < maxSize - 1 then .collecting (is ++ [x]) else .sending (is ++ [x]))
    | _, _ => none
  recvClose
    | .collecting is => some (if is.isEmpty then .closing else .finishing is)
    | _ => none
  act
    | .collecting is, _ => if is.isEmpty then none else some (.inside [], .sending is)
    | .sending is, _ => some (.send is, .collecting [])
    | .finishing is, _ => some (.send is, .closing)
    | .closing, _ => some (.close, .closed)
    | .closed, _ => none

/-! ## `ConditionallyBatchProcess` -/

/-- The goroutine that reads `in`. -/
inductive Router (X : Type) where
  | receiving
  | deciding (i : X)
  /-- `out <- i` -/
  | bypassing (i : X)
  /-- `toBatch <- i` -/
  | batching (i : X)
  | closing
  | closed
  deriving DecidableEq

/-- The values that the goroutine sends on `out` are on the left, those on `toBatch` on the right.
-/
def router (errored shouldProcess : X → Bool) : Proc X (X ⊕ X) T where
  State := Router X
  Action := Unit
  start := .receiving
  recv
    | .receiving, i => some (.deciding i)
    | _, _ => none
  recvClose
    | .receiving => some .closing
    | _ => none
  act
    | .receiving, _ => none
    | .deciding i, _ =>
      if errored i then some (.inside [], .bypassing i)
      else if !shouldProcess i then some (.inside [], .bypassing i)
      else some (.inside [], .batching i)
    | .bypassing i, _ => some (.send (.inl i), .receiving)
    | .batching i, _ => some (.send (.inr i), .receiving)
    | .closing, _ => some (.close, .closed)
    | .closed, _ => none

/-- A goroutine that hands on what it gets. -/
inductive Forwarder (β : Type) where
  | receiving
  | sending (b : β)
  | closing
  | closed
  deriving DecidableEq

/-- The goroutine that fills `bufferedBatches`. -/
def forward {β : Type} : Proc β β T where
  State := Forwarder β
  Action := Unit
  start := .receiving
  recv
    | .receiving, b => some (.sending b)
    | _, _ => none
  recvClose
    | .receiving => some .closing
    | _ => none
  act
    | .receiving, _ => none
    | .sending b, _ => some (.send b, .receiving)
    | .closing, _ => some (.close, .closed)
    | .closed, _ => none

/-- A buffered channel, with whether it is closed, and whether that has been seen at its other end.
-/
structure Buffer (β : Type) where
  values : List β := []
  closed : Bool := false
  seen : Bool := false
  deriving DecidableEq

/-- `make(chan …, size)` -/
def buffer {β : Type} (size : Nat) : Proc β β T where
  State := Buffer β
  Action := Unit
  start := {}
  recv c b :=
    if !c.closed && c.values.length < size then some { c with values := c.values ++ [b] } else none
  recvClose c := if c.closed then none else some { c with closed := true }
  act c _ :=
    match c.values with
    | b :: rest => some (.send b, { c with values := rest })
    | [] => if c.closed && !c.seen then some (.close, { c with seen := true }) else none

/-- The goroutine that reads the results. -/
inductive Drain (X : Type) where
  | receiving
  | sending (output : X) (rest : List X)
  | closing
  | closed
  deriving DecidableEq

/-- The loop over `batchResults`. -/
def Drain.next : List X → Drain X
  | [] => .receiving
  | output :: rest => .sending output rest

def drain : Proc (List X) X T where
  State := Drain X
  Action := Unit
  start := .receiving
  recv
    | .receiving, batchResults => some (.next batchResults)
    | _, _ => none
  recvClose
    | .receiving => some .closing
    | _ => none
  act
    | .receiving, _ => none
    | .sending output rest, _ => some (.send output, .next rest)
    | .closing, _ => some (.close, .closed)
    | .closed, _ => none

open Proc

/-- `bufferSize` -/
def bufferSize : Nat := 1000

/-- What `Process` of a batch processor can return for a batch: the same transfers in some order, or
an error, if it can fail. -/
def batchResult [DecidableEq T] (key : X → T) (fails : Bool) (batch : List X) :
    Option (List X) → Bool
  | some output => (output.map key).isPerm (batch.map key)
  | none => fails

/-- What comes after `toBatch`. -/
def batchProcess [DecidableEq T] (key : X → T) (fails : Bool) (concurrency maxSize : Int) :
    Proc X X T :=
  pipe .inr (collect maxSize) <|
  pipe .inr forward <|
  pipe .inr (buffer bufferSize) <|
  pipe .inr (processConcurrently concurrency (List.map key) (batchResult key fails))
    drain

/-- The goroutines of `ConditionallyBatchProcess`. `errored` is `i.Error() != ""`, and
`shouldProcess` is what `processor.ShouldProcess(i)` answers when it is asked. -/
def conditionalBatch [DecidableEq T] (key : X → T) (errored shouldProcess : X → Bool)
    (fails : Bool) (concurrency maxSize : Int) : Proc X X T :=
  pipe id (router errored shouldProcess) (batchProcess key fails concurrency maxSize)

end IbcRelayer
