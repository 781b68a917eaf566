import IbcRelayer.Lib.Proc.Drive
import IbcRelayer.Spec.Goroutines

/-!
# IbcRelayer — batching conserves the transfers

`ConditionallyBatchProcess` runs a router, the two goroutines that collect and buffer batches, the
workers and a goroutine that drains their results. It is put together here from what is known about
each of them, and driven by a finite input that is closed at the end.

* `stage_lossless`, `Sorted`, `leaves_keeps` — nothing is given up, only what is wanted gets into a
  batch, and the results of a batch keep their order;
* `batching_conserves` — what follows for every state of every run.
-/

namespace IbcRelayer

open Proc

variable {X T : Type}

/-! ## The stage -/

section Stages

variable [DecidableEq T]

/-- `Process` returns the transfers of the batch, in some order. -/
theorem batchResult_perm {key : X → T} {fails : Bool} {batch output : List X}
    (h : batchResult key fails batch (some output) = true) :
    (output.map key).Perm (batch.map key) :=
  List.isPerm_iff.mp h

/-- There is always a result that `Process` can return: the batch as it is. -/
theorem batchResult_some (key : X → T) (fails : Bool) (batch : List X) :
    ∃ r, batchResult key fails batch r = true :=
  ⟨some batch, List.isPerm_iff.mpr (List.Perm.refl _)⟩

/-- What the goroutines of a batch stage hold is the sum of what each of them holds. -/
def batchProcessAccount (key : X → T) (fails : Bool) (concurrency maxSize : Int) :
    (batchProcess key fails concurrency maxSize).Account (fun x => {key x}) (fun x => {key x}) :=
  (collectAccount key maxSize).pipe
    ((forwardAccount (batchItems key)).pipe
      ((bufferAccount bufferSize (batchItems key)).pipe
        ((processAccount concurrency batchResult_perm).pipe (drainAccount key) fun _ => rfl)
        fun _ => rfl)
      fun _ => rfl)
    fun _ => rfl

/-- Each of the goroutines closes its output once, when it has given everything on. -/
def batchProcessOrderly (key : X → T) (fails : Bool) {concurrency : Int} (maxSize : Int)
    (hconcurrency : 1 ≤ concurrency) :
    Orderly (batchProcessAccount key fails concurrency maxSize) :=
  (collectOrderly key maxSize).pipe
    ((forwardOrderly (batchItems key)).pipe
      ((bufferOrderly (by decide) (batchItems key)).pipe
        ((processOrderly batchResult_perm hconcurrency (batchResult_some key fails)).pipe
          (drainOrderly key) fun _ => rfl)
        fun _ => rfl)
      fun _ => rfl)
    fun _ => rfl

theorem batchResult_length {key : X → T} {fails : Bool} {batch output : List X}
    (h : batchResult key fails batch (some output) = true) :
    output.length + 1 ≤ batch.length + 1 := by
  have hlength := (batchResult_perm h).length_eq
  simp only [List.length_map] at hlength
  omega

/-- A transfer pays for its steps in these goroutines with fourteen, and the end of the input with
ten. -/
def batchProcessRanked (key : X → T) (fails : Bool) (concurrency maxSize : Int) :
    (batchProcess key fails concurrency maxSize).Ranked (fun _ => 14) 10 (fun _ => 0) 0 :=
  (collectRanked maxSize 10 8).pipe
    ((forwardRanked _ 6).pipe
      ((bufferRanked bufferSize _ 4).pipe
        ((processRanked batchResult_length).pipe drainRanked fun _ => rfl)
        fun _ => rfl)
      fun _ => rfl)
    fun _ => rfl

section Stage

variable (key : X → T) (errored shouldProcess : X → Bool) (fails : Bool) {concurrency : Int}
  (maxSize : Int)

/-- The router is in front of the batches. -/
def stageAccount (concurrency : Int) :
    (conditionalBatch key errored shouldProcess fails concurrency maxSize).Account
      (fun x => {key x}) (fun x => {key x}) :=
  (routerAccount key errored shouldProcess).pipe (batchProcessAccount key fails concurrency maxSize)
    fun _ => rfl

/-- The stage closes `out` once, when everything is out. -/
def stageOrderly (hconcurrency : 1 ≤ concurrency) :
    Orderly (stageAccount key errored shouldProcess fails maxSize concurrency) :=
  (routerOrderly key errored shouldProcess).pipe
    (batchProcessOrderly key fails maxSize hconcurrency) fun _ => rfl

/-- The stage takes a bounded number of steps for each transfer. -/
def stageRanked (concurrency : Int) :
    (conditionalBatch key errored shouldProcess fails concurrency maxSize).Ranked
      (fun _ => 17) 12 (fun _ => 0) 0 :=
  (routerRanked 14 10).pipe (batchProcessRanked key fails concurrency maxSize) fun _ => rfl

end Stage

/-! ## Nothing is given up -/

omit [DecidableEq T] in
/-- A processor that always returns a result gives nothing up. -/
theorem process_lossless {α : Type} {concurrency : Int} {contents : α → List T}
    {results : α → Option α → Bool} (hresults : ∀ i, results i none = false) :
    (processConcurrently concurrency contents results).Lossless := by
  intro w lost w' h
  cases worker_act.mp h with
  | start => rfl
  | process => rfl
  | done => rfl
  -- the only step that would give something up
  | fail hi ho =>
    rw [hresults] at ho
    cases ho

/-- No goroutine of a batch stage drops what it has got. -/
theorem batchProcess_lossless (key : X → T) (concurrency maxSize : Int) :
    (batchProcess key false concurrency maxSize).Lossless := by
  refine .pipe ?_ (.pipe ?_ (.pipe ?_ (.pipe (process_lossless fun _ => rfl) ?_)))
  · intro s lost s' h
    cases collect_act.mp h
    rfl
  · rintro s lost s' ⟨x, h⟩
    cases s <;> cases h
  · intro s lost s' h
    rcases buffer_act.mp h with ⟨_, _, -, h, -⟩ | ⟨-, -, -, h, -⟩ <;> cases h
  · rintro s lost s' ⟨x, h⟩
    cases s <;> cases h

/-- Nothing is lost in a stage whose processor always returns a result. -/
theorem stage_lossless (key : X → T) (errored shouldProcess : X → Bool)
    (concurrency maxSize : Int) :
    (conditionalBatch key errored shouldProcess false concurrency maxSize).Lossless := by
  refine .pipe ?_ (batchProcess_lossless key concurrency maxSize)
  intro s lost s' h
  cases router_act.mp h <;> rfl

end Stages

/-! ## The order within a batch -/

/-- What has become of a result of `Process`, when `sent` was sent since it was returned. -/
inductive Leaves (output : List X) : Workers (List X) × Drain X → List X → Prop where
  | waiting {w s sent} (h : output ∈ w.sending) : Leaves output (w, s) sent
  /-- The transfers before `x` are out, in their order. -/
  | leaving {w left x rest sent} (h : output = left ++ x :: rest) (hleft : left.Sublist sent) :
      Leaves output (w, .sending x rest) sent
  | left {w s sent} (h : output.Sublist sent) : Leaves output (w, s) sent

section Order

variable {output : List X} {sent : List X} {s : Drain X}

theorem Leaves.aside {p : Workers (List X) × Drain X} (h : Leaves output p sent) (y : X) :
    Leaves output p (sent ++ [y]) := by
  cases h with
  | waiting h => exact .waiting h
  | leaving h hleft => exact .leaving h (hleft.trans (List.sublist_append_left _ _))
  | left h => exact .left (h.trans (List.sublist_append_left _ _))

/-- The goroutines of `ProcessConcurrently` keep a result until they send it. -/
theorem Leaves.workers {w w' : Workers (List X)} (h : Leaves output (w, s) sent)
    (hkept : output ∈ w.sending → output ∈ w'.sending) : Leaves output (w', s) sent := by
  cases h with
  | waiting h => exact .waiting (hkept h)
  | leaving h hleft => exact .leaving h hleft
  | left h => exact .left h

/-- The loop over `batchResults` goes on with the rest of a result. -/
theorem leaves_next {w : Workers (List X)} {left rest : List X} (h : output = left ++ rest)
    (hleft : left.Sublist sent) : Leaves output (w, Drain.next rest) sent := by
  cases rest with
  | nil =>
    rw [List.append_nil] at h
    exact .left (h ▸ hleft)
  | cons x rest => exact .leaving h hleft

variable {concurrency : Int} {contents : List X → List T}
  {results : List X → Option (List X) → Bool}

/-- No step of the workers or of the goroutine that drains their results changes the order of a
result. -/
theorem leaves_keeps (output : List X) :
    (pipe (T := T) .inr (processConcurrently concurrency contents results) drain).Keeps
      (Leaves output) where
  recv {p i p' sent} hrecv h := by
    obtain ⟨hw, hs⟩ := pipe_recv.mp hrecv
    obtain ⟨-, hw⟩ := worker_recv.mp hw
    rw [show p' = (_, p.2) from Prod.ext hw hs]
    exact h.workers id
  recvClose {p p' sent} hrecv h := by
    obtain ⟨hw, hs⟩ := pipe_recvClose.mp hrecv
    obtain ⟨-, hw⟩ := worker_recvClose.mp hw
    rw [show p' = (_, p.2) from Prod.ext hw hs]
    exact h.workers id
  act {p o p' sent} hact h := by
    cases pipe_act.mp hact with
    | first hw =>
      rw [values, List.append_nil]
      cases worker_act.mp hw with
      | process hi ho => exact h.workers (List.mem_append_left _)
      | _ => exact h.workers id
    | aside hw hb => cases hb
    | @handoff w w' s s' returned _ hw hb hs =>
      rw [values, List.append_nil]
      cases hb
      cases worker_act.mp hw with
      | send ho =>
        cases s <;> cases hs
        cases h with
        | left h => exact .left h
        | waiting h =>
          -- it is this result that is handed over, or another one
          by_cases hsame : returned = output
          · have hall : output = [] ++ returned := hsame.symm
            exact leaves_next hall (List.nil_sublist _)
          · refine .waiting ?_
            obtain ⟨n, hn⟩ := List.mem_iff_getElem?.mp h
            refine List.mem_eraseIdx_iff_getElem?.mpr ⟨n, fun heq => hsame ?_, hn⟩
            rw [heq] at hn
            exact Option.some.inj (ho.symm.trans hn)
    | close hw hs =>
      rw [values, List.append_nil]
      cases worker_act.mp hw with
      | close hloop hcount =>
        rename_i s s'
        cases s <;> cases hs
        cases h with
        | waiting h => exact .waiting h
        | left h => exact .left h
    | @second w s s' o hs =>
      obtain ⟨x, hs⟩ := hs
      cases s <;> cases hs
      case sending.refl x rest =>
        cases h with
        | waiting h => exact .waiting h
        | left h => exact .left (h.trans (List.sublist_append_left _ _))
        | @leaving _ left _ _ _ h hleft =>
          rw [← List.singleton_append, ← List.append_assoc] at h
          exact leaves_next h (hleft.append (List.Sublist.refl _))
      case closing.refl =>
        rw [values, List.append_nil]
        cases h with
        | waiting h => exact .waiting h
        | left h => exact .left h

end Order

section Returned

variable [DecidableEq X] {errored shouldProcess : X → Bool} {concurrency maxSize : Int}
  {output : List X}

/-- The `n`-th of the goroutines that are in `Process` gets its result. -/
def processReturns (n : Nat) (output : List X) :
    DriveAction (conditionalBatch id errored shouldProcess false concurrency maxSize) :=
  .act (.inr (.inr (.inr (.inr (.inl (.process n (some output)))))))

/-- A result waits as soon as it is there. -/
theorem processReturns_inv
    {d d' : Drive (conditionalBatch id errored shouldProcess false concurrency maxSize)} {n : Nat}
    (h : d.step (processReturns n output) = some d') :
    d'.sent = d.sent ∧ output ∈ d'.state.2.2.2.2.1.sending := by
  obtain ⟨pending, opened, ⟨r, c, f, b, w, s⟩, sent, closes, lost⟩ := d
  simp only [Drive.step, processReturns, conditionalBatch, batchProcess, pipe,
    processConcurrently] at h
  cases hi : w.processing[n]? with
  | none => simp [hi] at h
  | some i =>
    by_cases hresult : batchResult id false i (some output) = true
    · simp only [hi, hresult, if_true, Option.map_some] at h
      cases h
      exact ⟨rfl, List.mem_append_right _ List.mem_cons_self⟩
    · simp [hi, hresult] at h

omit [DecidableEq X] in
/-- When the goroutines hold nothing, the result has left. -/
theorem Leaves.done {p : Workers (List X) × Drain X} {sent : List X} (h : Leaves output p sent)
    (hsending : items (batchItems id) p.1.sending = 0) (hdrain : p.2.holds id = 0) :
    output.Sublist sent := by
  cases h with
  -- an empty result waits forever without harm
  | waiting hin =>
    obtain ⟨n, hn⟩ := List.mem_iff_getElem?.mp hin
    rw [items_eraseIdx _ hn] at hsending
    have hnone : output = [] := by
      have hitems := (add_eq_zero.mp hsending).1
      rwa [batchItems, List.map_id, Multiset.coe_eq_zero] at hitems
    rw [hnone]
    exact List.nil_sublist _
  | leaving =>
    rw [Drain.holds] at hdrain
    exact absurd (add_eq_zero.mp hdrain).1 (Multiset.singleton_ne_zero _)
  | left hout => exact hout

end Returned

/-! ## What goes into a batch -/

section Sorted

variable [DecidableEq X] {errored shouldProcess : X → Bool} {concurrency maxSize : Int}

/-- The transfers that are in a batch: collected, buffered, in `Process` or among its results. -/
def inBatches
    (s : (conditionalBatch id errored shouldProcess false concurrency maxSize).State) :
    Multiset X :=
  (batchProcessAccount id false concurrency maxSize).holds s.2

theorem inBatches_eq
    {s s' : (conditionalBatch id errored shouldProcess false concurrency maxSize).State}
    (h : s'.2 = s.2) : inBatches s' = inBatches s :=
  congrArg (batchProcessAccount id false concurrency maxSize).holds h

/-- The transfer is not errored, and the processor wants it. -/
def Wanted (errored shouldProcess : X → Bool) (i : X) : Prop :=
  errored i = false ∧ shouldProcess i = true

/-- What is in a batch or on its way into one is wanted. -/
def Sorted
    (s : (conditionalBatch id errored shouldProcess false concurrency maxSize).State) : Prop :=
  (∀ i, s.1 = Router.batching i → Wanted errored shouldProcess i)
    ∧ ∀ i ∈ inBatches s, Wanted errored shouldProcess i

/-- The router sends only what is wanted into a batch, and the goroutines after it add nothing. -/
theorem sorted_act
    {s s' : (conditionalBatch id errored shouldProcess false concurrency maxSize).State}
    {o : Output X X} (hs : Sorted s)
    (h : (conditionalBatch id errored shouldProcess false concurrency maxSize).Act s o s') :
    Sorted s' := by
  obtain ⟨hrouter, hbatches⟩ := hs
  cases pipe_act.mp h with
  | first hr =>
    refine ⟨?_, hbatches⟩
    cases router_act.mp hr with
    | bypass => simp
    | batch hwanted =>
      rintro i ⟨⟩
      simpa [Wanted] using hwanted
  | aside hr hb =>
    refine ⟨?_, hbatches⟩
    cases router_act.mp hr <;> simp
  -- the router hands a transfer over: it was on its way into a batch
  | handoff hr hb hrecv =>
    cases router_act.mp hr with
    | out => cases hb
    | toBatch =>
      cases hb
      refine ⟨by simp, fun i hi => ?_⟩
      change i ∈ (batchProcessAccount id false concurrency maxSize).holds _ at hi
      rw [(batchProcessAccount id false concurrency maxSize).recv hrecv] at hi
      rcases Multiset.mem_add.mp hi with hi | hi
      · cases Multiset.mem_singleton.mp hi
        exact hrouter _ rfl
      · exact hbatches i hi
  | close hr hrecv =>
    cases router_act.mp hr
    refine ⟨by simp, fun i hi => ?_⟩
    change i ∈ (batchProcessAccount id false concurrency maxSize).holds _ at hi
    rw [(batchProcessAccount id false concurrency maxSize).recvClose hrecv] at hi
    exact hbatches i hi
  -- what the goroutines of the batches hold only becomes less
  | second hd =>
    refine ⟨hrouter, fun i hi => hbatches i ?_⟩
    change i ∈ (batchProcessAccount id false concurrency maxSize).holds _
    rw [(batchProcessAccount id false concurrency maxSize).act hd]
    exact Multiset.mem_add.mpr (.inr hi)

/-- Nothing gets into a batch from outside. -/
theorem sorted_step
    {d d' : Drive (conditionalBatch id errored shouldProcess false concurrency maxSize)}
    (hs : Sorted d.state) (h : Drive.Step d d') : Sorted d'.state := by
  cases h with
  | feed hpending hrecv =>
    obtain ⟨hr, hd⟩ := pipe_recv.mp hrecv
    refine ⟨fun i hi => ?_, fun i hi => hs.2 i (inBatches_eq hd ▸ hi)⟩
    cases hi.symm.trans (router_recv hr).2
  | close hpending hopened hrecv =>
    obtain ⟨hr, hd⟩ := pipe_recvClose.mp hrecv
    refine ⟨fun i hi => ?_, fun i hi => hs.2 i (inBatches_eq hd ▸ hi)⟩
    cases hi.symm.trans (router_recvClose hr).2
  | send hact => exact sorted_act hs hact
  | sendClose hact => exact sorted_act hs hact
  | inside hact => exact sorted_act hs hact

/-! ## The whole run -/

/-- What holds of the stage in a state `d` of a run on `input`. -/
structure Batched (input : List X)
    (d : Drive (conditionalBatch id errored shouldProcess false concurrency maxSize)) :
    Prop where
  /-- Every transfer is still to come, in the stage, or out. -/
  conserved : (d.pending : Multiset X)
    + (stageAccount id errored shouldProcess false maxSize concurrency).holds d.state + d.sent
      = input
  /-- `out` is closed at most once, and only when everything is out. -/
  once : d.closes ≤ 1
  complete : d.closes = 1 → d.sent.Perm input
  bypassed : ∀ i ∈ inBatches d.state, errored i = false ∧ shouldProcess i = true
  /-- Nothing is sent on `out` when it is closed, and `out` is not closed again. -/
  out : d.closes = 1 → ∀ o s',
    ¬ (conditionalBatch id errored shouldProcess false concurrency maxSize).Act d.state o s'
  /-- Nothing is sent on `toBatch` when it is closed, and `toBatch` is not closed again. -/
  toBatch : d.state.1 = Router.closed →
    ∀ o s', ¬ (router errored shouldProcess : Proc X (X ⊕ X) X).Act d.state.1 o s'
  /-- What `Process` returns for a batch leaves in that order. -/
  ordered : ∀ n output d₁ d₂, d.step (processReturns n output) = some d₁ →
    Machine.Run Drive.step (fun _ _ => True) d₁ d₂ → d₂.closes = 1 →
      ∃ later, d₂.sent = d.sent ++ later ∧ output.Sublist later
  /-- The goroutines go on until `out` is closed. -/
  stuck : (∀ a, d.step a = none) → d.closes = 1
  /-- And they do not go on forever. -/
  ends : ∃ bound, ∀ (f : Nat → Drive _) (n : Nat), f 0 = d →
    (∀ i < n, ∃ a, (f i).step a = some (f (i + 1))) → n ≤ bound

omit [DecidableEq X] in
theorem items_single (l : List X) : items (fun x => {id x}) l = (l : Multiset X) := by
  induction l with
  | nil => rfl
  | cons x l ih =>
    rw [items_cons, ih]
    rfl

/-- The order of a result is that of its transfers on `out`, once everything is out. -/
theorem returned_ordered {input output : List X} {n : Nat}
    {d d₁ d₂ : Drive (conditionalBatch id errored shouldProcess false concurrency maxSize)}
    (hconcurrency : 1 ≤ concurrency)
    (hrun : Machine.Run Drive.step (fun _ _ => True) (Drive.start _ input) d)
    (hstep : d.step (processReturns n output) = some d₁)
    (hrun₁ : Machine.Run Drive.step (fun _ _ => True) d₁ d₂) (hclosed : d₂.closes = 1) :
    ∃ later, d₂.sent = d.sent ++ later ∧ output.Sublist later := by
  obtain ⟨hsent, hwaiting⟩ := processReturns_inv hstep
  -- the goroutines before the workers, and the router, do not touch a result
  have hkeeps : (conditionalBatch id errored shouldProcess false concurrency maxSize).Keeps
      fun s sent => Leaves output s.2.2.2.2 sent :=
    (((((leaves_keeps output).pipe fun y h => h.aside y).pipe fun y h => h.aside y).pipe
      fun y h => h.aside y).pipe fun y h => h.aside y)
  obtain ⟨later, hlater, hleaves⟩ := run_keeps hkeeps (.waiting hwaiting) hrun₁
  have hinv : DriveInv (stageOrderly id errored shouldProcess false maxSize hconcurrency) input
      d₂ := run_driveInv ((hrun.trans (.cons trivial hstep .refl)).trans hrun₁)
  obtain ⟨-, hholds⟩ := (stageOrderly id errored shouldProcess false maxSize hconcurrency).empty
    hinv.inv (hinv.closed.mpr hclosed)
  have hholds : (_ : Multiset X) + (_ + (_ + (_ + (_
      + items (batchItems id) d₂.state.2.2.2.2.1.sending + d₂.state.2.2.2.2.2.holds id)))) = 0 :=
    hholds
  -- when `out` is closed every goroutine is empty, and so are the workers and the drain
  simp only [add_eq_zero] at hholds
  obtain ⟨-, -, -, -, ⟨-, hsending⟩, hdrain⟩ := hholds
  exact ⟨later, by rw [hlater, hsent], hleaves.done hsending hdrain⟩

/-- **Batching conserves the transfers.** In every state of every run of the goroutines of
`ConditionallyBatchProcess` on a finite input, whatever their order, no transfer is lost or doubled,
only the wanted ones are batched, `out` is closed once and at the end, the results of a batch keep
their order, and the run cannot stop before `out` is closed, nor go on forever. -/
theorem batching_conserves {input : List X}
    {d : Drive (conditionalBatch id errored shouldProcess false concurrency maxSize)}
    (hconcurrency : 1 ≤ concurrency)
    (hrun : Machine.Run Drive.step (fun _ _ => True) (Drive.start _ input) d) :
    Batched input d := by
  have hinv : DriveInv (stageOrderly id errored shouldProcess false maxSize hconcurrency) input d :=
    run_driveInv hrun
  have hlost : d.lost = [] :=
    run_lossless (stage_lossless id errored shouldProcess concurrency maxSize) hrun
  have hsorted : Sorted d.state := by
    refine hrun.inv (I := fun d => Sorted d.state) ⟨nofun, fun i hi => ?_⟩
      fun hs _ hstep => sorted_step hs (Drive.step_cases hstep)
    -- at the start the batches are empty
    have hstart := (batchProcessAccount (id : X → X) false concurrency maxSize).start
    exact absurd (hstart ▸ hi) (Multiset.notMem_zero i)
  constructor
  case conserved =>
    have haccount := hinv.account
    rw [items_single, items_single, items_single, hlost, Multiset.coe_nil, add_zero] at haccount
    exact haccount
  case once => exact hinv.once
  case complete =>
    intro hclosed
    have hdone := hinv.done hclosed
    rw [items_single, items_single, hlost, Multiset.coe_nil, add_zero] at hdone
    exact Multiset.coe_eq_coe.mp hdone
  case bypassed => exact hsorted.2
  case out => exact fun hclosed o s' hact => hinv.silent hclosed ⟨o, s', hact⟩
  case toBatch =>
    intro hclosed o s' hact
    rw [hclosed] at hact
    cases router_act.mp hact
  case ordered =>
    intro n output d₁ d₂ hstep hrun₁ hclosed
    exact returned_ordered hconcurrency hrun hstep hrun₁ hclosed
  case stuck => exact hinv.stuck
  case ends =>
    refine ⟨d.rank (stageRanked id errored shouldProcess false maxSize concurrency),
      fun f n hf hsteps => ?_⟩
    rw [← hf]
    exact Machine.length_le Drive.step (fun _ _ _ => rank_step _) hsteps

end Sorted

namespace Sample

/-- A stage whose processor wants the odd numbers. -/
def oddStage : Proc Nat Nat Nat := conditionalBatch id (· = 0) (· % 2 = 1) false 1 2

/-- One step of the router. -/
def route : DriveAction oddStage := .act (.inl ())
def collectBatch : DriveAction oddStage := .act (.inr (.inl ()))
def fillBuffer : DriveAction oddStage := .act (.inr (.inr (.inl ())))
def takeBatch : DriveAction oddStage := .act (.inr (.inr (.inr (.inl ()))))
def workOn (a : WorkerAction (List Nat)) : DriveAction oddStage :=
  .act (.inr (.inr (.inr (.inr (.inl a)))))
def drainResult : DriveAction oddStage := .act (.inr (.inr (.inr (.inr (.inr ())))))

/-- Two numbers are batched, two bypass the batch, and the results come out in another order. -/
def batchedRun : List (DriveAction oddStage) :=
  [.feed, route, route, .feed, route, route, .feed, route, route, .feed, route, route,
    collectBatch, fillBuffer, takeBatch, workOn .start, workOn (.process 0 (some [3, 1])),
    workOn (.send 0), workOn .done, drainResult, drainResult, .close, route, collectBatch,
    fillBuffer, takeBatch, workOn .close, drainResult]

end Sample

/-- `batching_conserves` for a run to the end. -/
theorem batching_conserves_odd : ∃ d : Drive Sample.oddStage,
    Machine.Run Drive.step (fun _ _ => True) (Drive.start _ [1, 2, 0, 3]) d
      ∧ d.sent = [2, 0, 3, 1] ∧ d.closes = 1 ∧ Batched [1, 2, 0, 3] d := by
  have hscript : (Machine.script Drive.step (fun _ _ => true)
      (Drive.start Sample.oddStage [1, 2, 0, 3]) Sample.batchedRun).any
        (fun d => d.sent = [2, 0, 3, 1] && d.closes = 1) = true := by
    decide +kernel
  obtain ⟨d, hd, hend⟩ := (Option.any_eq_true _ _).mp hscript
  simp only [Bool.and_eq_true, decide_eq_true_eq] at hend
  have hrun := Machine.run_of_script (P := fun _ _ => True) (fun _ _ _ => trivial) hd
  exact ⟨d, hrun, hend.1, hend.2, batching_conserves (by decide) hrun⟩

end IbcRelayer
