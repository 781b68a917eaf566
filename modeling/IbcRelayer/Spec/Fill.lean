import IbcRelayer.Lib.Proc.Fill
import IbcRelayer.Spec.Deduper

/-!
# IbcRelayer — how much a pipeline takes

What the goroutines of a pipeline hold when nobody reads its output. `ProcessConcurrently` holds a
transfer in each worker, which waits to send its result, and one in the goroutine that waits for the
semaphore. The router of a batch holds one transfer that bypasses the batch. The emitter holds one
transfer, and the input channel is full.

* `jams_pipelineGoroutines` — a pipeline in which nothing is batched takes `capacity` transfers.
-/

namespace IbcRelayer

open Proc

variable {X T : Type}

/-! ## `ProcessConcurrently` -/

section Workers

variable {α : Type} {concurrency : Int} {contents : α → List T} {results : α → Option α → Bool}

/-- A worker gets a value and is through with `Process`. -/
theorem worker_takes (hresults : ∀ i, results i (some i) = true) (l : List α) (i : α)
    (h : (l.length : Int) < concurrency) :
    Takes (processConcurrently concurrency contents results) ({ sending := l } : Workers α) [i]
      ({ sending := l ++ [i] } : Workers α) := by
  have hstart : (processConcurrently concurrency contents results).Act
      ({ loop := .starting i, sending := l } : Workers α) (.inside [])
      { processing := [i], sending := l } :=
    worker_act.mpr (.start rfl (by simpa [Workers.count] using h))
  have hprocess : (processConcurrently concurrency contents results).Act
      ({ processing := [i], sending := l } : Workers α) (.inside []) { sending := l ++ [i] } :=
    worker_act.mpr (.process (n := 0) rfl (hresults i))
  exact .recv (worker_recv.mpr ⟨rfl, rfl⟩) (.inside hstart (.inside hprocess .refl))

/-- The workers take values until the semaphore is used up. -/
theorem workers_take (hresults : ∀ i, results i (some i) = true) (l l' : List α)
    (h : ((l ++ l').length : Int) ≤ concurrency) :
    Takes (processConcurrently concurrency contents results) ({ sending := l } : Workers α) l'
      ({ sending := l ++ l' } : Workers α) := by
  -- the values that are held already stand in front
  induction l' generalizing l with
  | nil =>
    rw [List.append_nil]
    exact .refl
  | cons i l' ih =>
    have hl : (l.length : Int) < concurrency := by
      rw [List.length_append, List.length_cons] at h
      omega
    have hrest := ih (l ++ [i]) (by rwa [List.append_assoc])
    rw [List.append_assoc] at hrest
    exact (worker_takes hresults l i hl).trans hrest

/-- `ProcessConcurrently` passes a value on and is as it was at the start. -/
theorem process_transparent (hconcurrency : 1 ≤ concurrency)
    (hresults : ∀ i, results i (some i) = true) :
    (processConcurrently concurrency contents results).Transparent := by
  intro i
  have htakes : Takes (processConcurrently concurrency contents results) ({} : Workers α) [i]
      ({ sending := [i] } : Workers α) :=
    worker_takes hresults [] i (Int.lt_of_add_one_le hconcurrency)
  have hsend : (processConcurrently concurrency contents results).Act
      ({ sending := [i] } : Workers α) (.send i) { finishing := 1 } :=
    worker_act.mpr (.send (n := 0) rfl)
  have hdone : (processConcurrently concurrency contents results).Act
      ({ finishing := 1 } : Workers α) (.inside []) {} :=
    worker_act.mpr (.done rfl)
  exact ⟨_, _, htakes, hsend, .inside hdone .refl⟩

/-- Every worker waits to send, and one more value waits for the semaphore. -/
theorem workers_stuck {l : List α} {i : α} (h : (l.length : Int) = concurrency) :
    (processConcurrently concurrency contents results).Stuck
      ({ loop := .starting i, sending := l } : Workers α) where
  recv a w' hrecv := by cases (worker_recv.mp hrecv).1
  act {o w'} hact := by
    cases worker_act.mp hact with
    | start hloop hfree =>
      simp only [Workers.count, List.length_nil, Nat.zero_add, Nat.add_zero] at hfree
      omega
    | process hi ho => cases hi
    | fail hi ho => cases hi
    | send ho => exact ⟨_, rfl⟩
    | done hn => cases hn
    | close hloop hcount => cases hloop

/-- It holds one value more than the semaphore allows: the one for which the loop waits. -/
theorem process_clogs {n : Nat} (hresults : ∀ i, results i (some i) = true) :
    (processConcurrently n contents results).Clogs (n + 1) := by
  intro l hl
  -- the last value is the one that waits for the semaphore
  obtain ⟨l, i, rfl⟩ : ∃ l' i, l = l' ++ [i] := by
    refine ⟨l.dropLast, l.getLast (List.ne_nil_of_length_eq_add_one hl), ?_⟩
    rw [List.dropLast_append_getLast]
  have hlength : l.length = n := by simpa using hl
  refine ⟨({ loop := .starting i, sending := l } : Workers α), ?_, workers_stuck (by rw [hlength])⟩
  have htakes : Takes (processConcurrently n contents results) ({} : Workers α) l
      ({ sending := l } : Workers α) :=
    workers_take hresults [] l (by rw [List.nil_append, hlength])
  exact htakes.trans (.recv (worker_recv.mpr ⟨rfl, rfl⟩) .refl)

/-- At its start it has no step to do. -/
theorem process_idle : (processConcurrently concurrency contents results).Idle := by
  intro o w' h
  cases worker_act.mp h with
  | start hloop hfree => cases hloop
  | process hi ho => cases hi
  | fail hi ho => cases hi
  | send ho => cases ho
  | done hn => cases hn
  | close hloop hcount => cases hloop

end Workers

/-! ## A batch that is bypassed -/

section Bypass

variable [DecidableEq T] {key : X → T} {errored : X → Bool} {fails : Bool}
  {concurrency maxSize : Int}

/-- Nor have the goroutines of a batch. -/
theorem batchProcess_idle : (batchProcess key fails concurrency maxSize).Idle := by
  refine .pipe ?_ (.pipe ?_ (.pipe ?_ (.pipe process_idle ?_)))
  · rintro o s' ⟨x, h⟩
    cases h
  · rintro o s' ⟨x, h⟩
    cases h
  · rintro o s' ⟨x, h⟩
    cases h
  · rintro o s' ⟨x, h⟩
    cases h

/-- A value is on its way around the batches. -/
theorem bypass_takes (i : X) :
    Takes (conditionalBatch key errored (fun _ => false) fails concurrency maxSize)
      (Router.receiving, (batchProcess key fails concurrency maxSize).start) [i]
      (Router.bypassing i, (batchProcess key fails concurrency maxSize).start) := by
  have hdecide : (router errored (fun _ => false) : Proc X (X ⊕ X) T).Act (Router.deciding i)
      (.inside []) (Router.bypassing i) := by
    refine ⟨(), ?_⟩
    cases herrored : errored i <;> simp [router, herrored]
  exact .recv rfl (.inside (pipe_act.mpr (.first hdecide)) .refl)

/-- A value that is not for the batch goes around it. -/
theorem bypass_transparent :
    (conditionalBatch key errored (fun _ => false) fails concurrency maxSize).Transparent := by
  intro i
  refine ⟨_, _, bypass_takes i, pipe_act.mpr (.aside (b := .inl i) ⟨(), rfl⟩ rfl), .refl⟩

/-- The router holds one such value, since it sends to the output itself. -/
theorem bypass_clogs :
    (conditionalBatch key errored (fun _ => false) fails concurrency maxSize).Clogs 1 := by
  intro l hl
  obtain ⟨i, rfl⟩ := List.length_eq_one_iff.mp hl
  refine ⟨_, bypass_takes i, ?_, ?_⟩
  · rintro a s' h
    cases h
  · intro o s' h
    -- the batch has nothing to do, and the router can only send
    cases pipe_act.mp h with
    | first hc => cases router_act.mp hc
    | aside hc hb => exact ⟨_, rfl⟩
    | handoff hc hb hd =>
      cases router_act.mp hc
      cases hb
    | close hc hd => cases router_act.mp hc
    | second hd => exact absurd hd (batchProcess_idle _ _)

end Bypass

/-! ## The emitter -/

section Emitter

variable {size : Nat}

/-- The emitter takes a value from the input channel. -/
theorem emitter_takes (hsize : 0 < size) (x : X) :
    Takes (emitter size : Proc X X T) ({} : Emitter X) [x]
      ({ place := .sending x } : Emitter X) := by
  have hloop :
      (emitter size : Proc X X T).Act ({} : Emitter X) (.inside []) { place := .reading } :=
    emitter_act.mpr (.loop rfl rfl)
  have hrecv : (emitter size : Proc X X T).recv ({ place := .reading } : Emitter X) x
      = some { input := [x], place := .reading } :=
    emitter_recv.mpr ⟨hsize, rfl⟩
  have hread : (emitter size : Proc X X T).Act ({ input := [x], place := .reading } : Emitter X)
      (.inside []) { place := .sending x } :=
    emitter_act.mpr (.read rfl rfl)
  exact .inside hloop (.recv hrecv (.inside hread .refl))

theorem emitter_transparent (hsize : 0 < size) : (emitter size : Proc X X T).Transparent :=
  fun x => ⟨_, _, emitter_takes hsize x, emitter_act.mpr (.send rfl), .refl⟩

/-- The input channel fills up while the emitter waits to send. -/
theorem input_takes (x : X) (l l' : List X) (h : (l ++ l').length ≤ size) :
    Takes (emitter size : Proc X X T) ({ input := l, place := .sending x } : Emitter X) l'
      ({ input := l ++ l', place := .sending x } : Emitter X) := by
  induction l' generalizing l with
  | nil =>
    rw [List.append_nil]
    exact .refl
  | cons y l' ih =>
    have hl : l.length < size := by
      rw [List.length_append, List.length_cons] at h
      omega
    have hrest := ih (l ++ [y]) (by rwa [List.append_assoc])
    rw [List.append_assoc] at hrest
    exact .recv (emitter_recv.mpr ⟨hl, rfl⟩) hrest

/-- With a full channel it takes nothing, and it has nothing to do but to send. -/
theorem emitter_stuck {x : X} {l : List X} {cancelled : Bool} (h : l.length = size) :
    (emitter size : Proc X X T).Stuck
      ({ input := l, place := .sending x, cancelled } : Emitter X) where
  recv y e' hrecv := by
    have hroom : l.length < size := (emitter_recv.mp hrecv).1
    omega
  act {o e'} hact := by
    cases emitter_act.mp hact with
    | loop hplace hcancelled => cases hplace
    | close hplace hcancelled => cases hplace
    | read hplace hinput => cases hplace
    | send hplace => exact ⟨_, rfl⟩

/-- That the context is cancelled changes nothing: the emitter waits to send. -/
theorem emitter_jams (hsize : 0 < size) : (emitter size : Proc X X T).Jams (size + 1) := by
  intro l hl
  -- the first value is with the emitter, the others fill the channel
  obtain ⟨x, l, rfl⟩ := List.exists_cons_of_length_eq_add_one hl
  have hlength : l.length = size := by simpa using hl
  refine ⟨({ input := l, place := .sending x } : Emitter X), _, ?_, emitter_stuck hlength,
    emitter_recvClose.mpr ⟨rfl, rfl⟩, emitter_stuck hlength⟩
  exact (emitter_takes hsize x).trans (input_takes x [] l (by simp [hlength]))

end Emitter

/-! ## The pipeline -/

/-- How many transfers the goroutines of a stage hold when nothing is batched. -/
def Stage.room : Stage → Nat
  | .batchTimeoutPacket => 1
  | .batchRecvPacket => 1
  | .batchAckPacket => 1
  | _ => 11

/-- How many transfers a pipeline takes. -/
def capacity (pl : Pipeline) : Nat := 10001 + ((newPipeline pl).map Stage.room).sum

theorem singleResult_same (t : IBCV2Transfer) : singleResult t (some t) = true :=
  decide_eq_true rfl

section Stages

variable (opts : PipelineOptions)

/-- Every stage passes a transfer on when nothing is batched. -/
theorem Stage.transparent (stage : Stage) :
    (stage.goroutines opts fun _ _ => false).Transparent := by
  cases stage
  case batchTimeoutPacket | batchRecvPacket | batchAckPacket => exact bypass_transparent
  all_goals exact process_transparent (by decide) singleResult_same

/-- And when nobody reads its output it fills up as `room` says. -/
theorem Stage.clogs (stage : Stage) :
    (stage.goroutines opts fun _ _ => false).Clogs stage.room := by
  cases stage
  case batchTimeoutPacket | batchRecvPacket | batchAckPacket => exact bypass_clogs
  all_goals exact process_clogs (n := 10) singleResult_same

/-- The stages after a process that fills up. -/
theorem jams_stages {C : PipelineProc} {n : Nat} (hclear : C.Transparent) (hjams : C.Jams n)
    (stages : List Stage) :
    (stages.foldl (fun output stage => pipe .inr output (stage.goroutines opts fun _ _ => false))
      C).Transparent
    ∧ (stages.foldl (fun output stage => pipe .inr output (stage.goroutines opts fun _ _ => false))
      C).Jams (n + (stages.map Stage.room).sum) := by
  -- the stages are joined from the left, so the process in front grows
  induction stages generalizing C n with
  | nil => exact ⟨hclear, hjams⟩
  | cons stage stages ih =>
    have hrest := ih (hclear.pipe (stage.transparent opts)) (hjams.pipe hclear (stage.clogs opts))
    rwa [Nat.add_assoc] at hrest

end Stages

/-- **What a pipeline takes** when nobody reads its output and nothing is batched: `capacity`
transfers, and not one more, be its context cancelled or not. -/
theorem jams_pipelineGoroutines (pl : Pipeline) :
    (pipelineGoroutines pl fun _ _ => false).Transparent
    ∧ (pipelineGoroutines pl fun _ _ => false).Jams (capacity pl) :=
  jams_stages pl.opts (emitter_transparent (by decide)) (emitter_jams (by decide)) (newPipeline pl)

end IbcRelayer
