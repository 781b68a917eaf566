import IbcRelayer.Lib.Proc.Live
import IbcRelayer.Goroutines

/-!
# IbcRelayer — what the goroutines of a stage keep

For each goroutine the items that it holds (`Account`), that it closes its output once and always
has something to do until then (`Orderly`), and a rank that its steps use up (`Ranked`). The results
about `ConditionallyBatchProcess` are put together from these by `pipe`.
-/

namespace IbcRelayer

open Proc

variable {X T : Type}

/-! ## `ProcessConcurrently` -/

section Workers

variable {α : Type} {concurrency : Int} {contents : α → List T} {results : α → Option α → Bool}

/-- The steps of the goroutines. -/
inductive WorkerAct (concurrency : Int) (contents : α → List T) (results : α → Option α → Bool)
    (w : Workers α) : Output α T → Workers α → Prop where
  | start {i} (hloop : w.loop = .starting i) (hfree : w.count < concurrency) :
      WorkerAct concurrency contents results w (.inside [])
        { w with loop := .receiving, processing := w.processing ++ [i] }
  | process {n i o} (hi : w.processing[n]? = some i) (ho : results i (some o) = true) :
      WorkerAct concurrency contents results w (.inside [])
        { w with processing := w.processing.eraseIdx n, sending := w.sending ++ [o] }
  | fail {n i} (hi : w.processing[n]? = some i) (ho : results i none = true) :
      WorkerAct concurrency contents results w (.inside (contents i))
        { w with processing := w.processing.eraseIdx n, finishing := w.finishing + 1 }
  | send {n o} (ho : w.sending[n]? = some o) :
      WorkerAct concurrency contents results w (.send o)
        { w with sending := w.sending.eraseIdx n, finishing := w.finishing + 1 }
  | done {n} (hn : w.finishing = n + 1) :
      WorkerAct concurrency contents results w (.inside []) { w with finishing := n }
  | close (hloop : w.loop = .waiting) (hcount : w.count = 0) :
      WorkerAct concurrency contents results w .close { w with loop := .closed }

/-- The steps of the model are those of `WorkerAct`. -/
theorem worker_act {w w' : Workers α} {o : Output α T} :
    (processConcurrently concurrency contents results).Act w o w'
      ↔ WorkerAct concurrency contents results w o w' := by
  constructor
  · rintro ⟨x, h⟩
    cases x <;> simp only [processConcurrently] at h
    case start =>
      split at h
      · split at h
        · cases h
          exact .start ‹_› ‹_›
        · cases h
      · cases h
    -- a worker that fails drops its value
    case process n result =>
      split at h
      · cases h
      · split at h
        · split at h
          · cases h
            exact .process ‹_› ‹_›
          · cases h
            exact .fail ‹_› ‹_›
        · cases h
    case send n =>
      split at h
      · cases h
      · cases h
        exact .send ‹_›
    case done =>
      split at h
      · cases h
      · cases h
        exact .done ‹_›
    case close =>
      split at h
      · split at h
        · cases h
          exact .close ‹_› ‹_›
        · cases h
      · cases h
  · intro h
    cases h with
    | start hloop hfree => exact ⟨.start, by simp [processConcurrently, hloop, hfree]⟩
    | @process n i o hi ho => exact ⟨.process n (some o), by simp [processConcurrently, hi, ho]⟩
    | @fail n i hi ho => exact ⟨.process n none, by simp [processConcurrently, hi, ho]⟩
    | @send n o ho => exact ⟨.send n, by simp [processConcurrently, ho]⟩
    | done hn => exact ⟨.done, by simp [processConcurrently, hn]⟩
    | close hloop hcount => exact ⟨.close, by simp [processConcurrently, hloop, hcount]⟩

/-- A value is received by the loop, which then waits for the semaphore. -/
theorem worker_recv {w w' : Workers α} {i : α} :
    (processConcurrently concurrency contents results).recv w i = some w'
      ↔ w.loop = .receiving ∧ w' = { w with loop := .starting i } := by
  simp only [processConcurrently]
  split
  · rename_i hloop
    simp [hloop, eq_comm]
  · rename_i hloop
    exact iff_of_false (by simp) fun h => hloop h.1

/-- When the input is closed, the loop waits for the goroutines it has started. -/
theorem worker_recvClose {w w' : Workers α} :
    (processConcurrently concurrency contents results).recvClose w = some w'
      ↔ w.loop = .receiving ∧ w' = { w with loop := .waiting } := by
  simp only [processConcurrently]
  split
  · rename_i hloop
    simp [hloop, eq_comm]
  · rename_i hloop
    exact iff_of_false (by simp) fun h => hloop h.1

/-- What the goroutine that starts the others holds. -/
def ProcessLoop.holds (w : α → Multiset T) : ProcessLoop α → Multiset T
  | .starting i => w i
  | _ => 0

/-- `Process` returns what it was given. -/
def processAccount (concurrency : Int)
    (hresults : ∀ {i o}, results i (some o) = true → (contents o).Perm (contents i)) :
    (processConcurrently concurrency contents results).Account (fun i => ↑(contents i))
      (fun i => ↑(contents i)) where
  holds w := w.loop.holds (fun i => ↑(contents i)) + items (fun i => ↑(contents i)) w.processing
    + items (fun i => ↑(contents i)) w.sending
  start := rfl
  recv {w i w'} h := by
    obtain ⟨hloop, rfl⟩ := worker_recv.mp h
    simp only [hloop, ProcessLoop.holds, zero_add, add_assoc]
  recvClose {w w'} h := by
    obtain ⟨hloop, rfl⟩ := worker_recvClose.mp h
    simp only [hloop, ProcessLoop.holds]
  act {w o w'} h := by
    cases worker_act.mp h with
    | start hloop hfree =>
      simp only [hloop, ProcessLoop.holds, given, items_append, items_cons, items_nil,
        Multiset.coe_nil]
      abel
    -- `Process` may reorder a batch; its items are the same
    | process hi ho =>
      have hperm := Multiset.coe_eq_coe.mpr (hresults ho)
      simp only [items_eraseIdx _ hi, given, items_append, items_cons, items_nil, Multiset.coe_nil,
        hperm]
      abel
    -- a failed value is accounted for inside
    | fail hi ho =>
      simp only [items_eraseIdx _ hi, given]
      abel
    | send ho =>
      simp only [items_eraseIdx _ ho, given]
      abel
    | done hn => simp [given]
    | close hloop hcount => simp [given, hloop, ProcessLoop.holds]

/-- Somebody who is at work goes on. -/
theorem workers_move (hsome : ∀ i, ∃ r, results i r = true) {w : Workers α} (h : w.count ≠ 0) :
    (processConcurrently concurrency contents results).Moves w := by
  -- somebody sends, or finishes, or else processes
  cases hsending : w.sending with
  | cons o rest =>
    exact ⟨_, _, worker_act.mpr (.send (n := 0) (o := o) (by rw [hsending]; rfl))⟩
  | nil =>
    cases hfinishing : w.finishing with
    | succ n => exact ⟨_, _, worker_act.mpr (.done hfinishing)⟩
    | zero =>
      cases hprocessing : w.processing with
      | nil => simp [Workers.count, hsending, hfinishing, hprocessing] at h
      | cons i rest =>
        have hi : w.processing[0]? = some i := by rw [hprocessing]; rfl
        obtain ⟨r, hr⟩ := hsome i
        cases r with
        | some o => exact ⟨_, _, worker_act.mpr (.process hi hr)⟩
        | none => exact ⟨_, _, worker_act.mpr (.fail hi hr)⟩

/-- A new goroutine is started as soon as the semaphore allows it. -/
theorem starting_moves (hconcurrency : 1 ≤ concurrency) (hsome : ∀ i, ∃ r, results i r = true)
    {w : Workers α} {i : α} (h : w.loop = .starting i) :
    (processConcurrently concurrency contents results).Moves w := by
  by_cases hcount : w.count = 0
  · exact ⟨_, _, worker_act.mpr (.start h (by omega))⟩
  · exact workers_move hsome hcount

/-- Without a goroutine at work nothing is held. -/
theorem holds_of_count {w : Workers α} {v : α → Multiset T} (h : w.count = 0) :
    items v w.processing + items v w.sending = 0 := by
  have hp : w.processing = [] :=
    List.length_eq_zero_iff.mp (by simp only [Workers.count] at h; omega)
  have hs : w.sending = [] := List.length_eq_zero_iff.mp (by simp only [Workers.count] at h; omega)
  rw [hp, hs]
  rfl

def processOrderly (hresults : ∀ {i o}, results i (some o) = true → (contents o).Perm (contents i))
    (hconcurrency : 1 ≤ concurrency) (hsome : ∀ i, ∃ r, results i r = true) :
    Orderly (processAccount concurrency hresults) where
  Inv w := w.loop = .closed → w.count = 0
  opened w := w.loop ≠ .waiting ∧ w.loop ≠ .closed
  closed w := w.loop = .closed
  start := by simp [processConcurrently]
  recv {w i w'} hinv h := by
    obtain ⟨hloop, rfl⟩ := worker_recv.mp h
    simp [hloop]
  recvClose {w w'} hinv h := by
    obtain ⟨hloop, rfl⟩ := worker_recvClose.mp h
    simp [hloop]
  act {w o w'} hinv h := by
    -- after the end nobody is at work, so there is no step
    have hclosed : w.loop ≠ .closed := by
      intro hclosed
      have hcount := hinv hclosed
      simp only [Workers.count, Nat.add_eq_zero_iff, List.length_eq_zero_iff] at hcount
      obtain ⟨⟨hp, hs⟩, hf⟩ := hcount
      cases worker_act.mp h with
      | start hloop hfree => rw [hclosed] at hloop; cases hloop
      | process hi ho => rw [hp] at hi; cases hi
      | fail hi ho => rw [hp] at hi; cases hi
      | send ho => rw [hs] at ho; cases ho
      | done hn => rw [hf] at hn; cases hn
      | close hloop hcount => rw [hclosed] at hloop; cases hloop
    cases worker_act.mp h with
    | start hloop hfree => simp [hloop]
    | close hloop hcount => simpa [hloop, Workers.count] using hcount
    | _ => simp [hclosed]
  close {w w'} hinv h := by
    cases worker_act.mp h with
    | close hloop hcount =>
      refine ⟨by simp [hloop], ?_⟩
      simp only [processAccount, hloop, ProcessLoop.holds, zero_add, holds_of_count hcount]
  empty {w} hinv hclosed := by
    refine ⟨by simp [hclosed], ?_⟩
    simp only [processAccount, hclosed, ProcessLoop.holds, zero_add, holds_of_count (hinv hclosed)]
  progress {w} hinv hclosed hbusy := by
    by_cases hcount : w.count = 0
    · cases hloop : w.loop with
      | receiving =>
        refine absurd hbusy (not_or.mpr ⟨?_, by simp [hloop]⟩)
        simp only [processAccount, hloop, ProcessLoop.holds, zero_add, holds_of_count hcount, ne_eq,
          not_true_eq_false, not_false_eq_true]
      | starting i => exact starting_moves hconcurrency hsome hloop
      | waiting => exact ⟨_, _, worker_act.mpr (.close hloop hcount)⟩
      | closed => exact absurd hloop hclosed
    · exact workers_move hsome hcount
  ready {w} hinv hopened hholds := by
    cases hloop : w.loop with
    | receiving =>
      exact .inr ⟨fun i => ⟨_, worker_recv.mpr ⟨hloop, rfl⟩⟩, _, worker_recvClose.mpr ⟨hloop, rfl⟩⟩
    | starting i => exact .inl (starting_moves hconcurrency hsome hloop)
    | waiting => exact absurd hloop hopened.1
    | closed => exact absurd hloop hopened.2

/-- What the goroutine that starts the others has to do. -/
def ProcessLoop.rank (price : α → Nat) (closing : Nat) : ProcessLoop α → Nat
  | .starting i => price i + 4
  | .waiting => closing + 1
  | _ => 0

theorem sum_eraseIdx (v : α → Nat) {l : List α} {n : Nat} {a : α} (h : l[n]? = some a) :
    (l.map v).sum = v a + ((l.eraseIdx n).map v).sum := by
  obtain ⟨hn, rfl⟩ := List.getElem?_eq_some_iff.mp h
  rw [← List.eraseIdx_map]
  have hmap : n < (l.map v).length := by simpa using hn
  simpa using (List.CommMonoid.add_sum_eraseIdx hmap).symm

def processRanked {price : α → Nat} {closing : Nat}
    (hprice : ∀ {i o}, results i (some o) = true → price o ≤ price i) :
    (processConcurrently concurrency contents results).Ranked (fun i => price i + 5)
      (closing + 2) price
      closing where
  rank w := w.loop.rank price closing + (w.processing.map (price · + 3)).sum
    + (w.sending.map (price · + 2)).sum + w.finishing
  recv {w i w'} h := by
    obtain ⟨hloop, rfl⟩ := worker_recv.mp h
    simp only [hloop, ProcessLoop.rank]
    omega
  recvClose {w w'} h := by
    obtain ⟨hloop, rfl⟩ := worker_recvClose.mp h
    simp only [hloop, ProcessLoop.rank]
    omega
  act {w o w'} h := by
    cases worker_act.mp h with
    | start hloop hfree =>
      simp only [hloop, ProcessLoop.rank, cost, List.map_append, List.map_cons, List.map_nil,
        List.sum_append, List.sum_cons, List.sum_nil]
      omega
    | process hi ho =>
      have := hprice ho
      have := sum_eraseIdx (price · + 3) hi
      simp only [cost, List.map_append, List.map_cons, List.map_nil, List.sum_append, List.sum_cons,
        List.sum_nil] at *
      omega
    | fail hi ho =>
      have := sum_eraseIdx (price · + 3) hi
      simp only [cost] at *
      omega
    | send ho =>
      have := sum_eraseIdx (price · + 2) ho
      simp only [cost] at *
      omega
    | done hn =>
      simp only [cost]
      omega
    | close hloop hcount =>
      simp only [hloop, ProcessLoop.rank, cost]
      omega

end Workers

/-! ## The other goroutines

They have one thing to do in each state, so that what they do is read off the state. -/

/-- The items of a batch. -/
def batchItems (key : X → T) (batch : List X) : Multiset T := batch.map key

theorem batchItems_append (key : X → T) (is : List X) (x : X) :
    batchItems key (is ++ [x]) = {key x} + batchItems key is := by
  rw [batchItems, List.map_append, ← Multiset.coe_add, add_comm]
  rfl

section Collect

variable {maxSize : Int}

/-- What `Collect` does by itself. -/
inductive CollectAct : Collecting X → Output (List X) T → Collecting X → Prop where
  | timeout {is} (h : is ≠ []) : CollectAct (.collecting is) (.inside []) (.sending is)
  | send {is} : CollectAct (.sending is) (.send is) (.collecting [])
  | last {is} : CollectAct (.finishing is) (.send is) .closing
  | close : CollectAct .closing .close .closed

/-- The steps of `Collect` are those of `CollectAct`; each state has one. -/
theorem collect_act {s s' : Collecting X} {o : Output (List X) T} :
    (collect maxSize).Act s o s' ↔ CollectAct s o s' := by
  constructor
  · rintro ⟨x, h⟩
    cases s with
    | collecting is =>
      cases is with
      | nil => cases h
      | cons i is =>
        cases h
        exact .timeout (by simp)
    | sending is =>
      cases h
      exact .send
    | finishing is =>
      cases h
      exact .last
    | closing =>
      cases h
      exact .close
    | closed => cases h
  · intro h
    cases h with
    | timeout h => exact ⟨(), by simp [collect, h]⟩
    | _ => exact ⟨(), rfl⟩

/-- A value is appended, and a full batch is sent. -/
theorem collect_recv {s s' : Collecting X} {x : X}
    (h : (collect maxSize : Proc X (List X) T).recv s x = some s') :
    ∃ is, s = .collecting is ∧ (s' = .collecting (is ++ [x]) ∨ s' = .sending (is ++ [x])) := by
  cases s with
  | collecting is =>
    refine ⟨is, rfl, ?_⟩
    cases h
    split
    · exact .inl rfl
    · exact .inr rfl
  | _ => cases h

/-- When the input is closed a last batch is sent, unless it would be empty. -/
theorem collect_recvClose {s s' : Collecting X}
    (h : (collect maxSize : Proc X (List X) T).recvClose s = some s') :
    s = .collecting [] ∧ s' = .closing
      ∨ ∃ is, s = .collecting is ∧ is ≠ [] ∧ s' = .finishing is := by
  cases s with
  | collecting is =>
    cases is with
    | nil =>
      cases h
      exact .inl ⟨rfl, rfl⟩
    | cons i is =>
      cases h
      exact .inr ⟨_, rfl, by simp, rfl⟩
  | _ => cases h

def Collecting.holds (key : X → T) : Collecting X → Multiset T
  | .collecting is => batchItems key is
  | .sending is => batchItems key is
  | .finishing is => batchItems key is
  | .closing => 0
  | .closed => 0

def collectAccount (key : X → T) (maxSize : Int) :
    (collect maxSize : Proc X (List X) T).Account (fun x => {key x}) (batchItems key) where
  holds := Collecting.holds key
  start := rfl
  recv {s x s'} h := by
    obtain ⟨is, rfl, rfl | rfl⟩ := collect_recv h <;> exact batchItems_append key is x
  recvClose {s s'} h := by
    obtain ⟨rfl, rfl⟩ | ⟨is, rfl, -, rfl⟩ := collect_recvClose h <;> rfl
  act {s o s'} h := by
    cases collect_act.mp h <;> simp [given, Collecting.holds, batchItems]

def Collecting.opened : Collecting X → Bool
  | .collecting _ => true
  | .sending _ => true
  | _ => false

def Collecting.isClosed : Collecting X → Bool
  | .closed => true
  | _ => false

def collectOrderly (key : X → T) (maxSize : Int) : Orderly (collectAccount key maxSize) where
  Inv _ := True
  opened s := Collecting.opened s = true
  closed s := Collecting.isClosed s = true
  start := ⟨trivial, rfl, Bool.false_ne_true⟩
  recv {s x s'} _ h := by
    obtain ⟨is, rfl, rfl | rfl⟩ := collect_recv h <;> exact ⟨rfl, trivial, rfl⟩
  recvClose {s s'} _ h := by
    obtain ⟨rfl, rfl⟩ | ⟨is, rfl, -, rfl⟩ := collect_recvClose h <;>
      simp [Collecting.opened, Collecting.isClosed]
  act {s o s'} _ h := by
    cases collect_act.mp h <;> simp [Collecting.opened, Collecting.isClosed]
  close {s s'} _ h := by
    cases collect_act.mp h
    exact ⟨Bool.false_ne_true, rfl⟩
  empty {s} _ h := by
    cases s <;> cases h
    exact ⟨Bool.false_ne_true, rfl⟩
  progress {s} _ hclosed hbusy := by
    cases s with
    -- the timer sends a batch that is not empty, so a batch never waits for more values
    | collecting is =>
      refine ⟨_, _, collect_act.mpr (.timeout ?_)⟩
      rintro rfl
      simp [collectAccount, Collecting.holds, batchItems, Collecting.opened] at hbusy
    | sending is => exact ⟨_, _, collect_act.mpr .send⟩
    | finishing is => exact ⟨_, _, collect_act.mpr .last⟩
    | closing => exact ⟨_, _, collect_act.mpr .close⟩
    | closed => exact absurd rfl hclosed
  ready {s} _ hopened hholds := by
    cases s with
    | collecting is => exact .inr ⟨fun x => ⟨_, rfl⟩, _, rfl⟩
    | sending is => exact .inl ⟨_, _, collect_act.mpr .send⟩
    | _ => cases hopened

/-- A batch of `n` costs `n + q`, so that every item of it pays for the whole of `q`. -/
def Collecting.rank (q closing : Nat) : Collecting X → Nat
  | .collecting is => is.length * (q + 3)
  | .sending is => is.length + q + 1
  | .finishing is => is.length + q + closing + 2
  | .closing => closing + 1
  | .closed => 0

/-- What the items of a batch have paid is enough to send it. -/
theorem length_lt_rank {n q : Nat} (h : n ≠ 0) : n + q + 1 < n * (q + 3) := by
  have hq : 1 * (q + 2) ≤ n * (q + 2) := Nat.mul_le_mul_right _ (Nat.pos_of_ne_zero h)
  have hn : n * (q + 3) = n * (q + 2) + n := Nat.mul_succ n (q + 2)
  omega

def collectRanked (maxSize : Int) (q closing : Nat) :
    (collect maxSize : Proc X (List X) T).Ranked (fun _ => q + 4) (closing + 2)
      (fun batch => batch.length + q) closing where
  rank := Collecting.rank q closing
  recv {s x s'} h := by
    obtain ⟨is, rfl, rfl | rfl⟩ := collect_recv h
    -- the new item pays for the whole batch, as it might be the last one
    · have := Nat.add_one_mul is.length (q + 3)
      simp only [Collecting.rank, List.length_append, List.length_singleton]
      omega
    · simp only [Collecting.rank, List.length_append, List.length_singleton]
      by_cases hzero : is.length = 0
      · omega
      · have := length_lt_rank (q := q) hzero
        omega
  recvClose {s s'} h := by
    obtain ⟨rfl, rfl⟩ | ⟨is, rfl, hne, rfl⟩ := collect_recvClose h <;> simp only [Collecting.rank]
    · omega
    · have := length_lt_rank (q := q) (mt List.length_eq_zero_iff.mp hne)
      omega
  act {s o s'} h := by
    cases collect_act.mp h with
    | timeout hne => exact length_lt_rank (mt List.length_eq_zero_iff.mp hne)
    | _ =>
      simp only [Collecting.rank, cost, List.length_nil]
      omega

end Collect

section Router

variable {errored shouldProcess : X → Bool}

def Router.holds (key : X → T) : Router X → Multiset T
  | .deciding i => {key i}
  | .bypassing i => {key i}
  | .batching i => {key i}
  | _ => 0

/-- What the goroutine does by itself. -/
inductive RouterAct (errored shouldProcess : X → Bool) :
    Router X → Output (X ⊕ X) T → Router X → Prop
    where
  | bypass {i} (h : (!errored i && shouldProcess i) = false) :
      RouterAct errored shouldProcess (.deciding i) (.inside []) (.bypassing i)
  | batch {i} (h : (!errored i && shouldProcess i) = true) :
      RouterAct errored shouldProcess (.deciding i) (.inside []) (.batching i)
  | out {i} : RouterAct errored shouldProcess (.bypassing i) (.send (.inl i)) .receiving
  | toBatch {i} : RouterAct errored shouldProcess (.batching i) (.send (.inr i)) .receiving
  | close : RouterAct errored shouldProcess .closing .close .closed

/-- The steps of the router are those of `RouterAct`. -/
theorem router_act {s s' : Router X} {o : Output (X ⊕ X) T} :
    (router errored shouldProcess).Act s o s' ↔ RouterAct errored shouldProcess s o s' := by
  constructor
  · rintro ⟨x, h⟩
    cases s <;> simp only [router, reduceCtorEq] at h
    case deciding i =>
      split at h
      · cases h
        exact .bypass (by simp [*])
      · split at h
        · cases h
          exact .bypass (by simp_all)
        · cases h
          exact .batch (by simp_all)
    case bypassing i =>
      cases h
      exact .out
    case batching i =>
      cases h
      exact .toBatch
    case closing =>
      cases h
      exact .close
  · intro h
    refine ⟨(), ?_⟩
    cases h with
    | bypass h =>
      simp only [router]
      split
      · rfl
      · simp_all
    | batch h => simp_all [router]
    | _ => rfl

/-- The router receives between two values only. -/
theorem router_recv {s s' : Router X} {i : X}
    (h : (router errored shouldProcess : Proc X (X ⊕ X) T).recv s i = some s') :
    s = .receiving ∧ s' = .deciding i := by
  cases s <;> cases h
  exact ⟨rfl, rfl⟩

/-- And it sees the end of its input there. -/
theorem router_recvClose {s s' : Router X}
    (h : (router errored shouldProcess : Proc X (X ⊕ X) T).recvClose s = some s') :
    s = .receiving ∧ s' = .closing := by
  cases s <;> cases h
  exact ⟨rfl, rfl⟩

def routerAccount (key : X → T) (errored shouldProcess : X → Bool) :
    (router errored shouldProcess).Account (fun i => {key i})
      (Sum.elim (fun i => {key i}) (fun i => {key i})) where
  holds := Router.holds key
  start := rfl
  recv {s i s'} h := by
    obtain ⟨rfl, rfl⟩ := router_recv h
    simp [Router.holds]
  recvClose {s s'} h := by
    obtain ⟨rfl, rfl⟩ := router_recvClose h
    rfl
  act {s o s'} h := by
    cases router_act.mp h <;> simp [given, Router.holds]

def Router.opened : Router X → Bool
  | .closing => false
  | .closed => false
  | _ => true

def Router.isClosed : Router X → Bool
  | .closed => true
  | _ => false

def routerOrderly (key : X → T) (errored shouldProcess : X → Bool) :
    Orderly (routerAccount key errored shouldProcess) where
  Inv _ := True
  opened s := Router.opened s = true
  closed s := Router.isClosed s = true
  start := ⟨trivial, rfl, Bool.false_ne_true⟩
  recv {s i s'} _ h := by
    obtain ⟨rfl, rfl⟩ := router_recv h
    exact ⟨rfl, trivial, rfl⟩
  recvClose {s s'} _ h := by
    obtain ⟨rfl, rfl⟩ := router_recvClose h
    exact ⟨rfl, trivial, Bool.false_ne_true, Bool.false_ne_true⟩
  act {s o s'} _ h := by cases router_act.mp h <;> simp [Router.opened, Router.isClosed]
  close {s s'} _ h := by
    cases router_act.mp h
    exact ⟨Bool.false_ne_true, rfl⟩
  empty {s} _ h := by
    cases s <;> cases h
    exact ⟨Bool.false_ne_true, rfl⟩
  progress {s} _ hclosed hbusy := by
    cases s with
    | receiving => simp [routerAccount, Router.holds, Router.opened] at hbusy
    | deciding i =>
      cases h : !errored i && shouldProcess i with
      | false => exact ⟨_, _, router_act.mpr (.bypass h)⟩
      | true => exact ⟨_, _, router_act.mpr (.batch h)⟩
    | bypassing i => exact ⟨_, _, router_act.mpr .out⟩
    | batching i => exact ⟨_, _, router_act.mpr .toBatch⟩
    | closing => exact ⟨_, _, router_act.mpr .close⟩
    | closed => exact absurd rfl hclosed
  ready {s} _ hopened hholds := by
    cases s with
    | receiving => exact .inr ⟨fun i => ⟨_, rfl⟩, _, rfl⟩
    | closing => cases hopened
    | closed => cases hopened
    | _ => simp [routerAccount, Router.holds] at hholds

def Router.rank (price closing : Nat) : Router X → Nat
  | .deciding _ => price + 2
  | .bypassing _ => price + 1
  | .batching _ => price + 1
  | .closing => closing + 1
  | _ => 0

/-- A value that goes to a batch costs `price`, one that does not costs nothing. -/
def routerRanked (price closing : Nat) :
    (router errored shouldProcess : Proc X (X ⊕ X) T).Ranked (fun _ => price + 3) (closing + 2)
      (Sum.elim (fun _ => 0) fun _ => price) closing where
  rank := Router.rank price closing
  recv {s i s'} h := by
    obtain ⟨rfl, rfl⟩ := router_recv h
    simp [Router.rank]
  recvClose {s s'} h := by
    obtain ⟨rfl, rfl⟩ := router_recvClose h
    simp [Router.rank]
  act {s o s'} h := by cases router_act.mp h <;> simp [cost, Router.rank]

end Router

section Forward

variable {β : Type} {w : β → Multiset T}

def Forwarder.holds (w : β → Multiset T) : Forwarder β → Multiset T
  | .sending b => w b
  | _ => 0

def forwardAccount (w : β → Multiset T) : (forward : Proc β β T).Account w w where
  holds := Forwarder.holds w
  start := rfl
  recv {s b s'} h := by
    cases s <;> cases h
    simp [Forwarder.holds]
  recvClose {s s'} h := by
    cases s <;> cases h
    rfl
  act {s o s'} h := by
    obtain ⟨x, h⟩ := h
    cases s <;> cases h <;> simp [given, Forwarder.holds]

def Forwarder.opened : Forwarder β → Bool
  | .receiving => true
  | .sending _ => true
  | _ => false

def Forwarder.isClosed : Forwarder β → Bool
  | .closed => true
  | _ => false

def forwardOrderly (w : β → Multiset T) : Orderly (forwardAccount w) where
  Inv _ := True
  opened s := Forwarder.opened s = true
  closed s := Forwarder.isClosed s = true
  start := ⟨trivial, rfl, Bool.false_ne_true⟩
  recv {s b s'} _ h := by
    cases s <;> cases h
    exact ⟨rfl, trivial, rfl⟩
  recvClose {s s'} _ h := by
    cases s <;> cases h
    exact ⟨rfl, trivial, Bool.false_ne_true, Bool.false_ne_true⟩
  act {s o s'} _ h := by
    obtain ⟨x, h⟩ := h
    cases s <;> cases h <;> simp [Forwarder.opened, Forwarder.isClosed]
  close {s s'} _ h := by
    obtain ⟨x, h⟩ := h
    cases s <;> cases h
    exact ⟨Bool.false_ne_true, rfl⟩
  empty {s} _ h := by
    cases s <;> cases h
    exact ⟨Bool.false_ne_true, rfl⟩
  progress {s} _ hclosed hbusy := by
    cases s with
    | receiving => simp [forwardAccount, Forwarder.holds, Forwarder.opened] at hbusy
    | sending b => exact ⟨_, _, (), rfl⟩
    | closing => exact ⟨_, _, (), rfl⟩
    | closed => exact absurd rfl hclosed
  ready {s} _ hopened hholds := by
    cases s with
    | receiving => exact .inr ⟨fun b => ⟨_, rfl⟩, _, rfl⟩
    | sending b => exact .inl ⟨_, _, (), rfl⟩
    | closing => cases hopened
    | closed => cases hopened

def Forwarder.rank (price : β → Nat) (closing : Nat) : Forwarder β → Nat
  | .sending b => price b + 1
  | .closing => closing + 1
  | _ => 0

def forwardRanked (price : β → Nat) (closing : Nat) :
    (forward : Proc β β T).Ranked (fun b => price b + 2) (closing + 2) price closing where
  rank := Forwarder.rank price closing
  recv {s b s'} h := by
    cases s <;> cases h
    simp [Forwarder.rank]
  recvClose {s s'} h := by
    cases s <;> cases h
    simp [Forwarder.rank]
  act {s o s'} h := by
    obtain ⟨x, h⟩ := h
    cases s <;> cases h <;> simp [cost, Forwarder.rank]

end Forward

section Buffered

variable {β : Type} {size : Nat}

/-- A channel takes a value while it has room and is not closed. -/
theorem buffer_recv {c c' : Buffer β} {b : β} :
    (buffer size : Proc β β T).recv c b = some c'
      ↔ c.closed = false ∧ c.values.length < size ∧ c' = { c with values := c.values ++ [b] } := by
  rw [eq_comm (a := c')]
  simp [buffer, and_assoc]

/-- It is closed once. -/
theorem buffer_recvClose {c c' : Buffer β} :
    (buffer size : Proc β β T).recvClose c = some c'
      ↔ c.closed = false ∧ c' = { c with closed := true } := by
  rw [eq_comm (a := c')]
  simp [buffer]

/-- A value is taken from the front, and the end is seen when there is none left. -/
theorem buffer_act {c c' : Buffer β} {o : Output β T} :
    (buffer size : Proc β β T).Act c o c'
      ↔ (∃ b rest, c.values = b :: rest ∧ o = .send b ∧ c' = { c with values := rest })
        ∨ (c.values = [] ∧ c.closed = true ∧ c.seen = false ∧ o = .close
          ∧ c' = { c with seen := true }) := by
  constructor
  · rintro ⟨x, h⟩
    simp only [buffer] at h
    split at h
    · rename_i b rest hvalues
      cases h
      exact .inl ⟨b, rest, hvalues, rfl, rfl⟩
    · rename_i hvalues
      split at h
      · rename_i hclosed
        simp only [Bool.and_eq_true, Bool.not_eq_true'] at hclosed
        cases h
        exact .inr ⟨hvalues, hclosed.1, hclosed.2, rfl, rfl⟩
      · cases h
  · rintro (⟨b, rest, hvalues, rfl, rfl⟩ | ⟨hvalues, hclosed, hseen, rfl, rfl⟩)
    · exact ⟨(), by simp [buffer, hvalues]⟩
    · exact ⟨(), by simp [buffer, hvalues, hclosed, hseen]⟩

def bufferAccount (size : Nat) (w : β → Multiset T) : (buffer size : Proc β β T).Account w w where
  holds c := items w c.values
  start := rfl
  recv {c b c'} h := by
    obtain ⟨-, -, rfl⟩ := buffer_recv.mp h
    simp [add_comm]
  recvClose {c c'} h := by
    obtain ⟨-, rfl⟩ := buffer_recvClose.mp h
    rfl
  act {c o c'} h := by
    rcases buffer_act.mp h with ⟨b, rest, hvalues, rfl, rfl⟩ | ⟨hvalues, -, -, rfl, rfl⟩
    · simp [hvalues, given]
    · simp [given]

def bufferOrderly (hsize : 0 < size) (w : β → Multiset T) : Orderly (bufferAccount size w) where
  Inv c := c.seen = true → c.closed = true ∧ c.values = []
  opened c := c.closed = false
  closed c := c.seen = true
  start := by simp [buffer]
  recv {c b c'} hinv h := by
    obtain ⟨hclosed, -, rfl⟩ := buffer_recv.mp h
    refine ⟨hclosed, fun hseen => ?_, hclosed⟩
    rw [(hinv hseen).1] at hclosed
    cases hclosed
  recvClose {c c'} hinv h := by
    obtain ⟨hclosed, rfl⟩ := buffer_recvClose.mp h
    have hseen : c.seen ≠ true := fun hseen => by simp [(hinv hseen).1] at hclosed
    exact ⟨hclosed, fun h => absurd h hseen, by simp, hseen⟩
  act {c o c'} hinv h := by
    rcases buffer_act.mp h with ⟨b, rest, hvalues, rfl, rfl⟩ | ⟨hvalues, hclosed, hseen, rfl, rfl⟩
    · have hseen : c.seen ≠ true := fun hseen => by simp [(hinv hseen).2] at hvalues
      exact ⟨hseen, fun h => absurd h hseen, Iff.rfl, by simp [hseen]⟩
    · simp [hvalues, hclosed, hseen]
  close {c c'} hinv h := by
    rcases buffer_act.mp h with ⟨b, rest, -, ho, -⟩ | ⟨hvalues, hclosed, -⟩
    · cases ho
    · simp [bufferAccount, hvalues, hclosed]
  empty {c} hinv hseen := by
    obtain ⟨hclosed, hvalues⟩ := hinv hseen
    simp [bufferAccount, hvalues, hclosed]
  progress {c} hinv hseen hbusy := by
    cases hvalues : c.values with
    | cons b rest => exact ⟨_, _, buffer_act.mpr (.inl ⟨b, rest, hvalues, rfl, rfl⟩)⟩
    | nil =>
      have hclosed : c.closed = true := by simpa [bufferAccount, hvalues] using hbusy
      exact ⟨_, _, buffer_act.mpr (.inr ⟨hvalues, hclosed, by simpa using hseen, rfl, rfl⟩)⟩
  ready {c} hinv hopened hholds := by
    cases hvalues : c.values with
    | cons b rest => exact .inl ⟨_, _, buffer_act.mpr (.inl ⟨b, rest, hvalues, rfl, rfl⟩)⟩
    | nil =>
      exact .inr ⟨fun b => ⟨_, buffer_recv.mpr ⟨hopened, by simpa [hvalues] using hsize, rfl⟩⟩, _,
        buffer_recvClose.mpr ⟨hopened, rfl⟩⟩

def bufferRanked (size : Nat) (price : β → Nat) (closing : Nat) :
    (buffer size : Proc β β T).Ranked (fun b => price b + 2) (closing + 2) price closing where
  rank c := (c.values.map (price · + 1)).sum + if c.closed && !c.seen then closing + 1 else 0
  recv {c b c'} h := by
    obtain ⟨-, -, rfl⟩ := buffer_recv.mp h
    simp only [List.map_append, List.map_cons, List.map_nil, List.sum_append, List.sum_cons,
      List.sum_nil]
    omega
  recvClose {c c'} h := by
    obtain ⟨-, rfl⟩ := buffer_recvClose.mp h
    dsimp only
    split <;> omega
  act {c o c'} h := by
    rcases buffer_act.mp h with ⟨b, rest, hvalues, rfl, rfl⟩ | ⟨hvalues, hclosed, hseen, rfl, rfl⟩
    · simp only [hvalues, cost, List.map_cons, List.sum_cons]
      omega
    · simp [hvalues, hclosed, hseen, cost]

end Buffered

section Drain

variable {key : X → T}

def Drain.holds (key : X → T) : Drain X → Multiset T
  | .sending output rest => {key output} + batchItems key rest
  | _ => 0

theorem drain_next_holds (key : X → T) (batch : List X) :
    (Drain.next batch).holds key = batchItems key batch := by
  cases batch <;> simp [Drain.next, Drain.holds, batchItems]

def drainAccount (key : X → T) :
    (drain : Proc (List X) X T).Account (batchItems key) (fun x => {key x}) where
  holds := Drain.holds key
  start := rfl
  recv {s batch s'} h := by
    cases s <;> cases h
    exact (drain_next_holds key batch).trans (add_zero _).symm
  recvClose {s s'} h := by
    cases s <;> cases h
    rfl
  act {s o s'} h := by
    obtain ⟨x, h⟩ := h
    cases s <;> cases h
    case sending output rest =>
      rw [drain_next_holds]
      rfl
    case closing => rfl

def Drain.opened : Drain X → Bool
  | .receiving => true
  | .sending .. => true
  | _ => false

def Drain.isClosed : Drain X → Bool
  | .closed => true
  | _ => false

/-- After a batch the next one can be received; the input is not closed by that. -/
theorem drain_next_open (batch : List X) :
    (Drain.next batch).opened = true ∧ (Drain.next batch).isClosed = false := by
  cases batch <;> exact ⟨rfl, rfl⟩

def drainOrderly (key : X → T) : Orderly (drainAccount key) where
  Inv _ := True
  opened s := Drain.opened s = true
  closed s := Drain.isClosed s = true
  start := ⟨trivial, rfl, Bool.false_ne_true⟩
  recv {s batch s'} _ h := by
    cases s <;> cases h
    exact ⟨rfl, trivial, (drain_next_open batch).1⟩
  recvClose {s s'} _ h := by
    cases s <;> cases h
    exact ⟨rfl, trivial, Bool.false_ne_true, Bool.false_ne_true⟩
  act {s o s'} _ h := by
    obtain ⟨x, h⟩ := h
    cases s <;> cases h
    case sending output rest =>
      obtain ⟨hopened, hclosed⟩ := drain_next_open rest
      rw [hopened, hclosed]
      simp [Drain.opened, Drain.isClosed]
    case closing => simp [Drain.opened, Drain.isClosed]
  close {s s'} _ h := by
    obtain ⟨x, h⟩ := h
    cases s <;> cases h
    exact ⟨Bool.false_ne_true, rfl⟩
  empty {s} _ h := by
    cases s <;> cases h
    exact ⟨Bool.false_ne_true, rfl⟩
  progress {s} _ hclosed hbusy := by
    cases s with
    | receiving => simp [drainAccount, Drain.holds, Drain.opened] at hbusy
    | sending output rest => exact ⟨_, _, (), rfl⟩
    | closing => exact ⟨_, _, (), rfl⟩
    | closed => exact absurd rfl hclosed
  ready {s} _ hopened hholds := by
    cases s with
    | receiving => exact .inr ⟨fun batch => ⟨_, rfl⟩, _, rfl⟩
    | sending output rest => exact .inl ⟨_, _, (), rfl⟩
    | closing => cases hopened
    | closed => cases hopened

def Drain.rank : Drain X → Nat
  | .sending _ rest => rest.length + 1
  | .closing => 1
  | _ => 0

theorem drain_next_rank (batch : List X) : (Drain.next batch).rank = batch.length := by
  cases batch <;> rfl

def drainRanked :
    (drain : Proc (List X) X T).Ranked (fun batch => batch.length + 1) 2 (fun _ => 0) 0 where
  rank := Drain.rank
  recv {s batch s'} h := by
    cases s <;> cases h
    rw [drain_next_rank]
    simp [Drain.rank]
  recvClose {s s'} h := by
    cases s <;> cases h
    simp [Drain.rank]
  act {s o s'} h := by
    obtain ⟨x, h⟩ := h
    cases s <;> cases h
    case sending output rest =>
      rw [drain_next_rank]
      simp [cost, Drain.rank]
    case closing => simp [cost, Drain.rank]

end Drain

end IbcRelayer
