import IbcRelayer.Lib.Machine
import IbcRelayer.Spec.Deduper

/-!
# IbcRelayer — at most one copy of a packet is in flight

* `Dedup.Step` — the steps of the goroutines around a pipeline, one case for each;
* `Dedup.Inv` — the deduplication set is what was accepted and not yet observed, and every transfer
  that was accepted is on its way: with the `Push` that sends it, in the pipeline, or with the
  goroutine that watches the output;
* `IBCV2PipelineManager.Inv` — the same for all pipelines, and what a pipeline accepts is of its
  route.

About the pipeline nothing is known but that it is `AtMostOnce`.
-/

namespace IbcRelayer

open Proc

namespace Dedup

variable {P : PipelineProc} {s s' : Dedup P}

/-! ## The steps -/

/-- What each goroutine does, with the condition under which it can: `Push` takes the lock, checks
the key, sends and returns; the watching goroutine takes an output, takes the lock and deletes the
key. -/
inductive Step (s : Dedup P) : Action P → Dedup P → Prop where
  | call {i t todo} (h : s.pushers[i]? = some ⟨t :: todo, .idle⟩) :
      Step s (.call i) { s.move i ⟨todo, .locking t⟩ with watcher := s.watcher.started }
  | lock {i todo t} (h : s.pushers[i]? = some ⟨todo, .locking t⟩)
      (hfree : s.inPipelineLock = none) :
      Step s (.lock i) { s.move i ⟨todo, .checking t⟩ with inPipelineLock := some (.pusher i) }
  | refuse {i todo t} (h : s.pushers[i]? = some ⟨todo, .checking t⟩)
      (hpush : s.deduper.push t = none) : Step s (.check i) (s.move i ⟨todo, .returning false⟩)
  | accept {i todo t deduper} (h : s.pushers[i]? = some ⟨todo, .checking t⟩)
      (hpush : s.deduper.push t = some deduper) :
      Step s (.check i) { s.move i ⟨todo, .sending t⟩ with
        deduper, accepted := s.accepted ++ [newTransferKey t] }
  | send {i todo t pipeline} (h : s.pushers[i]? = some ⟨todo, .sending t⟩)
      (hrecv : P.recv s.pipeline t = some pipeline) :
      Step s (.send i) { s.move i ⟨todo, .returning true⟩ with
        pipeline, entered := s.entered ++ [newTransferKey t] }
  | unlock {i todo pushed} (h : s.pushers[i]? = some ⟨todo, .returning pushed⟩) :
      Step s (.unlock i) { s.move i ⟨todo, .idle⟩ with inPipelineLock := none }
  | act {x lost pipeline} (h : P.act s.pipeline x = some (.inside lost, pipeline)) :
      Step s (.act x) { s with pipeline, lost := s.lost ++ lost }
  | poll {x output pipeline} (hwatcher : s.watcher = .polling)
      (h : P.act s.pipeline x = some (.send output, pipeline)) :
      Step s (.poll x) { s with
        pipeline, watcher := .locking output, polled := s.polled ++ [newTransferKey output] }
  | closed {x pipeline} (hwatcher : s.watcher = .polling)
      (h : P.act s.pipeline x = some (.close, pipeline)) :
      Step s (.poll x) { s with pipeline, watcher := .returned }
  | watchLock {output} (hwatcher : s.watcher = .locking output) (hfree : s.inPipelineLock = none) :
      Step s .watchLock { s with watcher := .deleting output, inPipelineLock := some .watcher }
  | delete {output} (hwatcher : s.watcher = .deleting output) :
      Step s .delete { s with
        watcher := .polling, inPipelineLock := none, deduper := s.deduper.delete output
        observed := s.observed ++ [newTransferKey output] }
  | cancel {pipeline} (hcancelled : s.cancelled = false)
      (h : P.recvClose s.pipeline = some pipeline) :
      Step s .cancel { s with pipeline, cancelled := true }

/-- The steps of the model are these. -/
theorem step_iff {a : Action P} : s.step a = some s' ↔ Step s a s' := by
  constructor
  · intro h
    cases a <;> simp only [step] at h
    case call i =>
      split at h
      · cases h
        exact .call ‹_›
      · cases h
    case lock i =>
      split at h
      · cases h
        exact .lock ‹_› ‹_›
      · cases h
    -- the deduper answers, and both answers are steps
    case check i =>
      split at h
      · split at h
        · cases h
          exact .refuse ‹_› ‹_›
        · cases h
          exact .accept ‹_› ‹_›
      · cases h
    case send i =>
      split at h
      · obtain ⟨pipeline, hrecv, rfl⟩ := Option.map_eq_some_iff.mp h
        exact .send ‹_› hrecv
      · cases h
    case unlock i =>
      split at h
      · cases h
        exact .unlock ‹_›
      · cases h
    case act x =>
      split at h
      · cases h
        exact .act ‹_›
      · cases h
    -- the watcher reads a transfer, or that the output is closed
    case poll x =>
      split at h
      · cases h
        exact .poll ‹_› ‹_›
      · cases h
        exact .closed ‹_› ‹_›
      · cases h
    case watchLock =>
      split at h
      · cases h
        exact .watchLock ‹_› ‹_›
      · cases h
    case delete =>
      split at h
      · cases h
        exact .delete ‹_›
      · cases h
    case cancel =>
      split at h
      · cases h
      · obtain ⟨pipeline, hclose, rfl⟩ := Option.map_eq_some_iff.mp h
        exact .cancel (by simpa using ‹¬ s.cancelled = true›) hclose
  · intro h
    cases h <;> simp_all [step]

/-- The set changes as the one of `System` does, where a `Push` is one step. -/
theorem step_deduper {a : Action P} (h : s.step a = some s') :
    s'.deduper = s.deduper ∨ (∃ t, s.deduper.push t = some s'.deduper)
      ∨ ∃ t, s'.deduper = s.deduper.delete t := by
  cases step_iff.mp h with
  | accept h hpush => exact .inr (.inl ⟨_, hpush⟩)
  | delete hwatcher => exact .inr (.inr ⟨_, rfl⟩)
  | _ => exact .inl rfl

end Dedup

/-! ## The set -/

namespace PipelineDeduper

variable {d d' : PipelineDeduper} {t : IBCV2Transfer}

/-- A key is accepted if it is new. -/
theorem push_eq_some (h : d.push t = some d') :
    newTransferKey t ∉ d.inPipeline ∧ d'.inPipeline = newTransferKey t :: d.inPipeline := by
  rw [push] at h
  split at h
  · cases h
  · cases h
    exact ⟨‹_›, rfl⟩

theorem push_eq_none : d.push t = none ↔ newTransferKey t ∈ d.inPipeline := by
  simp [push]

/-- A key of the set is deleted once. -/
theorem delete_perm (hnodup : d.inPipeline.Nodup) (hmem : newTransferKey t ∈ d.inPipeline) :
    (d.inPipeline : Multiset TransferKey) = keyOf t + (d.delete t).inPipeline := by
  have hfilter : (d.delete t).inPipeline = d.inPipeline.erase (newTransferKey t) := by
    rw [hnodup.erase_eq_filter]
    exact List.filter_congr fun key _ => by rw [bne, decide_not, beq_eq_decide]
  rw [hfilter, keyOf, Multiset.singleton_add, Multiset.cons_coe]
  exact Multiset.coe_eq_coe.mpr (List.perm_cons_erase hmem)

end PipelineDeduper

/-! ## The invariant -/

/-- The key that a goroutine sends into the pipeline. -/
def Pusher.sends (p : Pusher) : Multiset TransferKey :=
  match p.place with
  | .sending t => keyOf t
  | _ => 0

/-- The goroutine has the lock. -/
def Pusher.locked (p : Pusher) : Bool :=
  match p.place with
  | .checking _ => true
  | .sending _ => true
  | .returning _ => true
  | _ => false

def WatchPlace.holds : WatchPlace → Multiset TransferKey
  | .locking output => keyOf output
  | .deleting output => keyOf output
  | _ => 0

def WatchPlace.locked : WatchPlace → Bool
  | .deleting _ => true
  | _ => false

/-- The watching goroutine is started by the first `Push`, with nothing. -/
theorem WatchPlace.started_holds (w : WatchPlace) : w.started.holds = w.holds := by
  cases w <;> rfl

theorem WatchPlace.started_locked (w : WatchPlace) : w.started.locked = w.locked := by
  cases w <;> rfl

theorem keys_snoc (keys : List TransferKey) (t : IBCV2Transfer) :
    (↑(keys ++ [newTransferKey t]) : Multiset TransferKey) = ↑keys + keyOf t := by
  rw [← Multiset.coe_add, Multiset.coe_singleton, keyOf]

namespace Dedup

variable {P : PipelineProc} {s s' : Dedup P}

/-- Who has the lock. -/
structure Locks (s : Dedup P) : Prop where
  pushers : ∀ (i : Nat) p, s.pushers[i]? = some p →
    (p.locked = true ↔ s.inPipelineLock = some (.pusher i))
  watcher : s.watcher.locked = true ↔ s.inPipelineLock = some .watcher
  holder : ∀ i, s.inPipelineLock = some (.pusher i) → ∃ p, s.pushers[i]? = some p

/-- The invariant. Its last field says what the pipeline has got and sent. -/
structure Inv (s : Dedup P) : Prop where
  nodup : s.deduper.inPipeline.Nodup
  accepted : (s.accepted : Multiset TransferKey) = s.observed + s.deduper.inPipeline
  entered : (s.entered : Multiset TransferKey) + items Pusher.sends s.pushers = s.accepted
  polled : (s.polled : Multiset TransferKey) = s.observed + s.watcher.holds
  reaches : P.Reaches keyOf keyOf s.entered s.polled s.pipeline

/-- The keys that went into the pipeline and have not come out. -/
def inFlight (s : Dedup P) : Multiset TransferKey := (s.entered : Multiset TransferKey) - s.polled

/-! ### The lock -/

/-- One goroutine has moved, or it is another one that is looked at. -/
theorem getElem?_set_cases {α : Type} {l : List α} {i j : Nat} {a b : α}
    (h : (l.set j a)[i]? = some b) : (i = j ∧ b = a) ∨ (i ≠ j ∧ l[i]? = some b) := by
  rw [List.getElem?_set] at h
  split at h
  · split at h
    · cases h
      exact .inl ⟨‹j = i›.symm, rfl⟩
    · cases h
  · exact .inr ⟨Ne.symm ‹_›, h⟩

/-- One goroutine goes on; the lock is as before for the others. -/
theorem Locks.set (h : Locks s) {i : Nat} {q : Pusher} {lock : Option LockHolder}
    (hq : q.locked = true ↔ lock = some (.pusher i))
    (hlock : ∀ j, j ≠ i → (lock = some (.pusher j) ↔ s.inPipelineLock = some (.pusher j))) :
    ∀ (j : Nat) p, (s.pushers.set i q)[j]? = some p →
      (p.locked = true ↔ lock = some (.pusher j)) := by
  intro j p hp
  rcases getElem?_set_cases hp with ⟨rfl, rfl⟩ | ⟨hij, hp⟩
  · exact hq
  · exact (h.pushers j p hp).trans (hlock j hij).symm

theorem Locks.move (h : Locks s) {i : Nat} {old q : Pusher} (hold : s.pushers[i]? = some old)
    (hq : q.locked = old.locked) :
    ∀ (j : Nat) p, (s.pushers.set i q)[j]? = some p →
      (p.locked = true ↔ s.inPipelineLock = some (.pusher j)) :=
  h.set (by rw [hq]; exact h.pushers i old hold) fun _ _ => Iff.rfl

/-- The goroutines are the same as before. -/
theorem Locks.holder_set (h : Locks s) (i : Nat) (q : Pusher) :
    ∀ j, s.inPipelineLock = some (.pusher j) → ∃ p, (s.pushers.set i q)[j]? = some p := by
  intro j hlock
  obtain ⟨p, hp⟩ := h.holder j hlock
  have hj : j < (s.pushers.set i q).length := by
    rw [List.length_set]
    exact (List.getElem?_eq_some_iff.mp hp).1
  exact ⟨_, List.getElem?_eq_getElem hj⟩

/-- The lock is held by one goroutine at a time, and by those that are between `Lock` and `Unlock`.
-/
theorem Locks.step (h : Locks s) {a : Action P} (hstep : Step s a s') : Locks s' := by
  cases hstep with
  | call hp =>
    refine ⟨h.move hp rfl, Iff.trans ?_ h.watcher, h.holder_set _ _⟩
    exact iff_of_eq (congrArg (· = true) s.watcher.started_locked)
  -- the lock was free, so nobody had it
  | @lock i todo t hp hfree =>
    refine ⟨h.set (by simp [Pusher.locked]) fun j hj => ?_, ?_, fun j hj => ?_⟩
    · simp [hfree, Ne.symm hj]
    · refine iff_of_false (fun hlocked => ?_) nofun
      rw [h.watcher.mp hlocked] at hfree
      cases hfree
    · cases hj
      exact ⟨_, List.getElem?_set_self (List.getElem?_eq_some_iff.mp hp).1⟩
  | refuse hp hpush => exact ⟨h.move hp rfl, h.watcher, h.holder_set _ _⟩
  | accept hp hpush => exact ⟨h.move hp rfl, h.watcher, h.holder_set _ _⟩
  | send hp hrecv => exact ⟨h.move hp rfl, h.watcher, h.holder_set _ _⟩
  | @unlock i todo pushed hp =>
    have hlock := (h.pushers i _ hp).mp rfl
    refine ⟨h.set (by simp [Pusher.locked]) fun j hj => ?_, ?_, nofun⟩
    · simp [hlock, Ne.symm hj]
    · refine iff_of_false (fun hlocked => ?_) nofun
      rw [h.watcher.mp hlocked] at hlock
      cases hlock
  | act hact => exact ⟨h.pushers, h.watcher, h.holder⟩
  | poll hwatcher hact =>
    have hlocked := h.watcher
    rw [hwatcher] at hlocked
    exact ⟨h.pushers, hlocked, h.holder⟩
  | closed hwatcher hact =>
    have hlocked := h.watcher
    rw [hwatcher] at hlocked
    exact ⟨h.pushers, hlocked, h.holder⟩
  | watchLock hwatcher hfree =>
    refine ⟨fun i p hp => ?_, iff_of_true rfl rfl, nofun⟩
    refine iff_of_false (fun hlocked => ?_) nofun
    rw [(h.pushers i p hp).mp hlocked] at hfree
    cases hfree
  | delete hwatcher =>
    -- the watching goroutine has the lock, so no `Push` has it
    have hlock := h.watcher.mp (by rw [hwatcher]; rfl)
    refine ⟨fun i p hp => ?_, iff_of_false nofun nofun, nofun⟩
    refine iff_of_false (fun hlocked => ?_) nofun
    rw [(h.pushers i p hp).mp hlocked] at hlock
    cases hlock
  | cancel hcancelled hclose => exact ⟨h.pushers, h.watcher, h.holder⟩

/-! ### The keys -/

theorem Inv.entered_set (h : Inv s) {i : Nat} {old q : Pusher} (hold : s.pushers[i]? = some old)
    (hsends : q.sends = old.sends) :
    (s.entered : Multiset TransferKey) + items Pusher.sends (s.pushers.set i q) = s.accepted := by
  have hset := items_set Pusher.sends hold q
  rw [hsends] at hset
  rw [add_right_cancel hset, h.entered]

/-- What is accepted is with a `Push`, in the pipeline, or with the watching goroutine. -/
theorem Inv.held (h : Inv s) (honce : P.AtMostOnce keyOf keyOf) :
    s.inFlight + s.watcher.holds + items Pusher.sends s.pushers = s.deduper.inPipeline := by
  -- the pipeline has not sent more than it has got
  have hflight : s.polled + s.inFlight = s.entered := add_tsub_cancel_of_le (honce h.reaches)
  refine add_left_cancel (a := (s.observed : Multiset TransferKey)) ?_
  rw [← h.accepted, ← h.entered, ← hflight, h.polled]
  abel

theorem Inv.step (h : Inv s) (honce : P.AtMostOnce keyOf keyOf) {a : Action P}
    (hstep : Step s a s') : Inv s' := by
  have hpolled := h.polled
  cases hstep with
  | call hp =>
    refine ⟨h.nodup, h.accepted, h.entered_set hp (by rfl), ?_, h.reaches⟩
    exact hpolled.trans (congrArg _ s.watcher.started_holds.symm)
  | lock hp hfree =>
    exact ⟨h.nodup, h.accepted, h.entered_set hp (by rfl), hpolled, h.reaches⟩
  | refuse hp hpush =>
    exact ⟨h.nodup, h.accepted, h.entered_set hp (by rfl), hpolled, h.reaches⟩
  | @accept i todo t deduper hp hpush =>
    obtain ⟨hnot, hcons⟩ := PipelineDeduper.push_eq_some hpush
    refine ⟨hcons ▸ List.nodup_cons.mpr ⟨hnot, h.nodup⟩, ?_, ?_, hpolled, h.reaches⟩
    · rw [keys_snoc, h.accepted, hcons, ← Multiset.cons_coe, ← Multiset.singleton_add, keyOf]
      exact (add_assoc _ _ _).trans (congrArg _ (add_comm _ _))
    · have hset := items_set Pusher.sends hp ⟨todo, .sending t⟩
      rw [keys_snoc, ← h.entered, add_assoc]
      exact congrArg _ ((add_zero _).symm.trans hset)
  | @send i todo t pipeline hp hrecv =>
    refine ⟨h.nodup, h.accepted, ?_, hpolled, ?_⟩
    · have hset := items_set Pusher.sends hp ⟨todo, .returning true⟩
      rw [keys_snoc, add_right_comm, add_assoc]
      exact (congrArg _ (hset.trans (add_zero _))).trans h.entered
    · rw [keys_snoc]
      exact h.reaches.recv hrecv
  | unlock hp =>
    exact ⟨h.nodup, h.accepted, h.entered_set hp (by rfl), hpolled, h.reaches⟩
  | act hact =>
    exact ⟨h.nodup, h.accepted, h.entered, hpolled, by simpa [sent] using h.reaches.act ⟨_, hact⟩⟩
  | @poll x output pipeline hwatcher hact =>
    rw [hwatcher] at hpolled
    refine ⟨h.nodup, h.accepted, h.entered, ?_, ?_⟩
    · rw [keys_snoc, hpolled]
      exact congrArg (· + keyOf output) (add_zero _)
    · rw [keys_snoc]
      exact h.reaches.act ⟨_, hact⟩
  | closed hwatcher hact =>
    rw [hwatcher] at hpolled
    exact ⟨h.nodup, h.accepted, h.entered, hpolled, by simpa [sent] using h.reaches.act ⟨_, hact⟩⟩
  | watchLock hwatcher hfree =>
    rw [hwatcher] at hpolled
    exact ⟨h.nodup, h.accepted, h.entered, hpolled, h.reaches⟩
  | @delete output hwatcher =>
    -- what is observed was accepted, so it is in the set
    have hmem : newTransferKey output ∈ s.deduper.inPipeline := by
      rw [← Multiset.mem_coe, ← h.held honce, hwatcher]
      simp [WatchPlace.holds, keyOf]
    rw [hwatcher] at hpolled
    refine ⟨h.nodup.filter _, ?_, h.entered, ?_, h.reaches⟩
    · rw [keys_snoc, h.accepted, PipelineDeduper.delete_perm h.nodup hmem, add_assoc]
    · rw [keys_snoc, hpolled]
      exact (add_zero _).symm
  | cancel hcancelled hclose =>
    exact ⟨h.nodup, h.accepted, h.entered, hpolled, h.reaches.recvClose hclose⟩

theorem sends_start (todos : List (List IBCV2Transfer)) :
    items Pusher.sends (todos.map ({ todo := · })) = 0 := by
  induction todos with
  | nil => rfl
  | cons todo todos ih =>
    rw [List.map_cons, items_cons, ih]
    rfl

/-- At the start the lock is free. -/
theorem locks_start (pl : Pipeline) (todos : List (List IBCV2Transfer)) :
    Locks (start P pl todos) where
  pushers i p hp := by
    simp only [start, List.getElem?_map, Option.map_eq_some_iff] at hp
    obtain ⟨todo, -, rfl⟩ := hp
    exact iff_of_false nofun nofun
  watcher := iff_of_false nofun nofun
  holder := nofun

theorem inv_start (pl : Pipeline) (todos : List (List IBCV2Transfer)) : Inv (start P pl todos) where
  nodup := List.nodup_nil
  accepted := rfl
  entered := (zero_add _).trans (sends_start todos)
  polled := rfl
  reaches := .start

theorem run_inv {C : Dedup P → Action P → Prop} {pl : Pipeline} {todos : List (List IBCV2Transfer)}
    (honce : P.AtMostOnce keyOf keyOf) (hrun : Machine.Run Dedup.step C (start P pl todos) s) :
    Inv s :=
  hrun.inv (inv_start pl todos) fun h _ hstep => h.step honce (step_iff.mp hstep)

/-! ## What a `Push` returns -/

/-- What is known of the goroutines around a pipeline in a state. -/
structure SingleFlight (s : Dedup P) : Prop where
  /-- The set is what was accepted and not yet observed. -/
  nodup : s.deduper.inPipeline.Nodup
  inPipeline : (s.accepted : Multiset TransferKey) = s.observed + s.deduper.inPipeline
  /-- The pipeline holds at most one transfer per key, and only keys of the set. -/
  once : s.inFlight.Nodup
  inFlight : ∀ key ∈ s.inFlight, key ∈ s.deduper.inPipeline
  /-- A `Push` that has the lock returns false if the key is in the set, and sends otherwise. -/
  checks : ∀ {i : Nat} {todo t}, s.pushers[i]? = some ⟨todo, .checking t⟩ →
    ∃ s', s.step (.check i) = some s' ∧ s'.pushers[i]? = some
      ⟨todo, if newTransferKey t ∈ s.deduper.inPipeline then .returning false else .sending t⟩
  /-- It sends in no other case. -/
  sends : ∀ {a s'} {i : Nat} {todo t}, s.step a = some s' →
    s'.pushers[i]? = some ⟨todo, .sending t⟩ → s.pushers[i]? ≠ some ⟨todo, .sending t⟩ →
    s.pushers[i]? = some ⟨todo, .checking t⟩ ∧ newTransferKey t ∉ s.deduper.inPipeline
  /-- It returns true when it has sent, and false in no other case. -/
  returns : ∀ {a s'} {i : Nat} {todo pushed}, s.step a = some s' →
    s'.pushers[i]? = some ⟨todo, .returning pushed⟩ →
    s.pushers[i]? ≠ some ⟨todo, .returning pushed⟩ →
    (pushed = true ∧ ∃ t, s.pushers[i]? = some ⟨todo, .sending t⟩) ∨ (pushed = false ∧
      ∃ t, s.pushers[i]? = some ⟨todo, .checking t⟩ ∧ newTransferKey t ∈ s.deduper.inPipeline)

/-- A goroutine that has the lock can always check, and goes on as the set says. -/
theorem checks_of_checking {i : Nat} {todo : List IBCV2Transfer} {t : IBCV2Transfer}
    (h : s.pushers[i]? = some ⟨todo, .checking t⟩) :
    ∃ s', s.step (.check i) = some s' ∧ s'.pushers[i]? = some
      ⟨todo, if newTransferKey t ∈ s.deduper.inPipeline then .returning false else .sending t⟩ := by
  have hi := (List.getElem?_eq_some_iff.mp h).1
  cases hpush : s.deduper.push t with
  | none =>
    refine ⟨_, step_iff.mpr (.refuse h hpush), ?_⟩
    rw [if_pos (PipelineDeduper.push_eq_none.mp hpush)]
    exact List.getElem?_set_self hi
  | some deduper =>
    refine ⟨_, step_iff.mpr (.accept h hpush), ?_⟩
    rw [if_neg (PipelineDeduper.push_eq_some hpush).1]
    exact List.getElem?_set_self hi

/-- A goroutine that begins to send has checked the key. -/
theorem Step.sends {a : Action P} (hstep : Step s a s') {i : Nat} {todo : List IBCV2Transfer}
    {t : IBCV2Transfer} (h : s'.pushers[i]? = some ⟨todo, .sending t⟩)
    (hnew : s.pushers[i]? ≠ some ⟨todo, .sending t⟩) :
    s.pushers[i]? = some ⟨todo, .checking t⟩ ∧ newTransferKey t ∉ s.deduper.inPipeline := by
  -- the goroutine was elsewhere before, so it is the one that has moved
  have hset : ∀ {j : Nat} {q : Pusher}, (s.pushers.set j q)[i]? = some ⟨todo, .sending t⟩ →
      i = j ∧ (⟨todo, .sending t⟩ : Pusher) = q :=
    fun h => (getElem?_set_cases h).resolve_right fun h => hnew h.2
  cases hstep with
  | call hp => cases (hset h).2
  | lock hp hfree => cases (hset h).2
  | refuse hp hpush => cases (hset h).2
  | accept hp hpush =>
    obtain ⟨rfl, hq⟩ := hset h
    cases hq
    exact ⟨hp, (PipelineDeduper.push_eq_some hpush).1⟩
  | send hp hrecv => cases (hset h).2
  | unlock hp => cases (hset h).2
  | _ => exact absurd h hnew

/-- A goroutine that is about to return has sent, or found the key. -/
theorem Step.returns {a : Action P} (hstep : Step s a s') {i : Nat} {todo : List IBCV2Transfer}
    {pushed : Bool} (h : s'.pushers[i]? = some ⟨todo, .returning pushed⟩)
    (hnew : s.pushers[i]? ≠ some ⟨todo, .returning pushed⟩) :
    (pushed = true ∧ ∃ t, s.pushers[i]? = some ⟨todo, .sending t⟩) ∨ (pushed = false ∧
      ∃ t, s.pushers[i]? = some ⟨todo, .checking t⟩ ∧ newTransferKey t ∈ s.deduper.inPipeline) := by
  have hset : ∀ {j : Nat} {q : Pusher}, (s.pushers.set j q)[i]? = some ⟨todo, .returning pushed⟩ →
      i = j ∧ (⟨todo, .returning pushed⟩ : Pusher) = q :=
    fun h => (getElem?_set_cases h).resolve_right fun h => hnew h.2
  cases hstep with
  | call hp => cases (hset h).2
  | lock hp hfree => cases (hset h).2
  | refuse hp hpush =>
    obtain ⟨rfl, hq⟩ := hset h
    cases hq
    exact .inr ⟨rfl, _, hp, PipelineDeduper.push_eq_none.mp hpush⟩
  | accept hp hpush => cases (hset h).2
  | send hp hrecv =>
    obtain ⟨rfl, hq⟩ := hset h
    cases hq
    exact .inl ⟨rfl, _, hp⟩
  | unlock hp => cases (hset h).2
  | _ => exact absurd h hnew

/-- The invariant says what is known of the goroutines. The pipeline holds a part of what was
accepted and not observed, and that has no key twice. -/
theorem Inv.singleFlight (h : Inv s) (honce : P.AtMostOnce keyOf keyOf) : SingleFlight s := by
  have hle : s.inFlight ≤ s.deduper.inPipeline := by
    rw [← h.held honce, add_assoc]
    exact Multiset.le_add_right _ _
  refine ⟨h.nodup, h.accepted, ?_, fun key hkey => Multiset.mem_of_le hle hkey,
    checks_of_checking, fun hstep => (step_iff.mp hstep).sends,
    fun hstep => (step_iff.mp hstep).returns⟩
  exact Multiset.nodup_of_le hle (Multiset.coe_nodup.mpr h.nodup)

/-! ## Where the transfers come from -/

end Dedup

/-- The transfers that a goroutine has not checked yet. -/
def Pusher.unchecked (p : Pusher) : List IBCV2Transfer :=
  match p.place with
  | .locking t => t :: p.todo
  | .checking t => t :: p.todo
  | _ => p.todo

namespace Dedup

variable {P : PipelineProc} {s s' : Dedup P} {S S' : IBCV2Transfer → Prop}

/-- Only transfers in `S` are pushed. -/
structure Of (S : IBCV2Transfer → Prop) (s : Dedup P) : Prop where
  pushers : ∀ p ∈ s.pushers, ∀ t ∈ p.unchecked, S t
  accepted : ∀ key ∈ s.accepted, ∃ t, S t ∧ newTransferKey t = key

theorem Of.mono (h : s.Of S) (hS : ∀ t, S t → S' t) : s.Of S' where
  pushers p hp t ht := hS t (h.pushers p hp t ht)
  accepted key hkey := by
    obtain ⟨t, ht, hkey⟩ := h.accepted key hkey
    exact ⟨t, hS t ht, hkey⟩

theorem Of.set (h : s.Of S) {i : Nat} {old q : Pusher} (hold : s.pushers[i]? = some old)
    (hq : ∀ t ∈ q.unchecked, t ∈ old.unchecked) :
    ∀ p ∈ s.pushers.set i q, ∀ t ∈ p.unchecked, S t := by
  intro p hp t ht
  rcases List.mem_or_eq_of_mem_set hp with hp | rfl
  · exact h.pushers p hp t ht
  · exact h.pushers old (List.mem_of_getElem? hold) t (hq t ht)

/-- A step accepts what was on a list. -/
theorem Of.step (h : s.Of S) {a : Action P} (hstep : Step s a s') : s'.Of S := by
  cases hstep with
  | call hp => exact ⟨h.set hp fun _ => id, h.accepted⟩
  | lock hp hfree => exact ⟨h.set hp fun _ => id, h.accepted⟩
  | refuse hp hpush => exact ⟨h.set hp fun _ => List.mem_cons_of_mem _, h.accepted⟩
  | @accept i todo t deduper hp hpush =>
    refine ⟨h.set hp fun _ => List.mem_cons_of_mem _, fun key hkey => ?_⟩
    rcases List.mem_append.mp hkey with hkey | hkey
    · exact h.accepted key hkey
    · have ht := h.pushers _ (List.mem_of_getElem? hp) t List.mem_cons_self
      exact ⟨t, ht, (List.mem_singleton.mp hkey).symm⟩
  | send hp hrecv => exact ⟨h.set hp fun _ => id, h.accepted⟩
  | unlock hp => exact ⟨h.set hp fun _ => id, h.accepted⟩
  | _ => exact ⟨h.pushers, h.accepted⟩

/-- A new goroutine has not begun to send. -/
theorem Inv.spawn (h : Inv s) (t : IBCV2Transfer) : Inv (s.spawn t) where
  nodup := h.nodup
  accepted := h.accepted
  entered := by
    refine Eq.trans (congrArg _ ?_) h.entered
    exact (items_append _ _ _).trans (add_zero _)
  polled := h.polled
  reaches := h.reaches

/-- A new goroutine has one transfer. -/
theorem Of.spawn (h : s.Of S) {t : IBCV2Transfer} (ht : S t) : (s.spawn t).Of S where
  pushers p hp u hu := by
    rcases List.mem_append.mp hp with hp | hp
    · exact h.pushers p hp u hu
    · cases List.mem_singleton.mp hp
      cases List.mem_singleton.mp hu
      exact ht
  accepted := h.accepted

end Dedup

/-! ## All pipelines -/

namespace IBCV2PipelineManager

variable {P : Route → PipelineProc} {m m' : IBCV2PipelineManager P} {config : ConfigReader}
  {priceClient : Bool}

/-- A pipeline only gets transfers of its route. -/
structure Inv (m : IBCV2PipelineManager P) : Prop where
  dedup : ∀ {route d}, m.pipelines route = some d → d.Inv
  route : ∀ {route d}, m.pipelines route = some d →
    d.Of fun t => t ∈ m.submitted ∧ newPipelineKey t = route

/-- One pipeline has changed. -/
theorem Inv.set (h : Inv m) {route : Route} {d : Dedup (P route)} (hd : d.Inv)
    (hroute : d.Of fun t => t ∈ m.submitted ∧ newPipelineKey t = route) : Inv (m.set route d) := by
  have hcases : ∀ {route' d'}, (m.set route d).pipelines route' = some d' →
      (∃ heq : route' = route, d' = heq ▸ d) ∨ m.pipelines route' = some d' := by
    intro route' d' h'
    by_cases heq : route' = route
    · subst heq
      exact .inl ⟨rfl, Option.some.inj (h'.symm.trans (Function.update_self ..))⟩
    · exact .inr ((Function.update_of_ne heq ..).symm.trans h')
  constructor
  · intro route' d' h'
    rcases hcases h' with ⟨rfl, rfl⟩ | h'
    · exact hd
    · exact h.dedup h'
  · intro route' d' h'
    rcases hcases h' with ⟨rfl, rfl⟩ | h'
    · exact hroute
    · exact h.route h'

theorem Inv.submitted (h : Inv m) (t : IBCV2Transfer) :
    Inv { m with submitted := m.submitted ++ [t] } where
  dedup := h.dedup
  route hd := (h.route hd).mono fun _ hu => ⟨List.mem_append_left _ hu.1, hu.2⟩

theorem Inv.step (h : Inv m) (honce : ∀ route, (P route).AtMostOnce keyOf keyOf) {a : Action P}
    (hstep : m.step config priceClient a = some m') : Inv m' := by
  cases a with
  | submit t =>
    have hsubmitted : t ∈ m.submitted ++ [t] ∧ newPipelineKey t = newPipelineKey t :=
      ⟨List.mem_append_right _ List.mem_cons_self, rfl⟩
    simp only [IBCV2PipelineManager.step] at hstep
    split at hstep
    · rename_i existing hexisting
      cases hstep
      refine (h.submitted t).set ((h.dedup hexisting).spawn t) ?_
      exact ((h.submitted t).route hexisting).spawn hsubmitted
    · split at hstep
      · cases hstep
        exact h.submitted t
      · rename_i created _
        cases hstep
        refine (h.submitted t).set (Dedup.inv_start created.pipeline [[t]]) ⟨?_, nofun⟩
        intro p hp u hu
        cases List.mem_singleton.mp hp
        cases List.mem_singleton.mp hu
        exact hsubmitted
  | step route a =>
    simp only [IBCV2PipelineManager.step] at hstep
    split at hstep
    · cases hstep
    · rename_i d hd
      obtain ⟨d', hd', rfl⟩ := Option.map_eq_some_iff.mp hstep
      have hstep := Dedup.step_iff.mp hd'
      exact h.set ((h.dedup hd).step (honce route) hstep) ((h.route hd).step hstep)

theorem run_inv {C : IBCV2PipelineManager P → Action P → Prop}
    (honce : ∀ route, (P route).AtMostOnce keyOf keyOf)
    (hrun : Machine.Run (IBCV2PipelineManager.step config priceClient) C {} m) : Inv m :=
  hrun.inv ⟨nofun, nofun⟩ fun h _ hstep => h.step honce hstep

/-- The transfers that were submitted are copies of the rows of a table. -/
def CopiesOf (rows : List Ibcv2Transfer) (m : IBCV2PipelineManager P) : Prop :=
  ∀ t ∈ m.submitted, ∃ r ∈ rows,
    t.rowKey = r.key ∧ newPipelineKey t = newPipelineKey (newIBCV2Transfer r)

/-- Copies of the same row have the same route. -/
theorem CopiesOf.route_eq {rows : List Ibcv2Transfer} (h : m.CopiesOf rows)
    (hrows : (rows.map (·.key)).Nodup) {t u : IBCV2Transfer} (ht : t ∈ m.submitted)
    (hu : u ∈ m.submitted) (hkey : newTransferKey t = newTransferKey u) :
    newPipelineKey t = newPipelineKey u := by
  obtain ⟨r, hr, htr, hroute⟩ := h t ht
  obtain ⟨r', hr', hur, hroute'⟩ := h u hu
  -- the index: one row for a key
  have hrow : r = r' := by
    refine List.inj_on_of_nodup_map hrows hr hr' ?_
    rw [← htr, ← hur]
    exact newTransferKey_eq_iff.mp hkey
  rw [hroute, hroute', hrow]

/-- A key that two pipelines have accepted would be that of two rows. -/
theorem Inv.route_unique (h : Inv m) {rows : List Ibcv2Transfer} (hcopies : m.CopiesOf rows)
    (hrows : (rows.map (·.key)).Nodup) {route route' : Route} {d : Dedup (P route)}
    {d' : Dedup (P route')} (hd : m.pipelines route = some d) (hd' : m.pipelines route' = some d')
    {key : TransferKey} (hkey : key ∈ d.deduper.inPipeline) (hkey' : key ∈ d'.deduper.inPipeline) :
    route = route' := by
  -- what is in a set was accepted by that pipeline
  have haccepted : key ∈ d.accepted := by
    rw [← Multiset.mem_coe, (h.dedup hd).accepted]
    exact Multiset.mem_add.mpr (.inr hkey)
  have haccepted' : key ∈ d'.accepted := by
    rw [← Multiset.mem_coe, (h.dedup hd').accepted]
    exact Multiset.mem_add.mpr (.inr hkey')
  obtain ⟨t, ⟨ht, rfl⟩, rfl⟩ := (h.route hd).accepted key haccepted
  obtain ⟨u, ⟨hu, rfl⟩, hkey⟩ := (h.route hd').accepted _ haccepted'
  exact hcopies.route_eq hrows ht hu hkey.symm

end IBCV2PipelineManager

/-- **At most one copy of a packet is in flight.** For every pipeline that sends each transfer at
most once, whatever the goroutines around it do: the set is what was accepted and not yet observed,
the pipeline holds at most one transfer per key, and a `Push` returns false exactly when the key is
in the set. Over all pipelines of a manager, at most one copy of a packet is in flight, if the
transfers that are submitted are copies of rows with unique keys. -/
theorem single_flight (P : Route → PipelineProc)
    (honce : ∀ route, (P route).AtMostOnce keyOf keyOf) :
    (∀ route pl todos (s : Dedup (P route)),
      Machine.Run Dedup.step (fun _ _ => True) (Dedup.start (P route) pl todos) s → s.SingleFlight)
    ∧ ∀ config priceClient (m : IBCV2PipelineManager P),
      Machine.Run (IBCV2PipelineManager.step config priceClient) (fun _ _ => True) {} m →
      (∀ route d, m.pipelines route = some d → d.SingleFlight)
      ∧ ∀ rows, (rows.map (·.key)).Nodup → m.CopiesOf rows →
        ∀ key route route' d d', m.pipelines route = some d → m.pipelines route' = some d' →
          key ∈ d.inFlight → key ∈ d'.inFlight → route = route' := by
  constructor
  · intro route pl todos s hrun
    exact (Dedup.run_inv (honce route) hrun).singleFlight (honce route)
  · intro config priceClient m hrun
    have hinv := IBCV2PipelineManager.run_inv honce hrun
    have hflight : ∀ route d, m.pipelines route = some d → d.SingleFlight :=
      fun route d hd => (hinv.dedup hd).singleFlight (honce route)
    refine ⟨hflight, ?_⟩
    intro rows hrows hcopies key route route' d d' hd hd' hkey hkey'
    exact hinv.route_unique hcopies hrows hd hd' ((hflight route d hd).inFlight key hkey)
      ((hflight route' d' hd').inFlight key hkey')

namespace Sample

/-- A pipeline in which nothing is batched. -/
def unbatched (route : Route) : PipelineProc :=
  pipelineGoroutines ⟨route, opts, false⟩ fun _ _ => false

def transfer : IBCV2Transfer := newIBCV2Transfer row

/-- A `Push` that has been called gets the lock, checks the key and sends. -/
def accepted {P : PipelineProc} (i : Nat) : List (Dedup.Action P) :=
  [.lock i, .check i, .send i, .unlock i]

def refused {P : PipelineProc} (i : Nat) : List (Dedup.Action P) := [.lock i, .check i, .unlock i]

/-- Two goroutines push the same transfer at the same time. -/
def pushedTwice {P : PipelineProc} : List (Dedup.Action P) :=
  [.call 0, .call 1] ++ accepted 1 ++ refused 0

/-- The sample packet is submitted twice. -/
def submittedTwice : List (IBCV2PipelineManager.Action unbatched) :=
  [.submit transfer, .submit transfer]
    ++ pushedTwice.map (.step pipeline.route)

end Sample

/-- `single_flight` when the same transfer is pushed by two goroutines: one is accepted, the other
refused. -/
theorem single_flight_twice :
    (∃ s, Machine.Run Dedup.step (fun _ _ => True)
        (Dedup.start (Sample.unbatched Sample.pipeline.route) Sample.pipeline
          [[Sample.transfer], [Sample.transfer]]) s
      ∧ s.accepted = [newTransferKey Sample.transfer] ∧ s.SingleFlight)
    ∧ ∃ m, Machine.Run (IBCV2PipelineManager.step (P := Sample.unbatched) Sample.config false)
        (fun _ _ => True) {} m
      ∧ m.submitted = [Sample.transfer, Sample.transfer] ∧ m.CopiesOf [Sample.row]
      ∧ ∀ key route route' d d', m.pipelines route = some d → m.pipelines route' = some d' →
          key ∈ d.inFlight → key ∈ d'.inFlight → route = route' := by
  have honce : ∀ route, (Sample.unbatched route).AtMostOnce keyOf keyOf :=
    fun route => (pipelineAccount _ _).atMostOnce
  obtain ⟨hdedup, hmanager⟩ := single_flight Sample.unbatched honce
  constructor
  · have hscript : (Machine.script Dedup.step (fun _ _ => true)
        (Dedup.start (Sample.unbatched Sample.pipeline.route) Sample.pipeline
          [[Sample.transfer], [Sample.transfer]]) Sample.pushedTwice).any
        (·.accepted = [newTransferKey Sample.transfer]) = true := by
      decide +kernel
    obtain ⟨s, hs, haccepted⟩ := (Option.any_eq_true _ _).mp hscript
    have hrun := Machine.run_of_script (fun _ _ _ => trivial) hs
    exact ⟨s, hrun, of_decide_eq_true haccepted, hdedup _ _ _ s hrun⟩
  · have hscript : (Machine.script
        (IBCV2PipelineManager.step (P := Sample.unbatched) Sample.config false)
        (fun _ _ => true) {} Sample.submittedTwice).any
        (·.submitted = [Sample.transfer, Sample.transfer]) = true := by
      decide +kernel
    obtain ⟨m, hm, hsubmitted⟩ := (Option.any_eq_true _ _).mp hscript
    have hrun := Machine.run_of_script (fun _ _ _ => trivial) hm
    have hsubmitted := of_decide_eq_true hsubmitted
    have hcopies : m.CopiesOf [Sample.row] := by
      intro t ht
      rw [hsubmitted] at ht
      have ht : t = Sample.transfer := by simpa using ht
      exact ⟨Sample.row, List.mem_cons_self, ht ▸ newIBCV2Transfer_rowKey _, ht ▸ rfl⟩
    exact ⟨m, hrun, hsubmitted, hcopies,
      (hmanager _ _ m hrun).2 [Sample.row] (List.nodup_singleton _) hcopies⟩

end IbcRelayer
