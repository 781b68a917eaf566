import IbcRelayer.SingleFlight
import IbcRelayer.Spec.Fill

/-!
# IbcRelayer — when a `Push` blocks

A `Push` holds `inPipelineLock` while it sends into the pipeline, and the goroutine that watches the
output needs the lock for every transfer that comes out. When the pipeline is full, each of the two
waits for the other, and a cancelled context does not wake up either of them.

* `Dedup.Roomy` — a `Push` takes the lock only if the pipeline has room for its transfer;
* `Dedup.Going` — what holds in a run with only such steps;
* `Dedup.deadlock_of_jams` — a pipeline that fills up ends in a deadlock.
-/

namespace IbcRelayer

open Proc

namespace Dedup

variable {P : PipelineProc} {s s' : Dedup P}

/-- A `Push` takes the lock only if it will not send, or the pipeline has room for its transfer; and
no transfer is given up in the pipeline. -/
def Roomy (s : Dedup P) : Action P → Prop
  | .lock i => ∀ todo t, s.pushers[i]? = some ⟨todo, .locking t⟩ →
    newTransferKey t ∈ s.deduper.inPipeline ∨ ∃ r, P.recv s.pipeline t = some r
  | .act x => ∀ lost r, P.act s.pipeline x = some (.inside lost, r) → lost = []
  | _ => True

/-! ## Room for the transfer -/

/-- There is room for what the goroutine sends, or is going to. -/
def Room (s : Dedup P) (p : Pusher) : Prop :=
  match p.place with
  | .checking t => newTransferKey t ∈ s.deduper.inPipeline ∨ ∃ r, P.recv s.pipeline t = some r
  | .sending t => ∃ r, P.recv s.pipeline t = some r
  | _ => True

theorem room_of_unlocked {p : Pusher} (h : p.locked = false) : s.Room p := by
  obtain ⟨todo, place⟩ := p
  cases place with
  | checking t => cases h
  | sending t => cases h
  | _ => trivial

/-- Room is only taken by a value that is sent into the pipeline. -/
theorem Room.mono {p : Pusher} (h : s.Room p) (hset : s'.deduper = s.deduper)
    (hroom : ∀ t, (∃ r, P.recv s.pipeline t = some r) → ∃ r, P.recv s'.pipeline t = some r) :
    s'.Room p := by
  obtain ⟨todo, place⟩ := p
  cases place with
  | checking t =>
    refine Or.imp (fun hmem => ?_) (hroom t) h
    rw [hset]
    exact hmem
  | sending t => exact hroom t h
  | _ => trivial

theorem Locks.unlocked (h : Locks s) {i j : Nat} {p q : Pusher} (hp : s.pushers[i]? = some p)
    (hlocked : p.locked = true) (hq : s.pushers[j]? = some q) (hij : j ≠ i) : q.locked = false := by
  refine Bool.eq_false_iff.mpr fun hq' => hij ?_
  have hlock := ((h.pushers i p hp).mp hlocked).symm.trans ((h.pushers j q hq).mp hq')
  cases hlock
  rfl

/-- Every step keeps the room of the goroutine that has the lock: nobody else sends, and a `Steady`
pipeline does not take room by itself. -/
theorem room_step (hlocks : Locks s) (hsteady : P.Steady)
    (h : ∀ (i : Nat) p, s.pushers[i]? = some p → s.Room p) {a : Action P} (hroomy : s.Roomy a)
    (hstep : Step s a s') : ∀ (i : Nat) p, s'.pushers[i]? = some p → s'.Room p := by
  intro j p hp'
  cases hstep with
  | call hp =>
    rcases getElem?_set_cases hp' with ⟨-, rfl⟩ | ⟨-, hj⟩
    · trivial
    · exact (h j p hj).mono rfl fun _ => id
  | lock hp hfree =>
    rcases getElem?_set_cases hp' with ⟨-, rfl⟩ | ⟨-, hj⟩
    · exact hroomy _ _ hp
    · exact (h j p hj).mono rfl fun _ => id
  | refuse hp hpush =>
    rcases getElem?_set_cases hp' with ⟨-, rfl⟩ | ⟨-, hj⟩
    · trivial
    · exact (h j p hj).mono rfl fun _ => id
  -- the key was not in the set, so there was room when the lock was taken
  | @accept i todo t deduper hp hpush =>
    rcases getElem?_set_cases hp' with ⟨rfl, rfl⟩ | ⟨hij, hj⟩
    · exact (h j _ hp).resolve_left (PipelineDeduper.push_eq_some hpush).1
    · exact room_of_unlocked (hlocks.unlocked hp rfl hj hij)
  | @send i todo t pipeline hp hrecv =>
    rcases getElem?_set_cases hp' with ⟨-, rfl⟩ | ⟨hij, hj⟩
    · trivial
    · exact room_of_unlocked (hlocks.unlocked hp rfl hj hij)
  | unlock hp =>
    rcases getElem?_set_cases hp' with ⟨-, rfl⟩ | ⟨-, hj⟩
    · trivial
    · exact (h j p hj).mono rfl fun _ => id
  | act hact => exact (h j p hp').mono rfl fun _ => hsteady.act ⟨_, hact⟩
  | poll hwatcher hact => exact (h j p hp').mono rfl fun _ => hsteady.act ⟨_, hact⟩
  | closed hwatcher hact => exact (h j p hp').mono rfl fun _ => hsteady.act ⟨_, hact⟩
  | watchLock hwatcher hfree => exact (h j p hp').mono rfl fun _ => id
  | delete hwatcher =>
    -- the watching goroutine has the lock, so no `Push` has it
    refine room_of_unlocked (Bool.eq_false_iff.mpr fun hlocked => ?_)
    have hwatch := hlocks.watcher.mp (by rw [hwatcher]; rfl)
    rw [(hlocks.pushers j p hp').mp hlocked] at hwatch
    cases hwatch
  | cancel hcancelled hclose => exact (h j p hp').mono rfl fun _ => hsteady.recvClose hclose

/-! ## What the pipeline does -/

/-- Before the first `Push` nothing happens. -/
def Waits (s : Dedup P) : Prop :=
  s.watcher = .notStarted →
    (∀ p ∈ s.pushers, p.place = .idle) ∧ s.deduper.inPipeline = []

/-- The first `Push` starts the watching goroutine before it does anything else. -/
theorem Waits.step (h : Waits s) {a : Action P} (hstep : Step s a s') : Waits s' := by
  -- a goroutine that is in `Push` has started the watching one
  have hpushing : ∀ {i : Nat} {p : Pusher}, s.pushers[i]? = some p → p.place ≠ .idle →
      s.watcher ≠ .notStarted :=
    fun hp hplace hwatcher => hplace ((h hwatcher).1 _ (List.mem_of_getElem? hp))
  cases hstep with
  | call hp =>
    intro hwatcher
    exfalso
    revert hwatcher
    show s.watcher.started ≠ .notStarted
    cases s.watcher <;> nofun
  | lock hp hfree => exact fun hwatcher => absurd hwatcher (hpushing hp nofun)
  | refuse hp hpush => exact fun hwatcher => absurd hwatcher (hpushing hp nofun)
  | accept hp hpush => exact fun hwatcher => absurd hwatcher (hpushing hp nofun)
  | send hp hrecv => exact fun hwatcher => absurd hwatcher (hpushing hp nofun)
  | unlock hp => exact fun hwatcher => absurd hwatcher (hpushing hp nofun)
  | act hact => exact h
  | poll hwatcher hact => exact nofun
  | closed hwatcher hact => exact nofun
  | watchLock hwatcher hfree => exact nofun
  | delete hwatcher => exact nofun
  | cancel hcancelled hclose => exact h

/-- What holds in a run in which every `Push` finds room. -/
structure Going (W : Working P) (s : Dedup P) : Prop where
  inv : Inv s
  locks : Locks s
  waits : Waits s
  room : ∀ (i : Nat) p, s.pushers[i]? = some p → s.Room p
  /-- No transfer is given up. -/
  holds : (s.polled : Multiset TransferKey) + W.account.holds s.pipeline = s.entered
  live : s.cancelled = false → W.live.Inv s.pipeline ∧ s.watcher ≠ .returned

variable {W : Working P}

/-- At the start all goroutines are idle. -/
theorem going_start (W : Working P) (pl : Pipeline) (todos : List (List IBCV2Transfer)) :
    Going W (start P pl todos) where
  inv := inv_start pl todos
  locks := locks_start pl todos
  waits _ := by
    refine ⟨fun p hp => ?_, rfl⟩
    obtain ⟨todo, -, rfl⟩ := List.mem_map.mp hp
    rfl
  room i p hp := by
    obtain ⟨todo, -, rfl⟩ := List.mem_map.mp (List.mem_of_getElem? hp)
    trivial
  holds := (zero_add _).trans W.account.start
  live _ := ⟨W.live.start, nofun⟩

/-- The account of the pipeline: what is sent into it is polled or still in it, since nothing is
given up. -/
theorem Going.holds_step (h : Going W s) {a : Action P} (hroomy : s.Roomy a) (hstep : Step s a s') :
    (s'.polled : Multiset TransferKey) + W.account.holds s'.pipeline = s'.entered := by
  have hholds := h.holds
  cases hstep with
  | @send i todo t pipeline hp hrecv =>
    show (s.polled : Multiset TransferKey) + W.account.holds pipeline
      = (↑(s.entered ++ [newTransferKey t]) : Multiset TransferKey)
    rw [keys_snoc, W.account.recv hrecv, ← hholds]
    abel
  | @act x lost pipeline hact =>
    cases hroomy lost pipeline hact
    rw [W.account.act ⟨_, hact⟩] at hholds
    simpa [given] using hholds
  | @poll x output pipeline hwatcher hact =>
    show (↑(s.polled ++ [newTransferKey output]) : Multiset TransferKey) + W.account.holds pipeline
      = s.entered
    rw [W.account.act ⟨_, hact⟩] at hholds
    rw [keys_snoc, add_assoc]
    exact hholds
  | closed hwatcher hact =>
    rw [W.account.act ⟨_, hact⟩] at hholds
    simpa [given] using hholds
  | cancel hcancelled hclose =>
    rw [← W.account.recvClose hclose] at hholds
    exact hholds
  | _ => exact hholds

/-- As long as the context is alive, the pipeline does not close its output, so the watching
goroutine does not return. -/
theorem Going.live_step (h : Going W s) {a : Action P} (hstep : Step s a s')
    (halive : s'.cancelled = false) : W.live.Inv s'.pipeline ∧ s'.watcher ≠ .returned := by
  cases hstep with
  | call hp =>
    obtain ⟨hlive, hwatcher⟩ := h.live halive
    refine ⟨hlive, ?_⟩
    show s.watcher.started ≠ .returned
    cases hw : s.watcher with
    | returned => exact absurd hw hwatcher
    | _ => nofun
  | send hp hrecv => exact ⟨W.live.recv (h.live halive).1 hrecv, (h.live halive).2⟩
  | act hact => exact ⟨W.live.act (h.live halive).1 ⟨_, hact⟩, (h.live halive).2⟩
  | poll hwatcher hact => exact ⟨W.live.act (h.live halive).1 ⟨_, hact⟩, nofun⟩
  | closed hwatcher hact => exact absurd ⟨_, hact⟩ (W.live.stays (h.live halive).1)
  | watchLock hwatcher hfree => exact ⟨(h.live halive).1, nofun⟩
  | delete hwatcher => exact ⟨(h.live halive).1, nofun⟩
  | cancel hcancelled hclose => cases halive
  | _ => exact h.live halive

/-- Every step with room keeps all of it. -/
theorem Going.step (h : Going W s) {a : Action P} (hroomy : s.Roomy a) (hstep : Step s a s') :
    Going W s' where
  inv := h.inv.step W.account.atMostOnce hstep
  locks := h.locks.step hstep
  waits := h.waits.step hstep
  room := room_step h.locks W.steady h.room hroomy hstep
  holds := h.holds_step hroomy hstep
  live := h.live_step hstep

/-- The invariant holds after every run in which a `Push` finds room. -/
theorem run_going (W : Working P) {pl : Pipeline} {todos : List (List IBCV2Transfer)}
    (hrun : Machine.Run Dedup.step Roomy (start P pl todos) s) : Going W s :=
  hrun.inv (going_start W pl todos) fun h hroomy hstep => h.step hroomy (step_iff.mp hstep)

/-! ## Progress -/

/-- Who has the lock goes on. -/
theorem Going.holder_goes_on (h : Going W s) (hlocked : s.inPipelineLock ≠ none) :
    ∃ a s', a ≠ .cancel ∧ s.step a = some s' := by
  obtain ⟨holder, hlock⟩ := Option.ne_none_iff_exists'.mp hlocked
  cases holder with
  | watcher =>
    have hwatcher := h.locks.watcher.mpr hlock
    cases hw : s.watcher with
    | deleting output => exact ⟨.delete, _, nofun, step_iff.mpr (.delete hw)⟩
    | _ =>
      rw [hw] at hwatcher
      cases hwatcher
  | pusher i =>
    obtain ⟨⟨todo, place⟩, hp⟩ := h.locks.holder i hlock
    have hplace := (h.locks.pushers i _ hp).mpr hlock
    cases place with
    | idle => cases hplace
    | locking t => cases hplace
    | checking t =>
      obtain ⟨s', hstep, -⟩ := checks_of_checking hp
      exact ⟨.check i, s', nofun, hstep⟩
    | sending t =>
      -- the room that it needs is still there
      obtain ⟨r, hr⟩ := h.room i _ hp
      exact ⟨.send i, _, nofun, step_iff.mpr (.send hp hr)⟩
    | returning pushed => exact ⟨.unlock i, _, nofun, step_iff.mpr (.unlock hp)⟩

/-- What was accepted and nobody else has is in the pipeline. -/
theorem Going.held (h : Going W s) :
    W.account.holds s.pipeline + s.watcher.holds + items Pusher.sends s.pushers
      = s.deduper.inPipeline := by
  have hflight : s.inFlight = W.account.holds s.pipeline := by
    rw [inFlight, ← h.holds, add_tsub_cancel_left]
  rw [← hflight]
  exact h.inv.held W.account.atMostOnce

/-- Nobody sends when nobody has the lock. -/
theorem Going.sends_of_free (h : Going W s) (hfree : s.inPipelineLock = none) :
    items Pusher.sends s.pushers = 0 := by
  refine List.sum_eq_zero fun keys hkeys => ?_
  obtain ⟨⟨todo, place⟩, hp, rfl⟩ := List.mem_map.mp hkeys
  obtain ⟨i, hi⟩ := List.mem_iff_getElem?.mp hp
  cases place with
  | sending t =>
    have hlock := (h.locks.pushers i _ hi).mp rfl
    rw [hfree] at hlock
    cases hlock
  | _ => rfl

/-- While a transfer is pending, some goroutine can go on: the one that has the lock, the watching
one, or the pipeline that has the transfer. -/
theorem Going.progress (h : Going W s) (halive : s.cancelled = false)
    (hpending : s.deduper.inPipeline ≠ []) : ∃ a s', a ≠ .cancel ∧ s.step a = some s' := by
  by_cases hfree : s.inPipelineLock = none
  · obtain ⟨hlive, hreturned⟩ := h.live halive
    cases hwatcher : s.watcher with
    | notStarted => exact absurd (h.waits hwatcher).2 hpending
    | polling =>
      -- everything that is pending is in the pipeline, which has a step to do
      have hheld := h.held
      rw [h.sends_of_free hfree, hwatcher] at hheld
      have hholds : W.account.holds s.pipeline ≠ 0 := by
        intro hzero
        rw [hzero] at hheld
        exact hpending (Multiset.coe_eq_zero _ |>.mp hheld.symm)
      obtain ⟨o, pipeline, x, hx⟩ := W.live.busy hlive hholds
      cases o with
      | send output => exact ⟨.poll x, _, nofun, step_iff.mpr (.poll hwatcher hx)⟩
      | close => exact ⟨.poll x, _, nofun, step_iff.mpr (.closed hwatcher hx)⟩
      | inside lost => exact ⟨.act x, _, nofun, step_iff.mpr (.act hx)⟩
    | locking output => exact ⟨.watchLock, _, nofun, step_iff.mpr (.watchLock hwatcher hfree)⟩
    | deleting output => exact ⟨.delete, _, nofun, step_iff.mpr (.delete hwatcher)⟩
    | returned => exact absurd hwatcher hreturned
  · exact h.holder_goes_on hfree

/-- A `Push` that sends returns. -/
theorem Going.returns (h : Going W s) {i : Nat} {todo : List IBCV2Transfer} {t : IBCV2Transfer}
    (hp : s.pushers[i]? = some ⟨todo, .sending t⟩) :
    ∃ s' s'', s.step (.send i) = some s' ∧ s'.step (.unlock i) = some s''
      ∧ s''.pushers[i]? = some ⟨todo, .idle⟩ := by
  obtain ⟨r, hr⟩ := h.room i _ hp
  have hi := (List.getElem?_eq_some_iff.mp hp).1
  have hsent : (s.move i ⟨todo, .returning true⟩).pushers[i]? = some ⟨todo, .returning true⟩ :=
    List.getElem?_set_self hi
  refine ⟨_, _, step_iff.mpr (.send hp hr), step_iff.mpr (.unlock hsent), ?_⟩
  exact List.getElem?_set_self (by rwa [move, List.length_set])

end Dedup

/-- **A `Push` goes on if there is room.** As long as a `Push` takes the lock only if there is room
for its transfer, and no transfer is given up: while a transfer is in `inPipeline` and the context
is not cancelled, some step is enabled, and so it is whenever somebody has the lock; and a `Push`
that sends returns, whether the context is cancelled or not. -/
theorem push_goes_on (pl : Pipeline) (shouldProcess : Stage → IBCV2Transfer → Bool)
    (hconcurrent : Stage.Concurrent pl.opts) (todos : List (List IBCV2Transfer))
    {s : Dedup (pipelineGoroutines pl shouldProcess)}
    (hrun : Machine.Run Dedup.step Dedup.Roomy (Dedup.start _ pl todos) s) :
    (s.cancelled = false → s.deduper.inPipeline ≠ [] → ∃ a s', a ≠ .cancel ∧ s.step a = some s')
    ∧ (s.inPipelineLock ≠ none → ∃ a s', a ≠ .cancel ∧ s.step a = some s')
    ∧ ∀ i todo t, s.pushers[i]? = some ⟨todo, .sending t⟩ →
      ∃ s' s'', s.step (.send i) = some s' ∧ s'.step (.unlock i) = some s''
        ∧ s''.pushers[i]? = some ⟨todo, .idle⟩ := by
  have hgoing := Dedup.run_going (pipelineWorking pl shouldProcess hconcurrent) hrun
  exact ⟨hgoing.progress, hgoing.holder_goes_on, fun i todo t => hgoing.returns⟩

/-- A check for `Roomy`, for runs without steps inside the pipeline. -/
def Dedup.roomy {P : PipelineProc} (s : Dedup P) : Dedup.Action P → Bool
  | .lock i => (s.pushers[i]?).all fun p =>
    match p.place with
    | .locking t => (P.recv s.pipeline t).isSome
    | _ => true
  | .act _ => false
  | _ => true

/-- The check implies `Roomy`. -/
theorem Dedup.roomy_of_check {P : PipelineProc} (s : Dedup P) (a : Dedup.Action P)
    (h : s.roomy a = true) : s.Roomy a := by
  cases a with
  | lock i =>
    intro todo t hp
    refine .inr (Option.isSome_iff_exists.mp ?_)
    simpa [Dedup.roomy, hp] using h
  | act x => cases h
  | _ => trivial

/-- A `Push` that is sending, in the pipeline of the sample packet. -/
theorem push_goes_on_sample :
    ∃ s : Dedup (Sample.unbatched Sample.pipeline.route),
      Machine.Run Dedup.step Dedup.Roomy (Dedup.start _ Sample.pipeline [[Sample.transfer]]) s
      ∧ s.deduper.inPipeline ≠ [] ∧ s.pushers = [⟨[], .sending Sample.transfer⟩]
      ∧ (∃ a s', a ≠ .cancel ∧ s.step a = some s')
      ∧ ∃ s' s'', s.step (.send 0) = some s' ∧ s'.step (.unlock 0) = some s''
        ∧ s''.pushers[0]? = some ⟨[], .idle⟩ := by
  have hscript : (Machine.script Dedup.step Dedup.roomy
      (Dedup.start (Sample.unbatched Sample.pipeline.route) Sample.pipeline [[Sample.transfer]])
      [.call 0, .lock 0, .check 0]).any
      (fun s => !s.cancelled && s.deduper.inPipeline ≠ []
        && s.pushers = [⟨[], .sending Sample.transfer⟩]) = true := by
    decide +kernel
  obtain ⟨s, hs, hstate⟩ := (Option.any_eq_true _ _).mp hscript
  simp only [Bool.and_eq_true, Bool.not_eq_true', decide_eq_true_eq] at hstate
  obtain ⟨⟨halive, hpending⟩, hpushers⟩ := hstate
  have hrun := Machine.run_of_script Dedup.roomy_of_check hs
  obtain ⟨hprogress, -, hreturns⟩ := push_goes_on ⟨Sample.pipeline.route, Sample.opts, false⟩
    (fun _ _ => false) ⟨by decide, by decide, by decide⟩ [[Sample.transfer]] hrun
  exact ⟨s, hrun, hpending, hpushers, hprogress halive hpending,
    hreturns 0 [] Sample.transfer (by rw [hpushers]; rfl)⟩

/-! ## The deadlock -/

namespace Dedup

variable {P : PipelineProc} {s s' : Dedup P} {w : WatchPlace} {t : IBCV2Transfer}
  {todo : List IBCV2Transfer} {p p' : P.State}

/-- One goroutine pushes, and it is between two transfers that are new to the pipeline. The watching
goroutine is at `w`, or will be when it is started. -/
structure Between (w : WatchPlace) (todo : List IBCV2Transfer) (p : P.State) (s : Dedup P) :
    Prop where
  pushers : s.pushers = [⟨todo, .idle⟩]
  lock : s.inPipelineLock = none
  watcher : s.watcher.started = w
  pipeline : s.pipeline = p
  alive : s.cancelled = false
  fresh : (todo.map newTransferKey ++ s.deduper.inPipeline).Nodup

/-- It has the lock and sends. -/
structure Sends (w : WatchPlace) (t : IBCV2Transfer) (todo : List IBCV2Transfer) (p : P.State)
    (s : Dedup P) : Prop where
  pushers : s.pushers = [⟨todo, .sending t⟩]
  lock : s.inPipelineLock = some (.pusher 0)
  watcher : s.watcher = w
  pipeline : s.pipeline = p
  alive : s.cancelled = false
  fresh : (todo.map newTransferKey ++ s.deduper.inPipeline).Nodup
  pending : s.deduper.inPipeline ≠ []

/-- Any steps. -/
abbrev Leads (s s' : Dedup P) : Prop := Machine.Run Dedup.step (fun _ _ => True) s s'

/-- The next `Push` takes the lock, finds its key new, and begins to send. -/
theorem Between.sends (h : Between w (t :: todo) p s) : ∃ s', Leads s s' ∧ Sends w t todo p s' := by
  have hfresh : (newTransferKey t :: (todo.map newTransferKey ++ s.deduper.inPipeline)).Nodup :=
    h.fresh
  have hnew : newTransferKey t ∉ s.deduper.inPipeline :=
    fun hmem => (List.nodup_cons.mp hfresh).1 (List.mem_append_right _ hmem)
  have hpush : s.deduper.push t
      = some { s.deduper with inPipeline := newTransferKey t :: s.deduper.inPipeline } :=
    if_neg hnew
  have hcall : s.step (.call 0) = some
      { s with pushers := [⟨todo, .locking t⟩], watcher := s.watcher.started } := by
    simp [Dedup.step, move, h.pushers]
  have hlock : Dedup.step { s with pushers := [⟨todo, .locking t⟩], watcher := s.watcher.started }
      (.lock 0) = some { s with
        pushers := [⟨todo, .checking t⟩], watcher := s.watcher.started
        inPipelineLock := some (.pusher 0) } := by
    simp [Dedup.step, move, h.lock]
  have hcheck : Dedup.step { s with
        pushers := [⟨todo, .checking t⟩], watcher := s.watcher.started
        inPipelineLock := some (.pusher 0) } (.check 0) = some { s with
        pushers := [⟨todo, .sending t⟩], watcher := s.watcher.started
        inPipelineLock := some (.pusher 0), accepted := s.accepted ++ [newTransferKey t]
        deduper := { s.deduper with inPipeline := newTransferKey t :: s.deduper.inPipeline } } := by
    simp [Dedup.step, move, hpush]
  refine ⟨_, .cons trivial hcall (.cons trivial hlock (.cons trivial hcheck .refl)), rfl, rfl,
    h.watcher, h.pipeline, h.alive, List.nodup_middle.mpr hfresh, List.cons_ne_nil _ _⟩

/-- A transfer is pushed. -/
theorem Between.push (h : Between w (t :: todo) p s) (hrecv : P.recv p t = some p')
    (hw : w.started = w) : ∃ s', Leads s s' ∧ Between w todo p' s' ∧ s'.watcher = w := by
  obtain ⟨s₁, hrun, hs₁⟩ := h.sends
  have hsend : s₁.step (.send 0) = some
      { s₁ with
        pushers := [⟨todo, .returning true⟩], pipeline := p'
        entered := s₁.entered ++ [newTransferKey t] } := by
    simp [Dedup.step, move, hs₁.pushers, hs₁.pipeline, hrecv]
  have hunlock : Dedup.step { s₁ with
        pushers := [⟨todo, .returning true⟩], pipeline := p'
        entered := s₁.entered ++ [newTransferKey t] } (.unlock 0) = some
      { s₁ with
        pushers := [⟨todo, .idle⟩], pipeline := p', inPipelineLock := none
        entered := s₁.entered ++ [newTransferKey t] } := by
    simp [Dedup.step, move]
  refine ⟨_, hrun.trans (.cons trivial hsend (.cons trivial hunlock .refl)),
    ⟨rfl, rfl, ?_, rfl, hs₁.alive, hs₁.fresh⟩, hs₁.watcher⟩
  exact (congrArg WatchPlace.started hs₁.watcher).trans hw

/-- Transfers are pushed while the pipeline works, and nothing is polled. -/
theorem Between.takes {l : List IBCV2Transfer} (htakes : Takes P p l p')
    (h : Between w (l ++ todo) p s) (hw : w.started = w) :
    ∃ s', Leads s s' ∧ Between w todo p' s' ∧ (s.watcher = w ∨ l ≠ [] → s'.watcher = w) := by
  induction htakes generalizing s with
  | refl => exact ⟨s, .refl, h, fun hwatcher => hwatcher.resolve_right (· rfl)⟩
  | recv hrecv _ ih =>
    obtain ⟨s₁, hrun, hs₁, hwatcher⟩ := h.push hrecv hw
    obtain ⟨s', hrun', hs', hwatcher'⟩ := ih hs₁
    exact ⟨s', hrun.trans hrun', hs', fun _ => hwatcher' (.inl hwatcher)⟩
  | @inside p p₁ l p' hact _ ih =>
    obtain ⟨x, hx⟩ := hact
    have hstep : s.step (.act x) = some { s with pipeline := p₁, lost := s.lost ++ [] } :=
      step_iff.mpr (.act (by rw [h.pipeline]; exact hx))
    obtain ⟨s', hrun, hs', hwatcher⟩ := ih (s := { s with pipeline := p₁, lost := s.lost ++ [] })
      ⟨h.pushers, h.lock, h.watcher, rfl, h.alive, h.fresh⟩
    exact ⟨s', .cons trivial hstep hrun, hs', hwatcher⟩

theorem Between.poll {output : IBCV2Transfer} (h : Between .polling todo p s)
    (hwatcher : s.watcher = .polling) (hact : P.Act p (.send output) p') :
    ∃ s', Leads s s' ∧ Between (.locking output) todo p' s' ∧ s'.watcher = .locking output := by
  obtain ⟨x, hx⟩ := hact
  have hstep := step_iff.mpr (Step.poll hwatcher (h.pipeline.symm ▸ hx))
  exact ⟨_, .cons trivial hstep .refl, ⟨h.pushers, h.lock, rfl, rfl, h.alive, h.fresh⟩, rfl⟩

/-- A `Push` has the lock and waits for room, and the watching goroutine waits for the lock. -/
theorem stuck_of_blocked {output : IBCV2Transfer} (hpushers : s.pushers = [⟨todo, .sending t⟩])
    (hlock : s.inPipelineLock = some (.pusher 0)) (hwatcher : s.watcher = .locking output)
    (hstuck : P.Stuck s.pipeline) {a : Action P} (hstep : s.step a = some s') :
    a = .cancel ∧ s.cancelled = false := by
  have hplace : ∀ {i : Nat} {q : Pusher}, s.pushers[i]? = some q → q = ⟨todo, .sending t⟩ := by
    intro i q hq
    rw [hpushers] at hq
    exact List.mem_singleton.mp (List.mem_of_getElem? hq)
  cases step_iff.mp hstep with
  | call hp => cases hplace hp
  | lock hp hfree => cases hplace hp
  | refuse hp hpush => cases hplace hp
  | accept hp hpush => cases hplace hp
  -- the pipeline is full
  | send hp hrecv => exact absurd hrecv (hstuck.recv _ _)
  | unlock hp => cases hplace hp
  | act hact => cases (hstuck.act ⟨_, hact⟩).choose_spec
  | poll hpolling hact => cases hwatcher.symm.trans hpolling
  | closed hpolling hact => cases hwatcher.symm.trans hpolling
  -- the lock is not free
  | watchLock hlocking hfree => cases hlock.symm.trans hfree
  | delete hdeleting => cases hwatcher.symm.trans hdeleting
  | cancel hcancelled hclose => exact ⟨rfl, hcancelled⟩

/-- The context is alive and a transfer is in `inPipeline`, but no step of the system is enabled;
and when the context is cancelled, the `Push` that is blocked stays so for ever. -/
structure Deadlock (s : Dedup P) : Prop where
  alive : s.cancelled = false
  pending : s.deduper.inPipeline ≠ []
  stuck : ∀ a, a ≠ .cancel → s.step a = none
  cancelled : ∃ s', s.step .cancel = some s' ∧ (∃ todo t, s'.pushers = [⟨todo, .sending t⟩])
    ∧ ∀ a, s'.step a = none

/-- **A pipeline that fills up ends in a deadlock.** It is enough to push as many transfers as it
holds, and two more: the first one is polled and waits for the lock, and the last one has the lock
and waits for room. -/
theorem deadlock_of_jams {n : Nat} (hclear : P.Transparent) (hjams : P.Jams n) (pl : Pipeline)
    {ts : List IBCV2Transfer} (hlength : ts.length = n + 2) (hts : (ts.map newTransferKey).Nodup) :
    ∃ s, Leads (start P pl [ts]) s ∧ Deadlock s := by
  obtain ⟨t₀, rest, rfl⟩ := List.exists_cons_of_length_eq_add_one hlength
  obtain ⟨l, t, rfl⟩ : ∃ l t, rest = l ++ [t] := by
    have hrest : rest.length = n + 1 := by simpa using hlength
    refine ⟨rest.dropLast, rest.getLast (List.ne_nil_of_length_eq_add_one hrest), ?_⟩
    rw [List.dropLast_append_getLast]
  have hl : l.length = n := by simpa using hlength
  -- the first transfer goes through the pipeline, and the watching goroutine wants the lock for it
  obtain ⟨p, p', hin, hsend, hout⟩ := hclear t₀
  have hstart : Between .polling ([t₀] ++ (l ++ [t])) P.start (start P pl [t₀ :: (l ++ [t])]) :=
    ⟨rfl, rfl, rfl, rfl, rfl, by simpa [start] using hts⟩
  obtain ⟨s₁, hrun₁, hs₁, hwatcher₁⟩ := Between.takes hin hstart rfl
  obtain ⟨s₂, hrun₂, hs₂, hwatcher₂⟩ := hs₁.poll (hwatcher₁ (.inr (List.cons_ne_nil _ _))) hsend
  -- the others fill the pipeline, except for the last one
  obtain ⟨q, q', hfill, hstuck, hclose, hstuck'⟩ := hjams l hl
  have hfill' : Takes P p' l q := hout.trans hfill
  obtain ⟨s₃, hrun₃, hs₃, hwatcher₃⟩ := Between.takes hfill' hs₂ rfl
  obtain ⟨s, hrun, hs⟩ := hs₃.sends
  have hclosed : P.recvClose s.pipeline = some q' := by rw [hs.pipeline, hclose]
  refine ⟨s, hrun₁.trans (hrun₂.trans (hrun₃.trans hrun)), hs.alive, hs.pending, ?_, ?_⟩
  · intro a ha
    refine Option.eq_none_iff_forall_ne_some.mpr fun s' hstep => ha ?_
    exact (stuck_of_blocked hs.pushers hs.lock hs.watcher (hs.pipeline ▸ hstuck) hstep).1
  -- a cancelled context closes the input, but a pipeline that is stuck stays so
  · refine ⟨_, step_iff.mpr (.cancel hs.alive hclosed), ⟨_, _, hs.pushers⟩, fun a => ?_⟩
    refine Option.eq_none_iff_forall_ne_some.mpr fun s' hstep => ?_
    have halive : true = false :=
      (stuck_of_blocked (s := { s with pipeline := q', cancelled := true }) hs.pushers hs.lock
        hs.watcher hstuck' hstep).2
    cases halive

end Dedup

namespace Sample

/-- Packets of one client. -/
def numbered (n : Nat) : IBCV2Transfer :=
  { transfer with packetSequenceNumber := UInt32.ofNat n }

/-- Sequence numbers below the range of `uint32` are different. -/
theorem numbered_nodup {n : Nat} (hn : n ≤ 2 ^ 32) :
    (((List.range n).map numbered).map newTransferKey).Nodup := by
  rw [List.map_map]
  refine List.Nodup.map_on (fun i hi j hj hij => ?_) List.nodup_range
  have hseq : UInt32.ofNat i = UInt32.ofNat j := congrArg TransferKey.packetSequenceNumber hij
  have hi : i < 2 ^ 32 := lt_of_lt_of_le (List.mem_range.mp hi) hn
  have hj : j < 2 ^ 32 := lt_of_lt_of_le (List.mem_range.mp hj) hn
  have hnat := congrArg UInt32.toNat hseq
  rwa [UInt32.toNat_ofNat_of_lt' hi, UInt32.toNat_ofNat_of_lt' hj] at hnat

end Sample

/-- The dispatcher pushes 10127 packets of one client: one is polled, 10125 fill the pipeline, and
the last one is sent with the lock held. -/
theorem push_deadlocks :
    (((List.range 10127).map Sample.numbered).map newTransferKey).Nodup
    ∧ ∃ s : Dedup (pipelineGoroutines Sample.pipeline fun _ _ => false),
      Machine.Run Dedup.step (fun _ _ => True)
        (Dedup.start _ Sample.pipeline [(List.range 10127).map Sample.numbered]) s
      ∧ s.Deadlock := by
  have hnodup := Sample.numbered_nodup (n := 10127) (by decide)
  obtain ⟨hclear, hjams⟩ := jams_pipelineGoroutines Sample.pipeline
  have hcapacity : capacity Sample.pipeline = 10125 := by decide
  refine ⟨hnodup, Dedup.deadlock_of_jams hclear hjams Sample.pipeline ?_ hnodup⟩
  rw [List.length_map, List.length_range, hcapacity]

end IbcRelayer
