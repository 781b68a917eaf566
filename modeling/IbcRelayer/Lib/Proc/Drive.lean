import IbcRelayer.Lib.Machine
import IbcRelayer.Lib.Proc.Live

/-!
# Running a process on a finite input

A `Drive` is a process together with the two ends of its channels: somebody sends a list of values
and then closes the input, and somebody takes whatever comes out. What has come out is recorded,
with the number of times that the output was closed.

An orderly process closes its output exactly once, when all items are out (`DriveInv.done`), does
nothing afterwards (`DriveInv.silent`), and is never stuck before (`DriveInv.stuck`); a ranked one
gets there in a bounded number of steps (`rank_step`).
-/

namespace Proc

variable {α β T : Type} {P : Proc α β T}

structure Drive (P : Proc α β T) where
  /-- The values that are not sent yet. -/
  pending : List α
  opened : Bool := true
  state : P.State
  sent : List β := []
  closes : Nat := 0
  lost : List T := []

inductive DriveAction (P : Proc α β T) where
  | feed
  | close
  | act (x : P.Action)

namespace Drive

def start (P : Proc α β T) (input : List α) : Drive P := { pending := input, state := P.start }

/-- The value at the head of the input is sent, the input is closed when it is used up, or the
process does a step, whose output is recorded. -/
def step (d : Drive P) : DriveAction P → Option (Drive P)
  | .feed =>
    match d.pending with
    | [] => none
    | a :: rest => (P.recv d.state a).map fun state => { d with pending := rest, state }
  | .close =>
    if d.pending.isEmpty && d.opened then
      (P.recvClose d.state).map fun state => { d with opened := false, state }
    else
      none
  | .act x =>
    match P.act d.state x with
    | none => none
    | some (.send b, state) => some { d with state, sent := d.sent ++ [b] }
    | some (.close, state) => some { d with state, closes := d.closes + 1 }
    | some (.inside lost, state) => some { d with state, lost := d.lost ++ lost }

/-- The steps of a drive. -/
inductive Step (d : Drive P) : Drive P → Prop where
  | feed {a rest state} (hpending : d.pending = a :: rest) (h : P.recv d.state a = some state) :
      Step d { d with pending := rest, state }
  | close {state} (hpending : d.pending = []) (hopened : d.opened = true)
      (h : P.recvClose d.state = some state) : Step d { d with opened := false, state }
  | send {b state} (h : P.Act d.state (.send b) state) :
      Step d { d with state, sent := d.sent ++ [b] }
  | sendClose {state} (h : P.Act d.state .close state) :
      Step d { d with state, closes := d.closes + 1 }
  | inside {lost state} (h : P.Act d.state (.inside lost) state) :
      Step d { d with state, lost := d.lost ++ lost }

/-- The inversion of `step`. -/
theorem step_cases {d d' : Drive P} {a : DriveAction P} (h : d.step a = some d') : Step d d' := by
  cases a <;> simp only [step] at h
  case feed =>
    split at h
    · cases h
    · rename_i a rest hpending
      obtain ⟨state, hstate, rfl⟩ := Option.map_eq_some_iff.mp h
      exact .feed hpending hstate
  case close =>
    split at h
    · rename_i hcond
      rw [Bool.and_eq_true, List.isEmpty_iff] at hcond
      obtain ⟨state, hstate, rfl⟩ := Option.map_eq_some_iff.mp h
      exact .close hcond.1 hcond.2 hstate
    · cases h
  case act x =>
    split at h
    · cases h
    · rename_i hact
      cases h
      exact .send ⟨x, hact⟩
    · rename_i hact
      cases h
      exact .sendClose ⟨x, hact⟩
    · rename_i hact
      cases h
      exact .inside ⟨x, hact⟩

theorem step_of_moves {d : Drive P} (h : P.Moves d.state) : ∃ a d', d.step a = some d' := by
  obtain ⟨o, state, x, hact⟩ := h
  refine ⟨.act x, ?_⟩
  cases o <;> simp only [step, hact] <;> exact ⟨_, rfl⟩

end Drive

section Invariant

variable {ins : α → Multiset T} {outs : β → Multiset T} {A : P.Account ins outs}

/-- What holds in every run of an orderly process. -/
structure DriveInv (O : Orderly A) (input : List α) (d : Drive P) : Prop where
  inv : O.Inv d.state
  opened : O.opened d.state ↔ d.opened = true
  closed : O.closed d.state ↔ d.closes = 1
  once : d.closes ≤ 1
  fed : d.opened = false → d.pending = []
  account : items ins d.pending + A.holds d.state + items outs d.sent + d.lost = items ins input

variable {O : Orderly A} {input : List α} {d d' : Drive P}

theorem driveInv_start : DriveInv O input (Drive.start P input) where
  inv := O.start.1
  opened := iff_of_true O.start.2.1 rfl
  closed := iff_of_false O.start.2.2 (by simp [Drive.start])
  once := Nat.zero_le 1
  fed := by simp [Drive.start]
  account := by simp [Drive.start, A.start]

/-- A step by itself of the process; only the output decides what is recorded. -/
theorem DriveInv.act (h : DriveInv O input d) {o : Output β T} {state : P.State}
    (hact : P.Act d.state o state) :
    O.Inv state ∧ (O.opened state ↔ d.opened = true) ∧ (O.closed state ↔ o = .close)
      ∧ d.closes = 0 := by
  obtain ⟨hclosed, hinv, hopened, hclosed'⟩ := O.act h.inv hact
  have hne : d.closes ≠ 1 := fun heq => hclosed (h.closed.mpr heq)
  have hle := h.once
  exact ⟨hinv, hopened.trans h.opened, hclosed', by omega⟩

/-- Every step keeps the invariant. The account is an equation between what is still to come, what
the process holds, what is out and what was thrown away; a step moves items from one of these to
another. -/
theorem DriveInv.step (h : DriveInv O input d) (hstep : Drive.Step d d') : DriveInv O input d' := by
  have haccount := h.account
  cases hstep with
  | feed hpending hrecv =>
    obtain ⟨hopened, hinv, hopened'⟩ := O.recv h.inv hrecv
    have hclosed : ¬ O.closed d.state := fun hc => (O.empty h.inv hc).1 hopened
    have hclosed' := fun hc => (O.empty hinv hc).1 hopened'
    refine ⟨hinv, iff_of_true hopened' (h.opened.mp hopened),
      iff_of_false hclosed' (fun heq => hclosed (h.closed.mpr heq)), h.once, fun hfalse => ?_, ?_⟩
    · rw [h.opened.mp hopened] at hfalse
      cases hfalse
    · rw [← haccount, hpending]
      simp only [items_cons, A.recv hrecv]
      abel
  -- the input is closed once, after its last value
  | close hpending hopened hrecv =>
    obtain ⟨hopened', hinv, hopened'', hclosed''⟩ := O.recvClose h.inv hrecv
    have hclosed : ¬ O.closed d.state := fun hc => (O.empty h.inv hc).1 hopened'
    refine ⟨hinv, iff_of_false hopened'' (by simp),
      iff_of_false hclosed'' (fun heq => hclosed (h.closed.mpr heq)), h.once, fun _ => hpending, ?_⟩
    rw [← haccount, A.recvClose hrecv]
  | send hact =>
    obtain ⟨hinv, hopened, hclosed, hcloses⟩ := h.act hact
    refine ⟨hinv, hopened, hclosed.trans (iff_of_false (by simp) (by simp [hcloses])), h.once,
      h.fed, ?_⟩
    rw [← haccount, A.act hact]
    simp only [items_append, items_cons, items_nil, given]
    abel
  | sendClose hact =>
    obtain ⟨hinv, hopened, hclosed, hcloses⟩ := h.act hact
    refine ⟨hinv, hopened, hclosed.trans (iff_of_true rfl (by simp [hcloses])), by simp [hcloses],
      h.fed, ?_⟩
    rw [← haccount, A.act hact]
    simp [given]
  | inside hact =>
    obtain ⟨hinv, hopened, hclosed, hcloses⟩ := h.act hact
    refine ⟨hinv, hopened, hclosed.trans (iff_of_false (by simp) (by simp [hcloses])), h.once,
      h.fed, ?_⟩
    rw [← haccount, A.act hact]
    simp only [given, ← Multiset.coe_add]
    abel

/-- So it holds in every state of every run. -/
theorem run_driveInv {C : Drive P → DriveAction P → Prop}
    (hrun : Machine.Run Drive.step C (Drive.start P input) d) : DriveInv O input d :=
  hrun.inv driveInv_start fun h _ hstep => h.step (Drive.step_cases hstep)

/-- When the output is closed, every item is out or lost. -/
theorem DriveInv.done (h : DriveInv O input d) (hclosed : d.closes = 1) :
    items outs d.sent + d.lost = items ins input := by
  obtain ⟨hopened, hholds⟩ := O.empty h.inv (h.closed.mpr hclosed)
  have hfalse : d.opened = false := by
    rw [h.opened] at hopened
    exact Bool.eq_false_iff.mpr hopened
  have haccount := h.account
  rw [h.fed hfalse, hholds, items_nil, zero_add, zero_add] at haccount
  exact haccount

/-- When the output is closed, nothing is done any more. -/
theorem DriveInv.silent (h : DriveInv O input d) (hclosed : d.closes = 1) : ¬ P.Moves d.state := by
  rintro ⟨o, s', hact⟩
  exact (O.act h.inv hact).1 (h.closed.mpr hclosed)

/-- There is a step to do until the output is closed. -/
theorem DriveInv.stuck (h : DriveInv O input d) (hstuck : ∀ a, d.step a = none) : d.closes = 1 := by
  have hmoves : ¬ P.Moves d.state := by
    intro hmoves
    obtain ⟨a, d', hstep⟩ := Drive.step_of_moves hmoves
    rw [hstuck] at hstep
    cases hstep
  by_contra hcloses
  have hclosed : ¬ O.closed d.state := fun hc => hcloses (h.closed.mp hc)
  have hidle := fun hbusy => hmoves (O.progress h.inv hclosed hbusy)
  obtain ⟨hholds, hopened⟩ := not_or.mp hidle
  have hholds : A.holds d.state = 0 := not_not.mp hholds
  have hopened : O.opened d.state := not_not.mp hopened
  -- the process is empty and its input is open, so there is something to send or the input is to be
  -- closed
  rcases O.ready h.inv hopened hholds with hready | ⟨hrecv, state, hclose⟩
  · exact hmoves hready
  · have hopened := h.opened.mp hopened
    cases hpending : d.pending with
    | nil =>
      have := hstuck .close
      simp [Drive.step, hpending, hopened, hclose] at this
    | cons a rest =>
      obtain ⟨state, hstate⟩ := hrecv a
      have := hstuck .feed
      simp [Drive.step, hpending, hstate] at this

/-- A lossless process loses nothing. -/
theorem run_lossless {C : Drive P → DriveAction P → Prop} (hP : P.Lossless)
    (hrun : Machine.Run Drive.step C (Drive.start P input) d) : d.lost = [] := by
  refine hrun.inv (I := fun d => d.lost = []) rfl ?_
  intro d a d' h _ hstep
  cases Drive.step_cases hstep with
  | inside hact =>
    show d.lost ++ _ = []
    rw [h, hP _ _ _ hact]
    rfl
  | _ => exact h

/-- What a process keeps holds along a run, of what is sent from the beginning of the run on. -/
theorem run_keeps {C : Drive P → DriveAction P → Prop} {I : P.State → List β → Prop}
    (hP : P.Keeps I) (hd : I d.state []) (hrun : Machine.Run Drive.step C d d') :
    ∃ later, d'.sent = d.sent ++ later ∧ I d'.state later := by
  refine hrun.inv (I := fun d' => ∃ later, d'.sent = d.sent ++ later ∧ I d'.state later)
    ⟨[], (List.append_nil _).symm, hd⟩ ?_
  rintro d₁ a d₂ ⟨later, hsent, hI⟩ - hstep
  cases Drive.step_cases hstep with
  | feed _ hrecv => exact ⟨later, hsent, hP.recv hrecv hI⟩
  | close _ _ hrecv => exact ⟨later, hsent, hP.recvClose hrecv hI⟩
  | send hact => exact ⟨_, by rw [hsent, List.append_assoc]; rfl, hP.act hact hI⟩
  | sendClose hact => exact ⟨_, by rw [hsent, values, List.append_nil], hP.act hact hI⟩
  | inside hact => exact ⟨_, by rw [hsent, values, List.append_nil], hP.act hact hI⟩

end Invariant

/-! ## Termination -/

/-- What is left to do. -/
def Drive.rank {pay : α → Nat} {last : Nat} {price : β → Nat} {closing : Nat}
    (R : P.Ranked pay last price closing) (d : Drive P) : Nat :=
  R.rank d.state + (d.pending.map pay).sum + if d.opened then last else 0

/-- Every step lowers what is left to do, so that runs end. The values of the input and its end have
been paid for in advance. -/
theorem rank_step {pay : α → Nat} {last : Nat} {price : β → Nat} {closing : Nat}
    (R : P.Ranked pay last price closing) {d d' : Drive P} {a : DriveAction P}
    (h : d.step a = some d') : d'.rank R < d.rank R := by
  cases Drive.step_cases h with
  | feed hpending hrecv =>
    have := R.recv hrecv
    simp only [Drive.rank, hpending, List.map_cons, List.sum_cons]
    omega
  | close hpending hopened hrecv =>
    have := R.recvClose hrecv
    simp only [Drive.rank, hopened, if_true, Bool.false_eq_true, if_false]
    omega
  | send hact =>
    have := R.act hact
    simp only [Drive.rank]
    omega
  | sendClose hact =>
    have := R.act hact
    simp only [Drive.rank]
    omega
  | inside hact =>
    have := R.act hact
    simp only [Drive.rank]
    omega

end Proc
