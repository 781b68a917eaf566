import IbcRelayer.Lib.Machine
import IbcRelayer.Lib.Protocol

/-!
# Critical sections

Threads that share a state and a lock. A thread takes the lock, makes calls on the shared state and
gives the lock back; between two of its calls the others and the environment go on.

* `Service` — what calls and their answers, and events of the environment, do to the shared state.
* `Threads` — the shared state, the lock and the rest of each thread's program. Requests arrive at
  any time, and each is served by a thread of its own.
* `locked` — a program as a critical section.
* `sectioned` — the protocol of a thread: calls are made inside the section only, under a protocol
  with a ledger of its own, and the section is left only where the ledger permits it.
* `Resource` — an invariant of the shared state that holds while the lock is free, and what takes
  its place while a thread with a given ledger is inside. `Resource.run` is the rule for runs: the
  threads are looked at one by one.
-/

namespace Mutex

open CallTree Prog

variable {C : Type} {A : C → Type} {σ E R G α : Type}

/-! ## Threads -/

inductive Op (C : Type) where
  | lock
  | unlock
  | act (c : C)

@[reducible] def Op.Answer (A : C → Type) : Op C → Type
  | .lock => Unit
  | .unlock => Unit
  | .act c => A c

/-- A shared state. A call that cannot be answered in a given way, or not yet, has no effect. -/
structure Service (A : C → Type) (σ E : Type) where
  act : σ → (c : C) → A c → Option σ
  event : σ → E → Option σ

structure Threads (A : C → Type) (σ α : Type) where
  shared : σ
  holder : Option Nat := none
  threads : List (Prog (Op.Answer A) α) := []

inductive Action (A : C → Type) (E R : Type) where
  | request (r : R)
  /-- The thread `i` does its next operation; `answer` is what its call is answered. -/
  | step (i : Nat) (answer : (c : C) → A c)
  | event (e : E)

namespace Threads

variable (S : Service A σ E) (prog : R → Prog (Op.Answer A) α)

def set (s : Threads A σ α) (i : Nat) (p : Prog (Op.Answer A) α) : Threads A σ α :=
  { s with threads := s.threads.set i p }

theorem set_self {s : Threads A σ α} {i : Nat} {p q : Prog (Op.Answer A) α}
    (hi : s.threads[i]? = some p) : (s.set i q).threads[i]? = some q :=
  List.getElem?_set_self (List.getElem?_eq_some_iff.mp hi).1

/-- A step of one thread, or an event of the environment. A thread that waits for the lock has no
step while somebody holds it; whoever gives it back need not hold it, as far as the machine is
concerned. -/
def step (s : Threads A σ α) : Action A E R → Option (Threads A σ α)
  | .request r => some { s with threads := s.threads ++ [prog r] }
  | .step i answer =>
    match s.threads[i]? with
    -- the lock is free, or the thread waits
    | some (.call .lock k) =>
      if s.holder.isNone then some { s.set i (k ()) with holder := some i } else none
    | some (.call .unlock k) => some { s.set i (k ()) with holder := none }
    | some (.call (.act c) k) =>
      -- a call whose answer the shared state does not allow is not made yet
      (S.act s.shared c (answer c)).map fun shared => { s.set i (k (answer c)) with shared }
    | _ => none
  | .event e => (S.event s.shared e).map ({ s with shared := · })

/-- The steps of the threads, one case for each. -/
inductive Step (s : Threads A σ α) : Threads A σ α → Prop where
  | request (r : R) : Step s { s with threads := s.threads ++ [prog r] }
  | lock {i k} (hi : s.threads[i]? = some (.call .lock k)) (hfree : s.holder = none) :
      Step s { s.set i (k ()) with holder := some i }
  | unlock {i k} (hi : s.threads[i]? = some (.call .unlock k)) :
      Step s { s.set i (k ()) with holder := none }
  | act {i c k r shared} (hi : s.threads[i]? = some (.call (.act c) k))
      (h : S.act s.shared c r = some shared) : Step s { s.set i (k r) with shared }
  | event {e shared} (h : S.event s.shared e = some shared) : Step s { s with shared }

variable {S prog}

/-- The inversion of `step`, with what is known in each case. Every invariant below goes through it.
-/
theorem step_cases {s s' : Threads A σ α} {a : Action A E R} (h : s.step S prog a = some s') :
    Step S prog s s' := by
  cases a with
  | request r =>
    cases h
    exact .request r
  | step i answer =>
    simp only [step] at h
    split at h
    · rename_i k hi
      split at h
      · rename_i hfree
        cases h
        exact .lock hi (Option.isNone_iff_eq_none.mp hfree)
      · cases h
    · rename_i k hi
      cases h
      exact .unlock hi
    · rename_i c k hi
      obtain ⟨shared, hact, rfl⟩ := Option.map_eq_some_iff.mp h
      exact .act hi hact
    · cases h
  | event e =>
    obtain ⟨shared, hevent, rfl⟩ := Option.map_eq_some_iff.mp h
    exact .event hevent

end Threads

/-- A program as a critical section. -/
def locked (body : Prog A α) : Prog (Op.Answer A) α :=
  .call .lock fun _ => body.translate (fun c => .call (.act c) .done) >>= fun a =>
    .call .unlock fun _ => .done a

/-! ## The protocol of a thread -/

section Protocol

variable (pr : Protocol A G) (enter : G) (leaves : G → Prop)

/-- The ledger is `none` outside the section. -/
def sectioned : Protocol (Op.Answer A) (Option G) where
  allows
    | none, .lock => True
    | some g, .unlock => leaves g
    | some g, .act c => pr.allows g c
    | _, _ => False
  next
    | some g, .act c, r => some (pr.next g c r)
    | none, .lock, _ => some enter
    | _, _, _ => none

/-- The rest of a thread, whose section is still to come, under way or over. -/
def Sectioned (p : Prog (Op.Answer A) α) (g : Option G) : Prop :=
  (sectioned pr enter leaves).Obeys p g fun _ g' => g' = none

variable {pr enter leaves}

/-- A program that obeys `pr` from the ledger `enter` on, and ends where the section may be left, is
a thread that keeps to the protocol. -/
theorem sectioned_locked {body : Prog A α} (h : pr.Obeys body enter fun _ g => leaves g) :
    Sectioned pr enter leaves (locked body) none := by
  refine ⟨trivial, fun _ => ?_⟩
  -- inside the section the ledger is that of `pr`
  have hinside : ∀ (p : Prog A α) (g : G), (pr.Obeys p g fun _ g' => leaves g') →
      (sectioned pr enter leaves).Obeys (p.translate fun c => .call (.act c) .done) (some g)
        fun _ g' => ∃ g'', g' = some g'' ∧ leaves g'' := by
    intro p
    induction p with
    | done a => exact fun g hg => ⟨g, rfl, hg⟩
    | call c k ih => exact fun g hg => ⟨hg.1, fun r => ih r _ (hg.2 r)⟩
  refine (hinside body enter h).bind fun a g' hg' => ?_
  obtain ⟨g, rfl, hleaves⟩ := hg'
  exact ⟨hleaves, fun _ => rfl⟩

end Protocol

/-! ## The invariant of the shared state -/

/-- `Free` holds while nobody is inside; `Held g` holds while a thread with the ledger `g` is. -/
structure Resource (S : Service A σ E) (pr : Protocol A G) (enter : G) (leaves : G → Prop) where
  Free : σ → Prop
  Held : G → σ → Prop
  enter : ∀ {s}, Free s → Held enter s
  leave : ∀ {g s}, Held g s → leaves g → Free s
  act : ∀ {g s c r s'}, Held g s → pr.allows g c → S.act s c r = some s' → Held (pr.next g c r) s'
  free_event : ∀ {s e s'}, Free s → S.event s e = some s' → Free s'
  held_event : ∀ {g s e s'}, Held g s → S.event s e = some s' → Held g s'

namespace Resource

variable {S : Service A σ E} {pr : Protocol A G} {enter : G} {leaves : G → Prop}
  (I : Resource S pr enter leaves)

/-- The state of the shared state and of the lock's holder. -/
def Protected (s : Threads A σ α) : Option Nat → Prop
  | none => I.Free s.shared
  | some i => ∃ p g, s.threads[i]? = some p ∧ Sectioned pr enter leaves p (some g)
      ∧ I.Held g s.shared

/-- The threads that do not hold the lock are outside their section. -/
structure Inv (s : Threads A σ α) : Prop where
  outside : ∀ i p, s.threads[i]? = some p → s.holder ≠ some i → Sectioned pr enter leaves p none
  resource : I.Protected s s.holder

variable {I} {s s' : Threads A σ α}

/-- The other threads stay where they are. -/
theorem Inv.others (h : I.Inv s) {i : Nat} {p : Prog (Op.Answer A) α} {j : Nat}
    {q : Prog (Op.Answer A) α} (hj : (s.threads.set i p)[j]? = some q) (hne : j ≠ i)
    (hholder : s.holder ≠ some j) : Sectioned pr enter leaves q none := by
  rw [List.getElem?_set_ne (Ne.symm hne)] at hj
  exact h.outside j q hj hholder

/-- A thread whose next operation is not allowed outside a section holds the lock. -/
theorem Inv.holds (h : I.Inv s) {i : Nat} {p : Prog (Op.Answer A) α}
    (hi : s.threads[i]? = some p) (hp : ¬ Sectioned pr enter leaves p none) :
    s.holder = some i ∧ ∃ g, Sectioned pr enter leaves p (some g) ∧ I.Held g s.shared := by
  have hholder : s.holder = some i := by
    by_contra hne
    exact hp (h.outside i p hi hne)
  have hresource := h.resource
  rw [hholder] at hresource
  obtain ⟨p', g, hi', hsection, hheld⟩ := hresource
  cases hi.symm.trans hi'
  exact ⟨hholder, g, hsection, hheld⟩

/-- Every step keeps the invariant. Only a thread with the lock can act on the shared state, so that
the ledger that the invariant speaks of is that of this thread; a thread outside may come in when
nobody is there. -/
theorem Inv.step {prog : R → Prog (Op.Answer A) α}
    (hprog : ∀ r, Sectioned pr enter leaves (prog r) none) (h : I.Inv s)
    (hstep : Threads.Step S prog s s') : I.Inv s' := by
  cases hstep with
  -- the new thread is outside, the others are where they were
  | request r =>
    refine ⟨fun i p hi hholder => ?_, ?_⟩
    · by_cases hlt : i < s.threads.length
      · exact h.outside i p ((List.getElem?_append_left hlt).symm.trans hi) hholder
      · rw [List.getElem?_append_right (Nat.le_of_not_lt hlt)] at hi
        rw [List.mem_singleton.mp (List.mem_of_getElem? hi)]
        exact hprog r
    · have hresource := h.resource
      change I.Protected _ s.holder
      cases hholder : s.holder with
      | none =>
        rw [hholder] at hresource
        exact hresource
      | some i =>
        rw [hholder] at hresource
        obtain ⟨p, g, hi, hsection, hheld⟩ := hresource
        have hlt := (List.getElem?_eq_some_iff.mp hi).1
        exact ⟨p, g, (List.getElem?_append_left hlt).trans hi, hsection, hheld⟩
  | @lock i k hi hfree =>
    have hsection := h.outside i _ hi (by simp [hfree])
    have hresource := h.resource
    rw [hfree] at hresource
    refine ⟨fun j q hj hne => ?_, ?_⟩
    · have hne : j ≠ i := fun heq => hne (heq ▸ rfl)
      exact h.others hj hne (by simp [hfree])
    · exact ⟨k (), enter, Threads.set_self hi, hsection.2 (), I.enter hresource⟩
  -- the thread was inside, since its next operation is not allowed outside
  | @unlock i k hi =>
    obtain ⟨hholder, g, hsection, hheld⟩ := h.holds hi (fun hno => hno.1)
    refine ⟨fun j q hj _ => ?_, I.leave hheld hsection.1⟩
    by_cases hji : j = i
    · subst hji
      cases (Threads.set_self hi).symm.trans hj
      exact hsection.2 ()
    · exact h.others hj hji (by simpa [hholder] using Ne.symm hji)
  | @act i c k r shared hi hact =>
    obtain ⟨hholder, g, hsection, hheld⟩ := h.holds hi (fun hno => hno.1)
    refine ⟨fun j q hj hne => ?_, ?_⟩
    · have hji : j ≠ i := fun heq => hne (heq ▸ hholder)
      exact h.others hj hji hne
    · change I.Protected _ s.holder
      rw [hholder]
      exact ⟨k r, _, Threads.set_self hi, hsection.2 r, I.act hheld hsection.1 hact⟩
  -- the environment may do this whether somebody is inside or not
  | event hevent =>
    refine ⟨h.outside, ?_⟩
    have hresource := h.resource
    change I.Protected _ s.holder
    cases hholder : s.holder with
    | none =>
      rw [hholder] at hresource
      exact I.free_event hresource hevent
    | some i =>
      rw [hholder] at hresource
      obtain ⟨p, g, hi, hsection, hheld⟩ := hresource
      exact ⟨p, g, hi, hsection, I.held_event hheld hevent⟩

/-- **The rule of the critical section.** If every thread keeps to the protocol of its section, the
shared state is as the invariant says in every state of every run. -/
theorem run {prog : R → Prog (Op.Answer A) α}
    (hprog : ∀ r, Sectioned pr enter leaves (prog r) none) {shared : σ} (hfree : I.Free shared)
    {P : Threads A σ α → Action A E R → Prop}
    (hrun : Machine.Run (Threads.step S prog) P { shared } s) :
    I.Free s.shared ∨ ∃ g, I.Held g s.shared := by
  have hinv : I.Inv s := by
    refine hrun.inv (I := I.Inv) ⟨by simp, hfree⟩ fun h _ hstep => ?_
    exact h.step hprog (Threads.step_cases hstep)
  have hresource := hinv.resource
  cases hholder : s.holder with
  | none =>
    rw [hholder] at hresource
    exact .inl hresource
  | some i =>
    rw [hholder] at hresource
    obtain ⟨_, g, -, -, hheld⟩ := hresource
    exact .inr ⟨g, hheld⟩

end Resource

end Mutex
