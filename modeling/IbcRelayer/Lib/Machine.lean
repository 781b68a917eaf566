import Mathlib.Logic.Relation

/-!
# Machines

A machine is a function `step : S → A → Option S`: what the action `a` makes of the state `s`, or
`none` if it is not enabled there.

* `Run step P s s'` — any number of steps lead from `s` to `s'`, each of which meets the condition
  `P` on the state it starts from and the action.
* `Run.inv` — what every step keeps, every run keeps.
* `length_le` — a rank that every step lowers bounds the number of steps.
* `script` — the run of a list of actions.
-/

namespace Machine

variable {S A : Type*} {step : S → A → Option S} {P Q : S → A → Prop} {s s' s'' : S}

/-- Any number of steps from one state to another, each of which meets `P`. -/
def Run (step : S → A → Option S) (P : S → A → Prop) : S → S → Prop :=
  Relation.ReflTransGen fun s s' => ∃ a, P s a ∧ step s a = some s'

theorem Run.refl : Run step P s s := Relation.ReflTransGen.refl

theorem Run.trans (h : Run step P s s') (h' : Run step P s' s'') : Run step P s s'' :=
  Relation.ReflTransGen.trans h h'

theorem Run.cons {a : A} (hP : P s a) (hstep : step s a = some s') (h : Run step P s' s'') :
    Run step P s s'' :=
  Relation.ReflTransGen.head ⟨a, hP, hstep⟩ h

/-- A weaker condition on the steps allows more runs. -/
theorem Run.mono (hPQ : ∀ s a, P s a → Q s a) (h : Run step P s s') : Run step Q s s' := by
  refine Relation.ReflTransGen.mono ?_ _ _ h
  rintro s s' ⟨a, hP, hstep⟩
  exact ⟨a, hPQ s a hP, hstep⟩

/-- What every step keeps, every run keeps. -/
theorem Run.inv {I : S → Prop} (h : Run step P s s') (hs : I s)
    (hstep : ∀ {s a s'}, I s → P s a → step s a = some s' → I s') : I s' := by
  induction h with
  | refl => exact hs
  | tail _ h ih =>
    obtain ⟨a, hP, h⟩ := h
    exact hstep ih hP h

/-- A sequence of steps, each of which lowers a rank, is no longer than the rank of its first state.
-/
theorem length_le (step : S → A → Option S) {rank : S → Nat}
    (hrank : ∀ s a s', step s a = some s' → rank s' < rank s) {f : Nat → S} {n : Nat}
    (h : ∀ i < n, ∃ a, step (f i) a = some (f (i + 1))) : n ≤ rank (f 0) := by
  -- after `i` steps the rank has gone down by `i` at least
  have hle : ∀ i ≤ n, rank (f i) + i ≤ rank (f 0) := by
    intro i hi
    induction i with
    | zero => exact Nat.le_refl _
    | succ i ih =>
      obtain ⟨a, ha⟩ := h i hi
      have := hrank _ a _ ha
      have := ih (Nat.le_of_succ_le hi)
      omega
  have := hle n (Nat.le_refl n)
  omega

/-- A list of actions, in order, each of which has to pass the check `ok`. -/
def script (step : S → A → Option S) (ok : S → A → Bool) (s : S) : List A → Option S
  | [] => some s
  | a :: as => if ok s a then (step s a).bind (script step ok · as) else none

/-- A list of actions that goes through is a run, with the check of each action as its condition.
This is how a concrete run is shown to exist: the script is evaluated. -/
theorem run_of_script {ok : S → A → Bool} (hok : ∀ s a, ok s a = true → P s a) {as : List A}
    (h : script step ok s as = some s') : Run step P s s' := by
  induction as generalizing s with
  | nil =>
    cases h
    exact .refl
  | cons a as ih =>
    rw [script] at h
    split at h
    · rename_i hs
      obtain ⟨s₁, hstep, h⟩ := Option.bind_eq_some_iff.mp h
      exact .cons (hok s a hs) hstep (ih h)
    · cases h

end Machine
