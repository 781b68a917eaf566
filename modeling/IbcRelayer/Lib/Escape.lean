import Mathlib.Data.List.Basic

/-!
# Doubled separators

Two words are joined by a separator, after each separator inside a word was doubled. The code is not
uniquely decodable: in the middle of it stand the doubled separators at the end of the first word,
the one that joins, and the doubled ones at the start of the second word, and nothing tells how many
of them belong to which word.

* `Shift` — separators at the end of one word have moved to the start of the other.
* `join_eq_join_iff` — that is all that the code does not tell.
-/

namespace Escape

variable {α : Type*} {sep a : α} {u v w u' v' w' : List α}

/-! ## Shifts -/

/-- The end of `u'` that `u` lacks is separators, and `v` starts with as many of them. -/
def Shift (sep : α) (u v u' v' : List α) : Prop :=
  ∃ k, u' = u ++ List.replicate k sep ∧ v = List.replicate k sep ++ v'

theorem Shift.refl (u v : List α) : Shift sep u v u v := ⟨0, by simp, by simp⟩

/-- A letter in front of both first words changes nothing about what has moved. -/
theorem Shift.cons (a : α) (h : Shift sep u v u' v') : Shift sep (a :: u) v (a :: u') v' := by
  obtain ⟨k, rfl, hv⟩ := h
  exact ⟨k, rfl, hv⟩

/-! ## The code -/

variable [DecidableEq α]

/-- Every separator of a word is doubled. -/
def double (sep : α) (w : List α) : List α :=
  w.flatMap fun a => if a = sep then [sep, sep] else [a]

def join (sep : α) (u v : List α) : List α := double sep u ++ sep :: double sep v

@[simp] theorem double_nil : double sep [] = [] := rfl

@[simp] theorem double_sep (w : List α) : double sep (sep :: w) = sep :: sep :: double sep w := by
  simp [double]

theorem double_cons (ha : a ≠ sep) (w : List α) : double sep (a :: w) = a :: double sep w := by
  simp [double, ha]

theorem double_append (w w' : List α) : double sep (w ++ w') = double sep w ++ double sep w' :=
  List.flatMap_append

/-- A single word can be read back: the code of a letter tells whether it was a separator. Induction
on the word, the first letters compared. -/
theorem double_injective : Function.Injective (double sep) := by
  intro w
  induction w with
  | nil =>
    rintro (_ | ⟨b, w'⟩) h
    · rfl
    · by_cases hb : b = sep
      · subst hb
        simp at h
      · simp [double_cons hb] at h
  | cons a w ih =>
    rintro (_ | ⟨b, w'⟩) h
    · by_cases ha : a = sep
      · subst ha
        simp at h
      · simp [double_cons ha] at h
    · -- the first letters are both doubled, or neither is
      by_cases ha : a = sep <;> by_cases hb : b = sep
      · subst ha hb
        simp only [double_sep, List.cons.injEq, true_and] at h
        rw [ih h]
      · subst ha
        simp only [double_sep, double_cons hb, List.cons.injEq] at h
        exact absurd h.1.symm hb
      · subst hb
        simp only [double_sep, double_cons ha, List.cons.injEq] at h
        exact absurd h.1 ha
      · simp only [double_cons ha, double_cons hb, List.cons.injEq] at h
        rw [h.1, ih h.2]

@[simp] theorem join_nil (v : List α) : join sep [] v = sep :: double sep v := rfl

@[simp] theorem join_sep (u v : List α) : join sep (sep :: u) v = sep :: sep :: join sep u v := by
  simp [join]

/-- A letter that is no separator comes out of a code as it went in. -/
theorem join_cons (ha : a ≠ sep) (u v : List α) : join sep (a :: u) v = a :: join sep u v := by
  simp [join, double_cons ha]

/-- A code that starts with the separator that joins. If the other first word is not empty, it
consists of separators only, each of which takes two places of the code and so one from the start of
`v`. -/
theorem shift_of_nil (h : join sep [] v = join sep u' v') : Shift sep [] v u' v' := by
  induction u' generalizing v with
  | nil =>
    obtain rfl := double_injective (List.cons.inj h).2
    exact .refl [] v
  | cons b u' ih =>
    by_cases hb : b = sep
    · subst hb
      rw [join_nil, join_sep] at h
      have hv : double b v = b :: join b u' v' := (List.cons.inj h).2
      -- the second separator of the code is doubled too, at the start of `v`
      cases v with
      | nil => cases hv
      | cons c v =>
        by_cases hc : c = b
        · subst hc
          rw [double_sep] at hv
          obtain ⟨k, hu', hv'⟩ := ih (v := v) (List.cons.inj hv).2
          exact ⟨k + 1, by rw [hu']; rfl, by rw [hv']; rfl⟩
        · rw [double_cons hc] at hv
          exact absurd (List.cons.inj hv).1 hc
    · rw [join_nil, join_cons hb] at h
      exact absurd (List.cons.inj h).1.symm hb

/-- Two pairs with one code: the first words are read letter by letter, until one of them ends. From
there on it is `shift_of_nil`, for the one or the other order. -/
theorem shift_of_join_eq (h : join sep u v = join sep u' v') :
    Shift sep u v u' v' ∨ Shift sep u' v' u v := by
  induction u generalizing u' with
  | nil => exact .inl (shift_of_nil h)
  | cons a u ih =>
    cases u' with
    | nil => exact .inr (shift_of_nil h.symm)
    | cons b u' =>
      -- a separator and another letter start with different letters of the code
      by_cases ha : a = sep <;> by_cases hb : b = sep
      · subst ha hb
        simp only [join_sep, List.cons.injEq, true_and] at h
        exact (ih h).imp (.cons _) (.cons _)
      · subst ha
        rw [join_sep, join_cons hb] at h
        exact absurd (List.cons.inj h).1.symm hb
      · subst hb
        rw [join_sep, join_cons ha] at h
        exact absurd (List.cons.inj h).1 ha
      · rw [join_cons ha, join_cons hb] at h
        obtain ⟨rfl, hrest⟩ := List.cons.inj h
        exact (ih hrest).imp (.cons _) (.cons _)

/-- A shift does not show in the code, since the separator that joins looks like the halves of the
doubled ones. -/
theorem Shift.join_eq (h : Shift sep u v u' v') : join sep u v = join sep u' v' := by
  obtain ⟨k, rfl, rfl⟩ := h
  unfold join
  rw [double_append, double_append, List.append_assoc]
  congr 1
  -- the separator that joins goes past the doubled ones
  induction k with
  | zero => rfl
  | succ k ih =>
    rw [List.replicate_succ, double_sep, List.cons_append, List.cons_append, ih]
    rfl

/-- **What the code does not tell**: two pairs of words have one code if and only if one is a shift
of the other. -/
theorem join_eq_join_iff :
    join sep u v = join sep u' v' ↔ Shift sep u v u' v' ∨ Shift sep u' v' u v := by
  constructor
  · exact shift_of_join_eq
  · rintro (h | h)
    · exact h.join_eq
    · exact h.join_eq.symm

end Escape
