import Mathlib.Data.List.Basic

/-!
# Stores

A store is read by keys and written entry by entry: `write` puts the value of an entry under its
key and leaves what is under the other keys (`Writes`). Nothing is said about how a store is made,
so nested maps are stores whose keys are paths.

* `Writes.foldl_of_mem`, `Writes.foldl_of_forall_ne` — what is read after a list of entries is
  written, in any order, under a written key and under another one.
-/

namespace Store

variable {σ ε κ ν : Type*} [DecidableEq κ]

/-- `write` puts the value of an entry under its key. -/
def Writes (read : σ → κ → Option ν) (key : ε → κ) (value : ε → ν) (write : σ → ε → σ) : Prop :=
  ∀ s e k, read (write s e) k = if key e = k then some (value e) else read s k

variable {read : σ → κ → Option ν} {key : ε → κ} {value : ε → ν} {write : σ → ε → σ}

/-- Entries under other keys do not matter. -/
theorem Writes.foldl_of_forall_ne (h : Writes read key value write) {entries : List ε} {k : κ}
    (hne : ∀ e ∈ entries, key e ≠ k) (s : σ) : read (entries.foldl write s) k = read s k := by
  induction entries generalizing s with
  | nil => rfl
  | cons e entries ih =>
    obtain ⟨he, hne⟩ := List.forall_mem_cons.mp hne
    rw [List.foldl_cons, ih hne, h, if_neg he]

/-- The entries under one key have one value, so it does not matter which of them comes last. -/
theorem Writes.foldl_of_mem (h : Writes read key value write) {entries : List ε} {k : κ} {v : ν}
    (hmem : ∃ e ∈ entries, key e = k) (hvalue : ∀ e ∈ entries, key e = k → value e = v) (s : σ) :
    read (entries.foldl write s) k = some v := by
  induction entries generalizing s with
  | nil =>
    obtain ⟨e, he, -⟩ := hmem
    cases he
  | cons e entries ih =>
    obtain ⟨he, hvalue⟩ := List.forall_mem_cons.mp hvalue
    rw [List.foldl_cons]
    by_cases hlater : ∃ e' ∈ entries, key e' = k
    · exact ih hlater hvalue _
    · -- the first entry is the only one under this key
      have hne : ∀ e' ∈ entries, key e' ≠ k := fun e' he' hkey => hlater ⟨e', he', hkey⟩
      obtain ⟨e', he', hkey⟩ := hmem
      rcases List.mem_cons.mp he' with rfl | he'
      · rw [h.foldl_of_forall_ne hne, h, if_pos hkey, he hkey]
      · exact absurd hkey (hne e' he')

end Store
