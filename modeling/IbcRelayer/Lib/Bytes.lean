import Mathlib.Algebra.Ring.Nat
import Mathlib.Data.List.Basic

/-!
# Numbers as bytes

A number is written with a fixed number of bytes, the most significant one first. What does not fit
is cut off.

* `bigEndian_inj` — numbers that fit are told apart.
* `append_bigEndian_inj` — so are words that end in such a number.
-/

namespace Bytes

/-- The last byte is the least significant one. -/
def bigEndian : Nat → Nat → List UInt8
  | 0, _ => []
  | width + 1, n => bigEndian width (n / 256) ++ [UInt8.ofNat n]

variable {width m n : Nat} {u v : List UInt8}

@[simp] theorem length_bigEndian (width n : Nat) : (bigEndian width n).length = width := by
  induction width generalizing n with
  | zero => rfl
  | succ width ih => simp [bigEndian, ih]

/-- Numbers that fit are told apart. Induction on the width: the last byte is the number modulo 256,
and the bytes before it are those of the quotient. -/
theorem bigEndian_inj (hm : m < 256 ^ width) (hn : n < 256 ^ width)
    (h : bigEndian width m = bigEndian width n) : m = n := by
  induction width generalizing m n with
  | zero => omega
  | succ width ih =>
    obtain ⟨hhigh, hlow⟩ := List.append_inj' h rfl
    have hbyte : m % 256 = n % 256 := by
      have hbyte := congrArg UInt8.toNat (List.singleton_inj.mp hlow)
      simpa using hbyte
    have hrest : m / 256 = n / 256 := by
      refine ih ?_ ?_ hhigh <;> rw [Nat.pow_succ] at hm hn <;> omega
    omega

/-- The tail of a fixed width is split off first. -/
theorem append_bigEndian_inj (hm : m < 256 ^ width) (hn : n < 256 ^ width)
    (h : u ++ bigEndian width m = v ++ bigEndian width n) : u = v ∧ m = n := by
  obtain ⟨hword, hnumber⟩ := List.append_inj' h (by simp)
  exact ⟨hword, bigEndian_inj hm hn hnumber⟩

end Bytes
