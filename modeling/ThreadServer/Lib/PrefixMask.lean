/-
  Prefix masks: vectors whose leading bits are set.

  Masking by `prefixMask w n` keeps the `n` most significant bits, so two vectors are equal under
  the mask exactly when those bits are (`and_prefixMask_eq_iff`).  As a number the mask is a
  difference of two powers of two (`toNat_prefixMask`), which is how programs compute it.
-/
import Mathlib.Algebra.Group.Nat.Defs

namespace PrefixMask

variable {w : Nat}

/-- The vector of `w` bits whose `n` most significant bits are set. -/
def prefixMask (w n : Nat) : BitVec w := BitVec.allOnes w <<< (w - n)

theorem getMsbD_prefixMask {n : Nat} (h : n ≤ w) (i : Nat) :
    (prefixMask w n).getMsbD i = decide (i < n) := by
  rw [prefixMask, BitVec.getMsbD_shiftLeft, BitVec.getMsbD_allOnes]
  have hlt : i + (w - n) < w ↔ i < n := by omega
  exact decide_eq_decide.mpr hlt

/-- **A prefix mask compares the leading bits.** -/
theorem and_prefixMask_eq_iff {n : Nat} (h : n ≤ w) (x a : BitVec w) :
    x &&& prefixMask w n = a &&& prefixMask w n ↔ ∀ i < n, x.getMsbD i = a.getMsbD i := by
  constructor
  · intro heq i hi
    have hbit := congrArg (fun v : BitVec w => v.getMsbD i) heq
    have hmask : (prefixMask w n).getMsbD i = true := by
      rw [getMsbD_prefixMask h, decide_eq_true hi]
    simpa only [BitVec.getMsbD_and, hmask, Bool.and_true] using hbit
  · intro hbits
    apply BitVec.eq_of_getMsbD_eq
    intro i _
    rw [BitVec.getMsbD_and, BitVec.getMsbD_and, getMsbD_prefixMask h]
    by_cases hi : i < n
    · rw [hbits i hi]
    · rw [decide_eq_false hi, Bool.and_false, Bool.and_false]

/-- The mask is what is left of `2 ^ w` without the numbers of the other bits. -/
theorem toNat_prefixMask (w n : Nat) : (prefixMask w n).toNat = 2 ^ w - 2 ^ (w - n) := by
  have hpos : 0 < 2 ^ (w - n) := Nat.two_pow_pos _
  have hle : 2 ^ (w - n) ≤ 2 ^ w := Nat.pow_le_pow_right (by omega) (Nat.sub_le w n)
  have hmul : 2 ^ w ≤ 2 ^ w * 2 ^ (w - n) := Nat.le_mul_of_pos_right _ hpos
  -- the shift moves all but one multiple of `2 ^ w` out of the vector
  have hsplit : (2 ^ w - 1) * 2 ^ (w - n)
      = (2 ^ w - 2 ^ (w - n)) + 2 ^ w * (2 ^ (w - n) - 1) := by
    rw [Nat.sub_mul, Nat.mul_sub, Nat.one_mul, Nat.mul_one]
    omega
  rw [prefixMask, BitVec.toNat_shiftLeft, BitVec.toNat_allOnes, Nat.shiftLeft_eq, hsplit,
    Nat.add_mul_mod_self_left]
  exact Nat.mod_eq_of_lt (by omega)

end PrefixMask
