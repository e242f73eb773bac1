/-
Module: MallocHook.Lib.Alignment
Purpose: Alignment of 64-bit words by masks: rounding down, and rounding up unless the sum wraps.
Trusted boundary: none
Main exports: Alignment.isPow_iff, Alignment.toNat_down
-/
import Mathlib.Data.UInt
import MallocHook.Lib.Grid

namespace Alignment

variable {x a : UInt64} {k : Nat}

theorem toNat_sub_one (pos : a ≠ 0) : (a - 1).toNat = a.toNat - 1 := by
  refine UInt64.toNat_sub_of_le _ _ ?_
  rw [UInt64.le_iff_toNat_le]
  exact Nat.pos_of_ne_zero fun zero => pos (UInt64.toNat_inj.1 zero)

/-- The test for a power of two. -/
theorem isPow_iff : (a ≠ 0 ∧ a &&& (a - 1) = 0) ↔ ∃ k, a.toNat = 2 ^ k := by
  by_cases zero : a = 0
  · subst zero
    simp only [ne_eq, not_true, false_and, false_iff, not_exists]
    exact fun k same => absurd same.symm (Nat.ne_of_gt (Nat.two_pow_pos k))
  · have nonzero : a.toNat ≠ 0 := fun same => zero (UInt64.toNat_inj.1 same)
    rw [← UInt64.toNat_inj, UInt64.toNat_and, toNat_sub_one zero]
    simp only [ne_eq, zero, not_false_iff, true_and]
    exact Nat.and_sub_one_eq_zero_iff_isPowerOfTwo nonzero

/-- The bits in a mask and the others. -/
theorem toNat_and_add_toNat_and_not (x mask : UInt64) :
    (x &&& mask).toNat + (x &&& ~~~mask).toNat = x.toNat := by
  have apart : (x.toBitVec &&& mask.toBitVec) &&& (x.toBitVec &&& ~~~mask.toBitVec) = 0#64 := by
    ext i
    simp only [BitVec.getElem_and, BitVec.getElem_not, BitVec.getElem_zero]
    cases x.toBitVec[i] <;> cases mask.toBitVec[i] <;> rfl
  have joined : (x.toBitVec &&& mask.toBitVec) ||| (x.toBitVec &&& ~~~mask.toBitVec) = x.toBitVec := by
    ext i
    simp only [BitVec.getElem_or, BitVec.getElem_and, BitVec.getElem_not]
    cases x.toBitVec[i] <;> cases mask.toBitVec[i] <;> rfl
  have sum := congrArg BitVec.toNat (BitVec.add_eq_or_of_and_eq_zero _ _ apart)
  rw [joined, BitVec.toNat_add_of_and_eq_zero apart] at sum
  exact sum

theorem toNat_down (isPow : a.toNat = 2 ^ k) : (x &&& ~~~(a - 1)).toNat = x.toNat / a.toNat * a.toNat := by
  have pos : a ≠ 0 := (isPow_iff.2 ⟨k, isPow⟩).1
  have below : (x &&& (a - 1)).toNat = x.toNat % a.toNat := by
    rw [UInt64.toNat_and, toNat_sub_one pos, isPow, Nat.and_two_pow_sub_one_eq_mod]
  have whole := toNat_and_add_toNat_and_not x (a - 1)
  have parts := Nat.div_add_mod' x.toNat a.toNat
  omega

/-- Rounding up: the word of the multiple, which may be `2 ^ 64`. -/
theorem up_eq (isPow : a.toNat = 2 ^ k) (fits : x.toNat + a.toNat - 1 ≤ 2 ^ 64) :
    (x + a - 1) &&& ~~~(a - 1) = UInt64.ofNat (Grid.stepsTo 0 a.toNat x.toNat * a.toNat) := by
  have pos := (isPow_iff.2 ⟨k, isPow⟩).1
  have one : 1 ≤ a.toNat := Nat.pos_of_ne_zero fun zero => pos (UInt64.toNat_inj.1 zero)
  have sum : (x + a - 1).toNat = (x.toNat + a.toNat - 1) % 2 ^ 64 := by
    rw [UInt64.sub_eq_add_neg, UInt64.add_assoc, ← UInt64.sub_eq_add_neg, UInt64.toNat_add,
      toNat_sub_one pos,
      ← Nat.add_sub_assoc one]
  have steps : Grid.stepsTo 0 a.toNat x.toNat = (x.toNat + a.toNat - 1) / a.toNat := rfl
  rw [← UInt64.toNat_inj, toNat_down isPow, sum, steps, UInt64.toNat_ofNat']
  rcases Nat.lt_or_eq_of_le fits with below | exact_
  · have small := Nat.div_mul_le_self (x.toNat + a.toNat - 1) a.toNat
    rw [Nat.mod_eq_of_lt below, Nat.mod_eq_of_lt (Nat.lt_of_le_of_lt small below)]
  · -- the sum is a multiple already
    have divides : a.toNat ∣ 2 ^ 64 := by
      rw [isPow]
      exact Nat.pow_dvd_pow 2 (Nat.le_of_lt ((Nat.pow_lt_pow_iff_right (by decide)).1 (isPow ▸ a.toNat_lt)))
    rw [exact_, Nat.mod_self, Nat.zero_div, Nat.zero_mul, Nat.div_mul_cancel divides, Nat.mod_self]

/-- Rounding up without overflow. -/
theorem toNat_up (isPow : a.toNat = 2 ^ k) (fits : x.toNat + a.toNat - 1 < 2 ^ 64) :
    ((x + a - 1) &&& ~~~(a - 1)).toNat = Grid.stepsTo 0 a.toNat x.toNat * a.toNat := by
  have small : Grid.stepsTo 0 a.toNat x.toNat * a.toNat ≤ x.toNat + a.toNat - 1 := Nat.div_mul_le_self _ _
  rw [up_eq isPow fits.le, UInt64.toNat_ofNat', Nat.mod_eq_of_lt (Nat.lt_of_le_of_lt small fits)]

end Alignment
