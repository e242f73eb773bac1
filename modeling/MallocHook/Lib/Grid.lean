/-
Module: MallocHook.Lib.Grid
Purpose: The grid of the points `base + k * step`, and the number of steps after which it has reached a
  bound.
Trusted boundary: none
Main exports: Grid.stepsTo, Grid.stepsTo_le_iff
-/
import Mathlib.Algebra.Order.Floor.Div

namespace Grid

/-- The number of steps from the base of a grid to its first point that is not before the bound. -/
def stepsTo (base step bound : Nat) : Nat := (bound - base + step - 1) / step

variable {base step bound bound' : Nat} (pos : 0 < step)
include pos

theorem stepsTo_le_iff {k : Nat} : stepsTo base step bound ≤ k ↔ bound ≤ base + k * step := by
  rw [stepsTo, ← Nat.ceilDiv_eq_add_pred_div, ceilDiv_le_iff_le_mul pos, Nat.mul_comm,
    Nat.sub_le_iff_le_add']

theorem le_stepsTo : bound ≤ base + stepsTo base step bound * step := (stepsTo_le_iff pos).1 (Nat.le_refl _)

theorem stepsTo_mono (le : bound ≤ bound') : stepsTo base step bound ≤ stepsTo base step bound' :=
  (stepsTo_le_iff pos).2 (le.trans (le_stepsTo pos))

/-- No step is needed to a bound that is not after the base. -/
theorem stepsTo_eq_zero (le : bound ≤ base) : stepsTo base step bound = 0 :=
  Nat.le_zero.1 ((stepsTo_le_iff pos).2 (le.trans (Nat.le_add_right _ _)))

/-- From a point of the grid the steps taken so far are missing. -/
theorem stepsTo_advance (k : Nat) : stepsTo (base + k * step) step bound = stepsTo base step bound - k := by
  refine eq_of_forall_ge_iff fun j => ?_
  rw [stepsTo_le_iff pos, Nat.sub_le_iff_le_add, stepsTo_le_iff pos, Nat.add_mul, Nat.add_assoc,
    Nat.add_comm (k * step)]

/-- To a point strictly after the bound. -/
theorem stepsTo_succ (le : base ≤ bound) : (bound - base) / step + 1 = stepsTo base step (bound + 1) := by
  refine eq_of_forall_ge_iff fun j => ?_
  rw [stepsTo_le_iff pos, Nat.succ_le_iff, Nat.div_lt_iff_lt_mul pos]
  omega

/-- The steps after the first one. -/
theorem isLeast_stepsTo :
    IsLeast {k | 1 ≤ k ∧ bound ≤ base + k * step} (stepsTo (base + step) step bound + 1) := by
  have shift (k : Nat) : base + step + k * step = base + (k + 1) * step := by
    rw [Nat.add_mul, Nat.one_mul, Nat.add_assoc, Nat.add_comm step]
  constructor
  · exact ⟨Nat.le_add_left _ _, shift _ ▸ le_stepsTo pos⟩
  · rintro (_ | k) ⟨later, reached⟩
    · cases later
    · exact Nat.succ_le_succ ((stepsTo_le_iff pos).2 (shift k ▸ reached))

/-- The first point of the grid that is not before the bound. -/
theorem isLeast_point :
    IsLeast {point | bound ≤ point ∧ ∃ k, point = base + k * step}
    (base + stepsTo base step bound * step) := by
  refine ⟨⟨le_stepsTo pos, _, rfl⟩, ?_⟩
  rintro point ⟨reached, k, rfl⟩
  exact Nat.add_le_add_left (Nat.mul_le_mul_right _ ((stepsTo_le_iff pos).2 reached)) _

end Grid
