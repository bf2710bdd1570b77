import Mathlib.Order.Lattice
import Mathlib.Algebra.Order.Ring.Nat

/-!
# Saturating products

A product that is cut at a bound. Cutting a factor too changes nothing, so
a chain of saturating products is the exact product cut once.
-/

namespace Common

/-- `x` cut at `bound`. -/
def saturate (bound x : ℕ) : ℕ := min bound x

namespace Saturate

variable {bound x y : ℕ}

theorem of_le (h : x ≤ bound) : saturate bound x = x := min_eq_right h

theorem of_ge (h : bound ≤ x) : saturate bound x = bound := min_eq_left h

theorem mono (h : x ≤ y) : saturate bound x ≤ saturate bound y := min_le_min_left bound h

/-- **A cut factor** gives the same cut product. -/
theorem mul_left (bound x y : ℕ) :
    saturate bound (saturate bound x * y) = saturate bound (x * y) := by
  rcases le_total x bound with hle | hge
  · rw [of_le hle]
  · rw [of_ge hge]
    rcases Nat.eq_zero_or_pos y with rfl | hy
    · rw [Nat.mul_zero, Nat.mul_zero]
    -- with a factor of at least one both products reach the bound
    · rw [of_ge (Nat.le_mul_of_pos_right bound hy),
        of_ge (hge.trans (Nat.le_mul_of_pos_right x hy))]

theorem mul_right (bound x y : ℕ) :
    saturate bound (x * saturate bound y) = saturate bound (x * y) := by
  rw [Nat.mul_comm, mul_left, Nat.mul_comm]

end Saturate

end Common
