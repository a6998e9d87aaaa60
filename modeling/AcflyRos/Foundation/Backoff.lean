import Mathlib.Algebra.Order.GroupWithZero.Basic
import Mathlib.Algebra.Order.Ring.Int
import Mathlib.Algebra.Order.Ring.Unbundled.Basic

/-! # Exponential backoff

Delays that start at a given one and double after each attempt, up to a ceiling. A program that
stores the current delay doubles what it has stored; the result is the delay of the number of
attempts.
-/

namespace AcflyRos.Backoff

universe u

variable {α : Type u} [CommSemiring α] [LinearOrder α] {first ceiling : α}

/-- The delay after that many attempts. -/
def delay (first ceiling : α) (attempts : Nat) : α := min (first * 2 ^ attempts) ceiling

theorem delay_zero (hfirst : first ≤ ceiling) : delay first ceiling 0 = first := by
  rw [delay, pow_zero, mul_one, min_eq_left hfirst]

theorem delay_le (attempts : Nat) : delay first ceiling attempts ≤ ceiling := min_le_right _ _

variable [IsStrictOrderedRing α]

theorem le_delay (hpos : 0 ≤ first) (hfirst : first ≤ ceiling) (attempts : Nat) :
    first ≤ delay first ceiling attempts :=
  le_min (le_mul_of_one_le_right hpos (one_le_pow₀ one_le_two)) hfirst

/-- Doubling the stored delay keeps it in step. -/
theorem delay_succ (hpos : 0 ≤ ceiling) (attempts : Nat) :
    delay first ceiling (attempts + 1) = min (delay first ceiling attempts * 2) ceiling := by
  have hdouble : ceiling ≤ ceiling * 2 := le_mul_of_one_le_right hpos one_le_two
  rw [delay, delay, min_mul_of_nonneg _ _ zero_le_two, min_assoc, min_eq_right hdouble, pow_succ,
    mul_assoc]

theorem delay_mono (hpos : 0 ≤ first) {fewer more : Nat} (hle : fewer ≤ more) :
    delay first ceiling fewer ≤ delay first ceiling more :=
  min_le_min_right ceiling (mul_le_mul_of_nonneg_left (pow_le_pow_right₀ one_le_two hle) hpos)

end AcflyRos.Backoff
