import Mathlib.Order.MinMax
import Mathlib.Algebra.Order.Ring.Int

/-! # Linear interpolation with a truncating division

The line through `(x₀, y₀)` and `(x₁, y₁)` read at `p` in integers, as code computes it with one
multiplication and one division that truncates toward zero:
`y₀ + (y₁ - y₀) * (p - x₀) / (x₁ - x₀)` (`tlerp`).  On `[x₀, x₁]`, with `x₀ < x₁`:

* it takes the two end values at the two end points (`tlerp_left`, `tlerp_right`);
* it is monotone in the direction of the segment (`tlerp_mono`, `tlerp_anti`), since a
  truncating division by a positive number is monotone in the dividend;
* so it stays between the two end values (`tlerp_mem`).

Nothing here names the program. -/

namespace Interpolation

/-- The line through `(x₀, y₀)` and `(x₁, y₁)` at `p`, with a truncating division. -/
def tlerp (x₀ y₀ x₁ y₁ p : ℤ) : ℤ := y₀ + ((y₁ - y₀) * (p - x₀)).tdiv (x₁ - x₀)

variable {x₀ y₀ x₁ y₁ : ℤ}

@[simp] theorem tlerp_left : tlerp x₀ y₀ x₁ y₁ x₀ = y₀ := by
  simp [tlerp]

theorem tlerp_right (hx : x₀ < x₁) : tlerp x₀ y₀ x₁ y₁ x₁ = y₁ := by
  unfold tlerp
  rw [Int.mul_tdiv_cancel _ (by omega)]
  omega

theorem tlerp_mono (hx : x₀ < x₁) (hy : y₀ ≤ y₁) {p p' : ℤ} (hp : p ≤ p') :
    tlerp x₀ y₀ x₁ y₁ p ≤ tlerp x₀ y₀ x₁ y₁ p' := by
  unfold tlerp
  have hnum : (y₁ - y₀) * (p - x₀) ≤ (y₁ - y₀) * (p' - x₀) :=
    Int.mul_le_mul_of_nonneg_left (by omega) (by omega)
  have hdiv := Int.tdiv_le_tdiv (by omega : 0 < x₁ - x₀) hnum
  omega

theorem tlerp_anti (hx : x₀ < x₁) (hy : y₁ ≤ y₀) {p p' : ℤ} (hp : p ≤ p') :
    tlerp x₀ y₀ x₁ y₁ p' ≤ tlerp x₀ y₀ x₁ y₁ p := by
  unfold tlerp
  have hnum : (y₁ - y₀) * (p' - x₀) ≤ (y₁ - y₀) * (p - x₀) :=
    Int.mul_le_mul_of_nonpos_left (by omega) (by omega)
  have hdiv := Int.tdiv_le_tdiv (by omega : 0 < x₁ - x₀) hnum
  omega

/-- **Between the end values**: on `[x₀, x₁]` the interpolation is between `y₀` and `y₁`. -/
theorem tlerp_mem (hx : x₀ < x₁) {p : ℤ} (h₀ : x₀ ≤ p) (h₁ : p ≤ x₁) :
    min y₀ y₁ ≤ tlerp x₀ y₀ x₁ y₁ p ∧ tlerp x₀ y₀ x₁ y₁ p ≤ max y₀ y₁ := by
  rcases le_total y₀ y₁ with hy | hy
  · have hl := tlerp_mono hx hy h₀
    have hr := tlerp_mono hx hy h₁
    rw [tlerp_left] at hl
    rw [tlerp_right hx] at hr
    omega
  · have hl := tlerp_anti hx hy h₀
    have hr := tlerp_anti hx hy h₁
    rw [tlerp_left] at hl
    rw [tlerp_right hx] at hr
    omega

end Interpolation
