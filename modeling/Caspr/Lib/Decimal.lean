import Mathlib.Data.Rat.Floor
import Mathlib.Algebra.Order.Floor.Ring

/-! # Rounding a quotient of integers

Fixed-point code divides an integer by a power of ten in one of three ways, and each rounds
differently:

* Go's `/` and `%` truncate toward zero (`Int.tdiv`, `Int.tmod`);
* `math/big`'s `DivMod` is Euclidean (`Int.ediv`, `Int.emod`), so its quotient is the floor;
* a hand-written loop that remembers whether a digit was dropped rounds *away from zero*.

`roundAway x` is the last one on a rational, `⌈x⌉` for `x ≥ 0` and `⌊x⌋` below.  On a quotient
`n / d` it is the truncated quotient moved one step away from zero when the division is inexact
(`roundAway_intCast_div`); the ceiling is the Euclidean quotient plus one when the remainder is
non-zero (`ceil_intCast_div`), and the truncated quotient is the ceiling for `n ≤ 0`
(`tdiv_eq_ceil_of_nonpos`).  Truncated division by `a` and then by `b` is division by `a * b`
(`tdiv_tdiv`), and `a * b` divides `n` when `a` does and `b` divides what is left
(`mul_dvd_iff_tdiv`): these carry a loop that divides by ten one digit at a time.

`digitsVal` is the value of a string of decimal digits, as a scanner reads it. -/

namespace Decimal

/-- `x` rounded to an integer away from zero. -/
def roundAway (x : ℚ) : ℤ := if 0 ≤ x then ⌈x⌉ else ⌊x⌋

/-- `n / d` rounded away from zero, on integers: the truncated quotient, one step further from
zero when `d` does not divide `n`. -/
def divAway (n d : ℤ) : ℤ := n.tdiv d + if d ∣ n then 0 else n.sign

theorem tdiv_eq_ediv_add (n : ℤ) {d : ℤ} (hd : 0 < d) :
    n.tdiv d = n / d + if 0 ≤ n ∨ d ∣ n then 0 else 1 := by
  rw [Int.tdiv_eq_ediv, Int.sign_eq_one_of_pos hd]

/-- **Rounding a quotient away from zero** is `divAway`. -/
theorem roundAway_intCast_div (n : ℤ) {d : ℕ} (hd : 0 < d) :
    roundAway ((n : ℚ) / d) = divAway n d := by
  have hd' : (0 : ℤ) < d := by exact_mod_cast hd
  unfold roundAway divAway
  rcases lt_trichotomy n 0 with hn | rfl | hn
  · have hq : ¬ (0 : ℚ) ≤ (n : ℚ) / d := by
      have : (n : ℚ) < 0 := by exact_mod_cast hn
      exact not_le.mpr (div_neg_of_neg_of_pos this (by exact_mod_cast hd))
    rw [if_neg hq, Rat.floor_intCast_div_natCast, tdiv_eq_ediv_add n hd',
      Int.sign_eq_neg_one_of_neg hn]
    by_cases hdvd : (d : ℤ) ∣ n <;> simp [hdvd, not_le.mpr hn]
  · simp
  · have hq : (0 : ℚ) ≤ (n : ℚ) / d := div_nonneg (by exact_mod_cast hn.le) (by positivity)
    rw [if_pos hq, Rat.ceil_intCast_div_natCast, Int.neg_ediv, tdiv_eq_ediv_add n hd',
      Int.sign_eq_one_of_pos hn, Int.sign_eq_one_of_pos hd']
    simp only [hn.le, true_or, if_true]
    split_ifs <;> omega

/-- **The ceiling of a quotient** is the Euclidean quotient, plus one when the remainder is not
zero. -/
theorem ceil_intCast_div (n : ℤ) {d : ℕ} (hd : 0 < d) :
    ⌈(n : ℚ) / d⌉ = n / d + if n % d = 0 then 0 else 1 := by
  have hd' : (0 : ℤ) < d := by exact_mod_cast hd
  rw [Rat.ceil_intCast_div_natCast, Int.neg_ediv, Int.sign_eq_one_of_pos hd']
  by_cases hdvd : (d : ℤ) ∣ n
  · simp [hdvd, Int.emod_eq_zero_of_dvd hdvd]
  · have hmod : n % d ≠ 0 := fun h => hdvd (Int.dvd_of_emod_eq_zero h)
    simp only [hdvd, hmod, if_false]
    omega

theorem tdiv_eq_ceil_of_nonpos {n : ℤ} (hn : n ≤ 0) {d : ℕ} (hd : 0 < d) :
    n.tdiv d = ⌈(n : ℚ) / d⌉ := by
  have hd' : (0 : ℤ) < d := by exact_mod_cast hd
  have hneg : 0 ≤ -n := by omega
  rw [Rat.ceil_intCast_div_natCast, ← Int.neg_neg n, Int.neg_tdiv, Int.neg_neg,
    Int.tdiv_eq_ediv_of_nonneg hneg]

/-- Below zero, a quotient rounded away from zero is one below the ceiling when it is
inexact. -/
theorem divAway_eq_ceil_sub_one {n : ℤ} (hn : n < 0) {d : ℕ} (hd : 0 < d)
    (hndvd : ¬ (d : ℤ) ∣ n) : divAway n d = ⌈(n : ℚ) / d⌉ - 1 := by
  unfold divAway
  rw [if_neg hndvd, Int.sign_eq_neg_one_of_neg hn, ← tdiv_eq_ceil_of_nonpos hn.le hd]
  omega

theorem divAway_nonpos {n : ℤ} (hn : n ≤ 0) (d : ℕ) : divAway n d ≤ 0 := by
  have hq : n.tdiv d ≤ 0 := by
    have h := Int.tdiv_nonneg (a := -n) (b := d) (by omega) (by omega)
    rw [Int.neg_tdiv] at h
    omega
  have hs : n.sign ≤ 0 := by
    rcases Int.lt_or_eq_of_le hn with h | h
    · rw [Int.sign_eq_neg_one_of_neg h]; decide
    · rw [h]; decide
  unfold divAway
  split_ifs <;> omega

theorem ceil_natCast_div (n : ℕ) {d : ℕ} (hd : 0 < d) :
    ⌈(n : ℚ) / d⌉ = (((n + (d - 1)) / d : ℕ) : ℤ) := by
  have hc := ceil_intCast_div (n : ℤ) hd
  rw [Int.cast_natCast] at hc
  rw [hc, Nat.add_div hd, Nat.div_eq_of_lt (by omega : d - 1 < d),
    Nat.mod_eq_of_lt (by omega : d - 1 < d), ← Int.natCast_ediv, ← Int.natCast_mod]
  have hlt := Nat.mod_lt n hd
  by_cases h : n % d = 0
  · rw [if_pos (by rw [h]; rfl), if_neg (by omega)]
    simp
  · rw [if_neg (by exact_mod_cast h), if_pos (by omega)]
    push_cast
    ring

theorem tdiv_tdiv (n : ℤ) {a : ℤ} (ha : 0 ≤ a) (b : ℤ) :
    (n.tdiv a).tdiv b = n.tdiv (a * b) := by
  rcases le_or_gt 0 n with hn | hn
  · rw [Int.tdiv_eq_ediv_of_nonneg hn, Int.tdiv_eq_ediv_of_nonneg (Int.ediv_nonneg hn ha),
      Int.tdiv_eq_ediv_of_nonneg hn, Int.ediv_ediv_of_nonneg ha]
  · obtain ⟨m, rfl⟩ : ∃ m, n = -m := ⟨-n, by omega⟩
    have hm : 0 ≤ m := by omega
    rw [Int.neg_tdiv, Int.neg_tdiv, Int.neg_tdiv, Int.tdiv_eq_ediv_of_nonneg hm,
      Int.tdiv_eq_ediv_of_nonneg (Int.ediv_nonneg hm ha), Int.tdiv_eq_ediv_of_nonneg hm,
      Int.ediv_ediv_of_nonneg ha]

theorem mul_dvd_iff_tdiv {n a : ℤ} (ha : a ≠ 0) (b : ℤ) :
    a * b ∣ n ↔ a ∣ n ∧ b ∣ n.tdiv a := by
  constructor
  · rintro ⟨k, rfl⟩
    refine ⟨⟨b * k, by rw [Int.mul_assoc]⟩, ⟨k, ?_⟩⟩
    rw [Int.mul_assoc, Int.mul_tdiv_cancel_left _ ha]
  · rintro ⟨han, k, hk⟩
    refine ⟨k, ?_⟩
    calc n = n.tdiv a * a := (Int.tdiv_mul_cancel han).symm
      _ = a * b * k := by rw [hk]; ring

theorem tdiv_eq_zero_iff {n : ℤ} {d : ℕ} (hd : 0 < d) : n.tdiv d = 0 ↔ n.natAbs < d := by
  rw [← Int.natAbs_eq_zero, Int.natAbs_tdiv, Int.natAbs_natCast]
  exact Nat.div_eq_zero_iff_lt hd

theorem divAway_of_natAbs_lt {n : ℤ} {d : ℕ} (h : n.natAbs < d) : divAway n d = n.sign := by
  have hd : 0 < d := by omega
  have hq : n.tdiv d = 0 := (tdiv_eq_zero_iff hd).mpr h
  unfold divAway
  rw [hq, Int.zero_add]
  by_cases hdvd : (d : ℤ) ∣ n
  · have hn : n = 0 := Int.eq_zero_of_dvd_of_natAbs_lt_natAbs hdvd (by rwa [Int.natAbs_natCast])
    simp [hn]
  · rw [if_neg hdvd]

theorem natAbs_tdiv_le (n : ℤ) (d : ℕ) : (n.tdiv d).natAbs * d ≤ n.natAbs := by
  rw [Int.natAbs_tdiv, Int.natAbs_natCast]
  exact Nat.div_mul_le_self _ _

theorem natAbs_divAway_le (n : ℤ) {d : ℕ} (hd : 0 < d) : (divAway n d).natAbs ≤ n.natAbs := by
  unfold divAway
  have hq := natAbs_tdiv_le n d
  by_cases hdvd : (d : ℤ) ∣ n
  · rw [if_pos hdvd, Int.add_zero]
    exact (Nat.le_mul_of_pos_right _ hd).trans hq
  · rw [if_neg hdvd]
    have hne : (n.tdiv d).natAbs * d ≠ n.natAbs := by
      intro h
      apply hdvd
      rw [Int.natCast_dvd]
      exact ⟨(n.tdiv d).natAbs, by rw [← h, Nat.mul_comm]⟩
    have hlt : (n.tdiv d).natAbs * 1 < n.natAbs :=
      lt_of_le_of_lt (Nat.mul_le_mul_left _ hd) (lt_of_le_of_ne hq hne)
    have hsign : n.sign.natAbs ≤ 1 := by
      rcases Int.sign_trichotomy n with h | h | h <;> rw [h] <;> decide
    have := Int.natAbs_add_le (n.tdiv d) n.sign
    omega

theorem intCast_mul_zpow_natCast (u : ℤ) (k : ℕ) :
    (u : ℚ) * 10 ^ (k : ℤ) = ((u * 10 ^ k : ℤ) : ℚ) := by
  rw [zpow_natCast]
  push_cast
  rfl

theorem intCast_mul_zpow_neg_natCast (u : ℤ) (k : ℕ) :
    (u : ℚ) * 10 ^ (-(k : ℤ)) = (u : ℚ) / ((10 ^ k : ℕ) : ℚ) := by
  rw [zpow_neg, zpow_natCast, div_eq_mul_inv]
  push_cast
  rfl

/-! ### Strings of decimal digits -/

/-- The value of a string of decimal digits, the most significant first. -/
def digitsVal (s : List Char) : ℕ := s.foldl (fun n c => n * 10 + (c.toNat - '0'.toNat)) 0

end Decimal
