import Caspr.Lib.Go
import Caspr.Lib.Decimal

/-! # Checked `int64` arithmetic of `resource.Quantity` (math.go)

A `Quantity` keeps small values as an `int64` mantissa and a base-ten exponent, and every
operation on that form reports overflow with a flag instead of wrapping:

* `int64Add` tests the signs of the wrapped sum, and computes the sum exactly when it fits and
  reports exactly when it does not (`Checked`, `int64Add_checked`);
* `int64Multiply`, `int64MultiplyScale` and the three constant multiplications test the
  wrapped product with `c/b == a`; each computes the product exactly when it fits and reports
  exactly when it does not (`Checked`, `int64Multiply_checked`, `int64MultiplyScale_checked`);
* `positiveScaleInt64 base s` is `base * 10^s`, checked in the same way
  (`positiveScaleInt64_checked`), whether it takes one of its special cases or its loop;
* `negativeScaleInt64 base s` divides by `10^s` one digit at a time and rounds away from zero,
  reporting whether a non-zero digit was dropped (`negativeScaleInt64_eq`): the loop keeps the
  truncated quotient and whether the division so far was exact, and stops early at zero, where
  every further quotient rounds to the sign.

`int64` is Lean's `Int64` (its `/` and `%` truncate as Go's do), `Scale` and the exponents are
`Int32`, and big integers are `ℤ`. -/

namespace Caspr.Apimachinery

open Go Decimal

/-- `resource.Scale`: a base-ten exponent, `int32`. -/
abbrev Scale := Int32

/-- `maxInt64Factors`: the most decimal digits an `int64` is taken to hold. -/
def maxInt64Factors : Int32 := 18

/-- `mostPositive`, `1<<63 - 1`. -/
def mostPositive : Int64 := Int64.maxValue

/-- `mostNegative`, `-(mostPositive + 1)`. -/
def mostNegative : Int64 := Int64.minValue

/-- `int64Add(a, b)`: `a+b`, or false on overflow. -/
def int64Add (a b : Int64) : Int64 × Bool :=
  let c := a + b
  if a > 0 ∧ b > 0 then
    if c < 0 then (0, false) else (c, true)
  else if a < 0 ∧ b < 0 then
    if c > 0 then (0, false)
    else if a = mostNegative ∧ b = mostNegative then (0, false)
    else (c, true)
  else (c, true)

/-- `int64Multiply(a, b)`: `a*b`, or false if that would overflow. -/
def int64Multiply (a b : Int64) : Int64 × Bool :=
  if a = 0 ∨ b = 0 ∨ a = 1 ∨ b = 1 then (a * b, true)
  else if a = mostNegative ∨ b = mostNegative then (0, false)
  else
    let c := a * b
    (c, decide (c / b = a))

/-- `int64MultiplyScale(a, b)`, for `b` greater than one. -/
def int64MultiplyScale (a b : Int64) : Int64 × Bool :=
  if a = 0 ∨ a = 1 then (a * b, true)
  else if a = mostNegative ∧ b ≠ 1 then (0, false)
  else
    let c := a * b
    (c, decide (c / b = a))

/-- The body of `int64MultiplyScale10`, `int64MultiplyScale100` and `int64MultiplyScale1000`:
`a * k` for their constant `k`. -/
def int64MultiplyConst (k a : Int64) : Int64 × Bool :=
  if a = 0 ∨ a = 1 then (a * k, true)
  else if a = mostNegative then (0, false)
  else
    let c := a * k
    (c, decide (c / k = a))

/-- `int64MultiplyScale10(a)`. -/
def int64MultiplyScale10 (a : Int64) : Int64 × Bool := int64MultiplyConst 10 a

/-- `int64MultiplyScale100(a)`. -/
def int64MultiplyScale100 (a : Int64) : Int64 × Bool := int64MultiplyConst 100 a

/-- `int64MultiplyScale1000(a)`. -/
def int64MultiplyScale1000 (a : Int64) : Int64 × Bool := int64MultiplyConst 1000 a

/-- The loop of `positiveScaleInt64` with `n` multiplications by ten left. -/
def positiveScaleLoop : ℕ → Int64 → Int64 × Bool
  | 0, value => (value, true)
  | n + 1, value =>
      let (value, ok) := int64MultiplyScale value 10
      if ok then positiveScaleLoop n value else (0, false)

/-- `positiveScaleInt64(base, scale)`: `base * 10^scale`, or false on overflow. -/
def positiveScaleInt64 (base : Int64) (scale : Scale) : Int64 × Bool :=
  if scale = 0 then (base, true)
  else if scale = 1 then int64MultiplyScale10 base
  else if scale = 2 then int64MultiplyScale100 base
  else if scale = 3 then int64MultiplyScale1000 base
  else if scale = 6 then int64MultiplyScale base 1000000
  else if scale = 9 then int64MultiplyScale base 1000000000
  else positiveScaleLoop scale.toInt.toNat base

/-- The loop of `negativeScaleInt64` with `n` divisions left: `value` is what is left of `base`,
and `fraction` whether a non-zero digit was dropped. -/
def negativeScaleLoop (base : Int64) : ℕ → Int64 → Bool → Int64 × Bool
  | 0, value, fraction =>
      if fraction then (if base > 0 then value + 1 else value - 1, false) else (value, true)
  | n + 1, value, fraction =>
      let fraction := fraction || value % 10 != 0
      let value := value / 10
      if value = 0 then
        if fraction then (if base > 0 then 1 else -1, false) else (0, true)
      else negativeScaleLoop base n value fraction

/-- `negativeScaleInt64(base, scale)`: `base / 10^scale` rounded away from zero, and whether that
was exact. -/
def negativeScaleInt64 (base : Int64) (scale : Scale) : Int64 × Bool :=
  if scale = 0 then (base, true) else negativeScaleLoop base scale.toInt.toNat base false

/-- `pow10Int64(b)`: the table of `10^b` for `0 ≤ b ≤ 18`, and `0` otherwise. -/
def pow10Int64 (b : Int64) : Int64 :=
  if 0 ≤ b ∧ b ≤ 18 then Int64.ofNat (10 ^ b.toInt.toNat) else 0

/-- `divideByScaleInt64(base, scale)`: quotient and remainder of `base / 10^scale`, or false past
18 digits.  A negative `scale` reads `0` from the table, and Go's division by zero panics. -/
def divideByScaleInt64 (base : Int64) (scale : Scale) : Except Abort (Int64 × Int64 × Bool) :=
  if scale = 0 then .ok (base, 0, true)
  else if scale ≥ 18 then .ok (0, base, false)
  else
    let divisor := pow10Int64 scale.toInt64
    if divisor = 0 then .error .integerDivideByZero
    else .ok (base / divisor, base % divisor, true)

/-- The loop of `removeInt64Factors`: divide out `base` while it divides `result` and
`result ≥ base`.  Each round at least halves a positive `result`, so `fuel = result` rounds are
never all used. -/
def removeInt64FactorsLoop (base : Int64) : ℕ → Int64 → Int32 → Int64 × Int32
  | 0, result, times => (result, times)
  | fuel + 1, result, times =>
      if result ≥ base ∧ result % base = 0 then
        removeInt64FactorsLoop base fuel (result / base) (times + 1)
      else (result, times)

/-- `removeInt64Factors(value, base)`: `value = result * base^times`, on the magnitude. -/
def removeInt64Factors (value base : Int64) : Int64 × Int32 :=
  let negative := value < 0
  let result := if negative then -value else value
  let (result, times) := removeInt64FactorsLoop base result.toInt.toNat result 0
  (if negative then -result else result, times)

/-- The loop of `removeBigIntFactors(d, factor)` on a big integer: `DivMod` is Euclidean. -/
def removeBigIntFactorsLoop (factor : ℤ) : ℕ → ℤ → Int32 → ℤ × Int32
  | 0, d, times => (d, times)
  | fuel + 1, d, times =>
      if d ≠ 0 ∧ d % factor = 0 then removeBigIntFactorsLoop factor fuel (d / factor) (times + 1)
      else (d, times)

/-- `removeBigIntFactors(d, factor)`: `d = result * factor^times`, and `(0, 0)` for `d = 0`. -/
def removeBigIntFactors (d factor : ℤ) : ℤ × Int32 := removeBigIntFactorsLoop factor d.natAbs d 0

/-! ### Checked results -/

/-- `r` is the checked result of computing `x`: the flag says whether `x` fits in `int64`, and
when it does, the value is `x`. -/
def Checked (x : ℤ) (r : Int64 × Bool) : Prop :=
  (r.2 = true ↔ FitsInt64 x) ∧ (r.2 = true → r.1.toInt = x)

theorem Checked.of_fits {x : ℤ} {c : Int64} (h : FitsInt64 x) (hc : c.toInt = x) :
    Checked x (c, true) :=
  ⟨iff_of_true rfl h, fun _ => hc⟩

theorem Checked.of_not_fits {x : ℤ} (c : Int64) (h : ¬ FitsInt64 x) : Checked x (c, false) :=
  ⟨iff_of_false Bool.false_ne_true h, fun h => absurd h Bool.false_ne_true⟩

theorem Checked.toInt_of_ok {x : ℤ} {r : Int64 × Bool} (h : Checked x r) {c : Int64}
    (hr : r = (c, true)) : c.toInt = x := by
  subst hr
  exact h.2 rfl

/-- **`int64Add` is exact or reports overflow.**  Operands of one sign overflow exactly when the
wrapped sum has the other sign, but for two `mostNegative`, whose sum wraps to `0`, which the
code tests apart; operands of different signs never overflow. -/
theorem int64Add_checked (a b : Int64) : Checked (a.toInt + b.toInt) (int64Add a b) := by
  have ha := fitsInt64_toInt a
  have hb := fitsInt64_toInt b
  have hc := int64_toInt_add_cases a b
  have hmin : mostNegative.toInt = -2 ^ 63 := Int64.toInt_minValue
  unfold FitsInt64 at ha hb hc
  unfold int64Add
  simp only [Int64.lt_iff_toInt_lt, Int64.toInt_zero, ← Int64.toInt_inj, hmin]
  split_ifs with hpos hc0 hneg hc1 hboth
  · exact Checked.of_not_fits _ (by unfold FitsInt64; omega)
  · exact Checked.of_fits (by unfold FitsInt64; omega) (by omega)
  · exact Checked.of_not_fits _ (by unfold FitsInt64; omega)
  · exact Checked.of_not_fits _ (by unfold FitsInt64; omega)
  · exact Checked.of_fits (by unfold FitsInt64; omega) (by omega)
  · exact Checked.of_fits (by unfold FitsInt64; omega) (by omega)

theorem checked_mul_div {a b : Int64} (hb0 : b ≠ 0) (ha : a ≠ mostNegative)
    (hb : b ≠ mostNegative) : Checked (a.toInt * b.toInt) (a * b, decide (a * b / b = a)) := by
  have hiff := int64_mul_div_eq_iff hb0 ha hb
  refine ⟨by rw [decide_eq_true_iff, hiff], fun h => ?_⟩
  exact int64_toInt_mul (hiff.mp (of_decide_eq_true h))

theorem checked_mul_of_small {a b : Int64} (ha : a = 0 ∨ a = 1) :
    Checked (a.toInt * b.toInt) (a * b, true) := by
  have hfit : FitsInt64 (a.toInt * b.toInt) := by
    rcases ha with rfl | rfl
    · simpa using fitsInt64_toInt 0
    · simpa using fitsInt64_toInt b
  exact Checked.of_fits hfit (int64_toInt_mul hfit)

/-- `-2^63` times anything but `0` and `1` overflows. -/
theorem not_fits_mostNegative_mul {b : ℤ} (h0 : b ≠ 0) (h1 : b ≠ 1) :
    ¬ FitsInt64 (mostNegative.toInt * b) := by
  have hmin : mostNegative.toInt = -2 ^ 63 := Int64.toInt_minValue
  rw [hmin]
  unfold FitsInt64
  omega

/-- **`int64Multiply` is exact or reports overflow.** -/
theorem int64Multiply_checked (a b : Int64) :
    Checked (a.toInt * b.toInt) (int64Multiply a b) := by
  unfold int64Multiply
  split_ifs with hs hmin
  · rcases hs with h | h | h | h
    · exact checked_mul_of_small (Or.inl h)
    · rw [Int.mul_comm]
      simpa [Int64.mul_comm] using checked_mul_of_small (a := b) (b := a) (Or.inl h)
    · exact checked_mul_of_small (Or.inr h)
    · rw [Int.mul_comm]
      simpa [Int64.mul_comm] using checked_mul_of_small (a := b) (b := a) (Or.inr h)
  · simp only [not_or] at hs
    obtain ⟨ha0, hb0, ha1, hb1⟩ := hs
    apply Checked.of_not_fits
    rcases hmin with rfl | rfl
    · exact not_fits_mostNegative_mul (fun h => hb0 (int64_eq_zero_iff.mpr h))
        (fun h => hb1 (Int64.toInt_inj.mp (h.trans Int64.toInt_one.symm)))
    · rw [Int.mul_comm]
      exact not_fits_mostNegative_mul (fun h => ha0 (int64_eq_zero_iff.mpr h))
        (fun h => ha1 (Int64.toInt_inj.mp (h.trans Int64.toInt_one.symm)))
  · simp only [not_or] at hs hmin
    exact checked_mul_div hs.2.1 hmin.1 hmin.2

/-- **`int64MultiplyScale` is exact or reports overflow**, for a factor `b > 1`. -/
theorem int64MultiplyScale_checked (a : Int64) {b : Int64} (hb : 1 < b.toInt) :
    Checked (a.toInt * b.toInt) (int64MultiplyScale a b) := by
  have hb0 : b ≠ 0 := fun h => by rw [int64_eq_zero_iff.mp h] at hb; omega
  have hb1 : b ≠ 1 := fun h => by rw [h, Int64.toInt_one] at hb; omega
  have hbmin : b ≠ mostNegative := fun h => by
    rw [h, show mostNegative.toInt = -2 ^ 63 from Int64.toInt_minValue] at hb; omega
  unfold int64MultiplyScale
  split_ifs with hs hmin
  · exact checked_mul_of_small hs
  · apply Checked.of_not_fits
    rw [hmin.1]
    exact not_fits_mostNegative_mul (by omega) (by omega)
  · exact checked_mul_div hb0 (fun h => hmin ⟨h, hb1⟩) hbmin

/-- **The constant multiplications are exact or report overflow**, for a constant `k > 1`. -/
theorem int64MultiplyConst_checked {k : Int64} (hk : 1 < k.toInt) (a : Int64) :
    Checked (a.toInt * k.toInt) (int64MultiplyConst k a) := by
  have hk0 : k ≠ 0 := fun h => by rw [int64_eq_zero_iff.mp h] at hk; omega
  have hkmin : k ≠ mostNegative := fun h => by
    rw [h, show mostNegative.toInt = -2 ^ 63 from Int64.toInt_minValue] at hk; omega
  unfold int64MultiplyConst
  split_ifs with hs hmin
  · exact checked_mul_of_small hs
  · apply Checked.of_not_fits
    rw [hmin]
    exact not_fits_mostNegative_mul (by omega) (by omega)
  · exact checked_mul_div hk0 hmin hkmin

theorem positiveScaleLoop_checked : ∀ (n : ℕ) (value : Int64),
    Checked (value.toInt * 10 ^ n) (positiveScaleLoop n value)
  | 0, value => Checked.of_fits (by simpa using fitsInt64_toInt value) (by simp)
  | n + 1, value => by
      have hstep := int64MultiplyScale_checked value (b := 10) (by decide)
      have h10 : (10 : Int64).toInt = 10 := by decide
      rw [h10] at hstep
      unfold positiveScaleLoop
      rcases hr : int64MultiplyScale value 10 with ⟨v, ok⟩
      rw [hr] at hstep
      cases ok with
      | true =>
          have hv : v.toInt = value.toInt * 10 := hstep.2 rfl
          have hrest := positiveScaleLoop_checked n v
          rwa [hv, Int.mul_assoc, ← Int.pow_succ'] at hrest
      | false =>
          have hnot : ¬ FitsInt64 (value.toInt * 10) := fun h => by
            simpa using hstep.1.mpr h
          apply Checked.of_not_fits
          rw [Int.pow_succ', ← Int.mul_assoc]
          exact not_fitsInt64_mul hnot (one_le_pow₀ (by decide))

/-- **`positiveScaleInt64` is exact or reports overflow**, in its special cases and its loop. -/
theorem positiveScaleInt64_checked (base : Int64) {scale : Scale} (hs : 0 ≤ scale.toInt) :
    Checked (base.toInt * 10 ^ scale.toInt.toNat) (positiveScaleInt64 base scale) := by
  unfold positiveScaleInt64
  split_ifs with h0 h1 h2 h3 h6 h9
  · subst h0
    exact Checked.of_fits (by simpa using fitsInt64_toInt base) (by simp)
  all_goals first
    | (subst_vars; exact int64MultiplyConst_checked (by decide) base)
    | (subst_vars; exact int64MultiplyScale_checked base (by decide))
    | exact positiveScaleLoop_checked _ base

/-- One division of the loop of `negativeScaleInt64`: the truncated quotient by `10^(j+1)`, and
whether `10^(j+1)` fails to divide. -/
theorem negativeScale_step {b : ℤ} {j : ℕ} {value : Int64} {fraction : Bool}
    (hv : value.toInt = b.tdiv (10 ^ j)) (hf : fraction = true ↔ ¬ (10 : ℤ) ^ j ∣ b) :
    (value / 10).toInt = b.tdiv (10 ^ (j + 1)) ∧
      ((fraction || value % 10 != 0) = true ↔ ¬ (10 : ℤ) ^ (j + 1) ∣ b) := by
  have hpow : (10 : ℤ) ^ (j + 1) = 10 ^ j * 10 := Int.pow_succ 10 j
  have hdiv : (value / 10).toInt = value.toInt.tdiv 10 :=
    Int64.toInt_div_of_ne_right _ _ (by decide)
  have hmod : (value % 10).toInt = value.toInt.tmod 10 := Int64.toInt_mod _ _
  refine ⟨by rw [hdiv, hv, hpow, tdiv_tdiv _ (by positivity)], ?_⟩
  rw [hpow, mul_dvd_iff_tdiv (by positivity), ← hv,
    Int.dvd_iff_tmod_eq_zero (a := 10) (b := value.toInt), ← hmod, ← int64_eq_zero_iff,
    Bool.or_eq_true, hf, bne_iff_ne, ne_eq]
  tauto

/-- Once `|b| < 10^m`, rounding `b / 10^k` away from zero gives the sign of `b` for every
`k ≥ m`, and `10^k` divides `b` only when `b = 0`. -/
theorem divAway_pow_of_natAbs_lt {b : ℤ} {m : ℕ} (h : b.natAbs < 10 ^ m) {k : ℕ} (hk : m ≤ k) :
    divAway b (10 ^ k) = b.sign ∧ ((10 : ℤ) ^ k ∣ b ↔ b = 0) := by
  have hk' : b.natAbs < 10 ^ k := lt_of_lt_of_le h (Nat.pow_le_pow_right (by omega) hk)
  refine ⟨by exact_mod_cast divAway_of_natAbs_lt hk', fun hd => ?_, fun hb => by simp [hb]⟩
  exact Int.eq_zero_of_dvd_of_natAbs_lt_natAbs hd (by simpa using hk')

/-- **The loop of `negativeScaleInt64` rounds away from zero**: from the truncated quotient by
`10^j` and the exactness so far, `n` more rounds give `base / 10^(j+n)` rounded away from zero,
and whether the division was exact. -/
theorem negativeScaleLoop_eq (base : Int64) : ∀ (n j : ℕ) (value : Int64) (fraction : Bool),
    value.toInt = base.toInt.tdiv (10 ^ j) → (fraction = true ↔ ¬ (10 : ℤ) ^ j ∣ base.toInt) →
    negativeScaleLoop base n value fraction =
      (Int64.ofInt (divAway base.toInt (10 ^ (j + n))),
        decide ((10 : ℤ) ^ (j + n) ∣ base.toInt))
  | 0, j, value, fraction, hv, hf => by
      unfold negativeScaleLoop divAway
      cases fraction with
      | false =>
          have hdvd : (10 : ℤ) ^ j ∣ base.toInt := by simpa using hf
          simp [hdvd, ← hv, Int64.ofInt_toInt]
      | true =>
          -- a digit was dropped, so `j ≥ 1` and the quotient is far from the `int64` bounds
          have hndvd : ¬ (10 : ℤ) ^ j ∣ base.toInt := hf.mp rfl
          have hj : 1 ≤ j := by
            rcases Nat.eq_zero_or_pos j with rfl | hj
            · exact absurd (by simp) hndvd
            · exact hj
          have hsmall := natAbs_tdiv_le base.toInt (10 ^ j)
          have h10 : (10 : ℕ) ≤ 10 ^ j := Nat.le_self_pow (by omega) 10
          have hb := fitsInt64_toInt base
          push_cast at hsmall
          rw [← hv] at hsmall
          have hvb : value.toInt.natAbs * 10 ≤ base.toInt.natAbs :=
            (Nat.mul_le_mul_left _ h10).trans hsmall
          unfold FitsInt64 at hb
          simp only [if_true, Nat.add_zero, if_neg hndvd, decide_eq_false hndvd, ← hv]
          by_cases hpos : base > 0
          · have hfit : FitsInt64 (value.toInt + 1) := by unfold FitsInt64; omega
            rw [if_pos hpos, Int.sign_eq_one_of_pos (Int64.lt_iff_toInt_lt.mp hpos)]
            congr 1
            rw [← Int64.toInt_inj, int64_toInt_ofInt hfit, int64_toInt_add (by simpa using hfit),
              Int64.toInt_one]
          · have hneg : base.toInt < 0 := by
              have hle : base.toInt ≤ 0 := by
                have := Int64.le_iff_toInt_le.mp (Int64.not_lt.mp hpos)
                simpa using this
              rcases Int.lt_or_eq_of_le hle with h | h
              · exact h
              · exact absurd (by rw [h]; exact dvd_zero _) hndvd
            have hfit : FitsInt64 (value.toInt - 1) := by unfold FitsInt64; omega
            rw [if_neg hpos, Int.sign_eq_neg_one_of_neg hneg, ← Int.sub_eq_add_neg]
            congr 1
            rw [← Int64.toInt_inj, int64_toInt_ofInt hfit, int64_toInt_sub (by simpa using hfit),
              Int64.toInt_one]
  | n + 1, j, value, fraction, hv, hf => by
      obtain ⟨hv', hf'⟩ := negativeScale_step hv hf
      have hjn : j + (n + 1) = j + 1 + n := by omega
      unfold negativeScaleLoop
      simp only
      by_cases hz : value / 10 = 0
      · have hlt : base.toInt.natAbs < 10 ^ (j + 1) := by
          have hq := (tdiv_eq_zero_iff (n := base.toInt) (d := 10 ^ (j + 1)) (by positivity)).mp
          push_cast at hq
          exact hq (by rw [← hv', int64_eq_zero_iff.mp hz])
        obtain ⟨hsign, hdvd⟩ := divAway_pow_of_natAbs_lt hlt (k := j + (n + 1)) (by omega)
        obtain ⟨-, hdvd1⟩ := divAway_pow_of_natAbs_lt hlt (le_refl _)
        rw [hdvd1] at hf'
        rw [if_pos hz]
        simp only [hsign, hdvd]
        by_cases hb0 : base.toInt = 0
        · have hfr : (fraction || value % 10 != 0) = false := by simpa [hb0] using hf'
          simp [hfr, hb0]
        · have hfr : (fraction || value % 10 != 0) = true := by simpa [hb0] using hf'
          simp only [hfr, if_true, hb0, decide_false]
          split_ifs with hpos
          · rw [Int.sign_eq_one_of_pos (Int64.lt_iff_toInt_lt.mp hpos)]
            rfl
          · have hneg : base.toInt < 0 := by
              have := Int64.le_iff_toInt_le.mp (Int64.not_lt.mp hpos)
              simp only [Int64.toInt_zero] at this
              omega
            rw [Int.sign_eq_neg_one_of_neg hneg]
            rfl
      · rw [if_neg hz, hjn]
        exact negativeScaleLoop_eq base n (j + 1) _ _ hv' hf'

/-- **`negativeScaleInt64` rounds away from zero**: for `scale ≥ 0` it is `base / 10^scale`
rounded away from zero, and it reports whether the division was exact. -/
theorem negativeScaleInt64_eq (base : Int64) {scale : Scale} (hs : 0 ≤ scale.toInt) :
    negativeScaleInt64 base scale =
      (Int64.ofInt (divAway base.toInt (10 ^ scale.toInt.toNat)),
        decide ((10 : ℤ) ^ scale.toInt.toNat ∣ base.toInt)) := by
  unfold negativeScaleInt64
  split_ifs with h0
  · subst h0
    simp [divAway, Int64.ofInt_toInt]
  · have h := negativeScaleLoop_eq base scale.toInt.toNat 0 base false (by simp) (by simp)
    rwa [Nat.zero_add] at h

end Caspr.Apimachinery
