import Caspr.Apimachinery.Math

/-! # The two amounts of a `resource.Quantity` (amount.go, scale_int.go)

A quantity holds its value in one of two forms:

* `int64Amount`, an `int64` mantissa and a base-ten `Scale`: `value × 10^scale`;
* `inf.Dec`, a big unscaled integer and an upside-down `int32` scale: `unscaled × 10^(-scale)`.
  The `inf.Dec` operations the package calls are taken to be exact decimal operations
  (`Dec.Cmp`, `Dec.RoundUp`, `Dec.Add`); Go's `int32` arithmetic on scales outside `inf`
  (`infScale`, the exponent sums of `AsCanonicalBytes`) wraps, as `Int32`'s does.

`scaledValue` reads an `inf.Dec` at another scale as an `int64`.  Scaling up multiplies by
`int64(math.Pow10(n))`; scaling down divides by `10^n` and adds one when the remainder is not
zero, through Go's truncating `/` and `%` when the unscaled value is below `2^63-1` and `n < 19`,
and through Euclidean `DivMod` otherwise.  On a value of at least zero every path gives the
ceiling of the exact quotient when it fits in `int64` (`scaledValue_of_nonneg`).  On a negative
value the truncating path is one above the ceiling whenever the division is inexact
(`scaledValue_fast_of_neg`): truncation already rounds a negative quotient up, and the `+ 1`
rounds it once more. -/

namespace Caspr.Apimachinery

open Go Decimal

/-- `s.infScale()`: the scale as `inf.Dec` counts it, `inf.Scale(-s)`, an `int32` negation. -/
def infScale (s : Scale) : Int32 := -s

/-- `resource.Nano`. -/
def Nano : Scale := -9

/-- `resource.Milli`. -/
def Milli : Scale := -3

/-! ### `inf.Dec` -/

/-- An `inf.Dec`: the decimal `unscaled × 10^(-scale)`. -/
structure Dec where
  unscaled : ℤ
  scale : Int32
deriving DecidableEq, Repr

namespace Dec

/-- The exact value of the decimal. -/
def val (x : Dec) : ℚ := x.unscaled * 10 ^ (-x.scale.toInt)

/-- `x.Sign()`. -/
def Sign (x : Dec) : ℤ := x.unscaled.sign

/-- `z.Neg(x)`. -/
def Neg (x : Dec) : Dec := ⟨-x.unscaled, x.scale⟩

/-- The unscaled value of `x` brought to a scale `s ≥ x.scale`, as `rescale` multiplies it. -/
def upscaled (x : Dec) (s : ℤ) : ℤ := x.unscaled * 10 ^ (s - x.scale.toInt).toNat

/-- `x.Cmp(y)`: both brought to the larger scale, then their unscaled values compared. -/
def Cmp (x y : Dec) : ℤ :=
  let s := max x.scale.toInt y.scale.toInt
  let a := x.upscaled s
  let b := y.upscaled s
  if a < b then -1 else if a = b then 0 else 1

/-- `z.Add(x, y)`: the sum at the larger scale. -/
def Add (x y : Dec) : Dec :=
  let s := max x.scale.toInt y.scale.toInt
  ⟨x.upscaled s + y.upscaled s, max x.scale y.scale⟩

/-- `z.Sub(x, y)`: the difference at the larger scale. -/
def Sub (x y : Dec) : Dec :=
  let s := max x.scale.toInt y.scale.toInt
  ⟨x.upscaled s - y.upscaled s, max x.scale y.scale⟩

/-- `z.Round(x, s, inf.RoundUp)`: the value at scale `s`; when that drops digits, the truncated
quotient, one step away from zero if a dropped digit was not zero. -/
def RoundUp (x : Dec) (s : Int32) : Dec :=
  let shift := s.toInt - x.scale.toInt
  if 0 ≤ shift then ⟨x.unscaled * 10 ^ shift.toNat, s⟩
  else ⟨divAway x.unscaled (10 ^ (-shift).toNat), s⟩

/-- `x.Unscaled()`: the unscaled value as an `int64`, and whether it fits. -/
def Unscaled (x : Dec) : Int64 × Bool := (Int64.ofInt x.unscaled, decide (FitsInt64 x.unscaled))

end Dec

/-! ### `int64Amount` -/

/-- `int64Amount`: the value `value × 10^scale`. -/
structure int64Amount where
  value : Int64
  scale : Scale
deriving DecidableEq, Repr

namespace int64Amount

/-- The exact value of the amount. -/
def val (a : int64Amount) : ℚ := a.value.toInt * 10 ^ a.scale.toInt

/-- `a.Sign()`. -/
def Sign (a : int64Amount) : ℤ :=
  if a.value = 0 then 0 else if a.value > 0 then 1 else -1

/-- `a.AsInt64()`: the value at scale `0`, when that is exact and fits. -/
def AsInt64 (a : int64Amount) : Int64 × Bool :=
  if a.scale = 0 then (a.value, true)
  else if a.scale < 0 then (0, false)
  else positiveScaleInt64 a.value a.scale

/-- `a.AsScaledInt64(scale)`: the value at `scale`, rounded away from zero, or false on
overflow. -/
def AsScaledInt64 (a : int64Amount) (scale : Scale) : Int64 × Bool :=
  if a.scale < scale then ((negativeScaleInt64 a.value (scale - a.scale)).1, true)
  else positiveScaleInt64 a.value (a.scale - scale)

/-- `a.AsDec()`. -/
def AsDec (a : int64Amount) : Dec := ⟨a.value.toInt, -a.scale⟩

/-- `a.Cmp(b)`: compare at the larger scale when the smaller-scaled mantissa divides, through
`inf.Dec` otherwise. -/
def Cmp (a b : int64Amount) : Except Abort ℤ := do
  let (av, bv) ← if a.scale = b.scale then pure (a.value, b.value)
    else if a.scale > b.scale then do
      let (result, remainder, exact) ← divideByScaleInt64 b.value (a.scale - b.scale)
      if !exact then return a.AsDec.Cmp b.AsDec
      if result = a.value then
        return if remainder = 0 then 0 else if remainder > 0 then -1 else 1
      pure (a.value, result)
    else do
      let (result, remainder, exact) ← divideByScaleInt64 a.value (b.scale - a.scale)
      if !exact then return a.AsDec.Cmp b.AsDec
      if result = b.value then
        return if remainder = 0 then 0 else if remainder > 0 then 1 else -1
      pure (result, b.value)
  return if av = bv then 0 else if av < bv then -1 else 1

/-- `a.Add(b)`: the sum at the smaller scale, and whether it fit; `a` is kept when it did not. -/
def Add (a b : int64Amount) : int64Amount × Bool :=
  if b.value = 0 then (a, true)
  else if a.value = 0 then (b, true)
  else if a.scale = b.scale then
    match int64Add a.value b.value with
    | (c, true) => ({ a with value := c }, true)
    | (_, false) => (a, false)
  else if a.scale > b.scale then
    match positiveScaleInt64 a.value (a.scale - b.scale) with
    | (_, false) => (a, false)
    | (c, true) =>
        match int64Add c b.value with
        | (c, true) => (⟨c, b.scale⟩, true)
        | (_, false) => (a, false)
  else
    match positiveScaleInt64 b.value (b.scale - a.scale) with
    | (_, false) => (a, false)
    | (c, true) =>
        match int64Add a.value c with
        | (c, true) => ({ a with value := c }, true)
        | (_, false) => (a, false)

/-- `a.Sub(b)`: `a.Add` of `b` negated (an `int64` negation). -/
def Sub (a b : int64Amount) : int64Amount × Bool := a.Add ⟨-b.value, b.scale⟩

/-- `a.AsScale(scale)`: at least `scale`, rounding away from zero, and whether that was exact. -/
def AsScale (a : int64Amount) (scale : Scale) : int64Amount × Bool :=
  if a.scale ≥ scale then (a, true)
  else
    let (result, exact) := negativeScaleInt64 a.value (scale - a.scale)
    (⟨result, scale⟩, exact)

end int64Amount

/-! ### Canonical digits -/

/-- The loop of `infDecAmount.AsCanonicalBytes` that moves the exponent down to a multiple of
three, multiplying the mantissa by ten each time.  Three rounds always suffice, the third only
when the `int32` exponent wraps past its least value. -/
def canonicalExponentLoop : ℕ → ℤ → Int32 → ℤ × Int32
  | 0, amount, exponent => (amount, exponent)
  | fuel + 1, amount, exponent =>
      if exponent % 3 ≠ 0 then canonicalExponentLoop fuel (amount * 10) (exponent - 1)
      else (amount, exponent)

namespace Dec

/-- `infDecAmount.AsCanonicalBytes`: the mantissa's digits and an exponent that is a multiple of
three, with every factor of ten moved into the exponent first. -/
def AsCanonicalBytes (x : Dec) : String × Int32 :=
  let exponent : Int32 := -x.scale
  let (amount, times) := removeBigIntFactors x.unscaled 10
  let (amount, exponent) := canonicalExponentLoop 3 amount (exponent + times)
  (toString amount, exponent)

/-- `infDecAmount.AsCanonicalBase1024Bytes`: rounded up to an integer, with every factor of
`1024` moved into the exponent. -/
def AsCanonicalBase1024Bytes (x : Dec) : String × Int32 :=
  let tmp := x.RoundUp 0
  let (amount, exponent) := removeBigIntFactors tmp.unscaled 1024
  (toString amount, exponent)

/-- `infDecAmount.AsScale(scale)`: rounded away from zero to `scale`, and whether that was
exact. -/
def AsScale (x : Dec) (scale : Scale) : Dec × Bool :=
  let tmp := x.RoundUp (infScale scale)
  (tmp, tmp.Cmp x = 0)

end Dec

namespace int64Amount

/-- `a.AsCanonicalBytes()`: the mantissa's digits and an exponent that is a multiple of three,
through `inf.Dec` when moving the exponent overflows the mantissa. -/
def AsCanonicalBytes (a : int64Amount) : String × Int32 :=
  let (amount, times) := removeInt64Factors a.value 10
  let exponent := a.scale + times
  if exponent % 3 = 1 ∨ exponent % 3 = -2 then
    match int64MultiplyScale10 amount with
    | (amount, true) => (toString amount.toInt, exponent - 1)
    | (_, false) => a.AsDec.AsCanonicalBytes
  else if exponent % 3 = 2 ∨ exponent % 3 = -1 then
    match int64MultiplyScale100 amount with
    | (amount, true) => (toString amount.toInt, exponent - 2)
    | (_, false) => a.AsDec.AsCanonicalBytes
  else (toString amount.toInt, exponent)

/-- `a.AsCanonicalBase1024Bytes()`: the value at scale `0` with every factor of `1024` moved into
the exponent, through `inf.Dec` when it overflows. -/
def AsCanonicalBase1024Bytes (a : int64Amount) : String × Int32 :=
  match a.AsScaledInt64 0 with
  | (value, true) =>
      let (amount, exponent) := removeInt64Factors value 1024
      (toString amount.toInt, exponent)
  | (_, false) => a.AsDec.AsCanonicalBase1024Bytes

end int64Amount

/-! ### `scaledValue` -/

/-- `maxInt64`, `math.MaxInt64` as a big integer. -/
def maxInt64 : ℤ := 2 ^ 63 - 1

/-- `int64(math.Pow10(n))` for `n ≥ 0` on amd64: exact up to `10^18`; a larger power is out of
`int64`'s range, which amd64 converts to `-2^63`. -/
def int64Pow10 (n : ℕ) : Int64 := if n ≤ 18 then Int64.ofNat (10 ^ n) else Int64.minValue

/-- `scaledValue(unscaled, scale, newScale)`: the decimal `unscaled × 10^(-scale)` read at
`newScale`, always rounding up when scaling down. -/
def scaledValue (unscaled : ℤ) (scale newScale : ℤ) : Int64 :=
  let dif := scale - newScale
  if dif = 0 then Int64.ofInt unscaled
  else if dif < 0 then Int64.ofInt unscaled * int64Pow10 (-dif).toNat
  else if unscaled < maxInt64 ∧ dif < 19 then
    -- fast path: Go's truncating `/` and `%` on the low 64 bits
    let divide := int64Pow10 dif.toNat
    let result := Int64.ofInt unscaled / divide
    let mod := Int64.ofInt unscaled % divide
    if mod ≠ 0 then result + 1 else result
  else
    -- `DivMod` is Euclidean
    let divisor : ℤ := 10 ^ dif.toNat
    let result := unscaled / divisor
    let remainder := unscaled % divisor
    if remainder ≠ 0 then Int64.ofInt result + 1 else Int64.ofInt result

/-! ### What `scaledValue` computes -/

theorem int64Pow10_toInt {n : ℕ} (hn : n ≤ 18) : (int64Pow10 n).toInt = 10 ^ n := by
  have hlt : 10 ^ n < 2 ^ 63 :=
    lt_of_le_of_lt (Nat.pow_le_pow_right (by omega) hn) (by decide)
  unfold int64Pow10
  rw [if_pos hn, Int64.toInt_ofNat_of_lt hlt]
  push_cast
  rfl

/-- Scaling up multiplies by `10^n`, exactly when the product fits: a non-zero mantissa times
a power of ten that fits has at most eighteen zeros, where `math.Pow10` converts exactly. -/
theorem scaledValue_up {u scale newScale : ℤ} (hd : scale - newScale < 0)
    (hfit : FitsInt64 (u * 10 ^ (newScale - scale).toNat)) :
    (scaledValue u scale newScale).toInt = u * 10 ^ (newScale - scale).toNat := by
  have hk : (-(scale - newScale)).toNat = (newScale - scale).toNat := by congr 1; omega
  unfold scaledValue
  simp only [show scale - newScale ≠ 0 by omega, hd, if_false, if_true, hk]
  generalize (newScale - scale).toNat = k at hfit ⊢
  by_cases hu : u = 0
  · subst hu
    simp
  have hmag : 10 ^ k ≤ (u * 10 ^ k).natAbs := by
    rw [Int.natAbs_mul, Int.natAbs_pow]
    exact Nat.le_mul_of_pos_left _ (Int.natAbs_pos.mpr hu)
  have hk18 : k ≤ 18 := by
    by_contra hk19
    have h19 : 10 ^ 19 ≤ 10 ^ k := Nat.pow_le_pow_right (by omega) (by omega)
    obtain ⟨hlo, hhi⟩ := hfit
    have : (10 : ℕ) ^ 19 > 2 ^ 63 := by decide
    omega
  have hufit : FitsInt64 u := fitsInt64_of_mul (one_le_pow₀ (by decide)) hfit
  rw [int64_toInt_mul (by rwa [int64_toInt_ofInt hufit, int64Pow10_toInt hk18]),
    int64_toInt_ofInt hufit, int64Pow10_toInt hk18]

/-- The fast path of scaling down: the truncated quotient, plus one when the truncated remainder
is not zero. -/
theorem scaledValue_fast {u scale newScale : ℤ} (hd : 0 < scale - newScale)
    (hd19 : scale - newScale < 19) (hlo : -2 ^ 63 ≤ u) (hhi : u < maxInt64) :
    (scaledValue u scale newScale).toInt =
      u.tdiv (10 ^ (scale - newScale).toNat) +
        if u.tmod (10 ^ (scale - newScale).toNat) = 0 then 0 else 1 := by
  unfold scaledValue
  simp only [show scale - newScale ≠ 0 by omega, show ¬ scale - newScale < 0 by omega, hhi, hd19,
    and_self, if_false, if_true]
  have hk18 : (scale - newScale).toNat ≤ 18 := by omega
  have hk1 : 1 ≤ (scale - newScale).toNat := by omega
  generalize (scale - newScale).toNat = k at hk18 hk1 ⊢
  have hD := int64Pow10_toInt hk18
  have hDpos : (0 : ℤ) < 10 ^ k := by positivity
  have hu : (Int64.ofInt u).toInt = u := int64_toInt_ofInt ⟨hlo, by unfold maxInt64 at hhi; omega⟩
  have hne : int64Pow10 k ≠ -1 := int64_ne_neg_one (by omega)
  have hdiv : (Int64.ofInt u / int64Pow10 k).toInt = u.tdiv (10 ^ k) := by
    rw [Int64.toInt_div_of_ne_right _ _ hne, hu, hD]
  have hmod : (Int64.ofInt u % int64Pow10 k).toInt = u.tmod (10 ^ k) := by
    rw [Int64.toInt_mod, hu, hD]
  by_cases hm : u.tmod (10 ^ k) = 0
  · have hm' : Int64.ofInt u % int64Pow10 k = 0 := int64_eq_zero_iff.mpr (by rw [hmod, hm])
    rw [if_neg (not_not.mpr hm'), hdiv, if_pos hm, Int.add_zero]
  · have hm' : Int64.ofInt u % int64Pow10 k ≠ 0 := fun h => hm (by rw [← hmod, h]; rfl)
    have hsmall := natAbs_tdiv_le u (10 ^ k)
    have h10 : 10 ≤ 10 ^ k := Nat.le_self_pow (by omega) 10
    push_cast at hsmall
    have hq : (u.tdiv (10 ^ k)).natAbs * 10 ≤ u.natAbs :=
      (Nat.mul_le_mul_left _ h10).trans hsmall
    have hfit : FitsInt64 (u.tdiv (10 ^ k) + 1) := by
      unfold maxInt64 at hhi
      constructor <;> omega
    rw [if_pos hm', int64_toInt_add (by rwa [hdiv, Int64.toInt_one]), hdiv, Int64.toInt_one,
      if_neg hm]

/-- The slow path of scaling down is the ceiling of the quotient, Euclidean `DivMod` plus one
when the remainder is not zero, whatever the sign. -/
theorem scaledValue_slow {u scale newScale : ℤ} (hd : 0 < scale - newScale)
    (hslow : ¬ (u < maxInt64 ∧ scale - newScale < 19))
    (hfit : FitsInt64 ⌈(u : ℚ) / ((10 ^ (scale - newScale).toNat : ℕ) : ℚ)⌉) :
    (scaledValue u scale newScale).toInt = ⌈(u : ℚ) / ((10 ^ (scale - newScale).toNat : ℕ) : ℚ)⌉ := by
  unfold scaledValue
  simp only [show scale - newScale ≠ 0 by omega, show ¬ scale - newScale < 0 by omega, hslow,
    if_false]
  generalize (scale - newScale).toNat = k at hfit ⊢
  rw [ceil_intCast_div u (by positivity)] at hfit ⊢
  push_cast at hfit ⊢
  by_cases hm : u % 10 ^ k = 0
  · rw [if_neg (not_not.mpr hm), if_pos hm, Int.add_zero] at *
    exact int64_toInt_ofInt hfit
  · rw [if_pos hm, if_neg hm] at *
    rw [show Int64.ofInt (u / 10 ^ k) + 1 = Int64.ofInt (u / 10 ^ k + 1) by
      rw [Int64.ofInt_add]; rfl]
    exact int64_toInt_ofInt hfit

/-- **On a value of at least zero, `scaledValue` is the ceiling** of the decimal read at the new
scale, whenever that ceiling fits in `int64`. -/
theorem scaledValue_of_nonneg {u : ℤ} (hu : 0 ≤ u) (scale newScale : ℤ)
    (hfit : FitsInt64 ⌈(u : ℚ) * 10 ^ (newScale - scale)⌉) :
    (scaledValue u scale newScale).toInt = ⌈(u : ℚ) * 10 ^ (newScale - scale)⌉ := by
  rcases lt_trichotomy (scale - newScale) 0 with hd | hd | hd
  · have he : newScale - scale = ((newScale - scale).toNat : ℤ) := by omega
    rw [he, intCast_mul_zpow_natCast, Int.ceil_intCast] at hfit ⊢
    exact scaledValue_up hd hfit
  · have he : newScale - scale = 0 := by omega
    rw [he, zpow_zero, mul_one, Int.ceil_intCast] at hfit ⊢
    unfold scaledValue
    rw [if_pos hd]
    exact int64_toInt_ofInt hfit
  · have he : newScale - scale = -((scale - newScale).toNat : ℤ) := by omega
    rw [he, intCast_mul_zpow_neg_natCast] at hfit ⊢
    by_cases hfast : u < maxInt64 ∧ scale - newScale < 19
    · rw [scaledValue_fast hd hfast.2 (by omega) hfast.1, ceil_intCast_div u (by positivity)]
      push_cast
      rw [Int.tdiv_eq_ediv_of_nonneg hu, Int.tmod_eq_emod_of_nonneg hu]
    · exact scaledValue_slow hd hfast hfit

/-- **On a negative value the fast path is one above the ceiling** whenever the division drops a
non-zero digit: truncation already rounds the negative quotient up. -/
theorem scaledValue_fast_of_neg {u scale newScale : ℤ} (hd : 0 < scale - newScale)
    (hd19 : scale - newScale < 19) (hlo : -2 ^ 63 ≤ u) (hu : u < 0)
    (hndvd : ¬ (10 : ℤ) ^ (scale - newScale).toNat ∣ u) :
    (scaledValue u scale newScale).toInt = ⌈(u : ℚ) * 10 ^ (newScale - scale)⌉ + 1 := by
  have he : newScale - scale = -((scale - newScale).toNat : ℤ) := by omega
  have hm : u.tmod (10 ^ (scale - newScale).toNat) ≠ 0 := fun h =>
    hndvd (Int.dvd_iff_tmod_eq_zero.mpr h)
  rw [scaledValue_fast hd hd19 hlo (by unfold maxInt64; omega), if_neg hm, he,
    intCast_mul_zpow_neg_natCast, ← tdiv_eq_ceil_of_nonpos hu.le (by positivity)]
  push_cast
  rfl

/-! ### What `AsScaledInt64` computes -/

namespace int64Amount

theorem val_mul_zpow (a : int64Amount) (s : Scale) :
    a.val * 10 ^ (-s.toInt) = (a.value.toInt : ℚ) * 10 ^ (a.scale.toInt - s.toInt) := by
  unfold val
  rw [mul_assoc, ← zpow_add₀ (by norm_num : (10 : ℚ) ≠ 0), Int.add_neg_eq_sub]

/-- **`AsScaledInt64` rounds away from zero**: when the difference of the scales is an `int32`
either way and the rounded value fits in `int64`, the amount read at `scale` is its value rounded
away from zero, scaling down through `negativeScaleInt64` and up through `positiveScaleInt64`. -/
theorem AsScaledInt64_toInt (a : int64Amount) (s : Scale)
    (hw : (a.scale.toInt - s.toInt).natAbs < 2 ^ 31)
    (hfit : FitsInt64 (roundAway (a.val * 10 ^ (-s.toInt)))) :
    (a.AsScaledInt64 s).1.toInt = roundAway (a.val * 10 ^ (-s.toInt)) ∧
      (a.AsScaledInt64 s).2 = true := by
  rw [val_mul_zpow] at hfit ⊢
  unfold AsScaledInt64
  split_ifs with hlt
  · rw [Int32.lt_iff_toInt_lt] at hlt
    have hsub : (s - a.scale).toInt = s.toInt - a.scale.toInt :=
      int32_toInt_sub (by unfold FitsInt32; omega)
    have he : a.scale.toInt - s.toInt = -((s.toInt - a.scale.toInt).toNat : ℤ) := by omega
    rw [negativeScaleInt64_eq _ (by rw [hsub]; omega), hsub]
    rw [he, intCast_mul_zpow_neg_natCast, roundAway_intCast_div _ (by positivity)] at hfit ⊢
    push_cast at hfit ⊢
    exact ⟨int64_toInt_ofInt hfit, rfl⟩
  · rw [Int32.lt_iff_toInt_lt] at hlt
    have hsub : (a.scale - s).toInt = a.scale.toInt - s.toInt :=
      int32_toInt_sub (by unfold FitsInt32; omega)
    have he : a.scale.toInt - s.toInt = ((a.scale.toInt - s.toInt).toNat : ℤ) := by omega
    rw [he, intCast_mul_zpow_natCast] at hfit ⊢
    have hround : roundAway (((a.value.toInt * 10 ^ (a.scale.toInt - s.toInt).toNat : ℤ)) : ℚ) =
        a.value.toInt * 10 ^ (a.scale.toInt - s.toInt).toNat := by
      unfold roundAway
      split_ifs
      · exact Int.ceil_intCast _
      · exact Int.floor_intCast _
    rw [hround] at hfit ⊢
    have hc := positiveScaleInt64_checked a.value (show 0 ≤ (a.scale - s).toInt by rw [hsub]; omega)
    rw [hsub] at hc
    have hok := hc.1.mpr hfit
    exact ⟨hc.2 hok, hok⟩

end int64Amount

end Caspr.Apimachinery
