import Caspr.Apimachinery.Suffix
import Caspr.Framework.Resource

/-! # `resource.Quantity` and its scaled values (quantity.go)

A `Quantity` holds its value as an `int64Amount` while `d` is `nil`, and as an `inf.Dec`
otherwise; `ToDec` moves it from the first form to the second, and `Add`, `Sub` and `Neg` keep
the first while the result fits.  `val` is the exact value either form stands for.

`ScaledValue(s)`, which `Value` (`s = 0`) and `MilliValue` (`s = -3`) call and through which the
scheduler reads every request, computes the value at scale `s` by a different routine in each
form:

* on an `int64Amount`, `AsScaledInt64` rounds away from zero and scales up exactly
  (`ScaledValue_of_int`), discarding the overflow flag;
* on an `inf.Dec`, `scaledValue` rounds up, and is the ceiling on values of at least zero
  (`ScaledValue_of_dec_nonneg`).

So on a quantity of at least zero both forms give the ceiling, and `ScaledValue` refines the
scheduler's own reading of a quantity as a number of nano-units (`ScaledValue_nanos`).  On a
negative quantity they part: the `int64` form rounds down, and the `inf.Dec` form, through its
truncating fast path, returns one above the ceiling.  `ToDec` therefore moves `ScaledValue` of a
negative quantity that does not divide by two (`ScaledValue_ToDec_neg_inexact`).  And since the
overflow flag is dropped, a quantity too large for the scale reads as `0` or as a wrapped value,
so `ScaledValue` is not monotone (`Value_not_monotone`). -/

namespace Caspr.Apimachinery

open Go Decimal

/-- `resource.Quantity`: the `int64` form `i`, the `inf.Dec` form `d` when it is not `nil`, the
string cached by `String` or `ParseQuantity`, and the embedded `Format`. -/
structure Quantity where
  i : int64Amount := ⟨0, 0⟩
  d : Option Dec := none
  s : String := ""
  format : Format := .other
deriving DecidableEq, Repr

/-- The value a `CanonicalValue` holds: what `AsScale` returns, in the form it was in. -/
inductive CanonicalValue where
  | int (a : int64Amount)
  | dec (x : Dec)
deriving DecidableEq, Repr

/-- `AsCanonicalBase1024Bytes` of either form. -/
def CanonicalValue.AsCanonicalBase1024Bytes : CanonicalValue → String × Int32
  | .int a => a.AsCanonicalBase1024Bytes
  | .dec x => x.AsCanonicalBase1024Bytes

namespace Quantity

/-- The exact value of the quantity. -/
def val (q : Quantity) : ℚ :=
  match q.d with
  | some x => x.val
  | none => q.i.val

/-- `NewQuantity(value, format)`. -/
def NewQuantity (value : Int64) (format : Format) : Quantity := { i := ⟨value, 0⟩, format }

/-- `NewMilliQuantity(value, format)`. -/
def NewMilliQuantity (value : Int64) (format : Format) : Quantity := { i := ⟨value, -3⟩, format }

/-- `NewScaledQuantity(value, scale)`. -/
def NewScaledQuantity (value : Int64) (scale : Scale) : Quantity :=
  { i := ⟨value, scale⟩, format := .DecimalSI }

/-- `q.IsZero()`. -/
def IsZero (q : Quantity) : Bool :=
  match q.d with
  | some x => x.Sign = 0
  | none => q.i.value = 0

/-- `q.ToDec()`: the `inf.Dec` form, with the `int64` form cleared. -/
def ToDec (q : Quantity) : Quantity :=
  match q.d with
  | none => { q with d := some q.i.AsDec, i := ⟨0, 0⟩ }
  | some _ => q

/-- `q.AsDec()`: the value as an `inf.Dec` (Go also stores it into `q`, as `ToDec` does). -/
def AsDec (q : Quantity) : Dec :=
  match q.d with
  | some x => x
  | none => q.i.AsDec

/-- `q.AsCanonicalBytes()`. -/
def AsCanonicalBytes (q : Quantity) : String × Int32 :=
  match q.d with
  | some x => x.AsCanonicalBytes
  | none => q.i.AsCanonicalBytes

/-- `q.AsScale(scale)`. -/
def AsScale (q : Quantity) (scale : Scale) : CanonicalValue × Bool :=
  match q.d with
  | some x => let (r, exact) := x.AsScale scale; (.dec r, exact)
  | none => let (r, exact) := q.i.AsScale scale; (.int r, exact)

/-- `q.Cmp(y)`: by the `int64` forms when both have one, by `inf.Dec` otherwise. -/
def Cmp (q y : Quantity) : Except Abort ℤ :=
  if q.d = none ∧ y.d = none then q.i.Cmp y.i else pure (q.AsDec.Cmp y.AsDec)

/-- `q.CmpInt64(y)`. -/
def CmpInt64 (q : Quantity) (y : Int64) : Except Abort ℤ :=
  match q.d with
  | some x => pure (x.Cmp ⟨y.toInt, 0⟩)
  | none => q.i.Cmp ⟨y, 0⟩

/-- `q.ScaledValue(scale)`: the value at `scale`, through `AsScaledInt64` on the `int64` form,
whose overflow flag it drops, and through `scaledValue` on the `inf.Dec` form. -/
def ScaledValue (q : Quantity) (scale : Scale) : Int64 :=
  match q.d with
  | none => (q.i.AsScaledInt64 scale).1
  | some dec => scaledValue dec.unscaled dec.scale.toInt (infScale scale).toInt

/-- `q.Value()`. -/
def Value (q : Quantity) : Int64 := q.ScaledValue 0

/-- `q.MilliValue()`. -/
def MilliValue (q : Quantity) : Int64 := q.ScaledValue Milli

/-- The `inf.Dec` fallback of `Add`: `q.ToDec().d.Dec.Add(q.d.Dec, y.AsDec())`. -/
def addDec (q y : Quantity) : Quantity := { q.ToDec with d := some (q.AsDec.Add y.AsDec) }

/-- `q.Add(y)`: in the `int64` form when both are and the sum fits, in `inf.Dec` otherwise; a
zero `q` takes the format of `y`. -/
def Add (q y : Quantity) : Quantity :=
  let q := { q with s := "" }
  if q.d = none ∧ y.d = none then
    let q := if q.i.value = 0 then { q with format := y.format } else q
    match q.i.Add y.i with
    | (i, true) => { q with i }
    | (_, false) => q.addDec y
  else (if q.IsZero then { q with format := y.format } else q).addDec y

/-- `q.Sub(y)`: in the `int64` form when both are and the difference fits, in `inf.Dec`
otherwise; a zero `q` takes the format of `y`. -/
def Sub (q y : Quantity) : Quantity :=
  let q := { q with s := "" }
  let q := if q.IsZero then { q with format := y.format } else q
  let viaDec := { q.ToDec with d := some (q.AsDec.Sub y.AsDec) }
  if q.d = none ∧ y.d = none then
    match q.i.Sub y.i with
    | (i, true) => { q with i }
    | (_, false) => viaDec
  else viaDec

/-- `q.Neg()`. -/
def Neg (q : Quantity) : Quantity :=
  match q.d with
  | none => { q with s := "", i := { q.i with value := -q.i.value } }
  | some x => { q with s := "", d := some x.Neg }

/-! ### The value of each form -/

/-- `AsDec` of an `int64Amount` keeps its value, unless the scale is the least `int32`, whose
negation wraps. -/
theorem AsDec_val (a : int64Amount) (h : -2 ^ 31 < a.scale.toInt) : a.AsDec.val = a.val := by
  unfold int64Amount.AsDec Dec.val int64Amount.val
  simp only [int32_toInt_neg h, neg_neg]

theorem Dec.val_mul_zpow (x : Dec) (s : ℤ) :
    x.val * 10 ^ (-s) = (x.unscaled : ℚ) * 10 ^ (-s - x.scale.toInt) := by
  unfold Dec.val
  rw [mul_assoc, ← zpow_add₀ (by norm_num : (10 : ℚ) ≠ 0)]
  congr 2
  ring

/-- **`ScaledValue` of the `int64` form rounds away from zero**, when the scales differ by an
`int32` and the result fits. -/
theorem ScaledValue_of_int (q : Quantity) (hd : q.d = none) (s : Scale)
    (hw : (q.i.scale.toInt - s.toInt).natAbs < 2 ^ 31)
    (hfit : FitsInt64 (roundAway (q.val * 10 ^ (-s.toInt)))) :
    (q.ScaledValue s).toInt = roundAway (q.val * 10 ^ (-s.toInt)) := by
  unfold ScaledValue
  unfold val at hfit ⊢
  rw [hd] at hfit ⊢
  exact (q.i.AsScaledInt64_toInt s hw hfit).1

/-- **`ScaledValue` of the `inf.Dec` form is the ceiling** on a value of at least zero, when it
fits and `-s` does not wrap. -/
theorem ScaledValue_of_dec_nonneg (q : Quantity) {x : Dec} (hd : q.d = some x) {s : Scale}
    (hs : -2 ^ 31 < s.toInt) (hnn : 0 ≤ x.unscaled) (hfit : FitsInt64 ⌈q.val * 10 ^ (-s.toInt)⌉) :
    (q.ScaledValue s).toInt = ⌈q.val * 10 ^ (-s.toInt)⌉ := by
  unfold ScaledValue
  unfold val at hfit ⊢
  rw [hd] at hfit ⊢
  rw [Dec.val_mul_zpow] at hfit ⊢
  simp only
  rw [infScale, int32_toInt_neg hs]
  exact scaledValue_of_nonneg hnn _ _ hfit

theorem Dec.unscaled_nonneg {x : Dec} (h : 0 ≤ x.val) : 0 ≤ x.unscaled := by
  unfold Dec.val at h
  have hpos : (0 : ℚ) < 10 ^ (-x.scale.toInt) := zpow_pos (by norm_num) _
  have : (0 : ℚ) ≤ x.unscaled := nonneg_of_mul_nonneg_left h hpos
  exact_mod_cast this

/-- **On a quantity of at least zero, both forms read the ceiling**: `ScaledValue(s)` is
`⌈q × 10^(-s)⌉` whenever that fits in `int64`, the scales of the `int64` form differ from `s` by
an `int32`, and `-s` does not wrap. -/
theorem ScaledValue_eq_ceil (q : Quantity) (s : Scale) (hnn : 0 ≤ q.val)
    (hw : q.d = none → (q.i.scale.toInt - s.toInt).natAbs < 2 ^ 31) (hs : -2 ^ 31 < s.toInt)
    (hfit : FitsInt64 ⌈q.val * 10 ^ (-s.toInt)⌉) :
    (q.ScaledValue s).toInt = ⌈q.val * 10 ^ (-s.toInt)⌉ := by
  have hnn' : 0 ≤ q.val * 10 ^ (-s.toInt) := mul_nonneg hnn (zpow_nonneg (by norm_num) _)
  have hround : roundAway (q.val * 10 ^ (-s.toInt)) = ⌈q.val * 10 ^ (-s.toInt)⌉ := if_pos hnn'
  cases hd : q.d with
  | none =>
      rw [← hround] at hfit ⊢
      exact ScaledValue_of_int q hd s (hw hd) hfit
  | some x =>
      have hx : 0 ≤ x.val := by unfold val at hnn; rwa [hd] at hnn
      exact ScaledValue_of_dec_nonneg q hd hs (Dec.unscaled_nonneg hx) hfit

/-- **`Value` and `MilliValue` refine the scheduler's reading of a quantity**: a quantity whose
value is `n` nano-units reads as `Caspr.Quantity.value` and `.milliValue` of `⟨n⟩`, the ceilings
by `10^9` and `10^6`, whenever the milli-value fits in `int64` and the scale of the `int64` form
is not within three of the least `int32`. -/
theorem ScaledValue_nanos (q : Quantity) (n : ℕ) (hq : q.val = n / 10 ^ 9)
    (hw : q.d = none → q.i.scale.toInt.natAbs + 3 < 2 ^ 31)
    (hfit : FitsInt64 (Caspr.Quantity.milliValue ⟨n⟩)) :
    q.Value.toInt = (Caspr.Quantity.value ⟨n⟩) ∧ q.MilliValue.toInt = Caspr.Quantity.milliValue ⟨n⟩ := by
  have hnn : 0 ≤ q.val := by rw [hq]; positivity
  have hmilli : q.val * 10 ^ (-(Milli.toInt)) = (n : ℚ) / ((1000000 : ℕ) : ℚ) := by
    rw [hq, show Milli.toInt = -3 from rfl]
    norm_num
    ring
  have hunit : q.val * 10 ^ (-((0 : Scale).toInt)) = (n : ℚ) / ((1000000000 : ℕ) : ℚ) := by
    rw [hq, show (0 : Scale).toInt = 0 from rfl]
    norm_num
  have hm : ⌈q.val * 10 ^ (-(Milli.toInt))⌉ = Caspr.Quantity.milliValue ⟨n⟩ := by
    rw [hmilli, ceil_natCast_div n (by decide)]
    rfl
  have hv : ⌈q.val * 10 ^ (-((0 : Scale).toInt))⌉ = Caspr.Quantity.value ⟨n⟩ := by
    rw [hunit, ceil_natCast_div n (by decide)]
    rfl
  have hvfit : FitsInt64 (Caspr.Quantity.value ⟨n⟩) := by
    unfold Caspr.Quantity.value Caspr.Quantity.milliValue at *
    obtain ⟨hlo, hhi⟩ := hfit
    constructor <;> omega
  refine ⟨?_, ?_⟩
  · rw [← hv] at hvfit ⊢
    exact ScaledValue_eq_ceil q 0 hnn (fun h => by have := hw h; simp; omega) (by decide) hvfit
  · rw [← hm] at hfit ⊢
    exact ScaledValue_eq_ceil q Milli hnn
      (fun h => by have := hw h; rw [show Milli.toInt = -3 from rfl]; omega) (by decide) hfit

/-! ### Where the two forms part -/

/-- `1.5` written in thousandths reads as `2` units and `1500` thousandths, as `1.5e9` nano-units
do. -/
theorem ScaledValue_nanos_milli :
    (NewMilliQuantity 1500 .DecimalSI).Value.toInt = Caspr.Quantity.value ⟨1500000000⟩ ∧
      (NewMilliQuantity 1500 .DecimalSI).MilliValue.toInt = Caspr.Quantity.milliValue ⟨1500000000⟩ :=
  ScaledValue_nanos _ 1500000000
    (by
      have hv : (1500 : Int64).toInt = 1500 := by decide
      have hs : (-3 : Int32).toInt = -3 := by decide
      simp only [val, NewMilliQuantity, int64Amount.val, hv, hs]
      norm_num)
    (fun _ => by decide) ⟨by decide, by decide⟩

/-- **`ToDec` moves `ScaledValue` of a negative quantity by two** whenever the scale-down drops a
non-zero digit and takes fewer than 19 of them: the `int64` form rounds away from zero, as the
documentation of `Value` says, but the `inf.Dec` form returns one above the ceiling. -/
theorem ScaledValue_ToDec_neg_inexact (q : Quantity) (s : Scale) (hd : q.d = none)
    (hneg : q.i.value.toInt < 0) (hmin : -2 ^ 31 < q.i.scale.toInt)
    (hk : 0 < s.toInt - q.i.scale.toInt) (hk19 : s.toInt - q.i.scale.toInt < 19)
    (hndvd : ¬ (10 : ℤ) ^ (s.toInt - q.i.scale.toInt).toNat ∣ q.i.value.toInt) :
    (q.ScaledValue s).toInt = roundAway (q.val * 10 ^ (-s.toInt)) ∧
      (q.ToDec.ScaledValue s).toInt = roundAway (q.val * 10 ^ (-s.toInt)) + 2 := by
  have hval : q.val * 10 ^ (-s.toInt) =
      (q.i.value.toInt : ℚ) / ((10 ^ (s.toInt - q.i.scale.toInt).toNat : ℕ) : ℚ) := by
    unfold val
    rw [hd, int64Amount.val_mul_zpow, ← intCast_mul_zpow_neg_natCast]
    congr 2
    omega
  have hpos : 0 < 10 ^ (s.toInt - q.i.scale.toInt).toNat := by positivity
  have hround : roundAway (q.val * 10 ^ (-s.toInt)) =
      ⌈(q.i.value.toInt : ℚ) / ((10 ^ (s.toInt - q.i.scale.toInt).toNat : ℕ) : ℚ)⌉ - 1 := by
    rw [hval, roundAway_intCast_div _ hpos, divAway_eq_ceil_sub_one hneg hpos (by exact_mod_cast hndvd)]
  refine ⟨ScaledValue_of_int q hd s (by omega) ?_, ?_⟩
  · rw [hval, roundAway_intCast_div _ hpos]
    have hle := natAbs_divAway_le q.i.value.toInt hpos
    have hnp := divAway_nonpos hneg.le (10 ^ (s.toInt - q.i.scale.toInt).toNat)
    obtain ⟨hlo, hhi⟩ := fitsInt64_toInt q.i.value
    constructor <;> omega
  · have hs : -2 ^ 31 < s.toInt := by omega
    have hdec : q.ToDec.ScaledValue s =
        scaledValue q.i.value.toInt (-q.i.scale.toInt) (-s.toInt) := by
      unfold ToDec ScaledValue
      rw [hd]
      simp only [int64Amount.AsDec, infScale, int32_toInt_neg hmin, int32_toInt_neg hs]
    rw [hdec, hround, scaledValue_fast_of_neg (by omega) (by omega) (fitsInt64_toInt _).1 hneg
      (by rwa [show -q.i.scale.toInt - -s.toInt = s.toInt - q.i.scale.toInt by omega]),
      show -s.toInt - -q.i.scale.toInt = -((s.toInt - q.i.scale.toInt).toNat : ℤ) by omega,
      intCast_mul_zpow_neg_natCast]
    ring

/-- `-1.5`, as `ParseQuantity("-1.5")` holds it: `Value()` is `-2` in the `int64` form and `0`
after `ToDec()`. -/
theorem ScaledValue_ToDec_neg_inexact_minus_one_and_half :
    let q : Quantity := { i := ⟨-15, -1⟩, format := .DecimalSI }
    (q.ScaledValue 0).toInt = roundAway (q.val * 10 ^ (-(0 : Scale).toInt)) ∧
      (q.ToDec.ScaledValue 0).toInt = roundAway (q.val * 10 ^ (-(0 : Scale).toInt)) + 2 :=
  ScaledValue_ToDec_neg_inexact _ 0 rfl (by decide) (by decide) (by decide) (by decide)
    (by decide)

example : let q : Quantity := { i := ⟨-15, -1⟩, format := .DecimalSI }
    q.Value = -2 ∧ q.ToDec.Value = 0 := by decide

/-- **`ScaledValue` is not monotone**: `10^19`, held as `10 × 10^18`, overflows `int64` at scale
`0`, and `Value` drops the flag and returns `0`, below the `1` of the quantity `1`. -/
theorem Value_not_monotone :
    (NewQuantity 1 .DecimalSI).val ≤ (NewScaledQuantity 10 18).val ∧
      (NewScaledQuantity 10 18).Value < (NewQuantity 1 .DecimalSI).Value := by
  refine ⟨?_, by decide⟩
  simp only [val, NewQuantity, NewScaledQuantity, int64Amount.val,
    show (1 : Int64).toInt = 1 from rfl, show (10 : Int64).toInt = 10 from rfl,
    show (0 : Int32).toInt = 0 from rfl, show (18 : Int32).toInt = 18 from rfl]
  norm_num

end Quantity

end Caspr.Apimachinery
