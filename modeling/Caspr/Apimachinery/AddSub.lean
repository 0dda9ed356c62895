import Caspr.Apimachinery.Quantity

/-! # Adding and subtracting quantities (amount.go, quantity.go: `Add`, `Sub`)

`Quantity.Add` and `Quantity.Sub` work on the `int64Amount` form while both operands are in it
and the result fits, and redo the operation in `inf.Dec` otherwise.

* `int64Amount.Add` brings the operand with the larger scale down to the smaller one through
  `positiveScaleInt64` and adds with `int64Add`; both are checked, so when its flag is set the
  result is the exact sum (`int64Amount.Add_val`), as long as the two scales are less than
  `2^31` apart and their difference, an `int32` subtraction, does not wrap.
* `inf.Dec`'s `Add` and `Sub` are exact (`Dec.Add_val`, `Dec.Sub_val`), and `AsDec` keeps the
  value of every scale but the least `int32`.

So `Quantity.Add` is exact (`Add_val`).  `Quantity.Sub` is `Add` of the negated mantissa, and the
negation of the least `int64` wraps to itself: subtracting a quantity whose mantissa is
`math.MinInt64` adds it instead, with the flag set, so the fallback never runs
(`Sub_mostNegative`).  Every other subtraction is exact (`Sub_val`). -/

namespace Caspr.Apimachinery

open Go

namespace Dec

theorem upscaled_val (x : Dec) {s : ℤ} (h : x.scale.toInt ≤ s) :
    (x.upscaled s : ℚ) * 10 ^ (-s) = x.val := by
  unfold upscaled val
  push_cast
  rw [← zpow_natCast, Int.toNat_of_nonneg (by omega), mul_assoc, ← zpow_add₀ (by norm_num)]
  congr 2
  ring

theorem Add_val (x y : Dec) : (x.Add y).val = x.val + y.val := by
  have hs := int32_toInt_max x.scale y.scale
  unfold Add
  rw [← upscaled_val x (le_max_left _ _), ← upscaled_val y (le_max_right _ _)]
  simp only [val, hs]
  push_cast
  ring

theorem Sub_val (x y : Dec) : (x.Sub y).val = x.val - y.val := by
  have hs := int32_toInt_max x.scale y.scale
  unfold Sub
  rw [← upscaled_val x (le_max_left _ _), ← upscaled_val y (le_max_right _ _)]
  simp only [val, hs]
  push_cast
  ring

end Dec

namespace int64Amount

/-- Bringing `x` down to a smaller scale `t` through `positiveScaleInt64` keeps its value when
the multiplication does not overflow. -/
theorem val_of_positiveScale (x : int64Amount) {t : Scale} (hlt : t.toInt < x.scale.toInt)
    (hw : (x.scale.toInt - t.toInt).natAbs < 2 ^ 31) {c : Int64}
    (h : positiveScaleInt64 x.value (x.scale - t) = (c, true)) :
    (c.toInt : ℚ) * 10 ^ t.toInt = x.val := by
  have hd : (x.scale - t).toInt = x.scale.toInt - t.toInt :=
    int32_toInt_sub (by unfold FitsInt32; omega)
  have hc := Checked.toInt_of_ok
    (@positiveScaleInt64_checked x.value (x.scale - t) (by omega)) h
  rw [hc, hd, val]
  push_cast
  rw [← zpow_natCast, Int.toNat_of_nonneg (by omega), mul_assoc, ← zpow_add₀ (by norm_num)]
  congr 2
  ring

/-- **`int64Amount.Add` is exact when it succeeds**, for scales less than `2^31` apart. -/
theorem Add_val (a b : int64Amount) (hw : (a.scale.toInt - b.scale.toInt).natAbs < 2 ^ 31)
    (h : (a.Add b).2 = true) : (a.Add b).1.val = a.val + b.val := by
  unfold Add at h ⊢
  split_ifs at h ⊢ with hb ha hab hgt
  · simp [val, int64_eq_zero_iff.mp hb]
  · simp [val, int64_eq_zero_iff.mp ha]
  · rcases hr : int64Add a.value b.value with ⟨c, _ | _⟩
    · simp [hr] at h
    · have hc := Checked.toInt_of_ok (int64Add_checked a.value b.value) hr
      simp only [val, hc, hab]
      push_cast
      ring
  · rw [gt_iff_lt, Int32.lt_iff_toInt_lt] at hgt
    rcases hs : positiveScaleInt64 a.value (a.scale - b.scale) with ⟨c₁, _ | _⟩
    · simp [hs] at h
    rcases hr : int64Add c₁ b.value with ⟨c, _ | _⟩
    · simp [hs, hr] at h
    have hc := Checked.toInt_of_ok (int64Add_checked c₁ b.value) hr
    simp only [hr]
    rw [val, hc, ← val_of_positiveScale a hgt hw hs, val]
    push_cast
    ring
  · have hlt : a.scale.toInt < b.scale.toInt := by
      rw [gt_iff_lt, Int32.lt_iff_toInt_lt] at hgt
      rw [← Int32.toInt_inj] at hab
      exact lt_of_le_of_ne (not_lt.mp hgt) hab
    have hw' : (b.scale.toInt - a.scale.toInt).natAbs < 2 ^ 31 := by
      rwa [← Int.natAbs_neg, neg_sub]
    rcases hs : positiveScaleInt64 b.value (b.scale - a.scale) with ⟨c₁, _ | _⟩
    · simp [hs] at h
    rcases hr : int64Add a.value c₁ with ⟨c, _ | _⟩
    · simp [hs, hr] at h
    have hc := Checked.toInt_of_ok (int64Add_checked a.value c₁) hr
    simp only [hr]
    rw [val, hc, ← val_of_positiveScale b hlt hw' hs, val]
    push_cast
    ring

theorem Add_ok_of_scale_eq (a b : int64Amount) (hs : a.scale = b.scale)
    (hfit : FitsInt64 (a.value.toInt + b.value.toInt)) : (a.Add b).2 = true := by
  unfold Add
  split_ifs
  · rfl
  · rfl
  · have hok := (int64Add_checked a.value b.value).1.mpr hfit
    rcases hr : int64Add a.value b.value with ⟨c, _ | _⟩
    · simp [hr] at hok
    · rfl

end int64Amount

namespace Quantity

theorem val_AsDec (q : Quantity) (h : q.d = none → -2 ^ 31 < q.i.scale.toInt) :
    q.AsDec.val = q.val := by
  cases hd : q.d with
  | none =>
      simp only [AsDec, val, hd]
      exact AsDec_val q.i (h hd)
  | some x => simp [AsDec, val, hd]

/-! ### The two paths of `Add` and `Sub`

Which path a call takes, and the value it leaves; the format a zero `q` takes from `y` does not
change the value. -/

theorem Add_val_of_int (q y : Quantity) (hqd : q.d = none) (hyd : y.d = none) :
    (q.Add y).val =
      if (q.i.Add y.i).2 then (q.i.Add y.i).1.val else (q.AsDec.Add y.AsDec).val := by
  simp only [Add, addDec, hqd, hyd, and_self, ↓reduceIte]
  by_cases hz : q.i.value = 0 <;> simp only [hz, ↓reduceIte] <;>
    rcases q.i.Add y.i with ⟨i, _ | _⟩ <;> simp [val, AsDec, hqd, hyd]

theorem Add_val_of_dec (q y : Quantity) (h : ¬ (q.d = none ∧ y.d = none)) :
    (q.Add y).val = (q.AsDec.Add y.AsDec).val := by
  simp only [Add, addDec]
  split_ifs with hz <;> simp only [val, AsDec]

theorem Sub_val_of_int (q y : Quantity) (hqd : q.d = none) (hyd : y.d = none) :
    (q.Sub y).val =
      if (q.i.Sub y.i).2 then (q.i.Sub y.i).1.val else (q.AsDec.Sub y.AsDec).val := by
  unfold Sub
  split_ifs with hz <;> simp only [hz, Bool.false_eq_true, ↓reduceIte] <;>
    simp only [hqd, hyd, and_self, ↓reduceIte] <;>
    rcases q.i.Sub y.i with ⟨i, _ | _⟩ <;> simp [val, AsDec, hqd]

theorem Sub_val_of_dec (q y : Quantity) (h : ¬ (q.d = none ∧ y.d = none)) :
    (q.Sub y).val = (q.AsDec.Sub y.AsDec).val := by
  unfold Sub
  split_ifs with hz <;> simp only [hz, Bool.false_eq_true, ↓reduceIte, if_neg h, val, AsDec]

/-! ### Exactness -/

section Exact

variable (q y : Quantity) (hq : q.d = none → -2 ^ 31 < q.i.scale.toInt)
  (hy : y.d = none → -2 ^ 31 < y.i.scale.toInt)
  (hw : q.d = none → y.d = none → (q.i.scale.toInt - y.i.scale.toInt).natAbs < 2 ^ 31)
include hq hy hw

/-- **`Add` is exact**: through `int64Amount.Add` when its flag is set, through `inf.Dec`
otherwise. -/
theorem Add_val : (q.Add y).val = q.val + y.val := by
  by_cases hb : q.d = none ∧ y.d = none
  · obtain ⟨hqd, hyd⟩ := hb
    rw [Add_val_of_int q y hqd hyd]
    split_ifs with hok
    · rw [int64Amount.Add_val _ _ (hw hqd hyd) hok]
      simp [val, hqd, hyd]
    · rw [Dec.Add_val, val_AsDec q hq, val_AsDec y hy]
  · rw [Add_val_of_dec q y hb, Dec.Add_val, val_AsDec q hq, val_AsDec y hy]

/-- **`Sub` is exact** when it does not negate the least `int64`. -/
theorem Sub_val (hmin : q.d = none → y.d = none → y.i.value ≠ mostNegative) :
    (q.Sub y).val = q.val - y.val := by
  by_cases hb : q.d = none ∧ y.d = none
  · obtain ⟨hqd, hyd⟩ := hb
    rw [Sub_val_of_int q y hqd hyd]
    split_ifs with hok
    · have hneg : (⟨-y.i.value, y.i.scale⟩ : int64Amount).val = -y.i.val := by
        simp [int64Amount.val, int64_toInt_neg (hmin hqd hyd)]
      rw [int64Amount.Sub] at hok ⊢
      rw [int64Amount.Add_val q.i ⟨-y.i.value, y.i.scale⟩ (hw hqd hyd) hok, hneg]
      simp only [val, hqd, hyd]
      ring
    · rw [Dec.Sub_val, val_AsDec q hq, val_AsDec y hy]
  · rw [Sub_val_of_dec q y hb, Dec.Sub_val, val_AsDec q hq, val_AsDec y hy]

end Exact

/-- **Subtracting `math.MinInt64` adds it.**  For every `int64`-backed quantity `q` of at least
zero, `q.Sub` of the quantity with mantissa `math.MinInt64` at `q`'s scale negates the mantissa
to itself, adds it without overflow, and keeps the sum `q + y` where `q - y` was asked for. -/
theorem Sub_mostNegative (q : Quantity) (hd : q.d = none) (hv : 0 ≤ q.i.value.toInt) :
    (q.Sub (NewScaledQuantity mostNegative q.i.scale)).val =
        q.val + (NewScaledQuantity mostNegative q.i.scale).val ∧
      (q.Sub (NewScaledQuantity mostNegative q.i.scale)).val ≠
        q.val - (NewScaledQuantity mostNegative q.i.scale).val := by
  set y := NewScaledQuantity mostNegative q.i.scale with hy
  have hyd : y.d = none := rfl
  have hmin : mostNegative.toInt = -2 ^ 63 := Int64.toInt_minValue
  -- Go's `-b.value` on the least `int64` wraps to itself
  have hsub : q.i.Sub y.i = q.i.Add y.i := by
    have hneg : -mostNegative = mostNegative := by decide
    simp [int64Amount.Sub, hy, NewScaledQuantity, hneg]
  have hok : (q.i.Add y.i).2 = true := by
    have hlt := Int64.toInt_lt q.i.value
    apply int64Amount.Add_ok_of_scale_eq q.i y.i rfl
    simp only [hy, NewScaledQuantity, hmin]
    unfold FitsInt64
    omega
  have hval : (q.Sub y).val = q.val + y.val := by
    have hw : (q.i.scale.toInt - y.i.scale.toInt).natAbs < 2 ^ 31 := by simp [hy, NewScaledQuantity]
    rw [Sub_val_of_int q y hd hyd, hsub, if_pos hok, int64Amount.Add_val _ _ hw hok]
    simp [val, hd, hyd]
  have hy0 : y.val ≠ 0 := by
    simp only [hy, val, NewScaledQuantity, int64Amount.val, hmin]
    exact mul_ne_zero (by norm_num) (zpow_ne_zero _ (by norm_num))
  refine ⟨hval, fun h => hy0 ?_⟩
  linarith

theorem Sub_mostNegative_five :
    ((NewQuantity 5 .DecimalSI).Sub (NewScaledQuantity mostNegative 0)).val =
        (NewQuantity 5 .DecimalSI).val + (NewScaledQuantity mostNegative 0).val ∧
      ((NewQuantity 5 .DecimalSI).Sub (NewScaledQuantity mostNegative 0)).val ≠
        (NewQuantity 5 .DecimalSI).val - (NewScaledQuantity mostNegative 0).val :=
  Sub_mostNegative (NewQuantity 5 .DecimalSI) rfl (by decide)

end Quantity

end Caspr.Apimachinery
