import Caspr.Apimachinery.Parse
import Caspr.Lib.Run

/-! # The canonical form of a quantity (quantity.go: `CanonicalizeBytes`, `String`)

`CanonicalizeBytes` writes a quantity as digits and a suffix in its own format: a decimal
mantissa with an exponent that is a multiple of three for `DecimalSI` and `DecimalExponent`, a
mantissa with every factor of `1024` moved into the exponent for `BinarySI`; a `BinarySI` value
of magnitude under `1024`, or one that is not a whole number, is written in `DecimalSI`.
`String` returns the string `ParseQuantity` cached, if any, and the canonical form otherwise.

The digits are always an integer's decimal form, so the canonical form never starts with `+`
(`CanonicalizeBytes_head`); every string `ParseQuantity` caches is its input
(`ParseQuantity_s`), so an input with a `+` that the fast path takes for canonical is returned
by `String` unchanged and differs from the canonical form (`String_cached_plus`).

The suffix is looked up with its flag dropped.  The decimal table stops at `E` (`10^18`), so a
`DecimalSI` quantity whose canonical exponent is larger is written as its mantissa alone, and
reads back as a different value (`String_round_trip_fails`). -/

namespace Caspr.Apimachinery

open Go

namespace Quantity

/-- The first `switch` of `CanonicalizeBytes`: the format to write in and, when it looked at it,
the value at scale `0`.  A `BinarySI` value strictly between `-1024` and `1024`, or one that
is not whole, is written in `DecimalSI`; a format that is not one of the three is written in
`DecimalExponent`. -/
def canonicalFormat (q : Quantity) : Except Abort (Format × Option CanonicalValue) :=
  match q.format with
  | .DecimalExponent | .DecimalSI => pure (q.format, none)
  | .BinarySI => do
      -- Go's && does not compare with 1024 when the first comparison fails
      let lo ← q.CmpInt64 (-1024)
      let inside ← if lo > 0 then do
          let hi ← q.CmpInt64 1024
          pure (decide (hi < 0))
        else pure false
      if inside then pure (.DecimalSI, none)
      else
        let (rounded, exact) := q.AsScale 0
        pure (if exact then .BinarySI else .DecimalSI, some rounded)
  | .other => pure (.DecimalExponent, none)

/-- `q.CanonicalizeBytes()`: the digits and the suffix of the canonical form.  The flag of the
suffix lookup is dropped.  The last branch is reached only for `BinarySI`, which always comes
with its rounded value; a missing one would be a nil interface. -/
def CanonicalizeBytes (q : Quantity) : Except Abort (String × String) :=
  if q.IsZero then pure ("0", "")
  else do
    let (format, rounded) ← q.canonicalFormat
    match format with
    | .DecimalExponent | .DecimalSI =>
        let (number, exponent) := q.AsCanonicalBytes
        pure (number, (constructBytes 10 exponent format).1)
    | _ =>
        match rounded with
        | some rounded =>
            let (number, exponent) := rounded.AsCanonicalBase1024Bytes
            pure (number, (constructBytes 2 (exponent * 10) format).1)
        | none => throw .nilPointerDereference

end Quantity

/-- `q.String()`: the cached string, or else the canonical form.  Go also caches the canonical
form in `q`. -/
def Quantity.String (q : Quantity) : Except Abort String :=
  if q.s.length = 0 then do
    let (number, suffix) ← q.CanonicalizeBytes
    pure (number ++ suffix)
  else pure q.s

/-! ### The canonical digits -/

theorem head_toString_int (z : ℤ) : ∃ c cs, (toString z).toList = c :: cs ∧ c ≠ '+' := by
  cases z with
  | ofNat m =>
      obtain ⟨c, cs, hcs⟩ := List.exists_cons_of_ne_nil (Nat.toDigits_ne_nil (n := m) (b := 10))
      have hd : c.isDigit := Nat.isDigit_of_mem_toDigits (b := 10) (by decide) (by decide)
        (by rw [hcs]; exact List.mem_cons_self)
      refine ⟨c, cs, ?_, fun h => by subst h; exact absurd hd (by decide)⟩
      show (Nat.repr m).toList = _
      rw [Nat.toList_repr, hcs]
  | negSucc m => exact ⟨'-', (Nat.repr (m + 1)).toList, by simp [toString, Int.repr], by decide⟩

theorem Dec.AsCanonicalBytes_number (x : Dec) : ∃ z : ℤ, x.AsCanonicalBytes.1 = toString z :=
  ⟨_, rfl⟩

theorem int64Amount.AsCanonicalBytes_number (a : int64Amount) :
    ∃ z : ℤ, a.AsCanonicalBytes.1 = toString z := by
  unfold int64Amount.AsCanonicalBytes
  dsimp only
  split_ifs <;> (try split) <;> exact ⟨_, rfl⟩

theorem CanonicalValue.AsCanonicalBase1024Bytes_number (r : CanonicalValue) :
    ∃ z : ℤ, r.AsCanonicalBase1024Bytes.1 = toString z := by
  cases r with
  | int a =>
      simp only [CanonicalValue.AsCanonicalBase1024Bytes, int64Amount.AsCanonicalBase1024Bytes]
      split
      · exact ⟨_, rfl⟩
      · exact ⟨_, rfl⟩
  | dec x => exact ⟨_, rfl⟩

theorem Quantity.AsCanonicalBytes_number (q : Quantity) :
    ∃ z : ℤ, q.AsCanonicalBytes.1 = toString z := by
  unfold Quantity.AsCanonicalBytes
  split
  · exact Dec.AsCanonicalBytes_number _
  · exact int64Amount.AsCanonicalBytes_number _

theorem CanonicalizeBytes_number {q : Quantity} {number suffix : String}
    (h : q.CanonicalizeBytes = .ok (number, suffix)) : number = "0" ∨ ∃ z : ℤ, number = toString z := by
  unfold Quantity.CanonicalizeBytes at h
  split at h
  · exact .inl (Prod.mk.inj (Except.ok.inj h)).1.symm
  · right
    obtain ⟨⟨format, rounded⟩, -, h⟩ := StepSystem.bind_eq_ok.mp h
    dsimp only at h
    split at h
    case h_1 | h_2 =>
      obtain ⟨z, hz⟩ := Quantity.AsCanonicalBytes_number q
      exact ⟨z, (Prod.mk.inj (Except.ok.inj h)).1.symm.trans hz⟩
    case h_3 =>
      split at h
      · obtain ⟨z, hz⟩ := CanonicalValue.AsCanonicalBase1024Bytes_number ‹_›
        exact ⟨z, (Prod.mk.inj (Except.ok.inj h)).1.symm.trans hz⟩
      · cases h

/-- **The canonical form never starts with `+`**: its digits are `"0"` or an integer's decimal
form. -/
theorem CanonicalizeBytes_head {q : Quantity} {number suffix : String}
    (h : q.CanonicalizeBytes = .ok (number, suffix)) :
    ∃ c cs, number.toList = c :: cs ∧ c ≠ '+' := by
  rcases CanonicalizeBytes_number h with rfl | ⟨z, rfl⟩
  · exact ⟨'0', [], by decide, by decide⟩
  · exact head_toString_int z

/-! ### `String` against the canonical form -/

theorem String_of_s {q : Quantity} (hs : q.s ≠ "") : q.String = .ok q.s := by
  unfold Quantity.String
  rw [if_neg (by simpa using hs)]
  rfl

/-- **A string `ParseQuantity` caches need not be canonical**: when it keeps an input that starts
with `+`, `String` returns that input, and the canonical form of the same quantity, whose digits
never start with `+`, differs from it or cannot be computed. -/
theorem String_cached_plus (str : String) (q : Quantity) (hq : ParseQuantity str = .ok q)
    (hs : q.s ≠ "") (hplus : str.toList.head? = some '+') :
    q.String = .ok str ∧ q.String ≠ q.CanonicalizeBytes.map (fun r => r.1 ++ r.2) := by
  have hqs : q.s = str := (ParseQuantity_s hq).resolve_left hs
  have hstr : q.String = .ok str := hqs ▸ String_of_s hs
  refine ⟨hstr, ?_⟩
  rw [hstr]
  cases hc : q.CanonicalizeBytes with
  | error e => simp [Except.map]
  | ok r =>
      obtain ⟨number, suffix⟩ := r
      obtain ⟨c, cs, hn, hplus'⟩ := CanonicalizeBytes_head hc
      simp only [Except.map, ne_eq, Except.ok.injEq]
      intro heq
      have hhead := congrArg (fun s : String => s.toList.head?) heq
      simp [hn, hplus] at hhead
      exact hplus' hhead.symm

theorem String_cached_plus_one :
    ({ i := ⟨1, 0⟩, s := "+1", format := .DecimalSI } : Quantity).String = .ok "+1" ∧
      ({ i := ⟨1, 0⟩, s := "+1", format := .DecimalSI } : Quantity).String ≠
        ({ i := ⟨1, 0⟩, s := "+1", format := .DecimalSI } : Quantity).CanonicalizeBytes.map
          (fun r => r.1 ++ r.2) :=
  String_cached_plus "+1" _ rfl (by decide) rfl

/-- **`String` does not survive a round trip through `ParseQuantity`**: `"1000E"` parses to
`1000 × 10^18`, whose canonical exponent `21` has no decimal suffix, so `String` writes `"1"`,
which parses to a smaller quantity.  And a sum whose scale is the least `int32` cannot be
written at all: in `BinarySI`, `String` compares it with `-1024` and divides by zero. -/
theorem String_round_trip_fails :
    ParseQuantity "1000E" = .ok { i := ⟨1000, 18⟩, format := .DecimalSI } ∧
      ({ i := ⟨1000, 18⟩, format := .DecimalSI } : Quantity).String = .ok "1" ∧
      ParseQuantity "1" = .ok { i := ⟨1, 0⟩, s := "1", format := .DecimalSI } ∧
      ({ i := ⟨1000, 18⟩, format := .DecimalSI } : Quantity).Cmp
        { i := ⟨1, 0⟩, s := "1", format := .DecimalSI } = .ok 1 ∧
      ((Quantity.NewQuantity 5 .BinarySI).Add (Quantity.NewScaledQuantity 1 Int32.minValue)).String =
        .error .integerDivideByZero := by
  refine ⟨rfl, rfl, rfl, rfl, rfl⟩

end Caspr.Apimachinery
