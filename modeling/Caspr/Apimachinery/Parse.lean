import Caspr.Apimachinery.Quantity

/-! # Parsing a quantity (quantity.go, inf.Dec's `SetString`)

`ParseQuantity` reads a string in three stages:

* `parseQuantityString` scans it with five loops: a sign, leading zeros (a string that ends
  among them reads as `"0"`), the digits of the numerator, the digits of a fraction after a
  point, and a suffix of letters, one sign and digits;
* the suffix names a base, an exponent and a format (`interpret`);
* the number is read into an `int64Amount` when a count of its digits promises that it fits
  (`parseFast`, which also keeps the input as the cached string when it looks canonical), and
  otherwise into an `inf.Dec` (`parseSlow`), rounded up to nano units and, in `BinarySI` only,
  capped at `2^63-1`.

The documented grammar (`IsQuantity`) asks for a digit in the number, and every string it
describes has one (`IsQuantity.exists_digit`).  The scanner does not: its zero-stripping loop
and its numerator loop both accept an empty run, and an empty numerator is read as `"0"`, so a
lone sign or point parses as zero (`ParseQuantity_grammar_mismatch`).  The other way, an exponent
that `ParseInt` cannot hold is in the grammar but rejected, and the cap at `2^63-1` the
documentation promises is applied only on the `inf.Dec` path and only in `BinarySI`.

Go strings are modelled as lists of characters.  Every test of the scanner is on an ASCII
character, which is one byte in UTF-8 and never a byte of a longer character, so reading bytes
and reading characters cut a string at the same places. -/

namespace Caspr.Apimachinery

open Go

/-! ### Errors -/

/-- The errors `ParseQuantity` returns. -/
inductive ParseError where
  | ErrFormatWrong
  | ErrNumeric
  | ErrSuffix
deriving DecidableEq, Repr

/-- `splitREString`, the expression `ErrFormatWrong` quotes. -/
def splitREString : String := "^([+-]?[0-9.]+)([eEinumkKMGTP]*[-+]?[0-9]*)$"

/-- The message of each error. -/
def ParseError.Error : ParseError → String
  | .ErrFormatWrong => "quantities must match the regular expression " ++ "\x27" ++ splitREString ++
      "\x27"
  | .ErrNumeric => "unable to parse numeric part of quantity"
  | .ErrSuffix => "unable to parse quantity\x27s suffix"

/-! ### The scanner -/

/-- What `parseQuantityString` returns besides its error. -/
structure Scanned where
  positive : Bool
  value : List Char
  num : List Char
  denom : List Char
  suffix : List Char
deriving DecidableEq, Repr

/-- The letters a suffix may start with, `"eEinumkKMGTP"`. -/
def suffixLetters : List Char := ['e', 'E', 'i', 'n', 'u', 'm', 'k', 'K', 'M', 'G', 'T', 'P']

/-- `strings.ContainsAny(str[i:i+1], "eEinumkKMGTP")`. -/
def isSuffixLetter (c : Char) : Bool := suffixLetters.contains c

/-- The suffix loops of `parseQuantityString` from the start `s` of the suffix: letters, then one
sign, then digits.  Anything after the digits is `ErrFormatWrong`. -/
def scanSuffix (s : List Char) : Except ParseError (List Char) :=
  match s.dropWhile isSuffixLetter with
  | [] => .ok s
  | c :: r =>
      let r := if c = '-' ∨ c = '+' then r else c :: r
      if r.dropWhile Char.isDigit = [] then .ok s else .error .ErrFormatWrong

/-- `parseQuantityString(str)`.  The numerator and denominator loops that reach the end of the
string return what a suffix of `[]` gives: the whole string as `value` and an empty suffix. -/
def parseQuantityString (str : List Char) : Except ParseError Scanned :=
  -- handle leading sign
  let (positive, afterSign) : Bool × List Char :=
    match str with
    | '-' :: r => (false, r)
    | '+' :: r => (true, r)
    | r => (true, r)
  -- strip leading zeros; a string that ends among them is "0"
  match afterSign.dropWhile (· == '0') with
  | [] => .ok ⟨positive, ['0'], ['0'], [], []⟩
  | numStart =>
    let num := numStart.takeWhile Char.isDigit
    let afterNum := numStart.dropWhile Char.isDigit
    -- if we stripped all numerator positions, always return 0
    let num := if num = [] then ['0'] else num
    let (denom, afterDenom) : List Char × List Char :=
      match afterNum with
      | '.' :: r => (r.takeWhile Char.isDigit, r.dropWhile Char.isDigit)
      | r => ([], r)
    match scanSuffix afterDenom with
    | .error e => .error e
    | .ok suffix => .ok ⟨positive, str.take (str.length - afterDenom.length), num, denom, suffix⟩

/-! ### `inf.Dec`'s `SetString` -/

/-- `new(big.Int).SetString(s, 10)`: an optional sign, then at least one decimal digit. -/
def bigIntSetString (s : List Char) : Option ℤ :=
  let (negative, digits) : Bool × List Char :=
    match s with
    | '-' :: r => (true, r)
    | '+' :: r => (false, r)
    | r => (false, r)
  if digits ≠ [] ∧ digits.all Char.isDigit then
    some (if negative then -(Decimal.digitsVal digits : ℤ) else Decimal.digitsVal digits)
  else none

/-- The loop of `Dec.scan`: the characters kept for the unscaled value (a leading sign and the
digits), the index of the point among them, and whether a digit was read; it stops before the
first character it cannot take, a second sign or a second point. -/
def decScanLoop : List Char → List Char → Option ℕ → Bool → List Char × Option ℕ × Bool × List Char
  | [], unscaled, dp, dg => (unscaled, dp, dg, [])
  | ch :: r, unscaled, dp, dg =>
      if ch = '+' ∨ ch = '-' then
        -- a sign must be the first character
        if unscaled ≠ [] ∨ dp.isSome then (unscaled, dp, dg, ch :: r)
        else decScanLoop r (unscaled ++ [ch]) dp dg
      else if ch = '.' then
        if dp.isSome then (unscaled, dp, dg, ch :: r)
        else decScanLoop r unscaled (some unscaled.length) dg
      else if '0' ≤ ch ∧ ch ≤ '9' then decScanLoop r (unscaled ++ [ch]) dp true
      else (unscaled, dp, dg, ch :: r)

/-- `z.SetString(s)`: the scan must read a digit and the whole of `s`.  The scale is the number
of characters after the point, as an `inf.Scale`. -/
def Dec.SetString (s : List Char) : Option Dec :=
  match decScanLoop s [] none false with
  | (unscaled, dp, dg, rest) =>
      if !dg then none
      else
        let scale : Int32 := match dp with
          | some d => Int32.ofInt (unscaled.length - d)
          | none => 0
        match bigIntSetString unscaled with
        | none => none
        | some u => if rest = [] then some ⟨u, scale⟩ else none

/-! ### `ParseQuantity` -/

/-- `maxAllowed`, `2^63-1` as an `inf.Dec`. -/
def maxAllowed : Dec := ⟨2 ^ 63 - 1, 0⟩

/-- `decOne`. -/
def decOne : Dec := ⟨1, 0⟩

/-- `decZero`. -/
def decZero : Dec := ⟨0, 0⟩

/-- `int32(float32(exponent)*3/10)`, exact on the exponents `10` to `60` of the binary table, the
only ones that reach it. -/
def binaryDigits (exponent : Int32) : Int32 := Int32.ofInt ((exponent.toInt * 3).tdiv 10)

/-- The `switch format` of `ParseQuantity`: the precision left for the `int64` path, the scale
and the mantissa the suffix contributes. -/
def parsePrecision (format : Format) (exponent : Int32) (num denom : List Char) :
    Int32 × Int32 × Int64 :=
  match format with
  | .DecimalExponent | .DecimalSI =>
      (maxInt64Factors - Int32.ofNat (num.length + denom.length), exponent, 1)
  | .BinarySI =>
      if exponent ≥ 0 ∧ denom = [] then
        -- only positive binary numbers take the fast path; 2^20 has about six digits
        (15 - Int32.ofNat num.length - binaryDigits exponent - 1, 0,
          Int64.ofNat (2 ^ exponent.toInt.toNat))
      else (-1, 0, 1)
  | .other => (0, 0, 1)

/-- The `int64` path of `ParseQuantity` once the precision allows it: `none` when it falls
through to the `inf.Dec` path.  A result that looks canonical keeps `str` as its string. -/
def parseFast (str : String) (p : Scanned) (exponent : Int32) (format : Format) (scale : Int32)
    (mantissa : Int64) : Option (Except ParseError Quantity) :=
  -- shift the value to the left by the number of places in the denominator
  let scale := scale - Int32.ofNat p.denom.length
  if scale ≥ Nano then
    let shifted := p.num ++ p.denom
    match ParseInt (String.ofList shifted) with
    | (_, some _) => some (.error .ErrNumeric)
    | (value, none) =>
      let value := Int64.ofInt value
      match int64Multiply value mantissa with
      | (result, true) =>
          let result := if p.positive then result else -result
          let q : Quantity := { i := ⟨result, scale⟩, format }
          let canonical : Bool := match format with
            | .BinarySI => exponent % 10 = 0 ∧ value &&& 7 ≠ 0
            | _ => scale % 3 = 0 ∧ !HasSuffix (String.ofList shifted) "000" ∧
                shifted.head? ≠ some '0'
          some (.ok (if canonical then { q with s := str } else q))
      | (_, false) => none
  else none

/-- The `inf.Dec` path of `ParseQuantity`: the scanned number read by `SetString`, the suffix
folded into it, the magnitude rounded up to nano units and, in `BinarySI`, capped at
`maxAllowed`; a `BinarySI` value strictly between `0` and `1` becomes `DecimalSI`. -/
def parseSlow (value : List Char) (base exponent : Int32) (format : Format) :
    Except ParseError Quantity :=
  match Dec.SetString value with
  | none => .error .ErrNumeric
  | some amount =>
    -- so that no one but us has to think about suffixes, remove it
    let amount : Dec :=
      if base = 10 then ⟨amount.unscaled, amount.scale + infScale exponent⟩
      else if base = 2 then ⟨amount.unscaled * 2 ^ exponent.toInt.toNat, amount.scale⟩
      else amount
    let sign := amount.Sign
    let amount := if sign = -1 then amount.Neg else amount
    let amount := if amount.Unscaled.1 ≠ 0 ∨ amount.Unscaled.2 = false then
      amount.RoundUp (infScale Nano) else amount
    let amount := if format = .BinarySI ∧ amount.Cmp maxAllowed > 0 then maxAllowed else amount
    let format := if format = .BinarySI ∧ amount.Cmp decOne < 0 ∧ amount.Cmp decZero > 0 then
      .DecimalSI else format
    let amount := if sign = -1 then amount.Neg else amount
    .ok { d := some amount, format }

/-- `ParseQuantity(str)`. -/
def ParseQuantity (str : String) : Except ParseError Quantity :=
  if str = "" then .error .ErrFormatWrong
  else if str = "0" then .ok { format := .DecimalSI, s := str }
  else
    match parseQuantityString str.toList with
    | .error e => .error e
    | .ok p =>
      match interpret (String.ofList p.suffix) with
      | none => .error .ErrSuffix
      | some (base, exponent, format) =>
        let (precision, scale, mantissa) := parsePrecision format exponent p.num p.denom
        let fast := if precision ≥ 0 then parseFast str p exponent format scale mantissa else none
        match fast with
        | some r => r
        | none => parseSlow p.value base exponent format

/-! ### The cached string -/

theorem parseSlow_s {value : List Char} {base exponent : Int32} {format : Format} {q : Quantity}
    (h : parseSlow value base exponent format = .ok q) : q.s = "" := by
  unfold parseSlow at h
  split at h
  · cases h
  · cases h
    rfl

theorem parseFast_s {str : String} {p : Scanned} {exponent scale : Int32} {format : Format}
    {mantissa : Int64} {q : Quantity} (h : parseFast str p exponent format scale mantissa = some (.ok q)) :
    q.s = "" ∨ q.s = str := by
  unfold parseFast at h
  dsimp only at h
  split at h
  · split at h
    · cases h
    · split at h
      · obtain rfl := Except.ok.inj (Option.some.inj h)
        rw [apply_ite Quantity.s]
        dsimp only
        split_ifs
        · exact .inr rfl
        · exact .inl rfl
      · cases h
  · cases h

/-- **Every string `ParseQuantity` caches is its input.** -/
theorem ParseQuantity_s {str : String} {q : Quantity} (h : ParseQuantity str = .ok q) :
    q.s = "" ∨ q.s = str := by
  unfold ParseQuantity at h
  split_ifs at h
  · cases h
    exact .inr rfl
  · split at h
    · cases h
    · split at h
      · cases h
      · dsimp only at h
        split at h
        · rename_i r hr
          subst h
          split_ifs at hr
          exact parseFast_s hr
        · exact .inl (parseSlow_s h)

/-! ### The documented grammar -/

/-- `<digits>`: one or more decimal digits. -/
def IsDigits (s : List Char) : Prop := s ≠ [] ∧ ∀ c ∈ s, c.isDigit

/-- `<number>`: `<digits>`, `<digits>.<digits>`, `<digits>.` or `.<digits>`. -/
def IsNumber (s : List Char) : Prop :=
  IsDigits s ∨ ∃ a b, s = a ++ '.' :: b ∧ (IsDigits a ∧ (IsDigits b ∨ b = []) ∨ a = [] ∧ IsDigits b)

/-- An optional `<sign>`. -/
def IsSign (s : List Char) : Prop := s = [] ∨ s = ['+'] ∨ s = ['-']

/-- A suffix of the binary or decimal SI table, or `e` or `E` and a signed integer. -/
def IsSuffix (s : List Char) : Prop :=
  String.ofList s ∈ (binSuffixes ++ decSuffixes).map (·.1) ∨
    ∃ e sg d, (e = 'e' ∨ e = 'E') ∧ s = e :: (sg ++ d) ∧ IsSign sg ∧ IsDigits d

/-- `<quantity>`: an optional sign, a number and a suffix. -/
def IsQuantity (s : List Char) : Prop :=
  ∃ sg n suf, s = sg ++ n ++ suf ∧ IsSign sg ∧ IsNumber n ∧ IsSuffix suf

theorem IsDigits.exists_digit {s : List Char} (h : IsDigits s) : ∃ c ∈ s, c.isDigit := by
  obtain ⟨hne, hall⟩ := h
  obtain ⟨c, cs, rfl⟩ := List.exists_cons_of_ne_nil hne
  exact ⟨c, List.mem_cons_self, hall c List.mem_cons_self⟩

theorem IsNumber.exists_digit {s : List Char} (h : IsNumber s) : ∃ c ∈ s, c.isDigit := by
  rcases h with h | ⟨a, b, rfl, ⟨ha, _⟩ | ⟨_, hb⟩⟩
  · exact h.exists_digit
  · obtain ⟨c, hc, hd⟩ := ha.exists_digit
    exact ⟨c, List.mem_append_left _ hc, hd⟩
  · obtain ⟨c, hc, hd⟩ := hb.exists_digit
    exact ⟨c, List.mem_append_right _ (List.mem_cons_of_mem _ hc), hd⟩

theorem IsQuantity.exists_digit {s : List Char} (h : IsQuantity s) : ∃ c ∈ s, c.isDigit := by
  obtain ⟨sg, n, suf, rfl, _, hn, _⟩ := h
  obtain ⟨c, hc, hd⟩ := hn.exists_digit
  exact ⟨c, List.mem_append_left _ (List.mem_append_right _ hc), hd⟩

/-- A lone sign or point, with or without a sign, is outside the grammar. -/
theorem not_IsQuantity_sign_point : ∀ str ∈ ["+", "-", ".", "+.", "-."], ¬ IsQuantity str.toList := by
  intro str hstr h
  simp only [List.mem_cons, List.not_mem_nil, or_false] at hstr
  have hnd : ∀ c ∈ str.toList, c.isDigit = false := by
    rcases hstr with rfl | rfl | rfl | rfl | rfl <;> simp
  obtain ⟨c, hc, hd⟩ := h.exists_digit
  simp [hnd c hc] at hd

/-- `1e99999999999999999999` is in the grammar: the number `1` and an exponent of twenty nines. -/
theorem IsQuantity_large_exponent : IsQuantity "1e99999999999999999999".toList := by
  refine ⟨[], ['1'], "e99999999999999999999".toList, by decide, .inl rfl,
    .inl ⟨by decide, by simp⟩, .inr ⟨'e', [], "99999999999999999999".toList, .inl rfl, rfl, .inl rfl,
      by decide, by simp⟩⟩

/-- **`ParseQuantity` does not accept the documented grammar, nor cap as documented**: a lone sign
or point parses as zero, although the grammar asks for a digit; an exponent past `int64` is in
the grammar but `ParseInt` rejects it; and `10E`, taken by the `int64` path, keeps its value
`10^19` above `2^63-1`, where the documentation says it is capped. -/
theorem ParseQuantity_grammar_mismatch :
    (∀ str ∈ ["+", "-", ".", "+.", "-."],
      ParseQuantity str = .ok { i := ⟨0, 0⟩, format := .DecimalSI } ∧ ¬ IsQuantity str.toList) ∧
    (IsQuantity "1e99999999999999999999".toList ∧
      ParseQuantity "1e99999999999999999999" = .error .ErrSuffix) ∧
    (ParseQuantity "10E" = .ok { i := ⟨10, 18⟩, s := "10E", format := .DecimalSI } ∧
      (maxInt64 : ℚ) < ({ i := ⟨10, 18⟩, s := "10E", format := .DecimalSI } : Quantity).val) := by
  refine ⟨fun str hstr => ⟨?_, not_IsQuantity_sign_point str hstr⟩,
    ⟨IsQuantity_large_exponent, rfl⟩, ⟨rfl, ?_⟩⟩
  · simp only [List.mem_cons, List.not_mem_nil, or_false] at hstr
    rcases hstr with rfl | rfl | rfl | rfl | rfl <;> rfl
  · have h10 : (10 : Int64).toInt = 10 := rfl
    have h18 : (18 : Int32).toInt = 18 := rfl
    simp only [Quantity.val, int64Amount.val, h10, h18, maxInt64]
    norm_num

end Caspr.Apimachinery
