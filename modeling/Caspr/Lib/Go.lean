import Mathlib.Data.List.Perm.Basic
import Mathlib.Data.List.Infix
import Mathlib.Algebra.BigOperators.Group.List.Basic
import Mathlib.Data.List.AList
import Mathlib.Algebra.Ring.Int.Defs
import Mathlib.Algebra.GroupWithZero.Nat
import Mathlib.Data.Finmap
import Mathlib.Algebra.Order.BigOperators.Group.List

/-! # Go's runtime aborts and slice idioms

A Go program stops in one of two ways that an error return does not cover: a run-time panic
(a nil pointer dereference, an index out of range, an assignment to an entry of a nil map,
closing a closed channel, a slice made with a negative length, an integer division by zero) or a
fatal log call, which exits the process.  `Abort` names them;
a model of a function that can stop so returns `Except Abort _`.

Go code removes an element from a slice in one of two ways:

* **swap-remove** `s[i] = s[len(s)-1]; s = s[:len(s)-1]`, which does not keep the order
  (`NodeInfo.RemovePod`, `removeFromSlice`); `swapRemove_perm` shows that it leaves the same
  multiset as `List.eraseIdx`, and `swapRemoveFirst_perm` that removing the first element
  satisfying a test leaves the same multiset as `List.eraseP`.  The write lands in the array
  behind the slice (`swapRemoveArray`), which a `range` over an earlier header of the slice
  goes on reading: it changes nothing past `i` (`drop_swapRemoveArray`), and the array cut to
  one element less is `swapRemove` of the slice (`take_swapRemoveArray`).
* **delete-at** `append(s[:i], s[i+1:]...)`, which keeps the order, is `List.eraseIdx` itself.

Everything a multiset cannot see (sums, counts, filters) then follows from Mathlib's lemmas on
`List.Perm`.

Keys that Go builds by joining two names with a separator determine the names when the first
holds no separator (`append_cons_inj_of_not_mem`).

A Go map is an association list; a loop that stores one value under the key of every element
of a slice leaves that value under exactly those keys (`lookup_foldl_insert`).

Go's `int32` multiplication wraps around and its division truncates toward zero, as those of
Lean's `Int32` do: a wrapped product of non-negative numbers is at most the product of the
integers (`int32_toInt_mul_le`), and a truncated quotient is bounded as the exact one is
(`tdiv_le_of_le_mul`).

A channel of capacity one, `make(chan T, 1)`, is the content of its buffer (`Chan`).  A
non-blocking send (`select` with a `default` case) is dropped while the buffer is full, so the
buffer keeps the first value sent after it was last emptied (`Chan.buf_trySend`).

A few functions of the standard library are given by what they compute: `strings.Split` with a
one-character separator, which returns one piece more than there are separators
(`length_Split`), `strings.Contains`, `strings.HasSuffix`, `strconv.ParseInt` and `strconv.Atoi`
with their clamping of out-of-range values, and `rand.Intn`, which draws from a stream of
outcomes so that a statement over every stream is one over every sequence of random numbers;
`strconv.Quote`, as `%q` prints a name, is given on strings of printable characters.

Go's `int64` arithmetic wraps as `Int64`'s does; `FitsInt64` says when an integer is in range,
and then the wrapped sum, difference and product are the exact ones (`int64_toInt_mul`), and
`a * b / b = a` holds exactly when the product fits (`int64_mul_div_eq_iff`), which is how Go
code checks a multiplication for overflow. -/

namespace Go

open List

/-- Ways a Go process stops without returning: run-time panics and `klog.Fatal`. -/
inductive Abort where
  | nilPointerDereference
  | indexOutOfRange
  | assignmentToEntryInNilMap
  | closeOfClosedChannel
  | makeSliceLenOutOfRange
  | integerDivideByZero
  | fatal (msg : String)
deriving DecidableEq, Repr

variable {α : Type}

/-- `s[i] = s[len(s)-1]; s = s[:len(s)-1]`. -/
def swapRemove (s : List α) (i : Nat) : List α :=
  match s.getLast? with
  | none => s
  | some x => (s.set i x).dropLast

theorem swapRemove_perm (s : List α) (i : Nat) (h : i < s.length) :
    swapRemove s i ~ s.eraseIdx i := by
  obtain ⟨t, x, rfl⟩ : ∃ t x, s = t ++ [x] := by
    rcases List.eq_nil_or_concat s with rfl | ⟨t, x, rfl⟩
    · simp at h
    · exact ⟨t, x, by simp⟩
  simp only [swapRemove, List.getLast?_append, List.getLast?_singleton, Option.some_or]
  rw [List.length_append, List.length_singleton] at h
  rcases Nat.lt_or_ge i t.length with hi | hi
  · rw [List.set_append_left _ _ hi, List.dropLast_concat, List.eraseIdx_append_of_lt_length hi,
      List.set_eq_take_append_cons_drop, if_pos hi, List.eraseIdx_eq_take_drop_succ,
      List.append_assoc]
    exact List.Perm.append_left _ (List.perm_append_singleton _ _).symm
  · have hi' : i = t.length := by omega
    subst hi'
    simp [List.eraseIdx_append_of_length_le (Nat.le_refl _)]

/-- `s[i] = s[len(s)-1]` on the slice `s = a[:n]`, seen on the array `a` behind it: the write lands
in `a` itself, which a `range` over an earlier header of `s` goes on reading. -/
def swapRemoveArray (a : List α) (n i : Nat) : List α :=
  match (a.take n).getLast? with
  | none => a
  | some x => a.set i x

theorem take_swapRemoveArray (a : List α) {n : Nat} (i : Nat) (hn : n ≤ a.length) :
    (swapRemoveArray a n i).take (n - 1) = swapRemove (a.take n) i := by
  unfold swapRemoveArray swapRemove
  cases hx : (a.take n).getLast? with
  | none =>
      have hn0 : n = 0 := by
        have := List.getLast?_eq_none_iff.mp hx
        rw [List.take_eq_nil_iff] at this
        rcases this with h | h
        · exact h
        · subst h
          simpa using hn
      subst hn0
      rfl
  | some x =>
      have hlen : ((a.take n).set i x).length = n := by simp [hn]
      dsimp only
      rw [List.dropLast_eq_take, hlen, ← List.take_set, List.take_take, min_eq_left (Nat.sub_le n 1)]

theorem drop_swapRemoveArray (a : List α) (n : Nat) {i m : Nat} (h : i < m) :
    (swapRemoveArray a n i).drop m = a.drop m := by
  unfold swapRemoveArray
  split
  · rfl
  · exact List.drop_set_of_lt h

@[simp] theorem length_swapRemoveArray (a : List α) (n i : Nat) :
    (swapRemoveArray a n i).length = a.length := by
  unfold swapRemoveArray
  split <;> simp

/-- Remove the first element that satisfies `p` by swap-remove, leaving the slice as it is when
there is none: the loop `for i := range s { if p(s[i]) { s[i] = s[len(s)-1]; s = s[:len(s)-1];
break } }`. -/
def swapRemoveFirst (p : α → Bool) (s : List α) : List α :=
  match s.findIdx? p with
  | none => s
  | some i => swapRemove s i

theorem swapRemoveFirst_perm (p : α → Bool) (s : List α) :
    swapRemoveFirst p s ~ s.eraseP p := by
  rw [List.eraseP_eq_eraseIdx, swapRemoveFirst]
  cases h : s.findIdx? p with
  | none => rfl
  | some i =>
      simp only
      exact swapRemove_perm s i (List.findIdx?_eq_some_iff_getElem.mp h).1

theorem eraseP_congr {p q : α → Bool} : ∀ {s : List α}, (∀ x ∈ s, p x = q x) →
    s.eraseP p = s.eraseP q
  | [], _ => rfl
  | a :: s, h => by
      have hs : ∀ x ∈ s, p x = q x := fun x hx => h x (List.mem_cons_of_mem a hx)
      rw [List.eraseP_cons, List.eraseP_cons, h a (by simp), eraseP_congr hs]

theorem eraseP_eq_filter (p : α → Bool) :
    ∀ (s : List α), s.countP p ≤ 1 → s.eraseP p = s.filter (fun x => !p x)
  | [], _ => rfl
  | a :: s, h => by
      rw [List.countP_cons] at h
      by_cases ha : p a = true
      · have hnone : s.countP p = 0 := by simp only [ha, if_true] at h; omega
        rw [List.eraseP_cons_of_pos ha, List.filter_cons_of_neg (by simp [ha])]
        exact (List.filter_eq_self.mpr (fun x hx => by
          simpa using (List.countP_eq_zero.mp hnone) x hx)).symm
      · have hle : s.countP p ≤ 1 := by simp only [ha] at h; omega
        rw [List.eraseP_cons_of_neg ha, List.filter_cons_of_pos (by simp [ha]),
          eraseP_eq_filter p s hle]

theorem swapRemoveFirst_perm_filter (p : α → Bool) (s : List α) (h : s.countP p ≤ 1) :
    swapRemoveFirst p s ~ s.filter (fun x => !p x) :=
  (swapRemoveFirst_perm p s).trans (by rw [eraseP_eq_filter p s h])

theorem swapRemove_perm_filter (p : α → Bool) (s : List α) {i : Nat} (h : s.countP p ≤ 1)
    (hi : s.findIdx? p = some i) : swapRemove s i ~ s.filter (fun x => !p x) := by
  have := swapRemoveFirst_perm_filter p s h
  simpa [swapRemoveFirst, hi] using this

theorem sum_map_of_countP_eq_one {β : Type} [AddCommMonoid β] (f : α → β) (p : α → Bool)
    (s : List α) (h1 : s.countP p = 1) (c : β) (hc : ∀ x ∈ s, p x = true → f x = c) :
    (s.map f).sum = c + ((s.filter (fun x => !p x)).map f).sum := by
  obtain ⟨b, hb⟩ : ∃ b, s.filter p = [b] := by
    rw [List.countP_eq_length_filter] at h1
    exact List.length_eq_one_iff.mp h1
  have hbmem : b ∈ s.filter p := by simp [hb]
  have hfb : f b = c := hc b (List.mem_of_mem_filter hbmem) (List.mem_filter.mp hbmem).2
  have hperm := (List.filter_append_perm p s).symm
  rw [(hperm.map f).sum_eq, List.map_append, List.sum_append, hb]
  simp [hfb]

theorem sum_map_filter_of_eq_zero {β : Type} [AddCommMonoid β] (f : α → β) (p : α → Bool)
    (s : List α) (h : ∀ x ∈ s, p x = false → f x = 0) : ((s.filter p).map f).sum = (s.map f).sum := by
  induction s with
  | nil => rfl
  | cons x s ih =>
      have ih' := ih fun y hy => h y (List.mem_cons_of_mem x hy)
      cases hx : p x with
      | false => simp [hx, ih', h x List.mem_cons_self hx]
      | true => simp [hx, ih']

theorem swapRemoveFirst_of_forall_not (p : α → Bool) (s : List α) (h : ∀ x ∈ s, p x = false) :
    swapRemoveFirst p s = s := by
  have : s.findIdx? p = none := List.findIdx?_eq_none_iff.mpr h
  simp [swapRemoveFirst, this]

/-- Two lists joined by a separator that neither first part holds give back both parts: the
keys Go builds as `namespace + "/" + name` determine the names. -/
theorem append_cons_inj_of_not_mem {c : α} :
    ∀ {a a' b b' : List α}, c ∉ a → c ∉ a' → (a ++ c :: b = a' ++ c :: b' ↔ a = a' ∧ b = b')
  | [], [], _, _, _, _ => by simp
  | [], x :: xs, _, _, _, ha' => by
      have hx : c ≠ x := fun h => ha' (h ▸ List.mem_cons_self)
      simp [hx]
  | x :: xs, [], _, _, ha, _ => by
      have hx : x ≠ c := fun h => ha (h ▸ List.mem_cons_self)
      simp [hx]
  | x :: xs, x' :: xs', _, _, ha, ha' => by
      rw [List.cons_append, List.cons_append, List.cons.injEq, List.cons.injEq,
        append_cons_inj_of_not_mem (fun h => ha (List.mem_cons_of_mem x h))
          (fun h => ha' (List.mem_cons_of_mem x' h)), and_assoc]

/-! ### Maps -/

/-- `for _, a := range l { m[f(a)] = v }`. -/
theorem lookup_foldl_insert {κ β : Type} [DecidableEq κ] (f : α → κ) (v : β) (k : κ) :
    ∀ (l : List α) (m : AList fun _ : κ => β),
      (l.foldl (fun m a => m.insert (f a) v) m).lookup k =
        if k ∈ l.map f then some v else m.lookup k
  | [], m => by simp
  | a :: l, m => by
      rw [List.foldl_cons, lookup_foldl_insert f v k l]
      by_cases hk : k = f a
      · subst hk
        simp
      · simp [hk, AList.lookup_insert_ne hk]

theorem foldl_pair {β γ : Type} (f : β → α → β) (g : γ → α → γ) :
    ∀ (l : List α) (b : β) (c : γ),
      l.foldl (fun p a => (f p.1 a, g p.2 a)) (b, c) = (l.foldl f b, l.foldl g c)
  | [], _, _ => rfl
  | a :: l, b, c => foldl_pair f g l (f b a) (g c a)

/-! ### `int32` arithmetic -/

/-- **A wrapped product is at most the product.** -/
theorem int32_toInt_mul_le {x y : Int32} (hx : 0 ≤ x.toInt) (hy : 0 ≤ y.toInt) :
    (x * y).toInt ≤ x.toInt * y.toInt := by
  have hxy : 0 ≤ x.toInt * y.toInt := Int.mul_nonneg hx hy
  by_cases hfit : x.toInt * y.toInt < 2 ^ 31
  · have h32 : ((2 ^ 32 : ℕ) : ℤ) = 4294967296 := by decide
    have hlo : -(((2 ^ 32 : ℕ) : ℤ) / 2) ≤ x.toInt * y.toInt := by
      rw [h32]
      omega
    have hhi : x.toInt * y.toInt < (((2 ^ 32 : ℕ) : ℤ) + 1) / 2 := by
      rw [h32]
      omega
    have heq : (x * y).toInt = x.toInt * y.toInt := by
      rw [Int32.toInt_mul, Int.bmod_eq_of_le hlo hhi]
    exact Int.le_of_eq heq
  · have hle := Int32.toInt_le (x * y)
    rw [Int32.toInt_maxValue] at hle
    omega

theorem int32_toInt_min (a b : Int32) : (min a b).toInt = min a.toInt b.toInt := by
  show (if a ≤ b then a else b).toInt = _
  split_ifs with hab
  · rw [Int32.le_iff_toInt_le] at hab
    omega
  · rw [Int32.le_iff_toInt_le] at hab
    omega

theorem int32_toInt_max (a b : Int32) : (max a b).toInt = max a.toInt b.toInt := by
  show (if a ≤ b then b else a).toInt = _
  split_ifs with hab
  · rw [Int32.le_iff_toInt_le] at hab
    omega
  · rw [Int32.le_iff_toInt_le] at hab
    omega

/-- An integer is a value of Go's `int32`. -/
def FitsInt32 (x : ℤ) : Prop := -2 ^ 31 ≤ x ∧ x < 2 ^ 31

instance : DecidablePred FitsInt32 := fun x => inferInstanceAs (Decidable (-2 ^ 31 ≤ x ∧ x < 2 ^ 31))

theorem int32_toInt_sub {a b : Int32} (h : FitsInt32 (a.toInt - b.toInt)) :
    (a - b).toInt = a.toInt - b.toInt := by
  have h32 : ((2 ^ 32 : ℕ) : ℤ) = 4294967296 := by decide
  obtain ⟨hlo, hhi⟩ := h
  rw [Int32.toInt_sub]
  apply Int.bmod_eq_of_le <;> rw [h32] <;> omega

theorem int32_toInt_neg {a : Int32} (h : -2 ^ 31 < a.toInt) : (-a).toInt = -a.toInt := by
  have h32 : ((2 ^ 32 : ℕ) : ℤ) = 4294967296 := by decide
  have hhi := Int32.toInt_lt a
  rw [Int32.toInt_neg]
  apply Int.bmod_eq_of_le <;> rw [h32] <;> omega

theorem tdiv_le_of_le_mul {T N d : ℤ} (hd : 0 < d) (hN : 0 ≤ N) (h : T ≤ d * N) :
    T.tdiv d ≤ N := by
  by_cases hT : 0 ≤ T
  · rw [Int.tdiv_eq_ediv_of_nonneg hT]
    exact Int.ediv_le_of_le_mul hd (by rwa [Int.mul_comm])
  · have hneg : 0 ≤ (-T).tdiv d := Int.tdiv_nonneg (by omega) (Int.le_of_lt hd)
    rw [Int.neg_tdiv] at hneg
    omega

/-! ### `int64` arithmetic -/

/-- An integer is a value of Go's `int64`. -/
def FitsInt64 (x : ℤ) : Prop := -2 ^ 63 ≤ x ∧ x < 2 ^ 63

instance : DecidablePred FitsInt64 := fun x => inferInstanceAs (Decidable (-2 ^ 63 ≤ x ∧ x < 2 ^ 63))

theorem fitsInt64_toInt (a : Int64) : FitsInt64 a.toInt := ⟨Int64.le_toInt a, Int64.toInt_lt a⟩

theorem bmod_of_fitsInt64 {x : ℤ} (h : FitsInt64 x) : x.bmod (2 ^ 64) = x := by
  have h64 : ((2 ^ 64 : ℕ) : ℤ) = 18446744073709551616 := by decide
  obtain ⟨hlo, hhi⟩ := h
  apply Int.bmod_eq_of_le <;> rw [h64] <;> omega

theorem int64_toInt_ofInt {x : ℤ} (h : FitsInt64 x) : (Int64.ofInt x).toInt = x :=
  Int64.toInt_ofInt_of_le h.1 h.2

theorem int64_toInt_mul {a b : Int64} (h : FitsInt64 (a.toInt * b.toInt)) :
    (a * b).toInt = a.toInt * b.toInt := by
  rw [Int64.toInt_mul, bmod_of_fitsInt64 h]

theorem int64_toInt_add {a b : Int64} (h : FitsInt64 (a.toInt + b.toInt)) :
    (a + b).toInt = a.toInt + b.toInt := by
  rw [Int64.toInt_add, bmod_of_fitsInt64 h]

theorem int64_toInt_sub {a b : Int64} (h : FitsInt64 (a.toInt - b.toInt)) :
    (a - b).toInt = a.toInt - b.toInt := by
  rw [Int64.toInt_sub, bmod_of_fitsInt64 h]

theorem int64_toInt_add_of_ge {a b : Int64} (h : 2 ^ 63 ≤ a.toInt + b.toInt) :
    (a + b).toInt = a.toInt + b.toInt - 2 ^ 64 := by
  have ha := Int64.toInt_lt a
  have hb := Int64.toInt_lt b
  rw [Int64.toInt_add, Int.bmod_def]
  simp only [Int.natCast_pow, Int.cast_ofNat_Int]
  split_ifs <;> omega

theorem int64_toInt_add_of_lt {a b : Int64} (h : a.toInt + b.toInt < -2 ^ 63) :
    (a + b).toInt = a.toInt + b.toInt + 2 ^ 64 := by
  have ha := Int64.le_toInt a
  have hb := Int64.le_toInt b
  rw [Int64.toInt_add, Int.bmod_def]
  simp only [Int.natCast_pow, Int.cast_ofNat_Int]
  split_ifs <;> omega

/-- The three outcomes of an `int64` addition: the exact sum, or the sum wrapped once down or
once up. -/
theorem int64_toInt_add_cases (a b : Int64) :
    (FitsInt64 (a.toInt + b.toInt) ∧ (a + b).toInt = a.toInt + b.toInt) ∨
      (2 ^ 63 ≤ a.toInt + b.toInt ∧ (a + b).toInt = a.toInt + b.toInt - 2 ^ 64) ∨
      (a.toInt + b.toInt < -2 ^ 63 ∧ (a + b).toInt = a.toInt + b.toInt + 2 ^ 64) := by
  by_cases hfit : FitsInt64 (a.toInt + b.toInt)
  · exact .inl ⟨hfit, int64_toInt_add hfit⟩
  · unfold FitsInt64 at hfit
    rcases Int.lt_or_le (a.toInt + b.toInt) (-2 ^ 63) with hlo | hlo
    · exact .inr (.inr ⟨hlo, int64_toInt_add_of_lt hlo⟩)
    · have hhi : 2 ^ 63 ≤ a.toInt + b.toInt := by omega
      exact .inr (.inl ⟨hhi, int64_toInt_add_of_ge hhi⟩)

/-- **A loop of `int64` additions is exact** while the sum cannot leave the range: each term is at
most `B` in size, and the start plus or minus `B` per term stays in `int64`. -/
theorem int64_foldl_add_toInt {β : Type} (f : β → Int64) (B : ℤ) : ∀ (l : List β) (acc : Int64),
    (∀ x ∈ l, -B ≤ (f x).toInt ∧ (f x).toInt ≤ B) →
    -2 ^ 63 ≤ acc.toInt - B * l.length → acc.toInt + B * l.length < 2 ^ 63 →
    (l.foldl (fun a x => a + f x) acc).toInt = acc.toInt + (l.map fun x => (f x).toInt).sum
  | [], acc, _, _, _ => by simp
  | x :: l, acc, hB, hlo, hhi => by
      obtain ⟨h1, h2⟩ := hB x List.mem_cons_self
      have hlen : 0 ≤ B * l.length := Int.mul_nonneg (by omega) (Int.natCast_nonneg _)
      have hsucc : ((l.length + 1 : ℕ) : ℤ) = l.length + 1 := by omega
      rw [List.length_cons, hsucc, Int.mul_add, Int.mul_one] at hlo hhi
      have hx : (acc + f x).toInt = acc.toInt + (f x).toInt :=
        int64_toInt_add ⟨by omega, by omega⟩
      have hrest := int64_foldl_add_toInt f B l (acc + f x)
        (fun y hy => hB y (List.mem_cons_of_mem x hy)) (by omega) (by omega)
      rw [List.foldl_cons, hrest, hx, List.map_cons, List.sum_cons]
      omega

/-- **A loop of `int64` additions of terms that are not negative is exact** while the start
plus the sum of the terms fits. -/
theorem int64_foldl_add_toInt_of_nonneg {β : Type} (f : β → Int64) : ∀ (l : List β) (acc : Int64),
    0 ≤ acc.toInt → (∀ x ∈ l, 0 ≤ (f x).toInt) →
    acc.toInt + (l.map fun x => (f x).toInt).sum < 2 ^ 63 →
    (l.foldl (fun a x => a + f x) acc).toInt = acc.toInt + (l.map fun x => (f x).toInt).sum
  | [], acc, _, _, _ => by simp
  | x :: l, acc, hacc, hl, hsum => by
      have hx := hl x List.mem_cons_self
      have hl' : ∀ y ∈ l, 0 ≤ (f y).toInt := fun y hy => hl y (List.mem_cons_of_mem x hy)
      have hrest : 0 ≤ (l.map fun y => (f y).toInt).sum :=
        List.sum_nonneg fun t ht => by
          obtain ⟨y, hy, rfl⟩ := List.mem_map.mp ht
          exact hl' y hy
      rw [List.map_cons, List.sum_cons] at hsum ⊢
      have hadd : (acc + f x).toInt = acc.toInt + (f x).toInt := int64_toInt_add ⟨by omega, by omega⟩
      rw [List.foldl_cons, int64_foldl_add_toInt_of_nonneg f l (acc + f x) (by omega) hl' (by omega),
        hadd]
      omega

theorem int64_eq_zero_iff {a : Int64} : a = 0 ↔ a.toInt = 0 := by
  rw [← Int64.toInt_inj, Int64.toInt_zero]

/-- A divisor of at least zero is not `-1`, so Go's `/` truncates it exactly
(`Int64.toInt_div_of_ne_right`). -/
theorem int64_ne_neg_one {a : Int64} (h : 0 ≤ a.toInt) : a ≠ -1 := fun he => by
  rw [he, show (-1 : Int64).toInt = -1 by decide] at h
  omega

theorem int64_lt_toInt_of_ne_minValue {a : Int64} (h : a ≠ Int64.minValue) : -2 ^ 63 < a.toInt := by
  have hle := Int64.le_toInt a
  rcases Int.lt_or_eq_of_le hle with hlt | heq
  · exact hlt
  · exact absurd (Int64.toInt_inj.mp (by rw [← heq, Int64.toInt_minValue])) h

theorem int64_toInt_neg {a : Int64} (h : a ≠ Int64.minValue) : (-a).toInt = -a.toInt := by
  have hlo := int64_lt_toInt_of_ne_minValue h
  have hhi := Int64.toInt_lt a
  rw [Int64.toInt_neg, bmod_of_fitsInt64 ⟨by omega, by omega⟩]

theorem not_fitsInt64_mul {x : ℤ} (h : ¬ FitsInt64 x) {k : ℤ} (hk : 1 ≤ k) :
    ¬ FitsInt64 (x * k) := by
  unfold FitsInt64 at h ⊢
  rcases Int.lt_or_le x 0 with hx | hx
  · have hle : x * k ≤ x * 1 := Int.mul_le_mul_of_nonpos_left (by omega) hk
    omega
  · have hle : x * 1 ≤ x * k := Int.mul_le_mul_of_nonneg_left hk hx
    omega

theorem fitsInt64_of_mul {x k : ℤ} (hk : 1 ≤ k) (h : FitsInt64 (x * k)) : FitsInt64 x :=
  Classical.byContradiction fun hx => not_fitsInt64_mul hx hk h

/-- **Go's overflow check for a product**: after `c := a * b`, the test `c/b == a` holds exactly
when the product did not wrap around, for `b ≠ 0` and neither factor the most negative `int64`.
A wrapped product that passed the test would be a multiple of `b` at most `2^63` in magnitude,
so the only candidate is `a * b = 2^63`, which wraps to `-2^63` and divides back to `-a`. -/
theorem int64_mul_div_eq_iff {a b : Int64} (hb0 : b ≠ 0) (ha : a ≠ Int64.minValue)
    (hb : b ≠ Int64.minValue) : a * b / b = a ↔ FitsInt64 (a.toInt * b.toInt) := by
  have ha' := int64_lt_toInt_of_ne_minValue ha
  have hb' := int64_lt_toInt_of_ne_minValue hb
  have hb0' : b.toInt ≠ 0 := fun h => hb0 (int64_eq_zero_iff.mpr h)
  rw [← Int64.toInt_inj]
  by_cases hm1 : b = -1
  · subst hm1
    have hneg : (-1 : Int64).toInt = -1 := by decide
    have hfit : FitsInt64 (-a.toInt) := ⟨by have := Int64.toInt_lt a; omega, by omega⟩
    rw [Int64.toInt_div, int64_toInt_mul (by rwa [hneg, Int.mul_neg, Int.mul_one]), hneg, Int.tdiv_neg, Int.tdiv_one,
      Int.mul_neg, Int.mul_one, Int.neg_neg, bmod_of_fitsInt64 (fitsInt64_toInt a)]
    exact ⟨fun _ => hfit, fun _ => rfl⟩
  rw [Int64.toInt_div_of_ne_right _ _ hm1, Int64.toInt_mul]
  constructor
  · intro h
    obtain ⟨hc1, hc2⟩ := fitsInt64_toInt (a * b)
    rw [Int64.toInt_mul] at hc1 hc2
    generalize hcdef : (a.toInt * b.toInt).bmod (2 ^ 64) = c at h hc1 hc2
    have hab : (a.toInt * b.toInt).natAbs ≤ c.natAbs := by
      rw [Int.natAbs_mul, ← h, Int.natAbs_tdiv]
      exact Nat.div_mul_le_self _ _
    have hlo : -2 ^ 63 ≤ a.toInt * b.toInt := by omega
    refine ⟨hlo, ?_⟩
    by_contra hhi
    have h63 : a.toInt * b.toInt = 2 ^ 63 := by omega
    have hc63 : c = -(a.toInt * b.toInt) := by rw [← hcdef, h63]; decide
    rw [hc63, Int.neg_tdiv, Int.mul_tdiv_cancel _ hb0'] at h
    have ha0 : a.toInt = 0 := by omega
    rw [ha0, Int.zero_mul] at h63
    omega
  · intro h
    rw [bmod_of_fitsInt64 h, Int.mul_tdiv_cancel _ hb0']

/-! ### Channels -/

/-- A channel of capacity one: the value in its buffer, if any. -/
structure Chan (α : Type) where
  buf : Option α := none
deriving DecidableEq, Repr

/-- `select { case c <- a: default: }`: the value is dropped when the buffer is full. -/
def Chan.trySend (c : Chan α) (a : α) : Chan α :=
  match c.buf with
  | none => ⟨some a⟩
  | some _ => c

/-- `<-c` when a value is there: the value and the emptied channel; a receive from an empty
channel blocks. -/
def Chan.recv (c : Chan α) : Option (α × Chan α) := c.buf.map fun a => (a, ⟨none⟩)

/-- **The first value sent stays**: a send fills an empty buffer and leaves a full one. -/
@[simp] theorem Chan.buf_trySend (c : Chan α) (a : α) : (c.trySend a).buf = c.buf.or (some a) := by
  rcases c with ⟨_ | b⟩ <;> rfl

/-! ### Standard library functions -/

/-- `strings.Split(s, sep)` for a separator of one character: the pieces between the
separators, and `[""]` for the empty string. -/
def Split (s : String) (sep : Char) : List String := (s.toList.splitOn sep).map String.ofList

theorem length_splitOnPPrepend (sep : Char) :
    ∀ (l acc : List Char), (List.splitOnPPrepend (· == sep) l acc).length = l.count sep + 1
  | [], acc => by simp
  | c :: l, acc => by
      by_cases hc : c = sep
      · rw [List.splitOnPPrepend_cons_pos (by simp [hc]), List.length_cons,
          List.splitOnP_eq_splitOnPPrepend, length_splitOnPPrepend sep l [], hc,
          List.count_cons_self]
      · rw [List.splitOnPPrepend_cons_neg (by simp [hc]), length_splitOnPPrepend sep l,
          List.count_cons_of_ne hc]

/-- `strings.Split` with a one-character separator returns one piece more than the string has
separators. -/
theorem length_Split (s : String) (sep : Char) : (Split s sep).length = s.toList.count sep + 1 := by
  rw [Split, List.length_map, List.splitOn_eq_splitOnP, List.splitOnP_eq_splitOnPPrepend,
    length_splitOnPPrepend]

/-- `strings.Contains(s, substr)`. -/
def Contains (s substr : String) : Bool := decide (substr.toList <:+: s.toList)

/-- `strings.HasSuffix(s, suffix)`. -/
def HasSuffix (s suffix : String) : Bool := decide (suffix.toList <:+ s.toList)

/-- The two errors of `strconv`'s parsers. -/
inductive NumError where
  | ErrSyntax
  | ErrRange
deriving DecidableEq, Repr

def maxUint64 : ℕ := 2 ^ 64 - 1

/-- The digit loop of `strconv.ParseUint(s, 10, 64)` from the value `n` read so far: a character
that is not a digit is a syntax error, a value past `maxUint64` a range error. -/
def parseUintLoop : List Char → ℕ → ℕ × Option NumError
  | [], n => (n, none)
  | c :: cs, n =>
      if '0' ≤ c ∧ c ≤ '9' then
        if n ≥ maxUint64 / 10 + 1 then (maxUint64, some .ErrRange)
        else
          let n1 := n * 10 + (c.toNat - '0'.toNat)
          if n1 > maxUint64 then (maxUint64, some .ErrRange) else parseUintLoop cs n1
      else (0, some .ErrSyntax)

/-- `strconv.ParseUint(s, 10, 64)`. -/
def ParseUint (s : List Char) : ℕ × Option NumError :=
  if s = [] then (0, some .ErrSyntax) else parseUintLoop s 0

/-- `strconv.ParseInt(s, 10, 64)`: a sign, then `ParseUint`; an out-of-range value is clamped to
the range of `int64`. -/
def ParseInt (s : String) : ℤ × Option NumError :=
  match s.toList with
  | [] => (0, some .ErrSyntax)
  | c :: cs =>
      let (neg, digits) := if c = '+' then (false, cs) else if c = '-' then (true, cs)
        else (false, c :: cs)
      let (un, err) := ParseUint digits
      if err = some .ErrSyntax then (0, err)
      else if !neg ∧ un ≥ 2 ^ 63 then (2 ^ 63 - 1, some .ErrRange)
      else if neg ∧ un > 2 ^ 63 then (-2 ^ 63, some .ErrRange)
      else (if neg then -(un : ℤ) else un, none)

/-- `strconv.Atoi(s)` on 64-bit `int`: its fast path for strings of under 19 bytes returns what
`ParseInt(s, 10, 0)` returns on them. -/
def Atoi (s : String) : ℤ × Option NumError := ParseInt s

/-- `strconv.Quote(s)`, which `%q` prints, for a string of printable characters: the string in
double quotes, with `"` and `\` escaped. -/
def Quote (s : String) : String :=
  "\"" ++ String.join (s.toList.map fun c =>
    if c = '"' ∨ c = '\\' then "\\" ++ c.toString else c.toString) ++ "\""

/-- `rand.Intn(n)` for `n > 0`, the next outcome of the stream `draws` brought into `[0, n)`,
with the rest of the stream. -/
def Intn (n : ℕ) (draws : ℕ → ℕ) : ℕ × (ℕ → ℕ) := (draws 0 % n, fun k => draws (k + 1))

end Go
