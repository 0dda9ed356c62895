import Caspr.Lib.Heap
import Mathlib.Order.Defs.Unbundled
import Mathlib.Logic.Equiv.Basic
import Mathlib.Data.Set.CoeSort

/-! # The heap order of Go's container/heap

`container/heap` keeps a slice in heap order: no element is less than its parent `(k - 1) / 2`
(`Ordered`).  When `less` is a strict weak order (`IsStrictWeakOrder`), every operation keeps
that order (`push_ordered`, `fix_ordered`, `pop_ordered`, `remove_ordered`), and the root of an
ordered heap is minimal: no element is less than it (`head_min`).

The proofs follow each sift with the order it leaves while it runs, after the proofs of the
rotor timer heap:

* `UpOrder l n j`: `up` at `j`; every position but `j` is in order with its parent, and `j`'s
  children are not less than `j`'s parent;
* `DownOrder l n i`: `down` at `i`; every position whose parent is not `i` is in order with its
  parent, and `i`'s children are not less than `i`'s parent;
* `FixOrder l n i`: what `heap.Fix` and `heap.Remove` start from, where the element at `i` was
  replaced; only the pairs touching `i` may be out of order.

Each has a `move` lemma (one swap keeps it, at the position the element moved to) and a
`finish` lemma (where the loop stops, the prefix is ordered).  A swap is read through
`Equiv.swap`: `(swap l i j)[k]? = l[Equiv.swap i j k]?`.

A relation that is a strict weak order only on a set `S` of elements is one on the subtype `S`;
the sifts commute with mapping the elements (`fix_map`, `pop_map`, ...), so the results hold for
heaps of elements of `S` (`fix_ordered_on`, ...).  The same mapping lifts a heap into `Option`
(`optionLess`), which is how a heap of keys that index a map of items is read. -/

namespace GoHeap

open List

variable {α : Type} (less : α → α → Bool)

/-! ### Positions and the heap order -/

/-- The parent of position `k > 0`, as `up` computes it. -/
def parent (k : ℕ) : ℕ := (k - 1) / 2

theorem parent_lt {k : ℕ} (hk : 0 < k) : parent k < k := by
  unfold parent
  omega

theorem parent_eq_iff {c i : ℕ} (hc : 0 < c) : parent c = i ↔ c = 2 * i + 1 ∨ c = 2 * i + 1 + 1 := by
  unfold parent
  omega

/-- The heap order on the first `n` positions: none of them is less than its parent. -/
def OrderedUpTo (l : List α) (n : ℕ) : Prop :=
  ∀ k < n, 0 < k → lessAt less l k (parent k) = false

/-- The heap order of `container/heap`. -/
def Ordered (l : List α) : Prop := OrderedUpTo less l l.length

instance (l : List α) (n : ℕ) : Decidable (OrderedUpTo less l n) :=
  inferInstanceAs (Decidable (∀ k < n, 0 < k → lessAt less l k (parent k) = false))

instance (l : List α) : Decidable (Ordered less l) :=
  inferInstanceAs (Decidable (OrderedUpTo less l l.length))

theorem upLoop_succ (fuel : ℕ) (l : List α) (j : ℕ) :
    upLoop less (fuel + 1) l j =
      if parent j = j ∨ !lessAt less l j (parent j) then l
      else upLoop less fuel (swap l (parent j) j) (parent j) := rfl

theorem downLoop_succ (n fuel : ℕ) (l : List α) (i : ℕ) :
    downLoop less n (fuel + 1) l i =
      if n ≤ 2 * i + 1 then (l, i)
      else if !lessAt less l (lesserChild less l n i) i then (l, i)
      else downLoop less n fuel (swap l i (lesserChild less l n i)) (lesserChild less l n i) := rfl

theorem parent_lesserChild (l : List α) (n i : ℕ) : parent (lesserChild less l n i) = i := by
  unfold lesserChild parent
  split_ifs <;> omega

/-! ### Reading positions -/

theorem lessAt_of_lt {l : List α} {a b : ℕ} (ha : a < l.length) (hb : b < l.length) :
    lessAt less l a b = less l[a] l[b] := by
  simp [lessAt, getElem?_eq_getElem ha, getElem?_eq_getElem hb]

theorem lessAt_of_le_left {l : List α} {a : ℕ} (ha : l.length ≤ a) (b : ℕ) :
    lessAt less l a b = false := by
  simp [lessAt, getElem?_eq_none ha]

theorem lessAt_of_le_right {l : List α} (a : ℕ) {b : ℕ} (hb : l.length ≤ b) :
    lessAt less l a b = false := by
  unfold lessAt
  rw [getElem?_eq_none hb]
  cases l[a]? <;> rfl

theorem lessAt_eq_true {l : List α} {a b : ℕ} (h : lessAt less l a b = true) :
    ∃ (ha : a < l.length) (hb : b < l.length), less l[a] l[b] = true := by
  have ha : a < l.length := Nat.lt_of_not_le fun ha => by simp [lessAt_of_le_left less ha] at h
  have hb : b < l.length := Nat.lt_of_not_le fun hb => by simp [lessAt_of_le_right less a hb] at h
  exact ⟨ha, hb, lessAt_of_lt less ha hb ▸ h⟩

theorem lessAt_congr {l₁ l₂ : List α} {a b : ℕ} (ha : l₁[a]? = l₂[a]?) (hb : l₁[b]? = l₂[b]?) :
    lessAt less l₁ a b = lessAt less l₂ a b := by
  simp only [lessAt, ha, hb]

theorem getElem?_swap {l : List α} {i j : ℕ} (hi : i < l.length) (hj : j < l.length) (k : ℕ) :
    (swap l i j)[k]? = l[Equiv.swap i j k]? := by
  rw [swap, dif_pos ⟨hi, hj⟩, Equiv.swap_apply_def]
  by_cases hkj : k = j
  · subst hkj
    rw [getElem?_set_self (by rwa [length_set])]
    by_cases hki : k = i
    · subst hki
      rw [if_pos rfl, getElem?_eq_getElem hi]
    · rw [if_neg hki, if_pos rfl, getElem?_eq_getElem hi]
  · rw [getElem?_set_ne (Ne.symm hkj), if_neg hkj]
    by_cases hki : k = i
    · subst hki
      rw [getElem?_set_self hi, if_pos rfl, getElem?_eq_getElem hj]
    · rw [getElem?_set_ne (Ne.symm hki), if_neg hki]

theorem lessAt_swap {l : List α} {i j : ℕ} (hi : i < l.length) (hj : j < l.length) (a b : ℕ) :
    lessAt less (swap l i j) a b = lessAt less l (Equiv.swap i j a) (Equiv.swap i j b) := by
  simp only [lessAt, getElem?_swap hi hj]

/-! ### Mapping the elements

A sift only compares and swaps, so mapping the elements by a function that the two orders agree
on commutes with it. -/

section map

variable {β : Type} {less} {lessB : β → β → Bool} (f : α → β)

theorem swap_map (l : List α) (i j : ℕ) : swap (l.map f) i j = (swap l i j).map f := by
  unfold swap
  simp only [length_map, getElem_map]
  split_ifs
  · simp only [map_set]
  · rfl

theorem lessAt_map (hf : ∀ a b, lessB (f a) (f b) = less a b) (l : List α) (a b : ℕ) :
    lessAt lessB (l.map f) a b = lessAt less l a b := by
  unfold lessAt
  simp only [getElem?_map]
  cases l[a]? <;> cases l[b]? <;> simp [hf]

theorem orderedUpTo_map (hf : ∀ a b, lessB (f a) (f b) = less a b) (l : List α) (n : ℕ) :
    OrderedUpTo lessB (l.map f) n ↔ OrderedUpTo less l n := by
  simp only [OrderedUpTo, lessAt_map f hf]

theorem ordered_map (hf : ∀ a b, lessB (f a) (f b) = less a b) (l : List α) :
    Ordered lessB (l.map f) ↔ Ordered less l := by
  rw [Ordered, Ordered, length_map]
  exact orderedUpTo_map f hf l _

theorem upLoop_map (hf : ∀ a b, lessB (f a) (f b) = less a b) :
    ∀ (fuel : ℕ) (l : List α) (j : ℕ), upLoop lessB fuel (l.map f) j = (upLoop less fuel l j).map f
  | 0, _, _ => rfl
  | fuel + 1, l, j => by
      rw [upLoop_succ, upLoop_succ, lessAt_map f hf, swap_map, upLoop_map hf fuel]
      split_ifs <;> rfl

theorem up_map (hf : ∀ a b, lessB (f a) (f b) = less a b) (l : List α) (j : ℕ) :
    up lessB (l.map f) j = (up less l j).map f :=
  upLoop_map f hf j l j

theorem lesserChild_map (hf : ∀ a b, lessB (f a) (f b) = less a b) (l : List α) (n i : ℕ) :
    lesserChild lessB (l.map f) n i = lesserChild less l n i := by
  simp only [lesserChild, lessAt_map f hf]

theorem downLoop_map (hf : ∀ a b, lessB (f a) (f b) = less a b) (n : ℕ) :
    ∀ (fuel : ℕ) (l : List α) (i : ℕ),
      downLoop lessB n fuel (l.map f) i = ((downLoop less n fuel l i).1.map f, (downLoop less n fuel l i).2)
  | 0, _, _ => rfl
  | fuel + 1, l, i => by
      rw [downLoop_succ, downLoop_succ, lesserChild_map f hf, lessAt_map f hf, swap_map,
        downLoop_map hf n fuel]
      split_ifs <;> rfl

theorem down_map (hf : ∀ a b, lessB (f a) (f b) = less a b) (l : List α) (i0 n : ℕ) :
    down lessB (l.map f) i0 n = ((down less l i0 n).1.map f, (down less l i0 n).2) := by
  simp only [down, downLoop_map f hf]

theorem push_map (hf : ∀ a b, lessB (f a) (f b) = less a b) (l : List α) (x : α) :
    push lessB (l.map f) (f x) = (push less l x).map f := by
  rw [push, push, length_map, ← up_map f hf, map_append, map_singleton]

theorem fix_map (hf : ∀ a b, lessB (f a) (f b) = less a b) (l : List α) (i : ℕ) :
    fix lessB (l.map f) i = (fix less l i).map f := by
  simp only [fix, length_map, down_map f hf]
  split_ifs
  · rfl
  · exact up_map f hf _ i

theorem pop_map (hf : ∀ a b, lessB (f a) (f b) = less a b) (l : List α) :
    pop lessB (l.map f) = (pop less l).map fun r => (f r.1, r.2.map f) := by
  unfold pop
  simp only [map_eq_nil_iff, length_map, swap_map, down_map f hf, getLast?_map]
  split_ifs
  · rfl
  · cases (down less (swap l 0 (l.length - 1)) 0 (l.length - 1)).1.getLast? <;> simp [map_dropLast]

theorem removeSift_map (hf : ∀ a b, lessB (f a) (f b) = less a b) (l : List α) (i : ℕ) :
    removeSift lessB (l.map f) i = (removeSift less l i).map f := by
  simp only [removeSift, length_map, swap_map, down_map f hf]
  split_ifs
  · rfl
  · exact up_map f hf _ i
  · rfl

theorem remove_map (hf : ∀ a b, lessB (f a) (f b) = less a b) (l : List α) (i : ℕ) :
    remove lessB (l.map f) i = (remove less l i).map fun r => (f r.1, r.2.map f) := by
  simp only [remove, removeSift_map f hf, getLast?_map]
  cases (removeSift less l i).getLast? <;> simp [map_dropLast]

end map

/-! ### Strict weak orders -/

section order

variable [IsStrictWeakOrder α fun a b => less a b = true]

theorem less_irrefl (a : α) : less a a = false :=
  Bool.eq_false_iff.mpr (irrefl_of (fun a b => less a b = true) a)

theorem less_trans {a b c : α} (hab : less a b = true) (hbc : less b c = true) : less a c = true :=
  trans_of (fun a b => less a b = true) hab hbc

theorem less_asymm {a b : α} (hab : less a b = true) : less b a = false :=
  Bool.eq_false_iff.mpr fun hba => by simpa [less_irrefl less a] using less_trans less hab hba

theorem not_less_trans {a b c : α} (hab : less a b = false) (hbc : less b c = false) :
    less a c = false := by
  cases hba : less b a with
  | true => exact Bool.eq_false_iff.mpr fun hac => by simpa [hbc] using less_trans less hba hac
  | false =>
    cases hcb : less c b with
    | true => exact Bool.eq_false_iff.mpr fun hac => by simpa [hab] using less_trans less hac hcb
    | false =>
      have h := @IsStrictWeakOrder.incomp_trans α (fun a b => less a b = true) _ a b c
        ⟨by simp [hab], by simp [hba]⟩ ⟨by simp [hbc], by simp [hcb]⟩
      simpa using h.1

theorem lessAt_irrefl (l : List α) (a : ℕ) : lessAt less l a a = false := by
  unfold lessAt
  cases l[a]? <;> simp [less_irrefl]

theorem lessAt_asymm {l : List α} {a b : ℕ} (h : lessAt less l a b = true) :
    lessAt less l b a = false := by
  obtain ⟨ha, hb, h⟩ := lessAt_eq_true less h
  rw [lessAt_of_lt less hb ha]
  exact less_asymm less h

theorem lessAt_trans {l : List α} {a b c : ℕ} (hab : lessAt less l a b = true)
    (hbc : lessAt less l b c = true) : lessAt less l a c = true := by
  obtain ⟨ha, hb, hab⟩ := lessAt_eq_true less hab
  obtain ⟨hb', hc, hbc'⟩ := lessAt_eq_true less hbc
  rw [lessAt_of_lt less ha hc]
  exact less_trans less hab hbc'

theorem lessAt_not_trans {l : List α} {a b c : ℕ} (hb : b < l.length)
    (hab : lessAt less l a b = false) (hbc : lessAt less l b c = false) :
    lessAt less l a c = false := by
  by_cases ha : a < l.length
  · by_cases hc : c < l.length
    · rw [lessAt_of_lt less ha hb] at hab
      rw [lessAt_of_lt less hb hc] at hbc
      rw [lessAt_of_lt less ha hc]
      exact not_less_trans less hab hbc
    · exact lessAt_of_le_right less a (by omega)
  · exact lessAt_of_le_left less (by omega) c

theorem Ordered.grand {l : List α} (ho : Ordered less l) {i c : ℕ} (hi : i < l.length) (hi0 : 0 < i)
    (hc : c < l.length) (hc0 : 0 < c) (hpc : parent c = i) :
    lessAt less l c (parent i) = false := by
  have hci := ho c hc hc0
  rw [hpc] at hci
  exact lessAt_not_trans less hi hci (ho i hi hi0)

/-! ### `up` -/

/-- What `up` at `j` needs of the first `n` positions: every position but `j` is in order with its
parent, and `j`'s children are not less than `j`'s parent. -/
structure UpOrder (l : List α) (n j : ℕ) : Prop where
  except : ∀ k < n, 0 < k → k ≠ j → lessAt less l k (parent k) = false
  grand : 0 < j → ∀ c < n, 0 < c → parent c = j → lessAt less l c (parent j) = false

omit [IsStrictWeakOrder α fun a b => less a b = true] in
theorem UpOrder.finish {l : List α} {n j : ℕ} (o : UpOrder less l n j)
    (hstop : 0 < j → lessAt less l j (parent j) = false) : OrderedUpTo less l n := by
  intro k hk hk0
  by_cases hkj : k = j
  · rw [hkj]
    exact hstop (hkj ▸ hk0)
  · exact o.except k hk hk0 hkj

theorem UpOrder.move {l : List α} {n j : ℕ} (o : UpOrder less l n j) (hj : 0 < j) (hjn : j < n)
    (hn : n ≤ l.length) (hlt : lessAt less l j (parent j) = true) :
    UpOrder less (swap l (parent j) j) n (parent j) := by
  have hp : parent j < j := parent_lt hj
  have hpl : parent j < l.length := by omega
  have hjl : j < l.length := by omega
  constructor
  · intro k hk hk0 hkp
    rw [lessAt_swap less hpl hjl]
    by_cases hkj : k = j
    · rw [hkj, Equiv.swap_apply_right, Equiv.swap_apply_left]
      exact lessAt_asymm less hlt
    · rw [Equiv.swap_apply_of_ne_of_ne hkp hkj]
      by_cases hpk : parent k = j
      · rw [hpk, Equiv.swap_apply_right]
        exact o.grand hj k hk hk0 hpk
      · by_cases hpp : parent k = parent j
        · rw [hpp, Equiv.swap_apply_left]
          have hk' := o.except k hk hk0 hkj
          rw [hpp] at hk'
          cases h : lessAt less l k j
          · rfl
          · rw [lessAt_trans less h hlt] at hk'
            cases hk'
        · rw [Equiv.swap_apply_of_ne_of_ne hpp hpk]
          exact o.except k hk hk0 hkj
  · intro hp0 c hc hc0 hpc
    have hpp : parent (parent j) < parent j := parent_lt hp0
    have hpo := o.except (parent j) (by omega) hp0 (by omega)
    have hσ : Equiv.swap (parent j) j (parent (parent j)) = parent (parent j) :=
      Equiv.swap_apply_of_ne_of_ne (by omega) (by omega)
    rw [lessAt_swap less hpl hjl, hσ]
    by_cases hcj : c = j
    · rw [hcj, Equiv.swap_apply_right]
      exact hpo
    · have hcp : c ≠ parent j := by
        have := parent_lt hc0
        omega
      rw [Equiv.swap_apply_of_ne_of_ne hcp hcj]
      have hco := o.except c hc hc0 hcj
      rw [hpc] at hco
      exact lessAt_not_trans less hpl hco hpo

/-- **`up` orders the prefix.**  The induction is on the fuel, which is at least the position
sifted, and `UpOrder` is what it carries. -/
theorem upLoop_ordered {n : ℕ} : ∀ (fuel : ℕ) (l : List α) (j : ℕ), UpOrder less l n j →
    j ≤ fuel → j < n → n ≤ l.length → OrderedUpTo less (upLoop less fuel l j) n
  | 0, _, _, o, hf, _, _ => o.finish less fun hj => absurd hj (by omega)
  | fuel + 1, l, j, o, hf, hjn, hn => by
      rw [upLoop_succ]
      split_ifs with hstop
      · refine o.finish less fun hj => ?_
        have := parent_lt hj
        simpa [show parent j ≠ j by omega] using hstop
      · simp only [not_or, Bool.not_eq_true', Bool.not_eq_false] at hstop
        have hj : 0 < j := Nat.pos_of_ne_zero fun h => hstop.1 (by rw [h]; rfl)
        have := parent_lt hj
        exact upLoop_ordered fuel _ _ (o.move less hj hjn hn hstop.2) (by omega) (by omega)
          (by rwa [length_swap])

/-! ### `down` -/

/-- What `down` at `i` needs of the first `n` positions: every position whose parent is not `i`
is in order with its parent, and `i`'s children are not less than `i`'s parent. -/
structure DownOrder (l : List α) (n i : ℕ) : Prop where
  except : ∀ k < n, 0 < k → parent k ≠ i → lessAt less l k (parent k) = false
  grand : 0 < i → ∀ c < n, 0 < c → parent c = i → lessAt less l c (parent i) = false

theorem lesserChild_min {l : List α} {n i : ℕ} {c : ℕ} (hc : c < n) (hc0 : 0 < c)
    (hpc : parent c = i) : lessAt less l c (lesserChild less l n i) = false := by
  rcases (parent_eq_iff hc0).mp hpc with rfl | rfl
  · unfold lesserChild
    split_ifs with hr
    · exact lessAt_asymm less hr.2
    · exact lessAt_irrefl less l _
  · unfold lesserChild
    split_ifs with hr
    · exact lessAt_irrefl less l _
    · simpa [hc] using hr

theorem down_stop {l : List α} {n i : ℕ} (hn : n ≤ l.length)
    (hstop : n ≤ 2 * i + 1 ∨ lessAt less l (lesserChild less l n i) i = false) :
    ∀ c < n, 0 < c → parent c = i → lessAt less l c i = false := by
  intro c hc hc0 hpc
  have hchild := (parent_eq_iff hc0).mp hpc
  rcases hstop with hleaf | hj
  · omega
  · have hjn : lesserChild less l n i < n := lesserChild_lt less (by omega)
    exact lessAt_not_trans less (by omega) (lesserChild_min less hc hc0 hpc) hj

omit [IsStrictWeakOrder α fun a b => less a b = true] in
theorem DownOrder.finish {l : List α} {n i : ℕ} (o : DownOrder less l n i)
    (hstop : ∀ c < n, 0 < c → parent c = i → lessAt less l c i = false) : OrderedUpTo less l n := by
  intro k hk hk0
  by_cases hpk : parent k = i
  · rw [hpk]
    exact hstop k hk hk0 hpk
  · exact o.except k hk hk0 hpk

/-- The swap of `i` with its lesser child, when that child is less than it, moves the order to
the child. -/
theorem DownOrder.move {l : List α} {n i : ℕ} (o : DownOrder less l n i) (hin : 2 * i + 1 < n)
    (hn : n ≤ l.length) (hlt : lessAt less l (lesserChild less l n i) i = true) :
    DownOrder less (swap l i (lesserChild less l n i)) n (lesserChild less l n i) := by
  have hij : i < lesserChild less l n i := lt_lesserChild less l n i
  have hjn : lesserChild less l n i < n := lesserChild_lt less hin
  have hpj : parent (lesserChild less l n i) = i := parent_lesserChild less l n i
  have hmin := fun {c} => lesserChild_min less (l := l) (n := n) (i := i) (c := c)
  generalize lesserChild less l n i = j at hij hjn hpj hlt hmin ⊢
  have hil : i < l.length := by omega
  have hjl : j < l.length := by omega
  constructor
  · intro k hk hk0 hpk
    rw [lessAt_swap less hil hjl]
    by_cases hkj : k = j
    · rw [hkj, hpj, Equiv.swap_apply_right, Equiv.swap_apply_left]
      exact lessAt_asymm less hlt
    · by_cases hki : k = i
      · have hpi := parent_lt (show 0 < i by omega)
        rw [hki, Equiv.swap_apply_left, Equiv.swap_apply_of_ne_of_ne (by omega) (by omega)]
        exact o.grand (by omega) j hjn (by omega) hpj
      · rw [Equiv.swap_apply_of_ne_of_ne hki hkj]
        by_cases hpi : parent k = i
        · rw [hpi, Equiv.swap_apply_left]
          exact hmin hk hk0 hpi
        · rw [Equiv.swap_apply_of_ne_of_ne hpi hpk]
          exact o.except k hk hk0 hpi
  · intro _ c hc hc0 hpc
    have hjc := parent_lt hc0
    rw [hpc] at hjc
    rw [lessAt_swap less hil hjl, hpj, Equiv.swap_apply_left,
      Equiv.swap_apply_of_ne_of_ne (by omega) (by omega)]
    have hco := o.except c hc hc0 (by omega)
    rwa [hpc] at hco

/-- **`down` orders the prefix.**  The induction is on the fuel, which covers the positions left
below the one sifted, and `DownOrder` is what it carries. -/
theorem downLoop_ordered {n : ℕ} : ∀ (fuel : ℕ) (l : List α) (i : ℕ), DownOrder less l n i →
    n ≤ i + fuel → n ≤ l.length → OrderedUpTo less (downLoop less n fuel l i).1 n
  | 0, _, _, o, hf, hn => o.finish less (down_stop less hn (.inl (by omega)))
  | fuel + 1, l, i, o, hf, hn => by
      rw [downLoop_succ]
      split_ifs with hleaf hstop
      · exact o.finish less (down_stop less hn (.inl hleaf))
      · exact o.finish less (down_stop less hn (.inr (by simpa using hstop)))
      · have hlt : lessAt less l (lesserChild less l n i) i = true := by simpa using hstop
        have := lt_lesserChild less l n i
        exact downLoop_ordered fuel _ _ (o.move less (by omega) hn hlt) (by omega)
          (by rwa [length_swap])

end order

theorem le_downLoop (n : ℕ) : ∀ (fuel : ℕ) (l : List α) (i : ℕ), i ≤ (downLoop less n fuel l i).2
  | 0, _, _ => le_rfl
  | fuel + 1, l, i => by
      rw [downLoop_succ]
      split_ifs
      · exact le_rfl
      · exact le_rfl
      · exact Nat.le_trans (Nat.le_of_lt (lt_lesserChild less l n i)) (le_downLoop n fuel _ _)

theorem down_eq_true {l : List α} {i n : ℕ} (h : (down less l i n).2 = true) :
    2 * i + 1 < n ∧ lessAt less l (lesserChild less l n i) i = true := by
  have hd : (down less l i n).2 = decide ((downLoop less n n l i).2 > i) := rfl
  cases n with
  | zero => simp [hd, downLoop] at h
  | succ m =>
    rw [hd, downLoop_succ] at h
    split_ifs at h with hleaf hstop
    · simp at h
    · simp at h
    · simp only [Bool.not_eq_true', Bool.not_eq_false] at hstop
      exact ⟨by omega, hstop⟩

theorem down_eq_false {l : List α} {i n : ℕ} (h : (down less l i n).2 = false) :
    (down less l i n).1 = l ∧ (n ≤ 2 * i + 1 ∨ lessAt less l (lesserChild less l n i) i = false) := by
  have hd : (down less l i n).2 = decide ((downLoop less n n l i).2 > i) := rfl
  have hl : (down less l i n).1 = (downLoop less n n l i).1 := rfl
  cases n with
  | zero => exact ⟨rfl, .inl (Nat.zero_le _)⟩
  | succ m =>
    rw [hd, downLoop_succ] at h
    rw [hl, downLoop_succ]
    split_ifs at h ⊢ with hleaf hstop
    · exact ⟨rfl, .inl hleaf⟩
    · exact ⟨rfl, .inr (by simpa using hstop)⟩
    · have := Nat.lt_of_lt_of_le (lt_lesserChild less l (m + 1) i)
        (le_downLoop less (m + 1) m (swap l i (lesserChild less l (m + 1) i)) (lesserChild less l (m + 1) i))
      simp only [decide_eq_false_iff_not] at h
      omega

/-! ### `heap.Fix` and `heap.Remove` -/

section order

variable [IsStrictWeakOrder α fun a b => less a b = true]

/-- What `heap.Fix` at `i` needs of the first `n` positions: the pairs that do not touch `i` are
in order, and `i`'s children are not less than `i`'s parent. -/
structure FixOrder (l : List α) (n i : ℕ) : Prop where
  except : ∀ k < n, 0 < k → k ≠ i → parent k ≠ i → lessAt less l k (parent k) = false
  grand : 0 < i → ∀ c < n, 0 < c → parent c = i → lessAt less l c (parent i) = false

omit [IsStrictWeakOrder α fun a b => less a b = true] in
theorem FixOrder.toDownOrder {l : List α} {n i : ℕ} (o : FixOrder less l n i)
    (hup : 0 < i → lessAt less l i (parent i) = false) : DownOrder less l n i where
  except k hk hk0 hpk := by
    by_cases hki : k = i
    · rw [hki]
      exact hup (hki ▸ hk0)
    · exact o.except k hk hk0 hki hpk
  grand := o.grand

omit [IsStrictWeakOrder α fun a b => less a b = true] in
theorem FixOrder.toUpOrder {l : List α} {n i : ℕ} (o : FixOrder less l n i)
    (hstop : ∀ c < n, 0 < c → parent c = i → lessAt less l c i = false) : UpOrder less l n i where
  except k hk hk0 hki := by
    by_cases hpk : parent k = i
    · rw [hpk]
      exact hstop k hk hk0 hpk
    · exact o.except k hk hk0 hki hpk
  grand := o.grand

/-- **Sifting down, or else up, orders the prefix.**  If `down` moves the element, a child was
less than it, so it was not less than its parent and `down` alone orders the prefix; if not, it
is not greater than its children, and `up` orders the prefix. -/
theorem downUp_ordered {l : List α} {n i : ℕ} (o : FixOrder less l n i) (hi : i < n)
    (hn : n ≤ l.length) :
    OrderedUpTo less (if (down less l i n).2 then (down less l i n).1 else up less (down less l i n).1 i) n := by
  split_ifs with hr
  · obtain ⟨hin, hlt⟩ := down_eq_true less hr
    have hup : 0 < i → lessAt less l i (parent i) = false := fun hi0 => by
      cases h : lessAt less l i (parent i)
      · rfl
      · have hg := o.grand hi0 _ (lesserChild_lt less hin)
          (Nat.lt_of_le_of_lt (Nat.zero_le i) (lt_lesserChild less l n i))
          (parent_lesserChild less l n i)
        rw [lessAt_trans less hlt h] at hg
        cases hg
    exact downLoop_ordered less n l i (o.toDownOrder less hup) (by omega) hn
  · obtain ⟨heq, hstop⟩ := down_eq_false less (by simpa using hr)
    rw [heq]
    exact upLoop_ordered less i l i (o.toUpOrder less (down_stop less hn hstop)) le_rfl hi hn

/-- An element set at a position of an ordered heap can only be out of order with its parent and
its children. -/
theorem Ordered.fixOrder_set {l : List α} (ho : Ordered less l) {i : ℕ} (hi : i < l.length) (x : α) :
    FixOrder less (l.set i x) l.length i where
  except k hk hk0 hki hpk := by
    rw [lessAt_congr less (getElem?_set_ne (Ne.symm hki)) (getElem?_set_ne (Ne.symm hpk))]
    exact ho k hk hk0
  grand hi0 c hc hc0 hpc := by
    have hpi := parent_lt hi0
    have hci := parent_lt hc0
    rw [lessAt_congr less (getElem?_set_ne (by omega)) (getElem?_set_ne (by omega))]
    exact ho.grand less hi hi0 hc hc0 hpc

/-- **`heap.Fix` keeps the order** of a heap where one element was replaced. -/
theorem fix_ordered {l : List α} (ho : Ordered less l) {i : ℕ} (hi : i < l.length) (x : α) :
    Ordered less (fix less (l.set i x) i) := by
  have hlen : (fix less (l.set i x) i).length = l.length := by
    rw [(fix_perm less _ i).length_eq, length_set]
  have h := downUp_ordered less (ho.fixOrder_set less hi x) hi (by simp)
  unfold Ordered
  rw [hlen]
  simpa only [fix, length_set] using h

/-- **`heap.Push` keeps the order.** -/
theorem push_ordered {l : List α} (ho : Ordered less l) (x : α) : Ordered less (push less l x) := by
  have hlen : (push less l x).length = l.length + 1 := by
    rw [(push_perm less l x).length_eq, length_cons]
  have o : UpOrder less (l ++ [x]) (l.length + 1) l.length := by
    constructor
    · intro k hk hk0 hkj
      have hkl : k < l.length := by omega
      have hpk := parent_lt hk0
      rw [lessAt_congr less (getElem?_append_left hkl) (getElem?_append_left (by omega))]
      exact ho k hkl hk0
    · intro _ c hc hc0 hpc
      rw [parent_eq_iff hc0] at hpc
      omega
  unfold Ordered
  rw [hlen]
  exact upLoop_ordered less l.length _ _ o le_rfl (by omega) (by simp)

omit [IsStrictWeakOrder α fun a b => less a b = true] in
theorem ordered_dropLast {l : List α} (h : OrderedUpTo less l (l.length - 1)) :
    Ordered less l.dropLast := by
  intro k hk hk0
  rw [length_dropLast] at hk
  have hpk := parent_lt hk0
  have hk' : l.dropLast[k]? = l[k]? := by rw [getElem?_dropLast, if_pos hk]
  have hp' : l.dropLast[parent k]? = l[parent k]? := by rw [getElem?_dropLast, if_pos (by omega)]
  rw [lessAt_congr less hk' hp']
  exact h k hk hk0

/-- **`heap.Pop` keeps the order.** -/
theorem pop_ordered {l l' : List α} {x : α} (ho : Ordered less l) (hp : pop less l = some (x, l')) :
    Ordered less l' := by
  unfold pop at hp
  split_ifs at hp with hnil
  obtain ⟨y, hy, hyx⟩ := Option.map_eq_some_iff.mp hp
  simp only [Prod.mk.injEq] at hyx
  obtain ⟨-, rfl⟩ := hyx
  have hlen : 0 < l.length := length_pos_iff.mpr hnil
  have o : DownOrder less (swap l 0 (l.length - 1)) (l.length - 1) 0 := by
    constructor
    · intro k hk hk0 hpk
      have := parent_lt hk0
      have hσk : Equiv.swap 0 (l.length - 1) k = k := Equiv.swap_apply_of_ne_of_ne (by omega) (by omega)
      rw [lessAt_swap less hlen (by omega), hσk, Equiv.swap_apply_of_ne_of_ne hpk (by omega)]
      exact ho k (by omega) hk0
    · exact fun h => absurd h (Nat.lt_irrefl 0)
  have hd := downLoop_ordered less (l.length - 1) _ 0 o (by omega) (by simp)
  apply ordered_dropLast
  rwa [(down_perm less _ 0 _).length_eq, length_swap]

/-- **`heap.Remove` keeps the order.** -/
theorem remove_ordered {l l' : List α} {i : ℕ} {x : α} (ho : Ordered less l) (hi : i < l.length)
    (hr : remove less l i = some (x, l')) : Ordered less l' := by
  unfold remove at hr
  obtain ⟨y, hy, hyx⟩ := Option.map_eq_some_iff.mp hr
  simp only [Prod.mk.injEq] at hyx
  obtain ⟨-, rfl⟩ := hyx
  apply ordered_dropLast
  rw [(removeSift_perm less l i).length_eq]
  dsimp only [removeSift]
  by_cases hne : l.length - 1 = i
  · rw [if_neg (not_not.mpr hne)]
    exact fun k hk hk0 => ho k (by omega) hk0
  · rw [if_pos hne]
    have o : FixOrder less (swap l i (l.length - 1)) (l.length - 1) i := by
      constructor
      · intro k hk hk0 hki hpk
        have := parent_lt hk0
        rw [lessAt_swap less hi (by omega), Equiv.swap_apply_of_ne_of_ne hki (by omega),
          Equiv.swap_apply_of_ne_of_ne hpk (by omega)]
        exact ho k (by omega) hk0
      · intro hi0 c hc hc0 hpc
        have := parent_lt hi0
        have := parent_lt hc0
        have hσc : Equiv.swap i (l.length - 1) c = c := Equiv.swap_apply_of_ne_of_ne (by omega) (by omega)
        have hσp : Equiv.swap i (l.length - 1) (parent i) = parent i :=
          Equiv.swap_apply_of_ne_of_ne (by omega) (by omega)
        rw [lessAt_swap less hi (by omega), hσc, hσp]
        exact ho.grand less hi hi0 (by omega) hc0 hpc
    exact downUp_ordered less o (by omega) (by simp)

/-! ### The root -/

/-- Nothing in an ordered heap is less than its root.  The induction is on the position, through
its parent. -/
theorem lessAt_zero {l : List α} (ho : Ordered less l) (k : ℕ) : lessAt less l k 0 = false := by
  induction k using Nat.strongRecOn with
  | ind k ih =>
    by_cases hk0 : k = 0
    · rw [hk0]
      exact lessAt_irrefl less l 0
    · by_cases hk : k < l.length
      · have hpk := parent_lt (Nat.pos_of_ne_zero hk0)
        exact lessAt_not_trans less (by omega) (ho k hk (Nat.pos_of_ne_zero hk0)) (ih _ hpk)
      · exact lessAt_of_le_left less (by omega) 0

/-- **The root is minimal.** -/
theorem head_min {l : List α} (ho : Ordered less l) {x : α} (hx : l.head? = some x) :
    ∀ y ∈ l, less y x = false := by
  intro y hy
  obtain ⟨k, hk, rfl⟩ := getElem_of_mem hy
  have h0 : 0 < l.length := length_pos_iff.mpr (ne_nil_of_mem hy)
  rw [head?_eq_getElem?, getElem?_eq_getElem h0, Option.some_inj] at hx
  rw [← hx, ← lessAt_of_lt less hk h0]
  exact lessAt_zero less ho k

end order

/-! ### Orders on a set of elements -/

section on

variable {less} {S : Set α}

theorem exists_map_val {l : List α} (hl : ∀ x ∈ l, x ∈ S) : ∃ l₀ : List S, l₀.map Subtype.val = l :=
  ⟨l.pmap Subtype.mk hl, by rw [map_pmap, pmap_eq_map, map_id']⟩

variable [IsStrictWeakOrder S fun a b => less a.1 b.1 = true]

theorem fix_ordered_on {l : List α} (hl : ∀ x ∈ l, x ∈ S) (ho : Ordered less l) {i : ℕ}
    (hi : i < l.length) {x : α} (hx : x ∈ S) : Ordered less (fix less (l.set i x) i) := by
  obtain ⟨l₀, rfl⟩ := exists_map_val hl
  have hf : ∀ a b : S, less a.1 b.1 = less a.1 b.1 := fun _ _ => rfl
  rw [ordered_map Subtype.val hf] at ho
  rw [length_map] at hi
  rw [show x = Subtype.val ⟨x, hx⟩ from rfl, ← map_set, fix_map Subtype.val hf, ordered_map Subtype.val hf]
  exact fix_ordered _ ho hi _

theorem push_ordered_on {l : List α} (hl : ∀ x ∈ l, x ∈ S) (ho : Ordered less l) {x : α} (hx : x ∈ S) :
    Ordered less (push less l x) := by
  obtain ⟨l₀, rfl⟩ := exists_map_val hl
  have hf : ∀ a b : S, less a.1 b.1 = less a.1 b.1 := fun _ _ => rfl
  rw [ordered_map Subtype.val hf] at ho
  rw [show x = Subtype.val ⟨x, hx⟩ from rfl, push_map Subtype.val hf, ordered_map Subtype.val hf]
  exact push_ordered _ ho _

theorem pop_ordered_on {l l' : List α} {x : α} (hl : ∀ x ∈ l, x ∈ S) (ho : Ordered less l)
    (hp : pop less l = some (x, l')) : Ordered less l' := by
  obtain ⟨l₀, rfl⟩ := exists_map_val hl
  have hf : ∀ a b : S, less a.1 b.1 = less a.1 b.1 := fun _ _ => rfl
  rw [ordered_map Subtype.val hf] at ho
  rw [pop_map Subtype.val hf] at hp
  obtain ⟨⟨x₀, l₀'⟩, hp₀, h⟩ := Option.map_eq_some_iff.mp hp
  simp only [Prod.mk.injEq] at h
  rw [← h.2, ordered_map Subtype.val hf]
  exact pop_ordered _ ho hp₀

theorem remove_ordered_on {l l' : List α} {i : ℕ} {x : α} (hl : ∀ x ∈ l, x ∈ S) (ho : Ordered less l)
    (hi : i < l.length) (hr : remove less l i = some (x, l')) : Ordered less l' := by
  obtain ⟨l₀, rfl⟩ := exists_map_val hl
  have hf : ∀ a b : S, less a.1 b.1 = less a.1 b.1 := fun _ _ => rfl
  rw [ordered_map Subtype.val hf] at ho
  rw [length_map] at hi
  rw [remove_map Subtype.val hf] at hr
  obtain ⟨⟨x₀, l₀'⟩, hr₀, h⟩ := Option.map_eq_some_iff.mp hr
  simp only [Prod.mk.injEq] at h
  rw [← h.2, ordered_map Subtype.val hf]
  exact remove_ordered _ ho hi hr₀

theorem head_min_on {l : List α} (hl : ∀ x ∈ l, x ∈ S) (ho : Ordered less l) {x : α}
    (hx : l.head? = some x) : ∀ y ∈ l, less y x = false := by
  obtain ⟨l₀, rfl⟩ := exists_map_val hl
  have hf : ∀ a b : S, less a.1 b.1 = less a.1 b.1 := fun _ _ => rfl
  rw [ordered_map Subtype.val hf] at ho
  rw [head?_map] at hx
  obtain ⟨x₀, hx₀, rfl⟩ := Option.map_eq_some_iff.mp hx
  intro y hy
  obtain ⟨y₀, hy₀, rfl⟩ := mem_map.mp hy
  exact head_min (fun a b : S => less a.1 b.1) ho hx₀ y₀ hy₀

end on

/-! ### Heaps of optional elements -/

/-- `less` on elements that may be missing: a missing element is never less, nor greater. -/
def optionLess : Option α → Option α → Bool
  | some a, some b => less a b
  | _, _ => false

@[simp] theorem optionLess_some (a b : α) : optionLess less (some a) (some b) = less a b := rfl

end GoHeap
