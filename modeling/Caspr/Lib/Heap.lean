import Mathlib.Data.List.Perm.Basic
import Mathlib.Data.List.Sigma

/-! # Go's container/heap, and heaps of keyed objects

Go's `container/heap` orders a slice through three methods of its owner (`Len`, `Less`,
`Swap`) and two helpers, `up` and `down`, that sift one element along a path of the implicit
binary tree.  The functions here follow the Go code step for step on a list:

* `up l j` sifts position `j` towards the root, `down l i0 n` sifts position `i0` towards the
  leaves inside the prefix of length `n` and reports whether it moved;
* `push`, `pop`, `remove` and `fix` are `heap.Push`, `heap.Pop`, `heap.Remove` and
  `heap.Fix`.

The loops are written with fuel: `up` can take at most `j` iterations and `down` at most `n`,
since the sifted index strictly decreases (resp. increases inside `[0, n)`), so the fuel given
never runs out before Go's loop stops.

Whatever the order, a sift only swaps, so every operation permutes the slice (`fix_perm`,
`push_perm`), and `pop` and `remove` return the element that was at the position asked for:
their sifts never touch the last slot, to which it was swapped (`pop_perm`, `remove_perm`).

`KeyedHeap key` is a heap of objects with pairwise distinct keys, the structure of a store that
indexes its heap by a key function and replaces an object whose key is already present.  Its
operations are stated as permutations of the object list: adding replaces the object of the
same key, deleting removes it, popping removes the head. -/

namespace GoHeap

open List

variable {α : Type} (less : α → α → Bool)

/-! ### Swapping and comparing positions -/

/-- `h.Swap(i, j)`.  The heap functions only swap positions inside the slice. -/
def swap (l : List α) (i j : ℕ) : List α :=
  if h : i < l.length ∧ j < l.length then (l.set i l[j]).set j l[i] else l

theorem swap_perm (l : List α) (i j : ℕ) : swap l i j ~ l := by
  unfold swap
  split_ifs with h
  · exact List.set_set_perm h.1 h.2
  · rfl

@[simp] theorem length_swap (l : List α) (i j : ℕ) : (swap l i j).length = l.length :=
  (swap_perm l i j).length_eq

theorem getElem?_swap_of_ne {l : List α} {i j k : ℕ} (hi : k ≠ i) (hj : k ≠ j) :
    (swap l i j)[k]? = l[k]? := by
  unfold swap
  split_ifs
  · rw [List.getElem?_set_ne (Ne.symm hj), List.getElem?_set_ne (Ne.symm hi)]
  · rfl

theorem getElem?_swap_right {l : List α} {i j : ℕ} (hi : i < l.length) (hj : j < l.length) :
    (swap l i j)[j]? = l[i]? := by
  simp [swap, hi, hj]

/-- `h.Less(i, j)`; positions outside the slice compare as not less. -/
def lessAt (l : List α) (i j : ℕ) : Bool :=
  match l[i]?, l[j]? with
  | some a, some b => less a b
  | _, _ => false

/-! ### Sifting -/

/-- The loop of `up(h, j)`: while the element at `j` is less than its parent, swap them. -/
def upLoop : ℕ → List α → ℕ → List α
  | 0, l, _ => l
  | fuel + 1, l, j =>
      let i := (j - 1) / 2
      if i = j ∨ !lessAt less l j i then l else upLoop fuel (swap l i j) i

/-- `up(h, j)`; the parent `(j - 1) / 2` of `j > 0` is below `j`, so `j` iterations suffice. -/
def up (l : List α) (j : ℕ) : List α := upLoop less j l j

/-- The child of `i` that `down` compares with it: the right child if it is inside the prefix
of length `n` and less than the left child, else the left child. -/
def lesserChild (l : List α) (n i : ℕ) : ℕ :=
  if 2 * i + 1 + 1 < n ∧ lessAt less l (2 * i + 1 + 1) (2 * i + 1) then 2 * i + 1 + 1
  else 2 * i + 1

theorem lt_lesserChild (l : List α) (n i : ℕ) : i < lesserChild less l n i := by
  unfold lesserChild
  split_ifs <;> omega

theorem lesserChild_lt {l : List α} {n i : ℕ} (h : 2 * i + 1 < n) : lesserChild less l n i < n := by
  unfold lesserChild
  split_ifs with hr
  · exact hr.1
  · exact h

/-- The loop of `down(h, i0, n)`: while a child inside the prefix of length `n` is less than
the element at `i`, swap it with the lesser child; returns the slice and the final `i`. -/
def downLoop (n : ℕ) : ℕ → List α → ℕ → List α × ℕ
  | 0, l, i => (l, i)
  | fuel + 1, l, i =>
      if n ≤ 2 * i + 1 then (l, i)
      else
        let j := lesserChild less l n i
        if !lessAt less l j i then (l, i) else downLoop n fuel (swap l i j) j

/-- `down(h, i0, n)`, with whether the element moved; the index grows inside `[0, n)`, so `n`
iterations suffice. -/
def down (l : List α) (i0 n : ℕ) : List α × Bool :=
  let (l', i) := downLoop less n n l i0
  (l', decide (i > i0))

theorem upLoop_perm : ∀ (fuel : ℕ) (l : List α) (j : ℕ), upLoop less fuel l j ~ l
  | 0, _, _ => .refl _
  | fuel + 1, l, j => by
      simp only [upLoop]
      split_ifs
      · rfl
      · exact (upLoop_perm fuel _ _).trans (swap_perm l _ _)

theorem up_perm (l : List α) (j : ℕ) : up less l j ~ l := upLoop_perm less j l j

theorem downLoop_perm (n : ℕ) : ∀ (fuel : ℕ) (l : List α) (i : ℕ), (downLoop less n fuel l i).1 ~ l
  | 0, _, _ => .refl _
  | fuel + 1, l, i => by
      simp only [downLoop]
      split_ifs
      · rfl
      · rfl
      · exact (downLoop_perm n fuel _ _).trans (swap_perm l _ _)

theorem down_perm (l : List α) (i0 n : ℕ) : (down less l i0 n).1 ~ l :=
  downLoop_perm less n n l i0

theorem upLoop_getElem?_of_lt :
    ∀ (fuel : ℕ) (l : List α) {j k : ℕ}, j < k → (upLoop less fuel l j)[k]? = l[k]?
  | 0, _, _, _, _ => rfl
  | fuel + 1, l, j, k, hk => by
      have hparent : (j - 1) / 2 ≤ j := Nat.le_trans (Nat.div_le_self _ _) (Nat.sub_le _ _)
      simp only [upLoop]
      split_ifs
      · rfl
      · rw [upLoop_getElem?_of_lt fuel _ (Nat.lt_of_le_of_lt hparent hk),
          getElem?_swap_of_ne (by omega) (by omega)]

theorem downLoop_getElem?_of_le (n : ℕ) :
    ∀ (fuel : ℕ) (l : List α) (i : ℕ) {k : ℕ}, n ≤ k → (downLoop less n fuel l i).1[k]? = l[k]?
  | 0, _, _, _, _ => rfl
  | fuel + 1, l, i, k, hk => by
      simp only [downLoop]
      split_ifs with hj1
      · rfl
      · rfl
      · have hj := lesserChild_lt less (l := l) (Nat.lt_of_not_le hj1)
        have hij := lt_lesserChild less l n i
        rw [downLoop_getElem?_of_le n fuel _ _ hk, getElem?_swap_of_ne (by omega) (by omega)]

theorem down_getElem?_of_le (l : List α) (i0 : ℕ) {n k : ℕ} (hk : n ≤ k) :
    (down less l i0 n).1[k]? = l[k]? :=
  downLoop_getElem?_of_le less n n l i0 hk

/-! ### The heap operations -/

/-- `heap.Push(h, x)`: append, then sift the new last element up. -/
def push (l : List α) (x : α) : List α := up less (l ++ [x]) l.length

/-- `heap.Pop(h)`: swap the head with the last element, sift the new head down inside the
prefix without the last, and take the last.  On an empty heap Go indexes out of range. -/
def pop (l : List α) : Option (α × List α) :=
  if l = [] then none
  else
    let n := l.length - 1
    let l' := (down less (swap l 0 n) 0 n).1
    l'.getLast?.map fun x => (x, l'.dropLast)

theorem pop_isSome {l : List α} (hne : l ≠ []) : (pop less l).isSome := by
  have hlen : (down less (swap l 0 (l.length - 1)) 0 (l.length - 1)).1 ≠ [] := by
    rw [← List.length_pos_iff, (down_perm less _ 0 _).length_eq, length_swap]
    exact List.length_pos_iff.mpr hne
  simp [pop, hne, List.getLast?_eq_some_getLast hlen]

/-- The slice `heap.Remove(h, i)` leaves before its last `h.Pop()`: the element at `i` swapped
to the end and the element put in its place sifted down, or else up. -/
def removeSift (l : List α) (i : ℕ) : List α :=
  let n := l.length - 1
  if n ≠ i then
    let r := down less (swap l i n) i n
    if r.2 then r.1 else up less r.1 i
  else l

/-- `heap.Remove(h, i)`: the removed element and the slice left. -/
def remove (l : List α) (i : ℕ) : Option (α × List α) :=
  let l' := removeSift less l i
  l'.getLast?.map fun x => (x, l'.dropLast)

/-- `heap.Fix(h, i)`: sift the element at `i` down, or else up. -/
def fix (l : List α) (i : ℕ) : List α :=
  let r := down less l i l.length
  if r.2 then r.1 else up less r.1 i

theorem push_perm (l : List α) (x : α) : push less l x ~ x :: l :=
  (up_perm less _ _).trans (List.perm_append_singleton x l)

theorem fix_perm (l : List α) (i : ℕ) : fix less l i ~ l := by
  simp only [fix]
  split_ifs
  · exact down_perm less l i _
  · exact (up_perm less _ _).trans (down_perm less l i _)

private theorem perm_of_getLast? {l' l : List α} {x : α} (hp : l' ~ l) (hx : l'.getLast? = some x) :
    x :: l'.dropLast ~ l := by
  obtain ⟨ys, rfl⟩ := List.getLast?_eq_some_iff.mp hx
  rw [List.dropLast_concat]
  exact (List.perm_append_singleton x ys).symm.trans hp

theorem pop_perm {l l' : List α} {x : α} (h : pop less l = some (x, l')) :
    l.head? = some x ∧ x :: l' ~ l := by
  unfold pop at h
  split_ifs at h with hnil
  obtain ⟨y, hy, hyx⟩ := Option.map_eq_some_iff.mp h
  simp only [Prod.mk.injEq] at hyx
  obtain ⟨rfl, rfl⟩ := hyx
  have hlen : 0 < l.length := List.length_pos_iff.mpr hnil
  have hlast : (down less (swap l 0 (l.length - 1)) 0 (l.length - 1)).1.getLast? = l.head? := by
    rw [List.getLast?_eq_getElem?, (down_perm less _ 0 _).length_eq, length_swap,
      down_getElem?_of_le less _ 0 (Nat.le_refl _), getElem?_swap_right (by omega) (by omega),
      List.head?_eq_getElem?]
  refine ⟨hlast ▸ hy, perm_of_getLast? ?_ hy⟩
  exact (down_perm less _ 0 _).trans (swap_perm l _ _)

theorem removeSift_perm (l : List α) (i : ℕ) : removeSift less l i ~ l := by
  simp only [removeSift]
  split_ifs
  · exact (down_perm less _ i _).trans (swap_perm l _ _)
  · exact ((up_perm less _ i).trans (down_perm less _ i _)).trans (swap_perm l _ _)
  · rfl

theorem remove_perm {l l' : List α} {i : ℕ} {x : α} (h : remove less l i = some (x, l')) :
    i < l.length → l[i]? = some x ∧ x :: l' ~ l := by
  intro hi
  unfold remove at h
  obtain ⟨y, hy, hyx⟩ := Option.map_eq_some_iff.mp h
  simp only [Prod.mk.injEq] at hyx
  obtain ⟨rfl, rfl⟩ := hyx
  have hlast : (removeSift less l i).getLast? = l[i]? := by
    rw [List.getLast?_eq_getElem?, (removeSift_perm less l i).length_eq]
    simp only [removeSift]
    split_ifs with hne hmoved
    · rw [down_getElem?_of_le less _ i (Nat.le_refl _), getElem?_swap_right hi (by omega)]
    · rw [up, upLoop_getElem?_of_lt less _ _ (by omega),
        down_getElem?_of_le less _ i (Nat.le_refl _), getElem?_swap_right hi (by omega)]
    · simp only [ne_eq, not_not] at hne
      rw [hne]
  exact ⟨hlast ▸ hy, perm_of_getLast? (removeSift_perm less l i) hy⟩

theorem remove_isSome {l : List α} {i : ℕ} (hi : i < l.length) : (remove less l i).isSome := by
  unfold remove
  have hne : removeSift less l i ≠ [] := by
    rw [← List.length_pos_iff, (removeSift_perm less l i).length_eq]
    omega
  simp [List.getLast?_eq_some_getLast hne]

end GoHeap

/-! ### Objects with distinct keys -/

section keys

open List

variable {α κ : Type} (key : α → κ)

theorem List.perm_cons_filter_key {l : List α} [DecidableEq κ] (hnd : (l.map key).Nodup) {x : α}
    (hx : x ∈ l) : l ~ x :: l.filter (fun y => key y ≠ key x) := by
  induction l with
  | nil => simp at hx
  | cons y ys ih =>
      rw [List.map_cons, List.nodup_cons] at hnd
      rcases List.mem_cons.mp hx with rfl | hx
      · have hrest : ys.filter (fun y => key y ≠ key x) = ys :=
          List.filter_eq_self.mpr fun z hz =>
            decide_eq_true fun h : key z = key x => hnd.1 (h ▸ List.mem_map_of_mem hz)
        rw [List.filter_cons_of_neg (by simp), hrest]
      · have hyx : key y ≠ key x := fun h => hnd.1 (h ▸ List.mem_map_of_mem hx)
        rw [List.filter_cons_of_pos (by simpa using hyx)]
        exact ((ih hnd.2 hx).cons y).trans (.swap x y _)

theorem List.filter_key_eq_self {l : List α} [DecidableEq κ] {k : κ} (hk : k ∉ l.map key) :
    l.filter (fun y => key y ≠ k) = l :=
  List.filter_eq_self.mpr fun z hz =>
    decide_eq_true fun h : key z = k => hk (h ▸ List.mem_map_of_mem hz)

theorem List.kerase_eq_filter {β : κ → Type} [DecidableEq κ] (k : κ) :
    ∀ {l : List (Sigma β)}, l.NodupKeys → l.kerase k = l.filter (fun e => e.1 ≠ k)
  | [], _ => rfl
  | e :: l, nd => by
      rw [List.nodupKeys_cons] at nd
      by_cases h : k = e.1
      · subst h
        rw [List.kerase_cons_eq rfl, List.filter_cons_of_neg (by simp),
          List.filter_key_eq_self Sigma.fst nd.1]
      · rw [List.kerase_cons_ne h, List.filter_cons_of_pos (p := fun x : Sigma β => decide (x.1 ≠ k))
          (decide_eq_true fun h' : e.1 = k => h h'.symm),
          List.kerase_eq_filter k nd.2]

theorem List.filter_set_of_false {l : List α} {p : α → Bool} {i : ℕ} (hi : i < l.length) {a : α}
    (ha : p a = false) (hl : p l[i] = false) : (l.set i a).filter p = l.filter p := by
  conv_rhs => rw [← List.take_append_drop i l, List.drop_eq_getElem_cons hi]
  rw [List.set_eq_take_append_cons_drop, if_pos hi, List.filter_append, List.filter_append,
    List.filter_cons_of_neg (by simp [ha]), List.filter_cons_of_neg (by simp [hl])]

theorem List.map_set_of_key_eq {l : List α} {i : ℕ} (hi : i < l.length) {a : α}
    (hk : key l[i] = key a) : (l.set i a).map key = l.map key := by
  apply List.ext_getElem?
  intro j
  rw [List.getElem?_map, List.getElem?_map, List.getElem?_set]
  split_ifs with hij
  · subst hij
    simp [List.getElem?_eq_getElem hi, hk]
  · rfl

theorem List.set_perm_filter_key {l : List α} [DecidableEq κ] (hnd : (l.map key).Nodup) {i : ℕ}
    (hi : i < l.length) {a : α} (hk : key l[i] = key a) :
    l.set i a ~ a :: l.filter (fun y => key y ≠ key a) := by
  have hset : ((l.set i a).map key).Nodup := by
    rwa [List.map_set_of_key_eq key hi hk]
  have hmem : a ∈ l.set i a := List.mem_set hi a
  rw [← List.filter_set_of_false hi (a := a) (p := fun y => decide (key y ≠ key a)) (by simp)
    (by simp [hk])]
  exact List.perm_cons_filter_key key hset hmem

end keys

/-- A heap of objects with pairwise distinct keys. -/
structure KeyedHeap {α κ : Type} (key : α → κ) where
  queue : List α
  nodup : (queue.map key).Nodup

namespace KeyedHeap

open List

variable {α κ : Type} {key : α → κ} [DecidableEq κ] (less : α → α → Bool)

/-- The empty heap. -/
def empty : KeyedHeap key := ⟨[], List.nodup_nil⟩

/-- The position of the object of `obj`'s key. -/
def index (h : KeyedHeap key) (obj : α) : Option ℕ := h.queue.findIdx? fun x => key x = key obj

theorem index_eq_some {h : KeyedHeap key} {obj : α} {i : ℕ} (hi : h.index obj = some i) :
    ∃ hlt : i < h.queue.length, key h.queue[i] = key obj := by
  obtain ⟨hlt, hkey, -⟩ := List.findIdx?_eq_some_iff_getElem.mp hi
  exact ⟨hlt, by simpa using hkey⟩

theorem index_eq_none {h : KeyedHeap key} {obj : α} (hi : h.index obj = none) :
    key obj ∉ h.queue.map key := by
  intro hmem
  obtain ⟨x, hx, hkx⟩ := List.mem_map.mp hmem
  have := List.findIdx?_eq_none_iff.mp hi x hx
  simp [hkx] at this

private theorem nodup_fix_set (h : KeyedHeap key) {obj : α} {i : ℕ} (hi : h.index obj = some i) :
    ((GoHeap.fix less (h.queue.set i obj) i).map key).Nodup := by
  obtain ⟨hlt, hkey⟩ := index_eq_some hi
  rw [((GoHeap.fix_perm less _ i).map key).nodup_iff,
    List.map_set_of_key_eq key hlt hkey]
  exact h.nodup

private theorem nodup_push (h : KeyedHeap key) {obj : α} (hi : h.index obj = none) :
    ((GoHeap.push less h.queue obj).map key).Nodup := by
  rw [((GoHeap.push_perm less _ obj).map key).nodup_iff, List.map_cons, List.nodup_cons]
  exact ⟨index_eq_none hi, h.nodup⟩

/-- `Heap.Add`: an object whose key is present replaces the stored one, which is then fixed;
otherwise it is pushed. -/
def Add (h : KeyedHeap key) (obj : α) : KeyedHeap key :=
  match hi : h.index obj with
  | some i => ⟨GoHeap.fix less (h.queue.set i obj) i, h.nodup_fix_set less hi⟩
  | none => ⟨GoHeap.push less h.queue obj, h.nodup_push less hi⟩

/-- `Heap.Update` is `Heap.Add`. -/
def Update (h : KeyedHeap key) (obj : α) : KeyedHeap key := h.Add less obj

omit [DecidableEq κ] in
private theorem nodup_of_remove (h : KeyedHeap key) {i : ℕ} {x : α} {l' : List α}
    (hr : GoHeap.remove less h.queue i = some (x, l')) (hi : i < h.queue.length) :
    (l'.map key).Nodup := by
  have hp := ((GoHeap.remove_perm less hr hi).2.map key)
  have hnd := h.nodup
  rw [← hp.nodup_iff, List.map_cons] at hnd
  exact (List.nodup_cons.mp hnd).2

/-- `Heap.Delete`: remove the object of `obj`'s key, or fail with Go's error. -/
def Delete (h : KeyedHeap key) (obj : α) : Except String (KeyedHeap key) :=
  match hi : h.index obj with
  | some i =>
      match hr : GoHeap.remove less h.queue i with
      | some (_, l') => .ok ⟨l', h.nodup_of_remove less hr (index_eq_some hi).1⟩
      -- unreachable: the index is inside the slice (`remove_isSome`)
      | none => .ok h
  | none => .error "object not found"

/-- The heap after a `Heap.Delete` whose error the caller ignores. -/
def dropKey (h : KeyedHeap key) (obj : α) : KeyedHeap key :=
  match h.Delete less obj with
  | .ok h' => h'
  | .error _ => h

/-- `Heap.Peek`. -/
def Peek (h : KeyedHeap key) : Option α := h.queue.head?

omit [DecidableEq κ] in
private theorem nodup_of_pop (h : KeyedHeap key) {x : α} {l' : List α}
    (hp : GoHeap.pop less h.queue = some (x, l')) : (l'.map key).Nodup := by
  have hperm := ((GoHeap.pop_perm less hp).2.map key)
  have hnd := h.nodup
  rw [← hperm.nodup_iff, List.map_cons] at hnd
  exact (List.nodup_cons.mp hnd).2

/-- `Heap.Pop`; `none` on an empty heap. -/
def Pop (h : KeyedHeap key) : Option (α × KeyedHeap key) :=
  match hp : GoHeap.pop less h.queue with
  | some (x, l') => some (x, ⟨l', h.nodup_of_pop less hp⟩)
  | none => none

/-- `Heap.Get`: the stored object of `obj`'s key. -/
def Get (h : KeyedHeap key) (obj : α) : Option α := h.queue.find? fun x => key x = key obj

/-- `Heap.Len`. -/
def Len (h : KeyedHeap key) : ℕ := h.queue.length

/-! ### What the operations do to the stored objects -/

theorem Add_queue_of_index_some {h : KeyedHeap key} {obj : α} {i : ℕ} (hi : h.index obj = some i) :
    (h.Add less obj).queue = GoHeap.fix less (h.queue.set i obj) i := by
  unfold Add
  split
  · rename_i j hj
    rw [hi, Option.some_inj] at hj
    subst hj
    rfl
  · rename_i hj
    rw [hi] at hj
    cases hj

theorem Add_queue_of_index_none {h : KeyedHeap key} {obj : α} (hi : h.index obj = none) :
    (h.Add less obj).queue = GoHeap.push less h.queue obj := by
  unfold Add
  split
  · rename_i j hj
    rw [hi] at hj
    cases hj
  · rfl

theorem Delete_eq_ok {h h' : KeyedHeap key} {obj : α} (hd : h.Delete less obj = .ok h') :
    ∃ i x, h.index obj = some i ∧ GoHeap.remove less h.queue i = some (x, h'.queue) := by
  unfold Delete at hd
  split at hd
  · rename_i i hi
    split at hd
    · rename_i x l' hr
      cases hd
      exact ⟨i, x, hi, hr⟩
    · rename_i hr
      have hsome := GoHeap.remove_isSome less (index_eq_some hi).1
      rw [hr] at hsome
      cases hsome
  · cases hd

omit [DecidableEq κ] in
theorem Pop_eq_some_pop {h h' : KeyedHeap key} {x : α} (hp : h.Pop less = some (x, h')) :
    GoHeap.pop less h.queue = some (x, h'.queue) := by
  unfold Pop at hp
  split at hp
  · rename_i y l' hpop
    simp only [Option.some.injEq, Prod.mk.injEq] at hp
    obtain ⟨rfl, rfl⟩ := hp
    exact hpop
  · cases hp

theorem Add_perm (h : KeyedHeap key) (obj : α) :
    (h.Add less obj).queue ~ obj :: h.queue.filter (fun y => key y ≠ key obj) := by
  unfold Add
  split
  · rename_i i hi
    obtain ⟨hlt, hkey⟩ := index_eq_some hi
    exact (GoHeap.fix_perm less _ i).trans (List.set_perm_filter_key key h.nodup hlt hkey)
  · rename_i hi
    rw [List.filter_key_eq_self key (index_eq_none hi)]
    exact GoHeap.push_perm less _ obj

theorem Delete_of_mem {h : KeyedHeap key} {obj : α} (hk : key obj ∈ h.queue.map key) :
    ∃ h', h.Delete less obj = .ok h' ∧ h'.queue ~ h.queue.filter (fun y => key y ≠ key obj) := by
  have hi : h.index obj ≠ none := fun hi => index_eq_none hi hk
  obtain ⟨i, hi⟩ := Option.ne_none_iff_exists'.mp hi
  obtain ⟨hlt, hkey⟩ := index_eq_some hi
  obtain ⟨⟨x, l'⟩, hr⟩ := Option.isSome_iff_exists.mp (GoHeap.remove_isSome less hlt)
  obtain ⟨hx, hperm⟩ := GoHeap.remove_perm less hr hlt
  rw [List.getElem?_eq_getElem hlt, Option.some_inj] at hx
  subst hx
  refine ⟨⟨l', h.nodup_of_remove less hr hlt⟩, ?_, ?_⟩
  · unfold Delete
    split
    · rename_i j hj
      rw [hi, Option.some_inj] at hj
      subst hj
      split
      · rename_i y l'' hr'
        rw [hr] at hr'
        cases hr'
        rfl
      · rename_i hr'
        rw [hr] at hr'
        cases hr'
    · rename_i hj
      rw [hi] at hj
      cases hj
  · rw [← hkey]
    exact (List.perm_cons_filter_key key h.nodup (List.getElem_mem hlt)).symm.trans hperm.symm |>.cons_inv.symm

theorem Delete_of_not_mem {h : KeyedHeap key} {obj : α} (hk : key obj ∉ h.queue.map key) :
    h.Delete less obj = .error "object not found" := by
  unfold Delete
  split
  · rename_i i hi
    exact absurd ((index_eq_some hi).2 ▸ List.mem_map_of_mem (List.getElem_mem _)) hk
  · rfl

omit [DecidableEq κ] in
theorem Pop_eq_some {h h' : KeyedHeap key} {x : α} (hp : h.Pop less = some (x, h')) :
    h.Peek = some x ∧ x :: h'.queue ~ h.queue :=
  GoHeap.pop_perm less (Pop_eq_some_pop less hp)

omit [DecidableEq κ] in
theorem Pop_isSome {h : KeyedHeap key} (hne : h.queue ≠ []) : (h.Pop less).isSome := by
  unfold Pop
  split
  · rfl
  · rename_i hpop
    have hsome := GoHeap.pop_isSome less hne
    rw [hpop] at hsome
    cases hsome

theorem Get_eq_none_iff {h : KeyedHeap key} {obj : α} :
    h.Get obj = none ↔ key obj ∉ h.queue.map key := by
  rw [Get, List.find?_eq_none]
  constructor
  · intro hf hk
    obtain ⟨x, hx, hkx⟩ := List.mem_map.mp hk
    exact hf x hx (by simpa using hkx)
  · intro hk x hx
    simpa using fun h : key x = key obj => hk (h ▸ List.mem_map_of_mem hx)

theorem Get_eq_some_iff {h : KeyedHeap key} {obj x : α} :
    h.Get obj = some x ↔ x ∈ h.queue ∧ key x = key obj := by
  constructor
  · intro hg
    exact ⟨List.mem_of_find?_eq_some hg, by simpa using List.find?_some hg⟩
  · rintro ⟨hx, hk⟩
    obtain ⟨y, hy⟩ := Option.isSome_iff_exists.mp
      ((List.find?_isSome (p := fun y => decide (key y = key obj))).mpr ⟨x, hx, by simpa using hk⟩)
    have hky : key y = key obj := by simpa using List.find?_some hy
    rw [Get, hy, List.inj_on_of_nodup_map h.nodup (List.mem_of_find?_eq_some hy) hx
      (hky.trans hk.symm)]

theorem dropKey_perm (less : α → α → Bool) (h : KeyedHeap key) (obj : α) :
    (h.dropKey less obj).queue ~ h.queue.filter (fun y => key y ≠ key obj) := by
  by_cases hk : key obj ∈ h.queue.map key
  · obtain ⟨h', hd, hp⟩ := Delete_of_mem less hk
    simp only [dropKey, hd]
    exact hp
  · simp only [dropKey, Delete_of_not_mem less hk, List.filter_key_eq_self key hk]
    rfl

/-- `Heap.List`: the stored objects. -/
def List (h : KeyedHeap key) : List α := h.queue

end KeyedHeap
