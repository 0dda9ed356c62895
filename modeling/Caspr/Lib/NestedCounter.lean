import Mathlib.Algebra.BigOperators.Group.Finset.Piecewise
import Caspr.Lib.Counter

/-! # Go maps of maps of counters

A `map[K]map[I]int64` that code fills by `m[k][i] += w`, making the inner map on first use, and
merges by adopting the inner map of every key it does not hold yet:

* `get m k i` reads `m[k][i]`, `0` when either map lacks the key;
* `inc m k i w` is `if m[k] == nil { m[k] = make(map[I]int64) }; m[k][i] += w`;
* `append m t` is
  `for k, o := range t { s := m[k]; if s == nil { m[k] = o; continue }; for i, v := range o { s[i] += v } }`;
* `total m sel` is `for k, o := range m { if i, ok := sel(k); ok { total += o[i] } }`.

`inc` and `append` add to the counters (`get_inc`, `get_append`).  A total depends on the
counters only: it is their sum over any finite set of outer keys that holds the map's
(`total_eq_sum`).  So totals add up as the counters do (`total_inc`, `total_append`), whatever
order the entries of the maps are in.

Go's `append` adopts the inner map of `t` by reference, so a later `append` into `m` writes into
`t`'s map as well.  The model has values, which is the same as long as `t` is not read again.
The numbers are integers: the code's sums stay far from the bounds of `int64`. -/

namespace NestedCounter

open Finset

section sums

variable {κ γ : Type} [DecidableEq κ]

/-- **A sum over the entries of a list with distinct keys is a sum over keys**: any finite set of
keys that holds the list's, each key contributing through its entry, if it has one. -/
theorem sum_map_eq_sum_dlookup (f : κ → γ → ℤ) {K : Finset κ} :
    ∀ (l : List (Sigma fun _ : κ => γ)), l.NodupKeys → (∀ e ∈ l, e.1 ∈ K) →
      (l.map fun e => f e.1 e.2).sum = ∑ k ∈ K, ((l.dlookup k).map (f k)).getD 0
  | [], _, _ => by simp
  | ⟨a, b⟩ :: l, hnd, hK => by
      have hnd' := List.nodupKeys_cons.mp hnd
      have ha : a ∈ K := hK ⟨a, b⟩ List.mem_cons_self
      have ih := sum_map_eq_sum_dlookup f l hnd'.2 fun e he => hK e (List.mem_cons_of_mem _ he)
      have hsplit : ∀ k ∈ K, (((⟨a, b⟩ :: l : List _).dlookup k).map (f k)).getD 0 =
          (if a = k then f a b else 0) + ((l.dlookup k).map (f k)).getD 0 := by
        intro k _
        by_cases hk : a = k
        · subst hk
          simp [List.dlookup_eq_none.mpr hnd'.1]
        · simp [hk, List.dlookup_cons_ne l ⟨a, b⟩ (Ne.symm hk)]
      rw [sum_congr rfl hsplit, sum_add_distrib, sum_ite_eq, if_pos ha, ← ih, List.map_cons,
        List.sum_cons]

theorem sum_entries_eq_sum_lookup (m : AList fun _ : κ => γ) (f : κ → γ → ℤ) (K : Finset κ)
    (hK : ∀ k ∈ m, k ∈ K) :
    (m.entries.map fun e => f e.1 e.2).sum = ∑ k ∈ K, ((m.lookup k).map (f k)).getD 0 :=
  sum_map_eq_sum_dlookup f m.entries m.nodupKeys fun e he =>
    hK e.1 (AList.mem_keys.mp (List.mem_keys_of_mem he))

theorem foldl_add_sum {α β : Type} (step : β → α → β) (F : β → ℤ) (c : α → ℤ)
    (h : ∀ b a, F (step b a) = F b + c a) (l : List α) (b : β) :
    F (l.foldl step b) = F b + (l.map c).sum := by
  induction l generalizing b with
  | nil => simp
  | cons a l ih => rw [List.foldl_cons, ih, h, List.map_cons, List.sum_cons, add_assoc]

/-- A sum over the results a partial function gives is a sum over all its arguments, those it
gives none for counting zero. -/
theorem sum_map_filterMap {α β : Type} (f : α → Option β) (g : β → ℤ) (l : List α) :
    ((l.filterMap f).map g).sum = (l.map fun a => (f a).elim 0 g).sum := by
  induction l with
  | nil => rfl
  | cons a l ih =>
      cases hf : f a with
      | none => simp [hf, ih]
      | some b => simp [hf, ih]

theorem sum_map_indices_of_perm {α : Type} (G : Option α → ℤ) (l : List α) {order : List ℕ}
    (h : order.Perm (List.range l.length)) :
    (order.map fun i => G l[i]?).sum = (l.map fun a => G (some a)).sum := by
  rw [(h.map _).sum_eq]
  clear h
  induction l with
  | nil => rfl
  | cons a l ih =>
      rw [List.length_cons, List.range_succ_eq_map, List.map_cons, List.sum_cons, List.map_map]
      simp only [Function.comp_def, List.getElem?_cons_succ, List.getElem?_cons_zero]
      rw [ih, List.map_cons, List.sum_cons]

end sums

variable {κ ι : Type} [DecidableEq κ] [DecidableEq ι]

/-- `m[k][i]`: `0` when either map lacks the key. -/
def get (m : AList fun _ : κ => AList fun _ : ι => ℤ) (k : κ) (i : ι) : ℤ :=
  Counter.get ((m.lookup k).getD ∅) i

/-- `if m[k] == nil { m[k] = make(map[I]int64) }; m[k][i] += w`: the entry stays also at zero. -/
def inc (m : AList fun _ : κ => AList fun _ : ι => ℤ) (k : κ) (i : ι) (w : ℤ) :
    AList fun _ : κ => AList fun _ : ι => ℤ :=
  let s := (m.lookup k).getD ∅
  m.insert k (s.insert i (Counter.get s i + w))

/-- One iteration of `append`'s loop, on the entry `e` of the map merged in: a key `m` lacks gets
`e`'s inner map, the counters of a key it has get `e`'s added. -/
def appendEntry (m : AList fun _ : κ => AList fun _ : ι => ℤ)
    (e : Sigma fun _ : κ => AList fun _ : ι => ℤ) : AList fun _ : κ => AList fun _ : ι => ℤ :=
  match m.lookup e.1 with
  | none => m.insert e.1 e.2
  | some scores => m.insert e.1 (Counter.append scores e.2)

/-- `for k, o := range t { s := m[k]; if s == nil { m[k] = o; continue }; for i, v := range o
{ s[i] += v } }`. -/
def append (m t : AList fun _ : κ => AList fun _ : ι => ℤ) :
    AList fun _ : κ => AList fun _ : ι => ℤ :=
  t.entries.foldl appendEntry m

/-- `for k, o := range m { if i, ok := sel(k); ok { total += o[i] } }`. -/
def total (m : AList fun _ : κ => AList fun _ : ι => ℤ) (sel : κ → Option ι) : ℤ :=
  m.entries.foldl (fun acc e =>
    match sel e.1 with
    | some i => acc + Counter.get e.2 i
    | none => acc) 0

/-! ### Counters -/

@[simp] theorem get_empty (k : κ) (i : ι) :
    get (∅ : AList fun _ : κ => AList fun _ : ι => ℤ) k i = 0 := rfl

theorem get_inc (m : AList fun _ : κ => AList fun _ : ι => ℤ) (k : κ) (i : ι) (w : ℤ)
    (k' : κ) (i' : ι) :
    get (inc m k i w) k' i' = get m k' i' + if k' = k ∧ i' = i then w else 0 := by
  unfold inc get
  by_cases hk : k' = k
  · subst hk
    by_cases hi : i' = i
    · subst hi
      simp
    · simp [hi, Counter.get_insert_ne _ _ hi]
  · simp [hk, AList.lookup_insert_ne hk]

theorem get_appendEntry (m : AList fun _ : κ => AList fun _ : ι => ℤ)
    (e : Sigma fun _ : κ => AList fun _ : ι => ℤ) (k : κ) (i : ι) :
    get (appendEntry m e) k i = get m k i + if k = e.1 then Counter.get e.2 i else 0 := by
  unfold appendEntry get
  by_cases hk : k = e.1
  · subst hk
    cases hm : m.lookup e.1 with
    | none => simp
    | some scores => simp [Counter.get_append]
  · cases m.lookup e.1 <;> simp [hk, AList.lookup_insert_ne hk]

theorem get_append (m t : AList fun _ : κ => AList fun _ : ι => ℤ) (k : κ) (i : ι) :
    get (append m t) k i = get m k i + get t k i := by
  unfold append
  rw [foldl_add_sum appendEntry (get · k i) _ (fun m e => get_appendEntry m e k i)]
  congr 1
  have hsum := sum_entries_eq_sum_lookup t (fun k' s => if k = k' then Counter.get s i else 0)
    (t.keys.toFinset ∪ {k}) fun k' hk' => by simp [AList.mem_keys.mp hk']
  have hsel : ∀ k' ∈ t.keys.toFinset ∪ {k},
      ((t.lookup k').map fun s => if k = k' then Counter.get s i else 0).getD 0 =
        if k = k' then get t k i else 0 := by
    intro k' _
    by_cases hk : k = k'
    · subst hk
      cases hl : t.lookup k <;> simp [get, hl]
    · cases t.lookup k' <;> simp [hk]
  rw [hsum, sum_congr rfl hsel, sum_ite_eq, if_pos (by simp)]

/-! ### Totals -/

/-- What an outer key adds to a total: its counter at the inner key `sel` picks. -/
def keyTotal (g : κ → ι → ℤ) (sel : κ → Option ι) (k : κ) : ℤ := (sel k).elim 0 (g k)

omit [DecidableEq κ] [DecidableEq ι] in
theorem keyTotal_add (g g' : κ → ι → ℤ) (sel : κ → Option ι) (k : κ) :
    keyTotal (fun k i => g k i + g' k i) sel k = keyTotal g sel k + keyTotal g' sel k := by
  unfold keyTotal
  cases sel k <;> simp

omit [DecidableEq κ] in
theorem total_eq_sum_entries (m : AList fun _ : κ => AList fun _ : ι => ℤ) (sel : κ → Option ι) :
    total m sel = (m.entries.map fun e => (sel e.1).elim 0 (Counter.get e.2)).sum := by
  unfold total
  have h := foldl_add_sum (fun acc (e : Sigma fun _ : κ => AList fun _ : ι => ℤ) =>
      match sel e.1 with
      | some i => acc + Counter.get e.2 i
      | none => acc) id (fun e => (sel e.1).elim 0 (Counter.get e.2))
    (fun acc e => by cases sel e.1 <;> simp) m.entries 0
  simpa using h

/-- **A total is the sum of its keys' counters**, over any finite set of keys that holds the
map's. -/
theorem total_eq_sum (m : AList fun _ : κ => AList fun _ : ι => ℤ) (sel : κ → Option ι)
    (K : Finset κ) (hK : ∀ k ∈ m, k ∈ K) :
    total m sel = ∑ k ∈ K, keyTotal (get m) sel k := by
  rw [total_eq_sum_entries,
    sum_entries_eq_sum_lookup m (fun k s => (sel k).elim 0 (Counter.get s)) K hK]
  refine sum_congr rfl fun k _ => ?_
  unfold keyTotal get
  cases m.lookup k <;> cases sel k <;> simp

omit [DecidableEq κ] in
@[simp] theorem total_empty (sel : κ → Option ι) :
    total (∅ : AList fun _ : κ => AList fun _ : ι => ℤ) sel = 0 := rfl

theorem total_inc (m : AList fun _ : κ => AList fun _ : ι => ℤ) (k : κ) (i : ι) (w : ℤ)
    (sel : κ → Option ι) :
    total (inc m k i w) sel = total m sel + if sel k = some i then w else 0 := by
  let K := (inc m k i w).keys.toFinset ∪ m.keys.toFinset ∪ {k}
  rw [total_eq_sum (inc m k i w) sel K (fun k' hk' => by simp [K, AList.mem_keys.mp hk']),
    total_eq_sum m sel K (fun k' hk' => by simp [K, AList.mem_keys.mp hk'])]
  have hpt : ∀ k' ∈ K, keyTotal (get (inc m k i w)) sel k' =
      keyTotal (get m) sel k' + if k = k' then (if sel k = some i then w else 0) else 0 := by
    intro k' _
    unfold keyTotal
    by_cases hk : k = k'
    · subst hk
      cases hs : sel k with
      | none => simp
      | some i' => by_cases hi : i' = i <;> simp [get_inc, hi]
    · cases sel k' <;> simp [get_inc, Ne.symm hk, hk]
  rw [sum_congr rfl hpt, sum_add_distrib, sum_ite_eq, if_pos (by simp [K])]

theorem total_append (m t : AList fun _ : κ => AList fun _ : ι => ℤ) (sel : κ → Option ι) :
    total (append m t) sel = total m sel + total t sel := by
  let K := (append m t).keys.toFinset ∪ m.keys.toFinset ∪ t.keys.toFinset
  rw [total_eq_sum (append m t) sel K (fun k hk => by simp [K, AList.mem_keys.mp hk]),
    total_eq_sum m sel K (fun k hk => by simp [K, AList.mem_keys.mp hk]),
    total_eq_sum t sel K (fun k hk => by simp [K, AList.mem_keys.mp hk]),
    ← sum_add_distrib]
  refine sum_congr rfl fun k _ => ?_
  have hg : get (append m t) = fun k i => get m k i + get t k i :=
    funext fun k => funext fun i => get_append m t k i
  rw [hg, keyTotal_add]

theorem total_foldl_append (ms : List (AList fun _ : κ => AList fun _ : ι => ℤ))
    (m : AList fun _ : κ => AList fun _ : ι => ℤ) (sel : κ → Option ι) :
    total (ms.foldl append m) sel = total m sel + (ms.map (total · sel)).sum :=
  foldl_add_sum append (total · sel) (total · sel) (fun m t => total_append m t sel) ms m

end NestedCounter
