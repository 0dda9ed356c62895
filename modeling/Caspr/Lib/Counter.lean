import Mathlib.Data.List.AList
import Mathlib.Algebra.BigOperators.Group.List.Basic
import Mathlib.Algebra.Ring.Int.Defs

/-! # Go maps of counters

A `map[K]int64` used as a bag of keys.  `m[k] += v` on a missing key starts from Go's zero
value, and code that also removes from the bag deletes an entry once it is back to zero:

* `get m k` reads the counter as Go does, `0` for a missing key;
* `add m k v` is `m[k] += v; if m[k] == 0 { delete(m, k) }`, and `get_add` says what it does to
  every counter;
* `append m t` is `for k := range t { m[k] += t[k] }`, which adds the counters (`get_append`).

A map whose entries are all positive (`Positive`) is determined by its counters: two such maps
have the same entries wherever their counters agree (`lookup_eq_of_get_eq`), and so the same
length.  `add` keeps `Positive` as long as no counter goes below zero.

The numbers are integers: the counters of the code count pods and never come near the bounds
of `int64`. -/

namespace Counter

variable {κ : Type} [DecidableEq κ]

/-- `m[k]`: the counter, `0` for a missing key. -/
def get (m : AList fun _ : κ => ℤ) (k : κ) : ℤ := (m.lookup k).getD 0

/-- `m[k] += v; if m[k] == 0 { delete(m, k) }`. -/
def add (m : AList fun _ : κ => ℤ) (k : κ) (v : ℤ) : AList fun _ : κ => ℤ :=
  if get m k + v = 0 then m.erase k else m.insert k (get m k + v)

/-- `for k := range t { m[k] += t[k] }`. -/
def append (m t : AList fun _ : κ => ℤ) : AList fun _ : κ => ℤ :=
  t.entries.foldl (fun m e => m.insert e.1 (get m e.1 + e.2)) m

/-- Every entry of the map is positive. -/
def Positive (m : AList fun _ : κ => ℤ) : Prop := ∀ k v, m.lookup k = some v → 0 < v

@[simp] theorem get_empty (k : κ) : get (∅ : AList fun _ : κ => ℤ) k = 0 := rfl

@[simp] theorem get_erase_self (m : AList fun _ : κ => ℤ) (k : κ) : get (m.erase k) k = 0 := by
  simp [get]

theorem get_erase_ne (m : AList fun _ : κ => ℤ) {k k' : κ} (h : k' ≠ k) :
    get (m.erase k) k' = get m k' := by
  simp [get, AList.lookup_erase_ne h]

@[simp] theorem get_insert_self (m : AList fun _ : κ => ℤ) (k : κ) (v : ℤ) :
    get (m.insert k v) k = v := by
  simp [get]

theorem get_insert_ne (m : AList fun _ : κ => ℤ) {k k' : κ} (v : ℤ) (h : k' ≠ k) :
    get (m.insert k v) k' = get m k' := by
  simp [get, AList.lookup_insert_ne h]

theorem get_add (m : AList fun _ : κ => ℤ) (k k' : κ) (v : ℤ) :
    get (add m k v) k' = get m k' + if k' = k then v else 0 := by
  unfold add
  by_cases hk : k' = k
  · subst hk
    rw [if_pos rfl]
    split_ifs with h0
    · rw [get_erase_self]
      omega
    · rw [get_insert_self]
  · split_ifs
    · rw [get_erase_ne m hk]
      simp
    · rw [get_insert_ne m _ hk]
      simp

theorem lookup_foldl_insert (k : κ) :
    ∀ (es : List (Sigma fun _ : κ => ℤ)) (m : AList fun _ : κ => ℤ), es.NodupKeys →
      (es.foldl (fun m e => m.insert e.1 (get m e.1 + e.2)) m).lookup k =
        if k ∈ es.keys then some (get m k + (es.dlookup k).getD 0) else m.lookup k
  | [], m, _ => by simp
  | ⟨k', v⟩ :: es, m, hnd => by
      rw [List.foldl_cons, lookup_foldl_insert k es _ (List.nodupKeys_cons.mp hnd).2]
      by_cases hk : k = k'
      · subst hk
        have hnotin : k ∉ es.keys := (List.nodupKeys_cons.mp hnd).1
        simp [hnotin]
      · simp [hk, AList.lookup_insert_ne hk, List.dlookup_cons_ne es ⟨k', v⟩ hk, get]

theorem get_append (m t : AList fun _ : κ => ℤ) (k : κ) :
    get (append m t) k = get m k + get t k := by
  unfold append
  have h := lookup_foldl_insert k t.entries m t.nodupKeys
  by_cases hk : k ∈ t.entries.keys
  · simp only [hk, if_true] at h
    rw [get, h]
    rfl
  · simp only [hk, if_false] at h
    have hnone : t.lookup k = none := AList.lookup_eq_none.mpr hk
    rw [get, h]
    simp [get, hnone]

theorem get_eq_zero_of_length_eq_zero {m : AList fun _ : κ => ℤ} (h : m.entries.length = 0)
    (k : κ) : get m k = 0 := by
  have hnil : m.entries = [] := List.length_eq_zero_iff.mp h
  simp [get, AList.lookup, hnil]

theorem get_foldl {α : Type} (upd : (AList fun _ : κ => ℤ) → α → AList fun _ : κ => ℤ)
    (c : α → ℤ) (k : κ) (h : ∀ m a, get (upd m a) k = get m k + c a) (l : List α)
    (m : AList fun _ : κ => ℤ) : get (l.foldl upd m) k = get m k + (l.map c).sum := by
  induction l generalizing m with
  | nil => simp
  | cons a l ih => rw [List.foldl_cons, ih, h, List.map_cons, List.sum_cons, add_assoc]

theorem get_foldl_append (k : κ) (ms : List (AList fun _ : κ => ℤ))
    (m : AList fun _ : κ => ℤ) : get (ms.foldl append m) k = get m k + (ms.map (get · k)).sum :=
  get_foldl append (get · k) k (fun m t => get_append m t k) ms m

theorem lookup_eq_of_positive {m : AList fun _ : κ => ℤ} (hm : Positive m) (k : κ) :
    m.lookup k = if 0 < get m k then some (get m k) else none := by
  cases h : m.lookup k with
  | none => simp [get, h]
  | some v => simp [get, h, hm k v h]

/-- **A positive map is determined by its counters.** -/
theorem lookup_eq_of_get_eq {m₁ m₂ : AList fun _ : κ => ℤ} (h₁ : Positive m₁) (h₂ : Positive m₂)
    (h : ∀ k, get m₁ k = get m₂ k) (k : κ) : m₁.lookup k = m₂.lookup k := by
  rw [lookup_eq_of_positive h₁, lookup_eq_of_positive h₂, h k]

theorem get_eq_of_lookup_eq {m₁ m₂ : AList fun _ : κ => ℤ} (h : ∀ k, m₁.lookup k = m₂.lookup k) :
    get m₁ = get m₂ :=
  funext fun k => by rw [get, get, h k]

theorem length_eq_of_lookup_eq {m₁ m₂ : AList fun _ : κ => ℤ} (h : ∀ k, m₁.lookup k = m₂.lookup k) :
    m₁.entries.length = m₂.entries.length := by
  refine (List.lookup_ext m₁.nodupKeys m₂.nodupKeys fun k v => ?_).length_eq
  change v ∈ m₁.lookup k ↔ v ∈ m₂.lookup k
  rw [h k]

theorem Positive.empty : Positive (∅ : AList fun _ : κ => ℤ) := by
  intro k v h
  simp at h

theorem Positive.add {m : AList fun _ : κ => ℤ} (hm : Positive m) {k : κ} {v : ℤ}
    (h : 0 ≤ get m k + v) : Positive (add m k v) := by
  intro k' v' hk'
  unfold Counter.add at hk'
  split_ifs at hk' with h0
  · by_cases hk : k' = k
    · subst hk
      simp at hk'
    · rw [AList.lookup_erase_ne hk] at hk'
      exact hm k' v' hk'
  · by_cases hk : k' = k
    · subst hk
      rw [AList.lookup_insert, Option.some.injEq] at hk'
      omega
    · rw [AList.lookup_insert_ne hk] at hk'
      exact hm k' v' hk'

theorem get_nonneg {m : AList fun _ : κ => ℤ} (hm : Positive m) (k : κ) : 0 ≤ get m k := by
  cases h : m.lookup k with
  | none => simp [get, h]
  | some v =>
      have := hm k v h
      simp only [get, h, Option.getD_some]
      omega

theorem Positive.append {m t : AList fun _ : κ => ℤ} (hm : Positive m) (ht : Positive t) :
    Positive (append m t) := by
  intro k v hk
  unfold Counter.append at hk
  rw [lookup_foldl_insert k t.entries m t.nodupKeys] at hk
  split_ifs at hk with hkt
  · obtain ⟨w, hw⟩ := Option.isSome_iff_exists.mp (AList.lookup_isSome.mpr hkt)
    have hw' : t.entries.dlookup k = some w := hw
    rw [hw', Option.getD_some, Option.some.injEq] at hk
    have := get_nonneg hm k
    have := ht k w hw
    omega
  · exact hm k v hk

theorem Positive.foldl {α : Type} (upd : (AList fun _ : κ => ℤ) → α → AList fun _ : κ => ℤ)
    {l : List α} (h : ∀ a ∈ l, ∀ m, Positive m → Positive (upd m a))
    {m : AList fun _ : κ => ℤ} (hm : Positive m) : Positive (l.foldl upd m) := by
  induction l generalizing m with
  | nil => exact hm
  | cons a l ih =>
      exact ih (fun a' ha' => h a' (List.mem_cons_of_mem _ ha')) (h a List.mem_cons_self m hm)

theorem Positive.foldl_append {ms : List (AList fun _ : κ => ℤ)} (hms : ∀ t ∈ ms, Positive t)
    {m : AList fun _ : κ => ℤ} (hm : Positive m) : Positive (ms.foldl Counter.append m) :=
  Positive.foldl _ (fun t ht _ hm' => hm'.append (hms t ht)) hm

end Counter
