import Mathlib.Data.List.Perm.Basic
import Mathlib.Algebra.GroupWithZero.Nat

/-! # Round-robin interleaving of lists

Going round a list of lists and taking, at the `r`-th round, the `r`-th element of every list
that has one: `row ls r` is one round, `rows ls n` the first `n` rounds one after the other, and
`roundRobin ls` all of them, up to the length of the longest list (`maxLength`).

The first `n` rounds take the first `n` elements of each list (`rows_cons_perm`), so they are
`min (length l) n` elements of each list `l` (`length_rows`), and once `n` reaches the longest
length every element of every list has been taken once: `roundRobin ls` is a permutation of
`ls.flatten` (`roundRobin_perm`).  A loop that goes round until it has taken as many elements as
the lists hold stops after `maxLength ls` rounds: before, some list still has an element left
(`exists_lt_length_of_lt_maxLength`). -/

namespace RoundRobin

open List

variable {α : Type}

/-- The `r`-th round: the `r`-th element of every list that has one, the lists in order. -/
def row (ls : List (List α)) (r : ℕ) : List α := ls.filterMap (·[r]?)

/-- The first `n` rounds, one after the other. -/
def rows (ls : List (List α)) (n : ℕ) : List α := (range n).flatMap (row ls)

/-- The length of the longest list. -/
def maxLength (ls : List (List α)) : ℕ := (ls.map length).foldr max 0

/-- The round-robin interleaving: every round up to the longest list. -/
def roundRobin (ls : List (List α)) : List α := rows ls (maxLength ls)

@[simp] theorem row_nil (r : ℕ) : row ([] : List (List α)) r = [] := rfl

@[simp] theorem row_cons (l : List α) (ls : List (List α)) (r : ℕ) :
    row (l :: ls) r = l[r]?.toList ++ row ls r := by
  unfold row
  rw [filterMap_cons]
  cases l[r]? <;> rfl

@[simp] theorem rows_zero (ls : List (List α)) : rows ls 0 = [] := rfl

theorem rows_succ (ls : List (List α)) (n : ℕ) : rows ls (n + 1) = rows ls n ++ row ls n := by
  simp [rows, range_succ]

@[simp] theorem rows_nil (n : ℕ) : rows ([] : List (List α)) n = [] := by
  rw [rows, flatMap_eq_nil_iff]
  exact fun _ _ => rfl

theorem flatMap_range_getElem? (l : List α) : ∀ n, (range n).flatMap (fun r => l[r]?.toList) = l.take n
  | 0 => rfl
  | n + 1 => by
      rw [range_succ, flatMap_append, flatMap_range_getElem? l n, take_add_one]
      simp

/-- The first `n` rounds over one more list: its first `n` elements, and the rounds over the
others, up to order. -/
theorem rows_cons_perm (l : List α) (ls : List (List α)) (n : ℕ) :
    rows (l :: ls) n ~ l.take n ++ rows ls n := by
  have hrow : row (l :: ls) = fun r => l[r]?.toList ++ row ls r := funext (row_cons l ls)
  unfold rows
  rw [hrow, ← flatMap_range_getElem? l n]
  exact (flatMap_append_perm _ _ _).symm

theorem length_rows : ∀ (ls : List (List α)) (n : ℕ),
    (rows ls n).length = (ls.map fun l => min l.length n).sum
  | [], n => by simp
  | l :: ls, n => by
      rw [(rows_cons_perm l ls n).length_eq, length_append, length_take, length_rows ls n,
        map_cons, sum_cons, Nat.min_comm]

theorem rows_perm : ∀ (ls : List (List α)) (n : ℕ), (∀ l ∈ ls, l.length ≤ n) →
    rows ls n ~ ls.flatten
  | [], _, _ => by simp
  | l :: ls, n, h => by
      have hl : l.take n = l := take_of_length_le (h l mem_cons_self)
      have hrest := rows_perm ls n fun l' hl' => h l' (mem_cons_of_mem l hl')
      rw [flatten_cons]
      calc rows (l :: ls) n ~ l.take n ++ rows ls n := rows_cons_perm l ls n
        _ = l ++ rows ls n := by rw [hl]
        _ ~ l ++ ls.flatten := hrest.append_left l

theorem le_maxLength {ls : List (List α)} {l : List α} (h : l ∈ ls) : l.length ≤ maxLength ls := by
  induction ls with
  | nil => simp at h
  | cons l' ls ih =>
      unfold maxLength
      rw [map_cons, foldr_cons]
      rcases mem_cons.mp h with rfl | h
      · omega
      · have := ih h
        unfold maxLength at this
        omega

theorem maxLength_le_sum (ls : List (List α)) : maxLength ls ≤ (ls.map length).sum := by
  induction ls with
  | nil => exact Nat.le_refl 0
  | cons l ls ih =>
      unfold maxLength at ih ⊢
      rw [map_cons, foldr_cons, sum_cons]
      omega

theorem exists_lt_length_of_lt_maxLength {ls : List (List α)} {r : ℕ} (h : r < maxLength ls) :
    ∃ l ∈ ls, r < l.length := by
  induction ls with
  | nil => simp [maxLength] at h
  | cons l ls ih =>
      unfold maxLength at h
      rw [map_cons, foldr_cons] at h
      by_cases hl : r < l.length
      · exact ⟨l, mem_cons_self, hl⟩
      · obtain ⟨l', hl', hr⟩ := ih (by unfold maxLength; omega)
        exact ⟨l', mem_cons_of_mem l hl', hr⟩

theorem length_rows_le_sum : ∀ (ls : List (List α)) (r : ℕ),
    (rows ls r).length ≤ (ls.map length).sum
  | [], _ => by simp
  | l :: ls, r => by
      have := length_rows_le_sum ls r
      rw [(rows_cons_perm l ls r).length_eq, length_append, length_take, map_cons, sum_cons]
      omega

theorem length_rows_lt_sum : ∀ {ls : List (List α)} {r : ℕ}, r < maxLength ls →
    (rows ls r).length < (ls.map length).sum
  | [], _, h => by simp [maxLength] at h
  | l :: ls, r, h => by
      have hrest := length_rows_le_sum ls r
      unfold maxLength at h
      rw [map_cons, foldr_cons] at h
      rw [(rows_cons_perm l ls r).length_eq, length_append, length_take, map_cons, sum_cons]
      by_cases hl : r < l.length
      · omega
      · have := length_rows_lt_sum (show r < maxLength ls by unfold maxLength; omega)
        omega

/-- **Every element of every list is taken once.** -/
theorem roundRobin_perm (ls : List (List α)) : roundRobin ls ~ ls.flatten :=
  rows_perm ls _ fun _ => le_maxLength

end RoundRobin
