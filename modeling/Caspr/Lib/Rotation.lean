import Mathlib.Data.Int.CardIntervalMod
import Mathlib.Data.List.Nodup

/-! # Reading a list round from a start index

`window l h s k` is `l[(s+i) % len(l)]` for `i < k`: the `k` elements of a non-empty list `l`
read from index `s` on, going round to the front.

* Reading `k₁` elements and then `k₂` more from the index where the first read stopped is
  reading `k₁ + k₂` elements (`window_add`): a run of reads, each resuming where the previous
  one stopped, reads one long window.
* Within one round the elements read are distinct (`nodup_window`).
* A window of `L` elements meets each position `L / n` times or once more, `n` the length of
  the list (`count_window`), so round-robin reads are fair (`count_window_floor_or_ceil`). -/

namespace Rotation

variable {α : Type}

/-- `l[(s+i) % len(l)]` for `i < k`. -/
def window (l : List α) (h : l ≠ []) (s k : ℕ) : List α :=
  (List.range k).map fun i => l.get ⟨(s + i) % l.length, Nat.mod_lt _ (List.length_pos_iff.mpr h)⟩

variable (l : List α) (h : l ≠ [])

@[simp] theorem length_window (s k : ℕ) : (window l h s k).length = k := by
  simp [window]

theorem getElem_window (s k i : ℕ) (hi : i < (window l h s k).length) :
    (window l h s k)[i] =
      l.get ⟨(s + i) % l.length, Nat.mod_lt _ (List.length_pos_iff.mpr h)⟩ := by
  simp [window]

theorem getElem?_window (s k i : ℕ) (hi : i < k) :
    (window l h s k)[i]? = l[(s + i) % l.length]? := by
  have hmod : (s + i) % l.length < l.length := Nat.mod_lt _ (List.length_pos_iff.mpr h)
  rw [List.getElem?_eq_getElem (by simpa using hi), getElem_window, List.getElem?_eq_getElem hmod]
  rfl

theorem window_succ (s k : ℕ) :
    window l h s (k + 1) =
      window l h s k ++ [l.get ⟨(s + k) % l.length, Nat.mod_lt _ (List.length_pos_iff.mpr h)⟩] := by
  simp [window, List.range_succ]

/-- **Reads that resume where the previous one stopped read one window.** -/
theorem window_add (s k₁ k₂ : ℕ) :
    window l h s (k₁ + k₂) = window l h s k₁ ++ window l h ((s + k₁) % l.length) k₂ := by
  unfold window
  rw [List.range_add, List.map_append, List.map_map]
  congr 1
  apply List.map_congr_left
  intro i _
  simp only [Function.comp_apply, Nat.mod_add_mod, Nat.add_assoc]

theorem mod_inj_of_lt {n s i j : ℕ} (hi : i < n) (hj : j < n) (h : (s + i) % n = (s + j) % n) :
    i = j := by
  have hmod : i ≡ j [MOD n] := Nat.ModEq.add_left_cancel' s h
  unfold Nat.ModEq at hmod
  rwa [Nat.mod_eq_of_lt hi, Nat.mod_eq_of_lt hj] at hmod

/-- **Within one round, a window of a list of distinct elements has distinct elements.** -/
theorem nodup_window (hl : l.Nodup) (s : ℕ) {k : ℕ} (hk : k ≤ l.length) :
    (window l h s k).Nodup := by
  refine List.Nodup.map_on (fun i hi j hj hij => ?_) List.nodup_range
  have hpos : (s + i) % l.length = (s + j) % l.length := Fin.mk.inj_iff.mp (hl.get_inj_iff.mp hij)
  exact mod_inj_of_lt (by simp at hi; omega) (by simp at hj; omega) hpos

theorem mod_eq_iff_modEq {n s m j : ℕ} (hm : m < n) :
    (s + j) % n = m ↔ j ≡ m + (n - s % n) [MOD n] := by
  have hs : s + (m + (n - s % n)) = m + n * (s / n + 1) := by
    have hdiv := Nat.mod_add_div s n
    have hlt : s % n < n := Nat.mod_lt _ (by omega)
    rw [Nat.mul_add, Nat.mul_one]
    generalize s % n = r at *
    generalize n * (s / n) = q at *
    omega
  have hv : s + (m + (n - s % n)) ≡ m [MOD n] := by
    unfold Nat.ModEq
    rw [hs, Nat.add_mul_mod_self_left]
  have hm' : m % n = m := Nat.mod_eq_of_lt hm
  constructor
  · intro hj
    have hsj : s + j ≡ m [MOD n] := hj.trans hm'.symm
    exact Nat.ModEq.add_left_cancel' s (hsj.trans hv.symm)
  · intro hj
    have hsj : s + j ≡ m [MOD n] := (Nat.ModEq.add_left s hj).trans hv
    exact Eq.trans hsj hm'

/-- **How often a window meets a position**: the number of `j < L` in the class of the
position modulo the length. -/
theorem count_window [BEq α] [LawfulBEq α] (hl : l.Nodup) (s L : ℕ) {m : ℕ} (hm : m < l.length) :
    (window l h s L).count (l.get ⟨m, hm⟩) =
      L / l.length + if (m + (l.length - s % l.length)) % l.length < L % l.length then 1 else 0 := by
  rw [← Nat.count_modEq_card L (List.length_pos_iff.mpr h)]
  induction L with
  | zero => simp [window]
  | succ L ih =>
      rw [window_succ, List.count_append, ih, Nat.count_succ]
      congr 1
      have hget : (l.get ⟨(s + L) % l.length, Nat.mod_lt _ (List.length_pos_iff.mpr h)⟩ ==
          l.get ⟨m, hm⟩) = decide ((s + L) % l.length = m) := by
        rw [Bool.eq_iff_iff, beq_iff_eq, hl.get_inj_iff, Fin.mk.injEq, decide_eq_true_iff]
      rw [List.count_singleton, hget]
      by_cases hL : (s + L) % l.length = m
      · rw [if_pos ((mod_eq_iff_modEq hm).mp hL)]
        simp [hL]
      · rw [if_neg (mt (mod_eq_iff_modEq hm).mpr hL)]
        simp [hL]

theorem ceil_div_eq_succ {L n : ℕ} (hn : 0 < n) (hL : 0 < L % n) :
    (L + n - 1) / n = L / n + 1 := by
  have hdiv := Nat.div_add_mod L n
  have hlt : L % n < n := Nat.mod_lt _ hn
  apply Nat.div_eq_of_lt_le
  · rw [Nat.add_mul, Nat.one_mul, Nat.mul_comm (L / n) n]
    generalize n * (L / n) = q at *
    omega
  · rw [Nat.add_mul, Nat.add_mul, Nat.one_mul, Nat.mul_comm (L / n) n]
    generalize n * (L / n) = q at *
    omega

/-- **Round-robin reads are fair**: a window of `L` elements of a list of `n` distinct elements
holds each of them `⌊L / n⌋` or `⌈L / n⌉` times. -/
theorem count_window_floor_or_ceil [BEq α] [LawfulBEq α] (hl : l.Nodup) (s L : ℕ) {x : α}
    (hx : x ∈ l) :
    (window l h s L).count x = L / l.length ∨ (window l h s L).count x = (L + l.length - 1) / l.length := by
  obtain ⟨⟨m, hm⟩, rfl⟩ := List.get_of_mem hx
  rw [count_window l h hl s L hm]
  split_ifs with hlt
  · exact Or.inr (ceil_div_eq_succ (List.length_pos_iff.mpr h) (by omega)).symm
  · exact Or.inl (Nat.add_zero _)

end Rotation
