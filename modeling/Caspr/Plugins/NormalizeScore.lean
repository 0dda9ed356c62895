import Caspr.Lib.Go

/-! # Normalizing scores (plugins/helper/normalize_score.go)

`DefaultNormalizeScore(maxPriority, reverse, scores)` brings the scores of the nodes into
`[0, maxPriority]`: every score times `maxPriority`, divided by the largest score, and taken
from `maxPriority` when `reverse` is set.  When no score is positive, every node gets
`maxPriority` with `reverse` and keeps its score without.

On scores at least zero, whose products with `maxPriority` stay in `int64`
(`DefaultNormalizeScore_spec`):

* every normalized score is in `[0, maxPriority]`;
* the order of the nodes by score is kept, or turned round with `reverse`;
* the nodes with the largest score get `maxPriority`, or `0` with `reverse` when it is positive.

*Modelling.*  A `NodeScoreList` is the list of its scores: the function neither reads nor
changes the names.  It always returns a nil status, so it returns the list. -/

namespace Caspr

namespace helper

open Go

/-- The first loop of `DefaultNormalizeScore`: the largest score, `0` when none is positive. -/
def maxCountOf (scores : List Int64) : Int64 :=
  scores.foldl (fun maxCount score => if score > maxCount then score else maxCount) 0

/-- The second loop of `DefaultNormalizeScore` on one score, for the largest score `maxCount`. -/
def normalizedScore (maxPriority : Int64) (reverse : Bool) (maxCount score : Int64) : Int64 :=
  let score := maxPriority * score / maxCount
  if reverse then maxPriority - score else score

/-- `DefaultNormalizeScore(maxPriority, reverse, scores)`: the scores it leaves. -/
def DefaultNormalizeScore (maxPriority : Int64) (reverse : Bool) (scores : List Int64) :
    List Int64 :=
  let maxCount := maxCountOf scores
  if maxCount = 0 then
    if reverse then scores.map fun _ => maxPriority else scores
  else scores.map (normalizedScore maxPriority reverse maxCount)

/-! ### The largest score -/

/-- The loop keeps the larger of its accumulator and every score it sees, and ends on one of
them. -/
theorem foldl_max_spec (l : List Int64) (acc : Int64) :
    let m := l.foldl (fun maxCount score => if score > maxCount then score else maxCount) acc
    acc.toInt ≤ m.toInt ∧ (∀ s ∈ l, s.toInt ≤ m.toInt) ∧ (m = acc ∨ m ∈ l) := by
  induction l generalizing acc with
  | nil => simp
  | cons x l ih =>
      obtain ⟨hacc, hall, hmem⟩ := ih (if x > acc then x else acc)
      simp only [List.foldl_cons]
      have hx : acc.toInt ≤ (if x > acc then x else acc).toInt ∧
          x.toInt ≤ (if x > acc then x else acc).toInt := by
        split_ifs with h
        · rw [gt_iff_lt, Int64.lt_iff_toInt_lt] at h
          omega
        · rw [gt_iff_lt, Int64.lt_iff_toInt_lt] at h
          omega
      refine ⟨by omega, ?_, ?_⟩
      · intro s hs
        rcases List.mem_cons.mp hs with rfl | hs
        · omega
        · exact hall s hs
      · rcases hmem with heq | hin
        · rw [heq]
          split_ifs
          · exact .inr List.mem_cons_self
          · exact .inl rfl
        · exact .inr (List.mem_cons_of_mem x hin)

theorem maxCountOf_nonneg (scores : List Int64) : 0 ≤ (maxCountOf scores).toInt :=
  (foldl_max_spec scores 0).1

theorem le_maxCountOf {scores : List Int64} {s : Int64} (hs : s ∈ scores) :
    s.toInt ≤ (maxCountOf scores).toInt :=
  (foldl_max_spec scores 0).2.1 s hs

theorem maxCountOf_mem (scores : List Int64) : maxCountOf scores = 0 ∨ maxCountOf scores ∈ scores :=
  (foldl_max_spec scores 0).2.2

/-! ### One score -/

section normalized

variable {maxPriority maxCount s : Int64}

theorem scaled_toInt (hs : 0 ≤ s.toInt) (hc : 0 < maxCount.toInt)
    (hfit : maxPriority.toInt * s.toInt < 2 ^ 63) (hmp : 0 ≤ maxPriority.toInt) :
    (maxPriority * s / maxCount).toInt = (maxPriority.toInt * s.toInt).tdiv maxCount.toInt := by
  have hmul : (maxPriority * s).toInt = maxPriority.toInt * s.toInt :=
    int64_toInt_mul ⟨by have := Int.mul_nonneg hmp hs; omega, hfit⟩
  rw [Int64.toInt_div_of_ne_right _ _ (int64_ne_neg_one (by omega)), hmul]

theorem scaled_mem (hs : 0 ≤ s.toInt) (hsc : s.toInt ≤ maxCount.toInt) (hc : 0 < maxCount.toInt)
    (hmp : 0 ≤ maxPriority.toInt) :
    0 ≤ (maxPriority.toInt * s.toInt).tdiv maxCount.toInt ∧
      (maxPriority.toInt * s.toInt).tdiv maxCount.toInt ≤ maxPriority.toInt := by
  constructor
  · exact Int.tdiv_nonneg (Int.mul_nonneg hmp hs) (by omega)
  · exact tdiv_le_of_le_mul hc hmp (by
      rw [Int.mul_comm maxCount.toInt]
      exact Int.mul_le_mul_of_nonneg_left hsc hmp)

theorem scaled_mono {s' : Int64} (hs : 0 ≤ s.toInt) (hss' : s.toInt ≤ s'.toInt)
    (hc : 0 < maxCount.toInt) (hmp : 0 ≤ maxPriority.toInt) :
    (maxPriority.toInt * s.toInt).tdiv maxCount.toInt ≤
      (maxPriority.toInt * s'.toInt).tdiv maxCount.toInt := by
  have h0 : 0 ≤ maxPriority.toInt * s.toInt := Int.mul_nonneg hmp hs
  have h1 : maxPriority.toInt * s.toInt ≤ maxPriority.toInt * s'.toInt :=
    Int.mul_le_mul_of_nonneg_left hss' hmp
  rw [Int.tdiv_eq_ediv_of_nonneg h0, Int.tdiv_eq_ediv_of_nonneg (by omega)]
  exact Int.ediv_le_ediv (by omega) h1

theorem normalizedScore_toInt (reverse : Bool) (hs : 0 ≤ s.toInt) (hsc : s.toInt ≤ maxCount.toInt)
    (hc : 0 < maxCount.toInt) (hfit : maxPriority.toInt * maxCount.toInt < 2 ^ 63)
    (hmp : 0 ≤ maxPriority.toInt) :
    (normalizedScore maxPriority reverse maxCount s).toInt =
      if reverse then maxPriority.toInt - (maxPriority.toInt * s.toInt).tdiv maxCount.toInt
      else (maxPriority.toInt * s.toInt).tdiv maxCount.toInt := by
  have hfit' : maxPriority.toInt * s.toInt < 2 ^ 63 :=
    lt_of_le_of_lt (Int.mul_le_mul_of_nonneg_left hsc hmp) hfit
  have hq := scaled_toInt hs hc hfit' hmp
  have hmem := scaled_mem hs hsc hc hmp
  unfold normalizedScore
  cases reverse with
  | false => exact hq
  | true =>
      simp only [if_true]
      rw [int64_toInt_sub (by rw [hq]; unfold FitsInt64; have := Int64.toInt_lt maxPriority; omega), hq]

end normalized

/-! ### The whole list -/

/-- What `DefaultNormalizeScore` needs of the scores: none negative, and `maxPriority` times
each within `int64`. -/
def ScoresFit (maxPriority : Int64) (scores : List Int64) : Prop :=
  0 ≤ maxPriority.toInt ∧ ∀ s ∈ scores, 0 ≤ s.toInt ∧ maxPriority.toInt * s.toInt < 2 ^ 63

theorem eq_zero_of_maxCountOf {scores : List Int64} (h0 : ∀ s ∈ scores, 0 ≤ s.toInt)
    (hm : maxCountOf scores = 0) {s : Int64} (hs : s ∈ scores) : s.toInt = 0 := by
  have hle := le_maxCountOf hs
  rw [hm] at hle
  have := h0 s hs
  simp at hle
  omega

theorem maxCountOf_fit {maxPriority : Int64} {scores : List Int64} (h : ScoresFit maxPriority scores)
    (hm : maxCountOf scores ≠ 0) : maxPriority.toInt * (maxCountOf scores).toInt < 2 ^ 63 :=
  ((maxCountOf_mem scores).resolve_left hm |> fun hmem => (h.2 _ hmem).2)

theorem maxCountOf_pos {scores : List Int64} (hm : maxCountOf scores ≠ 0) :
    0 < (maxCountOf scores).toInt := by
  have := maxCountOf_nonneg scores
  have hne : (maxCountOf scores).toInt ≠ 0 := fun h => hm (int64_eq_zero_iff.mpr h)
  omega

/-- The function `DefaultNormalizeScore` applies to every score, for the largest score
`maxCount`. -/
def normalizeWith (maxPriority : Int64) (reverse : Bool) (maxCount : Int64) : Int64 → Int64 :=
  if maxCount = 0 then (if reverse then fun _ => maxPriority else id)
  else normalizedScore maxPriority reverse maxCount

theorem DefaultNormalizeScore_eq_map (maxPriority : Int64) (reverse : Bool) (scores : List Int64) :
    DefaultNormalizeScore maxPriority reverse scores =
      scores.map (normalizeWith maxPriority reverse (maxCountOf scores)) := by
  by_cases hm : maxCountOf scores = 0 <;> cases reverse <;>
    simp [DefaultNormalizeScore, normalizeWith, hm]

section list

variable {maxPriority : Int64} {scores : List Int64} (h : ScoresFit maxPriority scores)
include h

theorem normalizeWith_toInt (reverse : Bool) {s : Int64} (hs : s ∈ scores) :
    (normalizeWith maxPriority reverse (maxCountOf scores) s).toInt =
      if maxCountOf scores = 0 then (if reverse then maxPriority.toInt else 0)
      else if reverse then
        maxPriority.toInt - (maxPriority.toInt * s.toInt).tdiv (maxCountOf scores).toInt
      else (maxPriority.toInt * s.toInt).tdiv (maxCountOf scores).toInt := by
  unfold normalizeWith
  by_cases hm : maxCountOf scores = 0
  · have hz := eq_zero_of_maxCountOf (fun s hs => (h.2 s hs).1) hm hs
    cases reverse <;> simp [hm, hz]
  · simp only [hm, if_false]
    exact normalizedScore_toInt reverse (h.2 s hs).1 (le_maxCountOf hs) (maxCountOf_pos hm)
      (maxCountOf_fit h hm) h.1

theorem normalizeWith_mem (reverse : Bool) {s : Int64} (hs : s ∈ scores) :
    0 ≤ (normalizeWith maxPriority reverse (maxCountOf scores) s).toInt ∧
      (normalizeWith maxPriority reverse (maxCountOf scores) s).toInt ≤ maxPriority.toInt := by
  rw [normalizeWith_toInt h reverse hs]
  have hmp := h.1
  by_cases hm : maxCountOf scores = 0
  · cases reverse <;> simp [hm, hmp]
  · have := scaled_mem (h.2 s hs).1 (le_maxCountOf hs) (maxCountOf_pos hm) hmp
    cases reverse <;> simp [hm] <;> omega

theorem normalizeWith_mono (reverse : Bool) {s s' : Int64} (hs : s ∈ scores) (hs' : s' ∈ scores)
    (hss' : s.toInt ≤ s'.toInt) :
    if reverse then
      (normalizeWith maxPriority reverse (maxCountOf scores) s').toInt ≤
        (normalizeWith maxPriority reverse (maxCountOf scores) s).toInt
    else
      (normalizeWith maxPriority reverse (maxCountOf scores) s).toInt ≤
        (normalizeWith maxPriority reverse (maxCountOf scores) s').toInt := by
  rw [normalizeWith_toInt h reverse hs, normalizeWith_toInt h reverse hs']
  by_cases hm : maxCountOf scores = 0
  · cases reverse <;> simp [hm]
  · have := scaled_mono (h.2 s hs).1 hss' (maxCountOf_pos hm) h.1
    cases reverse <;> simp [hm] <;> omega

end list

/-- **`DefaultNormalizeScore` keeps the scores in range and in order**: it applies to every score
one function, which takes it into `[0, maxPriority]`, keeps the order of two scores (turns it
round with `reverse`), and gives the largest score `maxPriority` (`0` with `reverse`) when it
is positive, and a score of `0` `maxPriority` with `reverse`. -/
theorem DefaultNormalizeScore_spec {maxPriority : Int64} (reverse : Bool) {scores : List Int64}
    (h : ScoresFit maxPriority scores) :
    ∃ f : Int64 → Int64, DefaultNormalizeScore maxPriority reverse scores = scores.map f ∧
      (∀ s ∈ scores, 0 ≤ (f s).toInt ∧ (f s).toInt ≤ maxPriority.toInt) ∧
      (∀ s ∈ scores, ∀ s' ∈ scores, s.toInt ≤ s'.toInt →
        if reverse then (f s').toInt ≤ (f s).toInt else (f s).toInt ≤ (f s').toInt) ∧
      (∀ s ∈ scores, s = maxCountOf scores → 0 < s.toInt →
        (f s).toInt = if reverse then 0 else maxPriority.toInt) ∧
      (reverse → ∀ s ∈ scores, s.toInt = 0 → (f s).toInt = maxPriority.toInt) := by
  refine ⟨normalizeWith maxPriority reverse (maxCountOf scores),
    DefaultNormalizeScore_eq_map maxPriority reverse scores,
    fun s hs => normalizeWith_mem h reverse hs,
    fun s hs s' hs' hss' => normalizeWith_mono h reverse hs hs' hss', ?_, ?_⟩
  · intro s hs hmax hpos
    have hm : maxCountOf scores ≠ 0 := by
      intro h0
      rw [← hmax, int64_eq_zero_iff] at h0
      omega
    rw [normalizeWith_toInt h reverse hs, if_neg hm, ← hmax]
    have hq : (maxPriority.toInt * s.toInt).tdiv s.toInt = maxPriority.toInt :=
      Int.mul_tdiv_cancel _ (by omega)
    cases reverse <;> simp [hq]
  · intro hrev s hs hs0
    subst hrev
    rw [normalizeWith_toInt h true hs]
    simp [hs0]

end helper

end Caspr
