import Mathlib.Algebra.Order.BigOperators.Group.List
import Mathlib.Algebra.BigOperators.Ring.List
import Caspr.Framework.Resource
import Caspr.Lib.Go
import Mathlib.Tactic.Linarith
import Caspr.Lib.Run
import Caspr.Lib.Interpolation

/-! # The resource-allocation scorers (least_allocated.go, most_allocated.go,
requested_to_capacity_ratio.go) and the range check of `RunScorePlugins`

`LeastAllocated` and `MostAllocated` score a node by a weighted average, over the resources of
their arguments, of a per-resource score: `(capacity - requested) * 100 / capacity` and
`requested * 100 / capacity`, all in `int64`.  `RunScorePlugins` then fails the cycle on a score
outside `[MinNodeScore, MaxNodeScore]` (`applyScoreWeights`).

* The two scorers share their loop (`resourceScorer`); with every weight in `[1, 100]`, as
  `validateResources` admits, and the per-resource scores in `[0, 100]`, the weighted average is
  in `[0, 100]` (`resourceScorer_mem`).
* The per-resource scores are in `[0, 100]` while `100 * capacity` fits in `int64`
  (`leastRequestedScore_mem`, `mostRequestedScore_mem`).  Above that the product wraps: a
  capacity in `[2^63 / 100, 2^64 / 101]` with nothing requested makes both a negative score
  (`scaledShare_wraps`), and so the whole scorer, which `RunScorePlugins` rejects
  (`resourceScorers_out_of_range`).

`RequestedToCapacityRatio` reads a per-resource utilization through a piecewise linear function
of a shape of points (`buildBrokenLinearFunction`).  On every shape `validateFunctionShape`
admits, the function never divides by zero, takes the score of each point at its utilization,
is the truncated interpolation of the two points around `p` between them, and so is monotone on
every segment and within `[0, MaxNodeScore]`; and the utilization it is read at is in
`[0, 100]` whenever `100 * capacity` fits (`buildBrokenLinearFunction_spec`). -/

namespace Caspr

namespace NodeResources

open Go StepSystem Interpolation

/-! ### Scores and weights -/

/-- `framework.MaxNodeScore`. -/
def MaxNodeScore : Int64 := 100

/-- `framework.MinNodeScore`. -/
def MinNodeScore : Int64 := 0

/-- `config.MaxCustomPriorityScore`: the largest score of a shape point. -/
def MaxCustomPriorityScore : Int64 := 10

/-- `config.ResourceSpec`. -/
structure ResourceSpec where
  Name : String
  Weight : Int64
deriving DecidableEq, Repr

/-- `defaultResourceSpec`, which the defaulting of the plugins' arguments fills in for an empty
list. -/
def defaultResourceSpec : List ResourceSpec := [⟨ResourceCPU, 1⟩, ⟨ResourceMemory, 1⟩]

/-- `validateResources`: every weight in `[1, 100]`. -/
def validateResources : List ResourceSpec → Except String Unit
  | [] => .ok ()
  | resource :: rest =>
      if resource.Weight ≤ 0 then
        .error ("resource Weight of " ++ resource.Name ++ " should be a positive value, got " ++
          toString resource.Weight)
      else if resource.Weight > 100 then
        .error ("resource Weight of " ++ resource.Name ++ " should be less than 100, got " ++
          toString resource.Weight)
      else validateResources rest

/-- `resourceToWeightMap`, in the order its `range` visits it. -/
abbrev resourceToWeightMap := List (String × Int64)

/-- `resourceToValueMap`; a resource it does not hold reads as `0`. -/
abbrev resourceToValueMap := String → Int64

/-- The map `NewLeastAllocated` and `NewMostAllocated` build: `resToWeightMap[name] = weight`
for each resource in turn, a later entry of a name replacing an earlier one. -/
def resToWeightMapOf (resources : List ResourceSpec) : resourceToWeightMap :=
  resources.foldl (fun m r => m.filter (fun e => e.1 != r.Name) ++ [(r.Name, r.Weight)]) []

/-! ### `LeastAllocated` and `MostAllocated` -/

/-- `leastRequestedScore(requested, capacity)`. -/
def leastRequestedScore (requested capacity : Int64) : Int64 :=
  if capacity = 0 then 0
  else if requested > capacity then 0
  else (capacity - requested) * MaxNodeScore / capacity

/-- `mostRequestedScore(requested, capacity)`. -/
def mostRequestedScore (requested capacity : Int64) : Int64 :=
  if capacity = 0 then 0
  else if requested > capacity then 0
  else requested * MaxNodeScore / capacity

/-- The loop both scorers run: the sum of the weighted scores of the resources and the sum of
their weights, in `int64`. -/
def weightedScores (resourceScore : Int64 → Int64 → Int64) (resToWeightMap : resourceToWeightMap)
    (requested allocable : resourceToValueMap) : Int64 × Int64 :=
  resToWeightMap.foldl (fun acc rw =>
    (acc.1 + resourceScore (requested rw.1) (allocable rw.1) * rw.2, acc.2 + rw.2)) (0, 0)

/-- The scorer `leastResourceScorer` and `mostResourceScorer` both build: `nodeScore /
weightSum`, an integer division that panics on an empty map.  The volume arguments are not
read. -/
def resourceScorer (resourceScore : Int64 → Int64 → Int64) (resToWeightMap : resourceToWeightMap)
    (requested allocable : resourceToValueMap) : Except Abort Int64 :=
  let scores := weightedScores resourceScore resToWeightMap requested allocable
  if scores.2 = 0 then .error .integerDivideByZero else .ok (scores.1 / scores.2)

/-- `leastResourceScorer(resToWeightMap)`. -/
def leastResourceScorer (resToWeightMap : resourceToWeightMap) :
    resourceToValueMap → resourceToValueMap → Except Abort Int64 :=
  resourceScorer leastRequestedScore resToWeightMap

/-- `mostResourceScorer(resToWeightMap)`. -/
def mostResourceScorer (resToWeightMap : resourceToWeightMap) :
    resourceToValueMap → resourceToValueMap → Except Abort Int64 :=
  resourceScorer mostRequestedScore resToWeightMap

/-! ### The range check of `RunScorePlugins` -/

/-- The error `RunScorePlugins` returns for a score out of range, as its status carries it. -/
def invalidScoreMessage (pluginName : String) (score : Int64) : String :=
  "applying score defaultWeights on Score plugins: plugin " ++ Quote pluginName ++
    " returns an invalid score " ++ toString score ++ ", it should in the range of [" ++
    toString MinNodeScore ++ ", " ++ toString MaxNodeScore ++ "] after normalizing"

/-- The loop of `RunScorePlugins` that applies one plugin's weight to the scores of its
`NodeScoreList` (the node names, which it does not change, are left out): a score outside
`[MinNodeScore, MaxNodeScore]` fails the cycle, the others are multiplied by the weight. -/
def applyScoreWeights (pluginName : String) (weight : Int64) :
    List Int64 → Except String (List Int64)
  | [] => .ok []
  | score :: rest =>
      if score > MaxNodeScore ∨ score < MinNodeScore then
        .error (invalidScoreMessage pluginName score)
      else (score * weight :: ·) <$> applyScoreWeights pluginName weight rest

/-- Every list holding a score out of range fails the cycle. -/
theorem applyScoreWeights_error_of_mem (pluginName : String) (weight : Int64) {s : Int64}
    (hs : s > MaxNodeScore ∨ s < MinNodeScore) :
    ∀ {l : List Int64}, s ∈ l → ∃ err, applyScoreWeights pluginName weight l = .error err
  | score :: rest, hmem => by
      unfold applyScoreWeights
      split_ifs with hbad
      · exact ⟨_, rfl⟩
      · have hrest : s ∈ rest := by
          rcases List.mem_cons.mp hmem with rfl | h
          · exact absurd hs hbad
          · exact h
        obtain ⟨err, herr⟩ := applyScoreWeights_error_of_mem pluginName weight hs hrest
        exact ⟨err, by rw [herr]; rfl⟩

theorem applyScoreWeights_ok (pluginName : String) (weight : Int64) :
    ∀ {l : List Int64}, (∀ s ∈ l, MinNodeScore ≤ s ∧ s ≤ MaxNodeScore) →
      applyScoreWeights pluginName weight l = .ok (l.map (· * weight))
  | [], _ => rfl
  | score :: rest, h => by
      have ⟨hlo, hhi⟩ := h score List.mem_cons_self
      have hbad : ¬ (score > MaxNodeScore ∨ score < MinNodeScore) := by
        simp only [gt_iff_lt, Int64.lt_iff_toInt_lt]
        rw [Int64.le_iff_toInt_le] at hlo hhi
        omega
      rw [applyScoreWeights, if_neg hbad,
        applyScoreWeights_ok pluginName weight (fun s hs => h s (List.mem_cons_of_mem _ hs))]
      rfl

/-! ### The arguments -/

theorem validateResources_eq_ok :
    ∀ {resources : List ResourceSpec}, validateResources resources = .ok () ↔
      ∀ r ∈ resources, 1 ≤ r.Weight.toInt ∧ r.Weight.toInt ≤ 100
  | [] => by simp [validateResources]
  | resource :: rest => by
      have h100 : (100 : Int64).toInt = 100 := by decide
      rw [validateResources, List.forall_mem_cons, ← validateResources_eq_ok]
      simp only [Int64.le_iff_toInt_le, Int64.lt_iff_toInt_lt, Int64.toInt_zero, h100, gt_iff_lt]
      split_ifs with hpos hbig
      · simp only [false_iff]
        omega
      · simp only [false_iff]
        omega
      · constructor
        · intro hrest
          exact ⟨⟨by omega, by omega⟩, hrest⟩
        · exact fun h => h.2

theorem validateResources_default : validateResources defaultResourceSpec = .ok () := by
  decide

/-- **The weights a validated argument list leaves in the map are in `[1, 100]`**, and a
non-empty list (every defaulted one) leaves a non-empty map. -/
theorem resToWeightMapOf_weights {resources : List ResourceSpec}
    (h : validateResources resources = .ok ()) :
    ∀ rw ∈ resToWeightMapOf resources, 1 ≤ rw.2.toInt ∧ rw.2.toInt ≤ 100 := by
  have hall := validateResources_eq_ok.mp h
  -- the invariant: the resources still to insert and the entries so far all have such weights
  have hinv := @foldl_invariant resourceToWeightMap ResourceSpec
    (fun m r => m.filter (fun e => e.1 != r.Name) ++ [(r.Name, r.Weight)])
    (fun rest m => (∀ r ∈ rest, 1 ≤ r.Weight.toInt ∧ r.Weight.toInt ≤ 100) ∧
      ∀ rw ∈ m, 1 ≤ rw.2.toInt ∧ rw.2.toInt ≤ 100)
    (by
      intro m r rest ⟨hrest, hm⟩
      refine ⟨fun r' hr' => hrest r' (List.mem_cons_of_mem _ hr'), fun rw hrw => ?_⟩
      rcases List.mem_append.mp hrw with hold | hnew
      · exact hm rw (List.mem_of_mem_filter hold)
      · rw [List.mem_singleton.mp hnew]
        exact hrest r List.mem_cons_self)
    resources [] ⟨hall, by simp⟩
  exact hinv.2

theorem resToWeightMapOf_ne_nil {resources : List ResourceSpec} (h : resources ≠ []) :
    resToWeightMapOf resources ≠ [] := by
  obtain ⟨init, r, rfl⟩ : ∃ init r, resources = init ++ [r] :=
    ⟨resources.dropLast, resources.getLast h, (List.dropLast_append_getLast h).symm⟩
  simp [resToWeightMapOf, List.foldl_append]

/-! ### Per-resource scores -/

/-- The share `x * 100 / capacity` of a part `0 ≤ x ≤ capacity` is exact while `100 * capacity`
fits; `m` is `MaxNodeScore` in the two scorers and `maxUtilization` in the ratio's. -/
theorem scaledShare_toInt {x c m : Int64} (hm : m.toInt = 100) (hx : 0 ≤ x.toInt)
    (hxc : x.toInt ≤ c.toInt) (hc : 0 < c.toInt) (hfit : 100 * c.toInt < 2 ^ 63) :
    (x * m / c).toInt = (x.toInt * 100).tdiv c.toInt := by
  have hmul : (x * m).toInt = x.toInt * 100 := by
    rw [int64_toInt_mul (by rw [hm]; unfold FitsInt64; omega), hm]
  have hne : c ≠ -1 := int64_ne_neg_one (by omega)
  rw [Int64.toInt_div_of_ne_right _ _ hne, hmul]

theorem scaledShare_mem {x c : ℤ} (hx : 0 ≤ x) (hxc : x ≤ c) (hc : 0 < c) :
    0 ≤ (x * 100).tdiv c ∧ (x * 100).tdiv c ≤ 100 :=
  ⟨Int.tdiv_nonneg (by omega) (by omega), tdiv_le_of_le_mul hc (by omega) (by omega)⟩

theorem leastRequestedScore_mem {requested capacity : Int64} (hr : 0 ≤ requested.toInt)
    (hc : 100 * capacity.toInt < 2 ^ 63) :
    0 ≤ (leastRequestedScore requested capacity).toInt ∧
      (leastRequestedScore requested capacity).toInt ≤ MaxNodeScore.toInt := by
  have h100 : MaxNodeScore.toInt = 100 := by decide
  unfold leastRequestedScore
  split_ifs with h0 hgt
  · simp [h100]
  · simp [h100]
  · rw [gt_iff_lt, Int64.lt_iff_toInt_lt] at hgt
    rw [← Int64.toInt_inj, Int64.toInt_zero] at h0
    have hsub : (capacity - requested).toInt = capacity.toInt - requested.toInt :=
      int64_toInt_sub ⟨by omega, by have := Int64.toInt_lt capacity; omega⟩
    rw [scaledShare_toInt h100 (by omega) (by omega) (by omega) hc, hsub, h100]
    exact scaledShare_mem (by omega) (by omega) (by omega)

theorem mostRequestedScore_mem {requested capacity : Int64} (hr : 0 ≤ requested.toInt)
    (hc : 100 * capacity.toInt < 2 ^ 63) :
    0 ≤ (mostRequestedScore requested capacity).toInt ∧
      (mostRequestedScore requested capacity).toInt ≤ MaxNodeScore.toInt := by
  have h100 : MaxNodeScore.toInt = 100 := by decide
  unfold mostRequestedScore
  split_ifs with h0 hgt
  · simp [h100]
  · simp [h100]
  · rw [gt_iff_lt, Int64.lt_iff_toInt_lt] at hgt
    rw [← Int64.toInt_inj, Int64.toInt_zero] at h0
    rw [scaledShare_toInt h100 hr (by omega) (by omega) hc, h100]
    exact scaledShare_mem hr (by omega) (by omega)

/-- **The share of a whole capacity wraps** once `100 * capacity` passes `2^63`: the product
wraps to `100 * capacity - 2^64`, and below `2^64 / 101` its quotient by `capacity` is a score in
`[-100, 0)`. -/
theorem scaledShare_wraps {c : Int64} (hc : 2 ^ 63 ≤ 100 * c.toInt)
    (hc' : 101 * c.toInt ≤ 2 ^ 64) :
    -100 ≤ (c * MaxNodeScore / c).toInt ∧ (c * MaxNodeScore / c).toInt < 0 := by
  have h100 : MaxNodeScore.toInt = 100 := by decide
  have hlt := Int64.toInt_lt c
  have hmul : (c * MaxNodeScore).toInt = -(2 ^ 64 - c.toInt * 100) := by
    rw [Int64.toInt_mul, h100, Int.bmod_def]
    simp only [Int.natCast_pow, Int.cast_ofNat_Int]
    split_ifs <;> omega
  have hne : c ≠ -1 := int64_ne_neg_one (by omega)
  rw [Int64.toInt_div_of_ne_right _ _ hne, hmul, Int.neg_tdiv]
  -- the wrapped product is at least `capacity`, and at most `100 * capacity`, below zero
  have hq : 1 ≤ (2 ^ 64 - c.toInt * 100).tdiv c.toInt :=
    Int.le_tdiv_of_mul_le (by omega) (by omega)
  have hq' : (2 ^ 64 - c.toInt * 100).tdiv c.toInt ≤ 100 :=
    tdiv_le_of_le_mul (by omega) (by omega) (by omega)
  omega

/-! ### The weighted average -/

section Average

variable (resourceScore : Int64 → Int64 → Int64) (resToWeightMap : resourceToWeightMap)
  (requested allocable : resourceToValueMap)

/-- The score of the resource of an entry of the map. -/
abbrev scoreOf (rw : String × Int64) : Int64 := resourceScore (requested rw.1) (allocable rw.1)

/-- What the average needs of every entry: a score of at most `100` in size and a weight in
`[1, 100]`, as `validateResources` admits. -/
def EntriesBounded : Prop :=
  ∀ rw ∈ resToWeightMap, -100 ≤ (scoreOf resourceScore requested allocable rw).toInt ∧
    (scoreOf resourceScore requested allocable rw).toInt ≤ 100 ∧ 1 ≤ rw.2.toInt ∧ rw.2.toInt ≤ 100

variable {resourceScore resToWeightMap requested allocable}

theorem entriesBounded_of_mem (hw : ∀ rw ∈ resToWeightMap, 1 ≤ rw.2.toInt ∧ rw.2.toInt ≤ 100)
    (hs : ∀ rw ∈ resToWeightMap, 0 ≤ (scoreOf resourceScore requested allocable rw).toInt ∧
      (scoreOf resourceScore requested allocable rw).toInt ≤ MaxNodeScore.toInt) :
    EntriesBounded resourceScore resToWeightMap requested allocable := fun rw hrw => by
  have h100 : MaxNodeScore.toInt = 100 := by decide
  have := hs rw hrw
  exact ⟨by omega, by omega, hw rw hrw⟩

theorem weightedTerm_toInt {rw : String × Int64}
    (h : -100 ≤ (scoreOf resourceScore requested allocable rw).toInt ∧
      (scoreOf resourceScore requested allocable rw).toInt ≤ 100 ∧ 1 ≤ rw.2.toInt ∧
      rw.2.toInt ≤ 100) :
    (scoreOf resourceScore requested allocable rw * rw.2).toInt =
      (scoreOf resourceScore requested allocable rw).toInt * rw.2.toInt := by
  obtain ⟨h1, h2, h3, h4⟩ := h
  exact int64_toInt_mul ⟨by nlinarith, by nlinarith⟩

/-- **The loop of the scorers is exact**: for a map of fewer than `2^40` entries, each bounded,
the two sums are the integer sums. -/
theorem weightedScores_toInt (hb : EntriesBounded resourceScore resToWeightMap requested allocable)
    (hlen : resToWeightMap.length < 2 ^ 40) :
    (weightedScores resourceScore resToWeightMap requested allocable).1.toInt =
        (resToWeightMap.map fun rw =>
          (scoreOf resourceScore requested allocable rw).toInt * rw.2.toInt).sum ∧
      (weightedScores resourceScore resToWeightMap requested allocable).2.toInt =
        (resToWeightMap.map fun rw => rw.2.toInt).sum := by
  have hpair := foldl_pair (fun a rw => a + scoreOf resourceScore requested allocable rw * rw.2)
    (fun a (rw : String × Int64) => a + rw.2) resToWeightMap 0 0
  unfold weightedScores
  rw [hpair]
  constructor
  · rw [int64_foldl_add_toInt _ 10000 resToWeightMap 0 (fun rw hrw => by
        rw [weightedTerm_toInt (hb rw hrw)]
        obtain ⟨h1, h2, h3, h4⟩ := hb rw hrw
        exact ⟨by nlinarith, by nlinarith⟩) (by simp; omega) (by simp; omega)]
    simp only [Int64.toInt_zero, Int.zero_add]
    exact congrArg List.sum (List.map_congr_left fun rw hrw => weightedTerm_toInt (hb rw hrw))
  · rw [int64_foldl_add_toInt _ 100 resToWeightMap 0 (fun rw hrw => by
        obtain ⟨-, -, h3, h4⟩ := hb rw hrw
        exact ⟨by omega, h4⟩) (by simp; omega) (by simp; omega)]
    simp

theorem weightSum_pos (hb : EntriesBounded resourceScore resToWeightMap requested allocable)
    (hne : resToWeightMap ≠ []) : 1 ≤ (resToWeightMap.map fun rw => rw.2.toInt).sum := by
  obtain ⟨rw, rest, rfl⟩ := List.exists_cons_of_ne_nil hne
  have hfirst := (hb rw List.mem_cons_self).2.2.1
  have hrest : 0 ≤ (rest.map fun rw => rw.2.toInt).sum :=
    List.sum_nonneg fun w hw => by
      obtain ⟨rw', hrw', rfl⟩ := List.mem_map.mp hw
      exact le_trans (by decide) (hb rw' (List.mem_cons_of_mem _ hrw')).2.2.1
  rw [List.map_cons, List.sum_cons]
  omega

/-- **The scorer returns the truncated weighted average** of the scores on a non-empty map. -/
theorem resourceScorer_toInt (hb : EntriesBounded resourceScore resToWeightMap requested allocable)
    (hne : resToWeightMap ≠ []) (hlen : resToWeightMap.length < 2 ^ 40) :
    ∃ v, resourceScorer resourceScore resToWeightMap requested allocable = .ok v ∧
      v.toInt = ((resToWeightMap.map fun rw =>
          (scoreOf resourceScore requested allocable rw).toInt * rw.2.toInt).sum).tdiv
        (resToWeightMap.map fun rw => rw.2.toInt).sum := by
  obtain ⟨h1, h2⟩ := weightedScores_toInt hb hlen
  have hpos := weightSum_pos hb hne
  have hne0 : (weightedScores resourceScore resToWeightMap requested allocable).2 ≠ 0 := by
    rw [ne_eq, ← Int64.toInt_inj, h2, Int64.toInt_zero]
    omega
  have hne1 : (weightedScores resourceScore resToWeightMap requested allocable).2 ≠ -1 :=
    int64_ne_neg_one (by omega)
  refine ⟨_, by rw [resourceScorer, if_neg hne0], ?_⟩
  rw [Int64.toInt_div_of_ne_right _ _ hne1, h1, h2]

/-- **Scores in `[0, 100]` average to a score in `[0, 100]`.** -/
theorem resourceScorer_mem (hb : EntriesBounded resourceScore resToWeightMap requested allocable)
    (hne : resToWeightMap ≠ []) (hlen : resToWeightMap.length < 2 ^ 40)
    (hs : ∀ rw ∈ resToWeightMap, 0 ≤ (scoreOf resourceScore requested allocable rw).toInt) :
    ∃ v, resourceScorer resourceScore resToWeightMap requested allocable = .ok v ∧
      0 ≤ v.toInt ∧ v.toInt ≤ MaxNodeScore.toInt := by
  obtain ⟨v, hv, hval⟩ := resourceScorer_toInt hb hne hlen
  have hpos := weightSum_pos hb hne
  have hlo : 0 ≤ (resToWeightMap.map fun rw =>
      (scoreOf resourceScore requested allocable rw).toInt * rw.2.toInt).sum :=
    List.sum_nonneg fun t ht => by
      obtain ⟨rw, hrw, rfl⟩ := List.mem_map.mp ht
      exact Int.mul_nonneg (hs rw hrw) (by have := (hb rw hrw).2.2.1; omega)
  have hhi : (resToWeightMap.map fun rw =>
        (scoreOf resourceScore requested allocable rw).toInt * rw.2.toInt).sum ≤
      100 * (resToWeightMap.map fun rw => rw.2.toInt).sum := by
    rw [← List.sum_map_mul_left]
    exact List.sum_le_sum fun rw hrw => by
      obtain ⟨-, h2, h3, -⟩ := hb rw hrw
      exact Int.mul_le_mul_of_nonneg_right h2 (by omega)
  refine ⟨v, hv, ?_⟩
  rw [hval, show MaxNodeScore.toInt = 100 by decide]
  exact ⟨Int.tdiv_nonneg hlo (by omega), tdiv_le_of_le_mul (by omega) (by omega) (by omega)⟩

theorem resourceScorer_const (hb : EntriesBounded resourceScore resToWeightMap requested allocable)
    (hne : resToWeightMap ≠ []) (hlen : resToWeightMap.length < 2 ^ 40) {s : Int64}
    (hs : ∀ rw ∈ resToWeightMap, scoreOf resourceScore requested allocable rw = s) :
    resourceScorer resourceScore resToWeightMap requested allocable = .ok s := by
  obtain ⟨v, hv, hval⟩ := resourceScorer_toInt hb hne hlen
  have hpos := weightSum_pos hb hne
  have hsum : (resToWeightMap.map fun rw =>
        (scoreOf resourceScore requested allocable rw).toInt * rw.2.toInt).sum =
      s.toInt * (resToWeightMap.map fun rw => rw.2.toInt).sum := by
    rw [← List.sum_map_mul_left]
    exact congrArg List.sum (List.map_congr_left fun rw hrw => by rw [hs rw hrw])
  rw [hsum, Int.mul_tdiv_cancel _ (by omega)] at hval
  rw [hv, Int64.toInt_inj.mp hval]

end Average

/-- **Both scorers stay in range while `100 * capacity` fits**: for a map whose weights are in
`[1, 100]`, and requested and allocatable values of at least zero with `100 * allocatable` below
`2^63`, `LeastAllocated` and `MostAllocated` score in `[0, MaxNodeScore]`. -/
theorem resourceScorers_mem (resToWeightMap : resourceToWeightMap) (hne : resToWeightMap ≠ [])
    (hw : ∀ rw ∈ resToWeightMap, 1 ≤ rw.2.toInt ∧ rw.2.toInt ≤ 100)
    (hlen : resToWeightMap.length < 2 ^ 40) (requested allocable : resourceToValueMap)
    (hr : ∀ rw ∈ resToWeightMap, 0 ≤ (requested rw.1).toInt)
    (ha : ∀ rw ∈ resToWeightMap, 100 * (allocable rw.1).toInt < 2 ^ 63) :
    (∃ v, leastResourceScorer resToWeightMap requested allocable = .ok v ∧
      0 ≤ v.toInt ∧ v.toInt ≤ MaxNodeScore.toInt) ∧
    (∃ v, mostResourceScorer resToWeightMap requested allocable = .ok v ∧
      0 ≤ v.toInt ∧ v.toInt ≤ MaxNodeScore.toInt) := by
  constructor
  · have hs := fun rw hrw => leastRequestedScore_mem (hr rw hrw) (ha rw hrw)
    exact resourceScorer_mem (entriesBounded_of_mem hw hs) hne hlen fun rw hrw => (hs rw hrw).1
  · have hs := fun rw hrw => mostRequestedScore_mem (hr rw hrw) (ha rw hrw)
    exact resourceScorer_mem (entriesBounded_of_mem hw hs) hne hlen fun rw hrw => (hs rw hrw).1

/-- The map of the default resources, with half of every allocatable value requested. -/
theorem resourceScorers_mem_default :
    (∃ v, leastResourceScorer (resToWeightMapOf defaultResourceSpec) (fun _ => 2000)
        (fun _ => 4000) = .ok v ∧ 0 ≤ v.toInt ∧ v.toInt ≤ MaxNodeScore.toInt) ∧
      (∃ v, mostResourceScorer (resToWeightMapOf defaultResourceSpec) (fun _ => 2000)
        (fun _ => 4000) = .ok v ∧ 0 ≤ v.toInt ∧ v.toInt ≤ MaxNodeScore.toInt) :=
  resourceScorers_mem _ (resToWeightMapOf_ne_nil (by simp [defaultResourceSpec]))
    (resToWeightMapOf_weights validateResources_default) (by decide) _ _
    (fun _ _ => by decide) (fun _ _ => by decide)

/-- **Both scorers leave the range on a large capacity**, for every map whose weights are in
`[1, 100]`: with every resource's allocatable value a `capacity` in `[2^63 / 100, 2^64 / 101]`,
nothing requested for `LeastAllocated` and everything for `MostAllocated`, both return one
negative score, and `RunScorePlugins` fails the cycle on any list of node scores holding it. -/
theorem resourceScorers_out_of_range (resToWeightMap : resourceToWeightMap)
    (hne : resToWeightMap ≠ []) (hw : ∀ rw ∈ resToWeightMap, 1 ≤ rw.2.toInt ∧ rw.2.toInt ≤ 100)
    (hlen : resToWeightMap.length < 2 ^ 40) (capacity : Int64)
    (hc : 2 ^ 63 ≤ 100 * capacity.toInt) (hc' : 101 * capacity.toInt ≤ 2 ^ 64) :
    ∃ s : Int64, s.toInt < 0 ∧
      leastResourceScorer resToWeightMap (fun _ => 0) (fun _ => capacity) = .ok s ∧
      mostResourceScorer resToWeightMap (fun _ => capacity) (fun _ => capacity) = .ok s ∧
      ∀ (pluginName : String) (weight : Int64) (nodeScores : List Int64), s ∈ nodeScores →
        ∃ err, applyScoreWeights pluginName weight nodeScores = .error err := by
  have hne0 : capacity ≠ 0 := fun h => by rw [h, Int64.toInt_zero] at hc; omega
  have hwrap := scaledShare_wraps hc hc'
  -- both per-resource scores are the wrapped share of the whole capacity
  have hleast : leastRequestedScore 0 capacity = capacity * MaxNodeScore / capacity := by
    have hnot : ¬ (0 : Int64) > capacity := by
      rw [gt_iff_lt, Int64.lt_iff_toInt_lt, Int64.toInt_zero]
      omega
    simp [leastRequestedScore, hne0, hnot]
  have hmost : mostRequestedScore capacity capacity = capacity * MaxNodeScore / capacity := by
    simp [mostRequestedScore, hne0]
  refine ⟨capacity * MaxNodeScore / capacity, hwrap.2, ?_, ?_, ?_⟩
  · refine resourceScorer_const (fun rw hrw => ?_) hne hlen fun rw _ => hleast
    rw [scoreOf, hleast]
    exact ⟨hwrap.1, by omega, hw rw hrw⟩
  · refine resourceScorer_const (fun rw hrw => ?_) hne hlen fun rw _ => hmost
    rw [scoreOf, hmost]
    exact ⟨hwrap.1, by omega, hw rw hrw⟩
  · intro pluginName weight nodeScores hmem
    refine applyScoreWeights_error_of_mem pluginName weight (.inr ?_) hmem
    rw [Int64.lt_iff_toInt_lt, show MinNodeScore.toInt = 0 by decide]
    exact hwrap.2

theorem resourceScorers_out_of_range_cpu :
    ∃ s : Int64, s.toInt < 0 ∧
      leastResourceScorer [(ResourceCPU, 1)] (fun _ => 0) (fun _ => 92233720368547759) = .ok s ∧
      mostResourceScorer [(ResourceCPU, 1)] (fun _ => 92233720368547759)
        (fun _ => 92233720368547759) = .ok s ∧
      ∀ (pluginName : String) (weight : Int64) (nodeScores : List Int64), s ∈ nodeScores →
        ∃ err, applyScoreWeights pluginName weight nodeScores = .error err :=
  resourceScorers_out_of_range [(ResourceCPU, 1)] (by simp)
    (fun rw hrw => by rw [List.mem_singleton.mp hrw]; decide) (by decide)
    92233720368547759 (by decide) (by decide)

/-- At `100 * capacity = 2^63 + 92`, the product wraps to `92 - 2^63` and the score is `-99`. -/
example : leastResourceScorer [(ResourceCPU, 1)] (fun _ => 0) (fun _ => 92233720368547759) =
    .ok (-99) := by
  decide

/-! ### `RequestedToCapacityRatio` -/

/-- `maxUtilization`, the utilization of a full node. -/
def maxUtilization : Int64 := 100

/-- `config.UtilizationShapePoint`. -/
structure UtilizationShapePoint where
  Utilization : Int32
  Score : Int32
deriving DecidableEq, Repr

/-- `functionShapePoint`. -/
structure functionShapePoint where
  utilization : Int64
  score : Int64
deriving DecidableEq, Repr

/-- `functionShape`. -/
abbrev functionShape := List functionShapePoint

/-- The first loop of `validateFunctionShape` from the point `prev` at index `i`: each
utilization below the next. -/
def validateSorted (i : ℕ) (prev : UtilizationShapePoint) :
    List UtilizationShapePoint → Except String Unit
  | [] => .ok ()
  | point :: rest =>
      if prev.Utilization ≥ point.Utilization then
        .error ("utilization values must be sorted. Utilization[" ++ toString i ++ "]==" ++
          toString prev.Utilization ++ " >= Utilization[" ++ toString (i + 1) ++ "]==" ++
          toString point.Utilization)
      else validateSorted (i + 1) point rest

/-- The second loop of `validateFunctionShape` from index `i`: utilizations in `[0, 100]` and
scores in `[0, MaxCustomPriorityScore]`. -/
def validateRanges (i : ℕ) : List UtilizationShapePoint → Except String Unit
  | [] => .ok ()
  | point :: rest =>
      if point.Utilization < 0 then
        .error ("utilization values must not be less than 0. Utilization[" ++ toString i ++
          "]==" ++ toString point.Utilization)
      else if point.Utilization > 100 then
        .error ("utilization values must not be greater than 100. Utilization[" ++ toString i ++
          "]==" ++ toString point.Utilization)
      else if point.Score < 0 then
        .error ("score values must not be less than 0. Score[" ++ toString i ++ "]==" ++
          toString point.Score)
      else if point.Score > 10 then
        .error ("score values must not be greater than 10. Score[" ++ toString i ++ "]==" ++
          toString point.Score)
      else validateRanges (i + 1) rest

/-- `validateFunctionShape(shape)`. -/
def validateFunctionShape (shape : List UtilizationShapePoint) : Except String Unit :=
  match shape with
  | [] => .error "at least one point must be specified"
  | first :: rest => do
      validateSorted 0 first rest
      validateRanges 0 shape

/-- The shape `NewRequestedToCapacityRatio` builds: each score scaled by
`MaxNodeScore / MaxCustomPriorityScore`. -/
def functionShapeOf (shape : List UtilizationShapePoint) : functionShape :=
  shape.map fun point =>
    ⟨point.Utilization.toInt64, point.Score.toInt64 * (MaxNodeScore / MaxCustomPriorityScore)⟩

/-- The loop of `buildBrokenLinearFunction(shape)(p)` from the point after `prev`: the first
point whose utilization is at least `p` ends it, with its own score when it is the first point
and the segment from the point before otherwise; past the last point it reads
`shape[len(shape)-1]`, out of range on an empty shape. -/
def brokenLinearLoop (p : Int64) : Option functionShapePoint → functionShape → Except Abort Int64
  | none, [] => .error .indexOutOfRange
  | some last, [] => .ok last.score
  | none, point :: rest =>
      if p ≤ point.utilization then .ok point.score else brokenLinearLoop p (some point) rest
  | some prev, point :: rest =>
      if p ≤ point.utilization then
        if point.utilization - prev.utilization = 0 then .error .integerDivideByZero
        else .ok (prev.score + (point.score - prev.score) * (p - prev.utilization) /
          (point.utilization - prev.utilization))
      else brokenLinearLoop p (some point) rest

/-- `buildBrokenLinearFunction(shape)`. -/
def buildBrokenLinearFunction (shape : functionShape) (p : Int64) : Except Abort Int64 :=
  brokenLinearLoop p none shape

/-- `resourceScoringFunction` of `buildRequestedToCapacityRatioScorerFunction`: the function read
at the utilization of the resource, full when the capacity is zero or exceeded. -/
def resourceScoringFunction (shape : functionShape) (requested capacity : Int64) :
    Except Abort Int64 :=
  if capacity = 0 ∨ requested > capacity then buildBrokenLinearFunction shape maxUtilization
  else buildBrokenLinearFunction shape
    (maxUtilization - (capacity - requested) * maxUtilization / capacity)

/-- `int64(math.Round(float64(n) / float64(d)))` for `d > 0`, with the division taken as exact:
the quotient rounded half away from zero. -/
def roundQuotient (n d : Int64) : Int64 :=
  Int64.ofInt (if 0 ≤ n.toInt then (2 * n.toInt + d.toInt) / (2 * d.toInt)
    else -((-2 * n.toInt + d.toInt) / (2 * d.toInt)))

/-- The scorer `buildRequestedToCapacityRatioScorerFunction` builds: the rounded average of the
positive per-resource scores, weighted, and `0` when there is none. -/
def buildRequestedToCapacityRatioScorerFunction (shape : functionShape)
    (resToWeightMap : resourceToWeightMap) (requested allocable : resourceToValueMap) :
    Except Abort Int64 := do
  let scores ← resToWeightMap.foldlM (fun (acc : Int64 × Int64) rw => do
      let resourceScore ← resourceScoringFunction shape (requested rw.1) (allocable rw.1)
      pure (if resourceScore > 0 then (acc.1 + resourceScore * rw.2, acc.2 + rw.2) else acc))
    (0, 0)
  if scores.2 = 0 then pure 0 else pure (roundQuotient scores.1 scores.2)

/-- The weights of `NewRequestedToCapacityRatio`: a weight of `0` is replaced by `1`. -/
def ratioWeightMapOf (resources : List ResourceSpec) : resourceToWeightMap :=
  resToWeightMapOf (resources.map fun r => if r.Weight = 0 then { r with Weight := 1 } else r)

/-! ### The broken linear function -/

/-- What every shape `validateFunctionShape` admits satisfies once scaled. -/
structure ValidShape (shape : functionShape) : Prop where
  ne : shape ≠ []
  sorted : shape.Pairwise fun a b => a.utilization.toInt < b.utilization.toInt
  bounded : ∀ pt ∈ shape, 0 ≤ pt.utilization.toInt ∧ pt.utilization.toInt ≤ 100 ∧
    0 ≤ pt.score.toInt ∧ pt.score.toInt ≤ 100

/-- The segment from `a` to `b` read at `p`, in integers. -/
def segmentAt (a b : functionShapePoint) (p : Int64) : ℤ :=
  tlerp a.utilization.toInt a.score.toInt b.utilization.toInt b.score.toInt p.toInt

theorem validateSorted_pairwise :
    ∀ {i : ℕ} {prev : UtilizationShapePoint} {rest : List UtilizationShapePoint},
      validateSorted i prev rest = .ok () →
      (prev :: rest).Pairwise fun a b => a.Utilization.toInt < b.Utilization.toInt
  | _, _, [], _ => List.pairwise_singleton _ _
  | i, prev, point :: rest, h => by
      rw [validateSorted] at h
      split_ifs at h with hge
      rw [ge_iff_le, Int32.le_iff_toInt_le] at hge
      have htail := validateSorted_pairwise h
      refine List.pairwise_cons.mpr ⟨fun c hc => ?_, htail⟩
      rcases List.mem_cons.mp hc with rfl | hc
      · omega
      · have := List.rel_of_pairwise_cons htail hc
        omega

theorem validateRanges_bounded :
    ∀ {i : ℕ} {shape : List UtilizationShapePoint}, validateRanges i shape = .ok () →
      ∀ point ∈ shape, 0 ≤ point.Utilization.toInt ∧ point.Utilization.toInt ≤ 100 ∧
        0 ≤ point.Score.toInt ∧ point.Score.toInt ≤ 10
  | _, [], _ => by simp
  | i, point :: rest, h => by
      rw [validateRanges] at h
      split_ifs at h with h1 h2 h3 h4
      simp only [Int32.lt_iff_toInt_lt, gt_iff_lt, Int32.toInt_zero,
        show (100 : Int32).toInt = 100 by decide, show (10 : Int32).toInt = 10 by decide] at h1 h2 h3 h4
      refine List.forall_mem_cons.mpr ⟨⟨by omega, by omega, by omega, by omega⟩, ?_⟩
      exact validateRanges_bounded h

/-- **Every admitted shape is valid once scaled**: sorted strictly by utilization, utilizations
in `[0, 100]` and scores, scaled by `10`, in `[0, MaxNodeScore]`. -/
theorem validateFunctionShape_valid {shape : List UtilizationShapePoint}
    (h : validateFunctionShape shape = .ok ()) : ValidShape (functionShapeOf shape) := by
  obtain ⟨first, rest, rfl⟩ : ∃ first rest, shape = first :: rest := by
    cases shape with
    | nil => simp [validateFunctionShape] at h
    | cons first rest => exact ⟨first, rest, rfl⟩
  obtain ⟨_, hsorted, hranges⟩ := bind_eq_ok.mp h
  have hsort := validateSorted_pairwise hsorted
  have hbound := validateRanges_bounded hranges
  have hscale : (MaxNodeScore / MaxCustomPriorityScore).toInt = 10 := by decide
  have hscore : ∀ point ∈ first :: rest,
      (point.Score.toInt64 * (MaxNodeScore / MaxCustomPriorityScore)).toInt =
        point.Score.toInt * 10 := fun point hp => by
    have := hbound point hp
    rw [int64_toInt_mul (by rw [hscale, Int32.toInt_toInt64]; unfold FitsInt64; omega), hscale,
      Int32.toInt_toInt64]
  refine ⟨by simp [functionShapeOf], ?_, ?_⟩
  · rw [functionShapeOf, List.pairwise_map]
    exact hsort.imp fun hab => by simpa using hab
  · intro pt hpt
    obtain ⟨point, hp, rfl⟩ := List.mem_map.mp hpt
    have := hbound point hp
    simp only [Int32.toInt_toInt64, hscore point hp]
    omega

section Shape

variable {shape : functionShape}

/-- One segment of the loop, computed in `int64` between two points of a valid shape: the
differences and the product stay small, so it is the integer interpolation. -/
theorem segment_toInt {a b : functionShapePoint} {p : Int64} (ha : 0 ≤ a.utilization.toInt)
    (hap : a.utilization.toInt < p.toInt) (hpb : p.toInt ≤ b.utilization.toInt)
    (hb : b.utilization.toInt ≤ 100) (hsa : 0 ≤ a.score.toInt ∧ a.score.toInt ≤ 100)
    (hsb : 0 ≤ b.score.toInt ∧ b.score.toInt ≤ 100) :
    (a.score + (b.score - a.score) * (p - a.utilization) /
      (b.utilization - a.utilization)).toInt = segmentAt a b p := by
  have h1 : (b.score - a.score).toInt = b.score.toInt - a.score.toInt :=
    int64_toInt_sub ⟨by omega, by omega⟩
  have h2 : (p - a.utilization).toInt = p.toInt - a.utilization.toInt :=
    int64_toInt_sub ⟨by omega, by omega⟩
  have h3 : (b.utilization - a.utilization).toInt = b.utilization.toInt - a.utilization.toInt :=
    int64_toInt_sub ⟨by omega, by omega⟩
  have h4 : ((b.score - a.score) * (p - a.utilization)).toInt =
      (b.score.toInt - a.score.toInt) * (p.toInt - a.utilization.toInt) := by
    rw [int64_toInt_mul (by rw [h1, h2]; exact ⟨by nlinarith, by nlinarith⟩), h1, h2]
  have hne : b.utilization - a.utilization ≠ -1 := int64_ne_neg_one (by omega)
  have h5 : ((b.score - a.score) * (p - a.utilization) / (b.utilization - a.utilization)).toInt =
      ((b.score.toInt - a.score.toInt) * (p.toInt - a.utilization.toInt)).tdiv
        (b.utilization.toInt - a.utilization.toInt) := by
    rw [Int64.toInt_div_of_ne_right _ _ hne, h4, h3]
  have hmem := @tlerp_mem a.utilization.toInt a.score.toInt b.utilization.toInt b.score.toInt
    (by omega) p.toInt (le_of_lt hap) hpb
  unfold tlerp at hmem
  rw [int64_toInt_add (by rw [h5]; unfold FitsInt64; omega), h5]
  rfl

theorem ValidShape.tail {point : functionShapePoint} (h : ValidShape (point :: shape))
    (hne : shape ≠ []) : ValidShape shape :=
  ⟨hne, (List.pairwise_cons.mp h.sorted).2, fun pt hpt => h.bounded pt (List.mem_cons_of_mem _ hpt)⟩

theorem ValidShape.utilization_le (h : ValidShape shape) {i j : ℕ} (hij : i ≤ j)
    (hj : j < shape.length) : shape[i].utilization.toInt ≤ shape[j].utilization.toInt := by
  rcases Nat.lt_or_eq_of_le hij with hlt | rfl
  · exact le_of_lt (List.pairwise_iff_getElem.mp h.sorted i j (by omega) hj hlt)
  · exact le_rfl

theorem brokenLinearLoop_stop {p : Int64} {prev point : functionShapePoint} {rest : functionShape}
    (h : ValidShape (prev :: point :: rest)) (hlt : prev.utilization.toInt < p.toInt)
    (hle : p ≤ point.utilization) :
    ∃ v, brokenLinearLoop p (some prev) (point :: rest) = .ok v ∧
      v.toInt = segmentAt prev point p := by
  have hprev := h.bounded prev List.mem_cons_self
  have hpoint := h.bounded point (List.mem_cons_of_mem _ List.mem_cons_self)
  have hup : prev.utilization.toInt < point.utilization.toInt :=
    List.rel_of_pairwise_cons h.sorted List.mem_cons_self
  have hle' := Int64.le_iff_toInt_le.mp hle
  -- the two utilizations differ, so Go does not divide by zero
  have hden : point.utilization - prev.utilization ≠ 0 := fun h0 => by
    have := congrArg Int64.toInt h0
    rw [int64_toInt_sub ⟨by omega, by omega⟩, Int64.toInt_zero] at this
    omega
  rw [brokenLinearLoop, if_pos hle, if_neg hden]
  exact ⟨_, rfl, segment_toInt hprev.1 hlt hle' hpoint.2.1 hprev.2.2 hpoint.2.2⟩

/-- **The loop never fails and stays in `[0, 100]`** on a valid shape, from a point below `p`. -/
theorem brokenLinearLoop_mem {p : Int64} : ∀ (rest : functionShape) (prev : functionShapePoint),
    ValidShape (prev :: rest) → prev.utilization.toInt < p.toInt →
    ∃ v, brokenLinearLoop p (some prev) rest = .ok v ∧ 0 ≤ v.toInt ∧ v.toInt ≤ 100
  | [], prev, h, _ => ⟨prev.score, rfl, (h.bounded prev List.mem_cons_self).2.2⟩
  | point :: rest, prev, h, hlt => by
      by_cases hle : p ≤ point.utilization
      · obtain ⟨v, hv, hval⟩ := brokenLinearLoop_stop h hlt hle
        have hprev := h.bounded prev List.mem_cons_self
        have hpoint := h.bounded point (List.mem_cons_of_mem _ List.mem_cons_self)
        have hup : prev.utilization.toInt < point.utilization.toInt :=
          List.rel_of_pairwise_cons h.sorted List.mem_cons_self
        have hmem := @tlerp_mem prev.utilization.toInt prev.score.toInt point.utilization.toInt
          point.score.toInt hup p.toInt (le_of_lt hlt) (Int64.le_iff_toInt_le.mp hle)
        refine ⟨v, hv, ?_⟩
        rw [hval, segmentAt]
        omega
      · rw [brokenLinearLoop, if_neg hle]
        rw [Int64.le_iff_toInt_le] at hle
        exact brokenLinearLoop_mem rest point (h.tail (List.cons_ne_nil _ _)) (by omega)

/-- **The loop computes the segment around `p`**: where `p` is above the utilization of the
`i`-th point and at most that of the next, the loop returns their interpolation. -/
theorem brokenLinearLoop_segment {p : Int64} : ∀ (rest : functionShape) (prev : functionShapePoint),
    ValidShape (prev :: rest) → ∀ (i : ℕ) (hi : i + 1 < (prev :: rest).length),
    (prev :: rest)[i].utilization.toInt < p.toInt →
    p.toInt ≤ (prev :: rest)[i + 1].utilization.toInt →
    ∃ v, brokenLinearLoop p (some prev) rest = .ok v ∧
      v.toInt = segmentAt (prev :: rest)[i] (prev :: rest)[i + 1] p
  | [], _, _, i, hi, _, _ => by simp at hi
  | point :: rest, prev, h, i, hi, hlo, hhi => by
      by_cases hle : p ≤ point.utilization
      · have hi0 : i = 0 := by
          rcases i with _ | j
          · rfl
          · have hmono := h.utilization_le (i := 1) (j := j + 1) (by omega) (by omega)
            simp only [List.getElem_cons_succ, List.getElem_cons_zero] at hmono hlo
            rw [Int64.le_iff_toInt_le] at hle
            omega
        subst hi0
        simpa using brokenLinearLoop_stop h (by simpa using hlo) hle
      · rcases i with _ | j
        · exact absurd (Int64.le_iff_toInt_le.mpr (by simpa using hhi)) hle
        · rw [brokenLinearLoop, if_neg hle]
          exact brokenLinearLoop_segment rest point (h.tail (List.cons_ne_nil _ _)) j
            (by simpa using hi) (by simpa using hlo) (by simpa using hhi)

/-- **Never fails, and within `[0, MaxNodeScore]`**, on a valid shape and any `p`. -/
theorem buildBrokenLinearFunction_mem (h : ValidShape shape) (p : Int64) :
    ∃ v, buildBrokenLinearFunction shape p = .ok v ∧ 0 ≤ v.toInt ∧ v.toInt ≤ 100 := by
  obtain ⟨first, rest, rfl⟩ := List.exists_cons_of_ne_nil h.ne
  unfold buildBrokenLinearFunction
  rw [brokenLinearLoop]
  split_ifs with hle
  · exact ⟨first.score, rfl, (h.bounded first List.mem_cons_self).2.2⟩
  · rw [Int64.le_iff_toInt_le] at hle
    exact brokenLinearLoop_mem rest first h (by omega)

/-- **Each point's score at its utilization.** -/
theorem buildBrokenLinearFunction_point (h : ValidShape shape) (i : ℕ) (hi : i < shape.length) :
    buildBrokenLinearFunction shape shape[i].utilization = .ok shape[i].score := by
  obtain ⟨first, rest, rfl⟩ := List.exists_cons_of_ne_nil h.ne
  unfold buildBrokenLinearFunction
  rcases i with _ | j
  · simp [brokenLinearLoop]
  · have hup := h.utilization_le (i := 0) (j := j) (by omega) (by omega)
    have hstep := List.pairwise_iff_getElem.mp h.sorted j (j + 1) (by omega) hi (by omega)
    have hnot : ¬ (first :: rest)[j + 1].utilization ≤ first.utilization := by
      rw [Int64.le_iff_toInt_le]
      simp only [List.getElem_cons_zero] at hup
      omega
    rw [brokenLinearLoop, if_neg (by simpa using hnot)]
    obtain ⟨v, hv, hval⟩ := brokenLinearLoop_segment rest first h j hi hstep le_rfl
    rw [segmentAt, tlerp_right hstep] at hval
    rw [hv, Int64.toInt_inj.mp hval]

/-- **On the closed segment from the `i`-th point to the next, the function is their
interpolation.** -/
theorem buildBrokenLinearFunction_segment (h : ValidShape shape) (i : ℕ)
    (hi : i + 1 < shape.length) (p : Int64) (hlo : shape[i].utilization.toInt ≤ p.toInt)
    (hhi : p.toInt ≤ shape[i + 1].utilization.toInt) :
    ∃ v, buildBrokenLinearFunction shape p = .ok v ∧
      v.toInt = segmentAt shape[i] shape[i + 1] p := by
  rcases Int.lt_or_eq_of_le hlo with hlt | heq
  · obtain ⟨first, rest, rfl⟩ := List.exists_cons_of_ne_nil h.ne
    have hup := h.utilization_le (i := 0) (j := i) (by omega) (by omega)
    simp only [List.getElem_cons_zero] at hup
    have hnot : ¬ p ≤ first.utilization := by
      rw [Int64.le_iff_toInt_le]
      omega
    unfold buildBrokenLinearFunction
    rw [brokenLinearLoop, if_neg hnot]
    exact brokenLinearLoop_segment rest first h i hi hlt hhi
  · have hp : p = shape[i].utilization := Int64.toInt_inj.mp heq.symm
    refine ⟨shape[i].score, by rw [hp]; exact buildBrokenLinearFunction_point h i (by omega), ?_⟩
    rw [segmentAt, hp, tlerp_left]

/-- The utilization `resourceScoringFunction` reads the function at is in `[0, 100]` while
`100 * capacity` fits. -/
theorem resourceScoringFunction_utilization (shape : functionShape) {requested capacity : Int64}
    (hr : 0 ≤ requested.toInt) (hc : 0 ≤ capacity.toInt) (hfit : 100 * capacity.toInt < 2 ^ 63) :
    ∃ utilization : Int64, 0 ≤ utilization.toInt ∧ utilization.toInt ≤ 100 ∧
      resourceScoringFunction shape requested capacity =
        buildBrokenLinearFunction shape utilization := by
  have h100 : maxUtilization.toInt = 100 := by decide
  unfold resourceScoringFunction
  split_ifs with hcase
  · exact ⟨maxUtilization, by decide, by decide, rfl⟩
  · rw [not_or, gt_iff_lt, Int64.lt_iff_toInt_lt, ← Int64.toInt_inj, Int64.toInt_zero] at hcase
    obtain ⟨h0, hle⟩ := hcase
    have hsub : (capacity - requested).toInt = capacity.toInt - requested.toInt :=
      int64_toInt_sub ⟨by omega, by have := Int64.toInt_lt capacity; omega⟩
    have hshare := scaledShare_toInt h100 (x := capacity - requested) (c := capacity) (by omega)
      (by omega) (by omega) hfit
    rw [hsub] at hshare
    have hmem := scaledShare_mem (x := capacity.toInt - requested.toInt) (c := capacity.toInt)
      (by omega) (by omega) (by omega)
    refine ⟨_, ?_, ?_, rfl⟩ <;>
      rw [int64_toInt_sub (by rw [h100, hshare]; unfold FitsInt64; omega), h100, hshare] <;>
      omega

end Shape

/-- **`RequestedToCapacityRatio` on every admitted shape.**  For every shape that
`validateFunctionShape` accepts, scaled as `NewRequestedToCapacityRatio` scales it, the broken
linear function never fails (so never divides by zero) and stays within `[0, MaxNodeScore]`; it
takes each point's score at the point's utilization; on the segment between two consecutive
points it is their truncated interpolation, between their two scores and monotone in the
direction of the segment; and for every request of at least zero and capacity in
`[0, MaxInt64/100]` the per-resource score is the function read at a utilization in
`[0, 100]`. -/
theorem buildBrokenLinearFunction_spec (args : List UtilizationShapePoint)
    (hv : validateFunctionShape args = .ok ()) :
    let shape := functionShapeOf args
    (∀ p : Int64, ∃ v, buildBrokenLinearFunction shape p = .ok v ∧
      0 ≤ v.toInt ∧ v.toInt ≤ MaxNodeScore.toInt) ∧
    (∀ (i : ℕ) (hi : i < shape.length),
      buildBrokenLinearFunction shape shape[i].utilization = .ok shape[i].score) ∧
    (∀ (i : ℕ) (hi : i + 1 < shape.length) (p : Int64),
      shape[i].utilization.toInt ≤ p.toInt → p.toInt ≤ shape[i + 1].utilization.toInt →
      ∃ v, buildBrokenLinearFunction shape p = .ok v ∧ v.toInt = segmentAt shape[i] shape[i + 1] p ∧
        min shape[i].score.toInt shape[i + 1].score.toInt ≤ v.toInt ∧
        v.toInt ≤ max shape[i].score.toInt shape[i + 1].score.toInt) ∧
    (∀ (i : ℕ) (hi : i + 1 < shape.length) (p p' v v' : Int64),
      shape[i].utilization.toInt ≤ p.toInt → p.toInt ≤ p'.toInt →
      p'.toInt ≤ shape[i + 1].utilization.toInt →
      buildBrokenLinearFunction shape p = .ok v → buildBrokenLinearFunction shape p' = .ok v' →
      (shape[i].score.toInt ≤ shape[i + 1].score.toInt → v.toInt ≤ v'.toInt) ∧
      (shape[i + 1].score.toInt ≤ shape[i].score.toInt → v'.toInt ≤ v.toInt)) ∧
    (∀ requested capacity : Int64, 0 ≤ requested.toInt → 0 ≤ capacity.toInt →
      capacity.toInt ≤ Int64.maxValue.toInt / 100 →
      ∃ utilization : Int64, 0 ≤ utilization.toInt ∧ utilization.toInt ≤ 100 ∧
        resourceScoringFunction shape requested capacity =
          buildBrokenLinearFunction shape utilization) := by
  intro shape
  have h : ValidShape shape := validateFunctionShape_valid hv
  have hend : ∀ (i : ℕ) (hi : i + 1 < shape.length),
      shape[i].utilization.toInt < shape[i + 1].utilization.toInt := fun i hi =>
    List.pairwise_iff_getElem.mp h.sorted i (i + 1) (by omega) hi (by omega)
  refine ⟨fun p => ?_, buildBrokenLinearFunction_point h, fun i hi p hlo hhi => ?_,
    fun i hi p p' v v' hlo hpp hhi hv hv' => ?_, fun requested capacity hr hc hcap => ?_⟩
  · obtain ⟨v, hv, hmem⟩ := buildBrokenLinearFunction_mem h p
    exact ⟨v, hv, by rw [show MaxNodeScore.toInt = 100 by decide]; exact hmem⟩
  · obtain ⟨v, hv, hval⟩ := buildBrokenLinearFunction_segment h i hi p hlo hhi
    exact ⟨v, hv, hval, by rw [hval]; exact tlerp_mem (hend i hi) hlo hhi⟩
  · obtain ⟨w, hw, hval⟩ := buildBrokenLinearFunction_segment h i hi p hlo (by omega)
    obtain ⟨w', hw', hval'⟩ := buildBrokenLinearFunction_segment h i hi p' (by omega) hhi
    rw [hv] at hw
    rw [hv'] at hw'
    cases hw
    cases hw'
    rw [hval, hval', segmentAt, segmentAt]
    exact ⟨fun hy => tlerp_mono (hend i hi) hy hpp, fun hy => tlerp_anti (hend i hi) hy hpp⟩
  · have hmax : Int64.maxValue.toInt = 2 ^ 63 - 1 := by decide
    exact resourceScoringFunction_utilization shape hr hc (by omega)

theorem buildBrokenLinearFunction_spec_linear :
    buildBrokenLinearFunction (functionShapeOf [⟨0, 0⟩, ⟨100, 10⟩]) 100 = .ok 100 :=
  (buildBrokenLinearFunction_spec [⟨0, 0⟩, ⟨100, 10⟩] (by decide)).2.1 1 (by decide)

/-- The truncation: on the segment from `(0, 0)` to `(30, 10)`, `p = 4` reads `10 * 4 / 30`,
which truncates to `1`. -/
example : buildBrokenLinearFunction (functionShapeOf [⟨0, 0⟩, ⟨30, 1⟩]) 4 = .ok 1 := by
  decide

end NodeResources

end Caspr
