import Caspr.Lib.Go
import Caspr.Lib.Rotation

/-! # How many nodes a cycle examines, and which (core/generic_scheduler.go)

`numFeasibleNodesToFind(n)` is the number of feasible nodes after which the search of a cycle
stops.  It is all of them for fewer than `minFeasibleNodesToFind` nodes or a percentage of at
least 100; otherwise that percentage of the nodes, or for a percentage of at most 0 an adaptive
one, `50 - n/125` but at least `minFeasibleNodesPercentageToFind`, and never fewer than
`minFeasibleNodesToFind` nodes.  The arithmetic is Go's `int32`, whose product wraps around:
the result stays between `min(n, 100)` and `n` all the same (`numFeasibleNodesToFind_bounds`),
since a wrapped product is below the exact one.

Without filter plugins, `findNodesThatPassFilters` returns that many nodes read round the node
list from `nextStartNodeIndex`, and moves the index past them.  Cycle after cycle on the same
nodes, the reads resume where the previous one stopped (`cycles_flatten`), so over any number of
cycles every node is returned as often as any other, up to one (`cycles_fair`).

*Modelling.*
* `genericScheduler` keeps the two fields these functions read; `nextStartNodeIndex`, an `int`
  of Go, is only ever set to a remainder by the length of the node list, and is a natural number.
* The nodes of the snapshot are a list of any type: the code calls `Node()` on each, and what it
  returns is the node. -/

namespace Caspr

namespace GenericScheduler

def minFeasibleNodesToFind : Int32 := 100

def minFeasibleNodesPercentageToFind : Int32 := 5

/-- The fields of `genericScheduler` that the search for feasible nodes reads and writes. -/
structure genericScheduler where
  percentageOfNodesToScore : Int32
  nextStartNodeIndex : ℕ := 0
deriving DecidableEq, Repr

namespace genericScheduler

/-- `g.numFeasibleNodesToFind(numAllNodes)`. -/
def numFeasibleNodesToFind (g : genericScheduler) (numAllNodes : Int32) : Int32 :=
  if numAllNodes < minFeasibleNodesToFind ∨ g.percentageOfNodesToScore ≥ 100 then numAllNodes
  else
    let adaptivePercentage :=
      if g.percentageOfNodesToScore ≤ 0 then
        let basePercentageOfNodesToScore : Int32 := 50
        let adaptivePercentage := basePercentageOfNodesToScore - numAllNodes / 125
        if adaptivePercentage < minFeasibleNodesPercentageToFind then
          minFeasibleNodesPercentageToFind
        else adaptivePercentage
      else g.percentageOfNodesToScore
    let numNodes := numAllNodes * adaptivePercentage / 100
    if numNodes < minFeasibleNodesToFind then minFeasibleNodesToFind else numNodes

/-- `g.findNodesThatPassFilters(...)` for a framework without filter plugins: the nodes
`allNodes[(g.nextStartNodeIndex+i) % len(allNodes)]` for `i < numNodesToFind`, and the index
moved past them.  `make` panics on a negative length, and `%` on a length of zero. -/
def findNodesThatPassFilters {α : Type} (g : genericScheduler) (allNodes : List α) :
    Except Go.Abort (List α × genericScheduler) :=
  let numNodesToFind := g.numFeasibleNodesToFind (Int32.ofNat allNodes.length)
  if numNodesToFind < 0 then .error .makeSliceLenOutOfRange
  else if h : allNodes = [] then .error .integerDivideByZero
  else
    let feasibleNodes := (List.range numNodesToFind.toInt.toNat).map fun i =>
      allNodes.get ⟨(g.nextStartNodeIndex + i) % allNodes.length,
        Nat.mod_lt _ (List.length_pos_iff.mpr h)⟩
    .ok (feasibleNodes,
      { g with nextStartNodeIndex := (g.nextStartNodeIndex + feasibleNodes.length) % allNodes.length })

/-- `c` scheduling cycles in a row on the same nodes: the nodes each cycle returns. -/
def cycles {α : Type} (allNodes : List α) :
    ℕ → genericScheduler → Except Go.Abort (List (List α) × genericScheduler)
  | 0, g => .ok ([], g)
  | c + 1, g => do
      let (feasibleNodes, g') ← findNodesThatPassFilters g allNodes
      let (rest, g'') ← cycles allNodes c g'
      return (feasibleNodes :: rest, g'')

/-! ### `numFeasibleNodesToFind` -/

theorem toInt_minFeasibleNodesToFind : minFeasibleNodesToFind.toInt = 100 := by decide

/-- The adaptive percentage `50 - n/125` is at most 50 for `n ≥ 0`: the quotient is between 0
and `n`, and the difference does not wrap around. -/
theorem toInt_base_sub_le {numAllNodes : Int32} (hn : 0 ≤ numAllNodes.toInt) :
    ((50 : Int32) - numAllNodes / 125).toInt ≤ 50 := by
  have hq : (numAllNodes / 125).toInt = numAllNodes.toInt.tdiv 125 := by
    rw [Int32.toInt_div_of_ne_right _ _ (by decide)]
    rfl
  have hq0 : 0 ≤ numAllNodes.toInt.tdiv 125 := Int.tdiv_nonneg hn (by decide)
  have hqn : numAllNodes.toInt.tdiv 125 ≤ numAllNodes.toInt := Int.tdiv_le_self _ hn
  have hmax := Int32.toInt_le numAllNodes
  rw [Int32.toInt_maxValue] at hmax
  have h32 : ((2 ^ 32 : ℕ) : ℤ) = 4294967296 := by decide
  have hlo : -(((2 ^ 32 : ℕ) : ℤ) / 2) ≤ 50 - numAllNodes.toInt.tdiv 125 := by
    rw [h32]
    omega
  have hhi : 50 - numAllNodes.toInt.tdiv 125 < (((2 ^ 32 : ℕ) : ℤ) + 1) / 2 := by
    rw [h32]
    omega
  rw [Int32.toInt_sub, hq, show (50 : Int32).toInt = 50 from rfl, Int.bmod_eq_of_le hlo hhi]
  omega

/-- The last step: for at least 100 nodes and a percentage between 0 and 100, the scaled
number of nodes, raised to `minFeasibleNodesToFind`, is between 100 and the number of nodes. -/
theorem numNodes_bounds {numAllNodes a : Int32} (hn : 100 ≤ numAllNodes.toInt)
    (ha : 0 ≤ a.toInt ∧ a.toInt ≤ 100) :
    let numNodes := numAllNodes * a / 100
    100 ≤ (if numNodes < minFeasibleNodesToFind then minFeasibleNodesToFind else numNodes).toInt ∧
      (if numNodes < minFeasibleNodesToFind then minFeasibleNodesToFind else numNodes).toInt ≤
        numAllNodes.toInt := by
  intro numNodes
  split_ifs with hlt
  · exact ⟨toInt_minFeasibleNodesToFind.ge, toInt_minFeasibleNodesToFind ▸ hn⟩
  · refine ⟨?_, ?_⟩
    · rw [← toInt_minFeasibleNodesToFind]
      exact Int32.le_iff_toInt_le.mp (Int32.not_lt.mp hlt)
    · have hmul : (numAllNodes * a).toInt ≤ 100 * numAllNodes.toInt :=
        calc (numAllNodes * a).toInt
            ≤ numAllNodes.toInt * a.toInt := Go.int32_toInt_mul_le (by omega) ha.1
          _ ≤ numAllNodes.toInt * 100 := Int.mul_le_mul_of_nonneg_left ha.2 (by omega)
          _ = 100 * numAllNodes.toInt := Int.mul_comm _ _
      have hdiv : numNodes.toInt = (numAllNodes * a).toInt.tdiv 100 := by
        rw [Int32.toInt_div_of_ne_right _ _ (by decide)]
        rfl
      rw [hdiv]
      exact Go.tdiv_le_of_le_mul (by decide) (by omega) hmul

theorem bounds_of_toInt {n k : Int32} (h : 100 ≤ k.toInt ∧ k.toInt ≤ n.toInt) :
    min n 100 ≤ k ∧ k ≤ n :=
  ⟨Int32.le_trans (Std.min_le_right : min n 100 ≤ 100)
      (Int32.le_iff_toInt_le.mpr (show (100 : Int32).toInt ≤ k.toInt from h.1)),
    Int32.le_iff_toInt_le.mpr h.2⟩

/-- **`numFeasibleNodesToFind` is between `min(n, 100)` and `n`**, for every `int32` number of
nodes and every percentage, also where `n * adaptivePercentage` overflows. -/
theorem numFeasibleNodesToFind_bounds (g : genericScheduler) (numAllNodes : Int32) :
    min numAllNodes 100 ≤ g.numFeasibleNodesToFind numAllNodes ∧
      g.numFeasibleNodesToFind numAllNodes ≤ numAllNodes := by
  unfold numFeasibleNodesToFind
  by_cases hsmall : numAllNodes < minFeasibleNodesToFind ∨ g.percentageOfNodesToScore ≥ 100
  · rw [if_pos hsmall]
    exact ⟨Std.min_le_left, Int32.le_refl _⟩
  · rw [if_neg hsmall]
    obtain ⟨hn, hp⟩ := not_or.mp hsmall
    have hn' : 100 ≤ numAllNodes.toInt := by
      rw [← toInt_minFeasibleNodesToFind]
      exact Int32.le_iff_toInt_le.mp (Int32.not_lt.mp hn)
    have hp' : g.percentageOfNodesToScore.toInt < 100 :=
      Int32.lt_iff_toInt_lt.mp (Int32.not_le.mp hp)
    refine bounds_of_toInt (numNodes_bounds hn' ?_)
    dsimp only
    split_ifs with hp0 hmin
    · exact ⟨by decide, by decide⟩
    · have h5 : minFeasibleNodesPercentageToFind.toInt ≤ ((50 : Int32) - numAllNodes / 125).toInt :=
        Int32.le_iff_toInt_le.mp (Int32.not_lt.mp hmin)
      have h50 := toInt_base_sub_le (by omega : 0 ≤ numAllNodes.toInt)
      exact ⟨by rw [show minFeasibleNodesPercentageToFind.toInt = 5 by decide] at h5; omega, by omega⟩
    · have hpos : 0 < g.percentageOfNodesToScore.toInt :=
        Int32.lt_iff_toInt_lt.mp (Int32.not_le.mp hp0)
      exact ⟨by omega, by omega⟩

/-! ### Which nodes a cycle returns -/

variable {α : Type}

/-- A cycle reads the percentage only, which cycles leave as it is. -/
@[simp] theorem numFeasibleNodesToFind_with (g : genericScheduler) (i : ℕ) (n : Int32) :
    { g with nextStartNodeIndex := i }.numFeasibleNodesToFind n = g.numFeasibleNodesToFind n := rfl

/-- For a node list that an `int32` counts, the number of nodes to find is between
`min(len, 100)` and `len`. -/
theorem numNodesToFind_bounds (g : genericScheduler) {allNodes : List α}
    (hlen : allNodes.length < 2 ^ 31) :
    min (allNodes.length : ℤ) 100 ≤ (g.numFeasibleNodesToFind (Int32.ofNat allNodes.length)).toInt ∧
      (g.numFeasibleNodesToFind (Int32.ofNat allNodes.length)).toInt ≤ allNodes.length := by
  obtain ⟨hlo, hhi⟩ := numFeasibleNodesToFind_bounds g (Int32.ofNat allNodes.length)
  rw [Int32.le_iff_toInt_le, Go.int32_toInt_min, Int32.toInt_ofNat_of_lt hlen] at hlo
  rw [Int32.le_iff_toInt_le, Int32.toInt_ofNat_of_lt hlen] at hhi
  exact ⟨hlo, hhi⟩

/-- **Without filter plugins, a cycle returns `numFeasibleNodesToFind` nodes read round the list
from `nextStartNodeIndex`, and moves the index past them.** -/
theorem findNodesThatPassFilters_eq (g : genericScheduler) {allNodes : List α} (h : allNodes ≠ [])
    (hlen : allNodes.length < 2 ^ 31) :
    findNodesThatPassFilters g allNodes =
      .ok (Rotation.window allNodes h g.nextStartNodeIndex
          (g.numFeasibleNodesToFind (Int32.ofNat allNodes.length)).toInt.toNat,
        { g with nextStartNodeIndex := (g.nextStartNodeIndex +
          (g.numFeasibleNodesToFind (Int32.ofNat allNodes.length)).toInt.toNat) % allNodes.length }) := by
  have hk : ¬ g.numFeasibleNodesToFind (Int32.ofNat allNodes.length) < 0 := by
    have hlo := (numNodesToFind_bounds g hlen).1
    rw [Int32.lt_iff_toInt_lt, show (0 : Int32).toInt = 0 from rfl]
    omega
  unfold findNodesThatPassFilters
  rw [if_neg hk, dif_neg h]
  simp only [List.length_map, List.length_range]
  rfl

example : findNodesThatPassFilters { percentageOfNodesToScore := 0, nextStartNodeIndex := 2 }
    ["node-0", "node-1", "node-2"] =
      .ok (["node-2", "node-0", "node-1"], { percentageOfNodesToScore := 0, nextStartNodeIndex := 2 }) := by
  decide

/-- **Cycles on the same nodes read one window**: each cycle resumes where the previous one
stopped. -/
theorem cycles_flatten {allNodes : List α} (h : allNodes ≠ []) (hlen : allNodes.length < 2 ^ 31) :
    ∀ (c : ℕ) (g : genericScheduler), ∃ outs g', cycles allNodes c g = .ok (outs, g') ∧
      outs.flatten = Rotation.window allNodes h g.nextStartNodeIndex
        (c * (g.numFeasibleNodesToFind (Int32.ofNat allNodes.length)).toInt.toNat)
  | 0, g => ⟨[], g, rfl, by simp [Rotation.window]⟩
  | c + 1, g => by
      let k := (g.numFeasibleNodesToFind (Int32.ofNat allNodes.length)).toInt.toNat
      obtain ⟨outs, g', hc, hflat⟩ := cycles_flatten h hlen c
        { g with nextStartNodeIndex := (g.nextStartNodeIndex + k) % allNodes.length }
      rw [numFeasibleNodesToFind_with] at hflat
      refine ⟨Rotation.window allNodes h g.nextStartNodeIndex k :: outs, g', ?_, ?_⟩
      · rw [cycles, findNodesThatPassFilters_eq g h hlen]
        show (cycles allNodes c _ >>= fun r => pure (_ :: r.1, r.2)) = _
        rw [hc]
        rfl
      · rw [List.flatten_cons, hflat, Nat.succ_mul, Nat.add_comm (c * k) k, Rotation.window_add]

/-- **Round-robin fairness**: over `c` cycles on the same distinct nodes, every node is
returned `⌊c k / n⌋` or `⌈c k / n⌉` times. -/
theorem cycles_fair [DecidableEq α] (g : genericScheduler) {allNodes : List α} (h : allNodes ≠ [])
    (hlen : allNodes.length < 2 ^ 31) (hnodup : allNodes.Nodup) (c : ℕ) :
    let k := (g.numFeasibleNodesToFind (Int32.ofNat allNodes.length)).toInt.toNat
    ∃ outs g', cycles allNodes c g = .ok (outs, g') ∧ ∀ x ∈ allNodes,
      outs.flatten.count x = c * k / allNodes.length ∨
        outs.flatten.count x = (c * k + allNodes.length - 1) / allNodes.length := by
  intro k
  obtain ⟨outs, g', hc, hflat⟩ := cycles_flatten h hlen c g
  refine ⟨outs, g', hc, fun x hx => ?_⟩
  rw [hflat]
  exact Rotation.count_window_floor_or_ceil allNodes h hnodup _ _ hx

/-- **Which nodes a cycle examines without filter plugins.**  For every `int32` number of nodes
and percentage, `numFeasibleNodesToFind` is between `min(n, 100)` and `n`.  For a non-empty node
list, a cycle returns `k = numFeasibleNodesToFind(n)` nodes, `allNodes[(s+i) % n]` for `i < k`
with `s` the index the previous cycle left, distinct when the nodes are, and leaves the index at
`(s + k) % n`; over `c` cycles on the same distinct nodes every node is returned `⌊c k / n⌋` or
`⌈c k / n⌉` times. -/
theorem findNodesThatPassFilters_rotation :
    (∀ (g : genericScheduler) (numAllNodes : Int32),
      min numAllNodes 100 ≤ g.numFeasibleNodesToFind numAllNodes ∧
        g.numFeasibleNodesToFind numAllNodes ≤ numAllNodes) ∧
    ∀ {α : Type} [DecidableEq α] (g : genericScheduler) (allNodes : List α), allNodes ≠ [] →
      allNodes.length < 2 ^ 31 →
      let k := (g.numFeasibleNodesToFind (Int32.ofNat allNodes.length)).toInt.toNat
      (min allNodes.length 100 ≤ k ∧ k ≤ allNodes.length) ∧
      (∃ feasibleNodes, findNodesThatPassFilters g allNodes =
          .ok (feasibleNodes,
            { g with nextStartNodeIndex := (g.nextStartNodeIndex + k) % allNodes.length }) ∧
        feasibleNodes.length = k ∧
        (∀ i < k, feasibleNodes[i]? = allNodes[(g.nextStartNodeIndex + i) % allNodes.length]?) ∧
        (allNodes.Nodup → feasibleNodes.Nodup)) ∧
      (allNodes.Nodup → ∀ c, ∃ outs g', cycles allNodes c g = .ok (outs, g') ∧
        ∀ x ∈ allNodes, outs.flatten.count x = c * k / allNodes.length ∨
          outs.flatten.count x = (c * k + allNodes.length - 1) / allNodes.length) := by
  refine ⟨numFeasibleNodesToFind_bounds, ?_⟩
  intro α _ g allNodes h hlen k
  have hk := numNodesToFind_bounds g hlen
  refine ⟨by omega, ⟨_, findNodesThatPassFilters_eq g h hlen, Rotation.length_window _ _ _ _,
    fun i hi => Rotation.getElem?_window _ _ _ _ i hi,
    fun hnodup => Rotation.nodup_window _ _ hnodup _ (by omega)⟩, ?_⟩
  intro hnodup c
  exact cycles_fair g h hlen hnodup c

/-- Three nodes, the adaptive percentage, and the index left at 2: two cycles return every node
twice. -/
theorem findNodesThatPassFilters_rotation_three :
    let g : genericScheduler := { percentageOfNodesToScore := 0, nextStartNodeIndex := 2 }
    let allNodes := ["node-0", "node-1", "node-2"]
    ∃ outs g', cycles allNodes 2 g = .ok (outs, g') ∧
      ∀ x ∈ allNodes, outs.flatten.count x = 2 * 3 / 3 ∨ outs.flatten.count x = (2 * 3 + 3 - 1) / 3 := by
  intro g allNodes
  exact (findNodesThatPassFilters_rotation.2 g allNodes (by decide) (by decide)).2.2 (by decide) 2

end genericScheduler

end GenericScheduler

end Caspr
