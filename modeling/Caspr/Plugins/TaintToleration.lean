import Caspr.Framework.Interface
import Caspr.Plugins.NormalizeScore
import Caspr.Plugins.Scorers

/-! # Taints and tolerations (plugins/tainttoleration/taint_toleration.go, core/v1 helpers)

A node's taints keep off the pods that do not tolerate them.  `Filter` rejects a node with a
`NoSchedule` or `NoExecute` taint that no toleration of the pod tolerates, naming the first such
taint.  `PreferNoSchedule` taints only lower a node's score: `Score` counts those the pod does
not tolerate, and `NormalizeScore` turns the counts round into `[0, MaxNodeScore]`.

* `PreScore` keeps only the tolerations with the `PreferNoSchedule` effect or none: the others
  tolerate no `PreferNoSchedule` taint, so the count is the one over all the pod's tolerations
  (`countIntolerableTaintsPreferNoSchedule_getAll`).
* After `NormalizeScore` a node with fewer such taints scores at least as high, and a node with
  none scores `MaxNodeScore` (`NormalizeScore_Score`).

*Modelling.*  A taint's effect is one of the three API validation admits, a toleration's
operator `Exists` or `Equal` (which the empty operator means); the operators validation rejects,
for which `ToleratesTaint` is false, are left out.  The node a `NodeInfo` holds is the one
`Filter` and `Score` read; a nil `NodeInfo` pointer is not modelled. -/

namespace Caspr

namespace Toleration

/-- `t.ToleratesTaint(taint)` (core/v1/toleration.go). -/
def ToleratesTaint (t : Toleration) (taint : Taint) : Bool :=
  if t.effect.isSome && t.effect != some taint.effect then false
  else if t.key.length > 0 && t.key != taint.key then false
  else
    match t.operator with
    | .Equal => t.value == taint.value
    | .Exists => true

/-- A toleration tolerates a taint when its effect is empty or the taint's, its key empty or the
taint's, and it is `Exists` or has the taint's value. -/
theorem ToleratesTaint_iff (t : Toleration) (taint : Taint) :
    t.ToleratesTaint taint = true ↔
      (t.effect = none ∨ t.effect = some taint.effect) ∧ (t.key = "" ∨ t.key = taint.key) ∧
        (t.operator = .Exists ∨ t.value = taint.value) := by
  have hkey : t.key.length > 0 ↔ t.key ≠ "" := by
    rw [gt_iff_lt, Nat.pos_iff_ne_zero, ne_eq, String.length_eq_zero_iff]
  unfold ToleratesTaint
  cases t.effect <;> cases t.operator <;> by_cases hk : t.key = "" <;> simp [hk, hkey]

end Toleration

namespace v1helper

/-- `TolerationsTolerateTaint(tolerations, taint)`. -/
def TolerationsTolerateTaint (tolerations : List Toleration) (taint : Taint) : Bool :=
  tolerations.any (·.ToleratesTaint taint)

/-- `getFilteredTaints(taints, inclusionFilter)`; a nil filter is `none`. -/
def getFilteredTaints (taints : List Taint) (inclusionFilter : Option (Taint → Bool)) :
    List Taint :=
  match inclusionFilter with
  | none => taints
  | some f => taints.filter f

/-- `FindMatchingUntoleratedTaint(taints, tolerations, inclusionFilter)`: the first taint the
filter keeps that no toleration tolerates; `(v1.Taint{}, false)` is `none`. -/
def FindMatchingUntoleratedTaint (taints : List Taint) (tolerations : List Toleration)
    (inclusionFilter : Option (Taint → Bool)) : Option Taint :=
  (getFilteredTaints taints inclusionFilter).find? fun taint =>
    !TolerationsTolerateTaint tolerations taint

end v1helper

namespace TaintToleration

open v1helper

/-- `Name`. -/
def Name : String := "TaintToleration"

/-- `preScoreStateKey`. -/
def preScoreStateKey : String := "PreScore" ++ Name

/-- The `filterPredicate` of `Filter`: `Filter` reads the `NoSchedule` and `NoExecute` taints. -/
def filterPredicate (t : Taint) : Bool := t.effect == .NoSchedule || t.effect == .NoExecute

/-- The reason of `Filter` for the taint it names. -/
def errReasonTaint (taint : Taint) : String :=
  "node(s) had taint \x7b" ++ taint.key ++ ": " ++ taint.value ++ "\x7d, that the pod didn't tolerate"

/-- `pl.Filter(…, pod, nodeInfo)`; `none` is the nil status. -/
def Filter (pod : Pod) (nodeInfo : NodeInfo) : Option Status :=
  match nodeInfo.node with
  | none => some (NewStatus .Error "invalid nodeInfo")
  | some node =>
      match FindMatchingUntoleratedTaint node.taints pod.tolerations (some filterPredicate) with
      | none => none
      | some taint => some (NewStatus .UnschedulableAndUnresolvable (errReasonTaint taint))

/-- `preScoreState`. -/
structure preScoreState where
  tolerationsPreferNoSchedule : List Toleration

/-- `getAllTolerationPreferNoSchedule(tolerations)`: those with the `PreferNoSchedule` effect or
none. -/
def getAllTolerationPreferNoSchedule (tolerations : List Toleration) : List Toleration :=
  tolerations.filter fun toleration =>
    toleration.effect.isNone || toleration.effect == some .PreferNoSchedule

/-- `pl.PreScore(…, pod, nodes)`: the state it writes, none when there are no nodes. -/
def PreScore (pod : Pod) (nodes : List Node) : Option preScoreState :=
  if nodes.length = 0 then none
  else some { tolerationsPreferNoSchedule := getAllTolerationPreferNoSchedule pod.tolerations }

/-- `countIntolerableTaintsPreferNoSchedule(taints, tolerations)`. -/
def countIntolerableTaintsPreferNoSchedule (taints : List Taint) (tolerations : List Toleration) :
    ℕ :=
  taints.foldl (fun intolerableTaints taint =>
    if taint.effect ≠ .PreferNoSchedule then intolerableTaints
    else if !TolerationsTolerateTaint tolerations taint then intolerableTaints + 1
    else intolerableTaints) 0

/-- `pl.Score(…, state, pod, nodeName)`, where `nodeInfo` is what the snapshot's `Get(nodeName)`
returned and `state` what `PreScore` wrote. -/
def Score (state : Option preScoreState) (nodeInfo : Except String NodeInfo) (nodeName : String) :
    Except Status Int64 :=
  match nodeInfo with
  | .error err =>
      .error (NewStatus .Error ("getting node " ++ Go.Quote nodeName ++ " from Snapshot: " ++ err))
  | .ok nodeInfo =>
      match nodeInfo.node with
      | none =>
          .error (NewStatus .Error
            ("getting node " ++ Go.Quote nodeName ++ " from Snapshot: %!w(<nil>)"))
      | some node =>
          match state with
          | none =>
              .error (NewStatus .Error
                ("failed to read " ++ Go.Quote preScoreStateKey ++ " from cycleState: not found"))
          | some s =>
              .ok (Int64.ofNat
                (countIntolerableTaintsPreferNoSchedule node.taints s.tolerationsPreferNoSchedule))

/-- `pl.NormalizeScore(…, scores)`. -/
def NormalizeScore (scores : List Int64) : List Int64 :=
  helper.DefaultNormalizeScore NodeResources.MaxNodeScore true scores

/-! ### `Score` -/

/-- The number of `PreferNoSchedule` taints of a node that no toleration of the pod tolerates. -/
def intolerablePreferNoSchedule (pod : Pod) (node : Node) : ℕ :=
  (node.taints.filter fun taint =>
    taint.effect = .PreferNoSchedule ∧ ∀ t ∈ pod.tolerations, t.ToleratesTaint taint = false).length

/-- The loop of `countIntolerableTaintsPreferNoSchedule` counts the `PreferNoSchedule` taints the
tolerations do not tolerate. -/
theorem countIntolerableTaintsPreferNoSchedule_eq (taints : List Taint)
    (tolerations : List Toleration) :
    countIntolerableTaintsPreferNoSchedule taints tolerations =
      (taints.filter fun taint => taint.effect = .PreferNoSchedule ∧
        TolerationsTolerateTaint tolerations taint = false).length := by
  have hloop : ∀ (l : List Taint) (n : ℕ), l.foldl (fun intolerableTaints taint =>
      if taint.effect ≠ .PreferNoSchedule then intolerableTaints
      else if !TolerationsTolerateTaint tolerations taint then intolerableTaints + 1
      else intolerableTaints) n =
        n + (l.filter fun taint => taint.effect = .PreferNoSchedule ∧
          TolerationsTolerateTaint tolerations taint = false).length := by
    intro l
    induction l with
    | nil => simp
    | cons taint l ih =>
        intro n
        rw [List.foldl_cons, ih]
        by_cases he : taint.effect = .PreferNoSchedule <;>
          cases ht : TolerationsTolerateTaint tolerations taint <;>
          simp +arith [he, ht]
  rw [countIntolerableTaintsPreferNoSchedule, hloop, Nat.zero_add]

/-- **Only the tolerations `PreScore` keeps can tolerate a `PreferNoSchedule` taint.** -/
theorem TolerationsTolerateTaint_getAll (tolerations : List Toleration) {taint : Taint}
    (he : taint.effect = .PreferNoSchedule) :
    TolerationsTolerateTaint (getAllTolerationPreferNoSchedule tolerations) taint =
      TolerationsTolerateTaint tolerations taint := by
  unfold TolerationsTolerateTaint getAllTolerationPreferNoSchedule
  rw [List.any_filter]
  apply congrArg (List.any tolerations)
  funext t
  cases htol : t.ToleratesTaint taint with
  | false => simp
  | true =>
      have heff := ((Toleration.ToleratesTaint_iff t taint).mp htol).1
      rw [he] at heff
      rcases heff with h0 | h1
      · simp [h0]
      · simp [h1]

theorem countIntolerableTaintsPreferNoSchedule_getAll (pod : Pod) (node : Node) :
    countIntolerableTaintsPreferNoSchedule node.taints
        (getAllTolerationPreferNoSchedule pod.tolerations) =
      intolerablePreferNoSchedule pod node := by
  rw [countIntolerableTaintsPreferNoSchedule_eq, intolerablePreferNoSchedule]
  congr 1
  apply List.filter_congr
  intro taint _
  by_cases he : taint.effect = .PreferNoSchedule
  · rw [TolerationsTolerateTaint_getAll pod.tolerations he]
    simp [he, TolerationsTolerateTaint]
  · simp [he]

/-- **`Score` after `PreScore` is the node's number of untolerated `PreferNoSchedule` taints.** -/
theorem Score_PreScore (pod : Pod) {nodes : List Node} (hnodes : nodes ≠ []) {nodeInfo : NodeInfo}
    {node : Node} (hn : nodeInfo.node = some node) (nodeName : String) :
    Score (PreScore pod nodes) (.ok nodeInfo) nodeName =
      .ok (Int64.ofNat (intolerablePreferNoSchedule pod node)) := by
  have hlen : nodes.length ≠ 0 := by simpa using hnodes
  simp only [Score, PreScore, if_neg hlen, hn]
  rw [countIntolerableTaintsPreferNoSchedule_getAll]

/-! ### `NormalizeScore` after `Score` -/

/-- What `Score` counts on a `NodeInfo`, `0` for one without a node. -/
def intolerableOf (pod : Pod) (nodeInfo : NodeInfo) : ℕ :=
  (nodeInfo.node.map (intolerablePreferNoSchedule pod)).getD 0

theorem intolerablePreferNoSchedule_le (pod : Pod) (node : Node) :
    intolerablePreferNoSchedule pod node ≤ node.taints.length :=
  List.length_filter_le _ _

theorem scoresFit_intolerableOf (pod : Pod) {nodeInfos : List NodeInfo}
    (hnode : ∀ ni ∈ nodeInfos, ∃ node, ni.node = some node ∧ 100 * node.taints.length < 2 ^ 63) :
    helper.ScoresFit NodeResources.MaxNodeScore
      (nodeInfos.map fun ni => Int64.ofNat (intolerableOf pod ni)) := by
  refine ⟨by decide, ?_⟩
  intro s hs
  obtain ⟨ni, hni, rfl⟩ := List.mem_map.mp hs
  obtain ⟨node, hn, hfit⟩ := hnode ni hni
  have hle := intolerablePreferNoSchedule_le pod node
  have hval : (Int64.ofNat (intolerableOf pod ni)).toInt = intolerableOf pod ni := by
    rw [Int64.toInt_ofNat_of_lt (by simp only [intolerableOf, hn, Option.map_some, Option.getD_some]; omega)]
  rw [hval, show NodeResources.MaxNodeScore.toInt = 100 by decide]
  simp only [intolerableOf, hn, Option.map_some, Option.getD_some]
  omega

/-- **After `NormalizeScore`, a node with fewer untolerated `PreferNoSchedule` taints scores at
least as high**: `Score` succeeds on every node with the count, and `NormalizeScore` turns the
counts into scores in `[0, MaxNodeScore]` by one function that falls as the count grows and
gives `MaxNodeScore` to a count of zero. -/
theorem NormalizeScore_Score (pod : Pod) {nodes : List Node} (hnodes : nodes ≠ [])
    (nodeInfos : List NodeInfo) (nodeName : NodeInfo → String)
    (hnode : ∀ ni ∈ nodeInfos, ∃ node, ni.node = some node ∧ 100 * node.taints.length < 2 ^ 63) :
    ∃ f : ℕ → Int64,
      (nodeInfos.mapM fun ni => Score (PreScore pod nodes) (.ok ni) (nodeName ni)).map
          NormalizeScore = .ok (nodeInfos.map fun ni => f (intolerableOf pod ni)) ∧
      (∀ ni ∈ nodeInfos, 0 ≤ (f (intolerableOf pod ni)).toInt ∧
        (f (intolerableOf pod ni)).toInt ≤ 100) ∧
      (∀ a ∈ nodeInfos, ∀ b ∈ nodeInfos, intolerableOf pod a ≤ intolerableOf pod b →
        (f (intolerableOf pod b)).toInt ≤ (f (intolerableOf pod a)).toInt) ∧
      (∀ a ∈ nodeInfos, intolerableOf pod a = 0 → (f (intolerableOf pod a)).toInt = 100) := by
  have hfit := scoresFit_intolerableOf pod hnode
  obtain ⟨g, hg, hmem, hmono, -, hzero⟩ := helper.DefaultNormalizeScore_spec true hfit
  have hval : ∀ ni ∈ nodeInfos, (Int64.ofNat (intolerableOf pod ni)).toInt = intolerableOf pod ni := by
    intro ni hni
    have := (hfit.2 _ (List.mem_map_of_mem hni)).2
    obtain ⟨node, hn, hlen⟩ := hnode ni hni
    have hle := intolerablePreferNoSchedule_le pod node
    apply Int64.toInt_ofNat_of_lt
    simp only [intolerableOf, hn, Option.map_some, Option.getD_some]
    omega
  have hmax : NodeResources.MaxNodeScore.toInt = 100 := by decide
  have hscores : (nodeInfos.mapM fun ni => Score (PreScore pod nodes) (.ok ni) (nodeName ni)) =
      .ok (nodeInfos.map fun ni => Int64.ofNat (intolerableOf pod ni)) := by
    apply StepSystem.mapM_eq_ok_map
    intro ni hni
    obtain ⟨node, hn, -⟩ := hnode ni hni
    rw [Score_PreScore pod hnodes hn]
    simp [intolerableOf, hn]
  refine ⟨fun c => g (Int64.ofNat c), ?_, ?_, ?_, ?_⟩
  · rw [hscores]
    show Except.ok (NormalizeScore _) = _
    rw [NormalizeScore, hg, List.map_map]
    rfl
  · intro ni hni
    have := hmem _ (List.mem_map_of_mem hni)
    rw [hmax] at this
    exact this
  · intro a ha b hb hab
    have := hmono _ (List.mem_map_of_mem ha) _ (List.mem_map_of_mem hb)
      (by rw [hval a ha, hval b hb]; exact_mod_cast hab)
    simpa using this
  · intro a ha h0
    have := hzero rfl _ (List.mem_map_of_mem ha) (by rw [hval a ha, h0]; rfl)
    rw [hmax] at this
    exact this

/-- Two nodes, one tainted `PreferNoSchedule` and one clean, for a pod without tolerations. -/
theorem NormalizeScore_Score_two :
    let tainted : NodeInfo := { node := some { taints := [{ key := "k", effect := .PreferNoSchedule }] } }
    let clean : NodeInfo := { node := some {} }
    ∃ f : ℕ → Int64,
      ([tainted, clean].mapM fun ni => Score (PreScore {} [{}]) (.ok ni) "n").map
          NormalizeScore = .ok ([tainted, clean].map fun ni => f (intolerableOf {} ni)) ∧
      (∀ ni ∈ [tainted, clean], 0 ≤ (f (intolerableOf {} ni)).toInt ∧
        (f (intolerableOf {} ni)).toInt ≤ 100) ∧
      (∀ a ∈ [tainted, clean], ∀ b ∈ [tainted, clean], intolerableOf {} a ≤ intolerableOf {} b →
        (f (intolerableOf {} b)).toInt ≤ (f (intolerableOf {} a)).toInt) ∧
      (∀ a ∈ [tainted, clean], intolerableOf {} a = 0 → (f (intolerableOf {} a)).toInt = 100) := by
  intro tainted clean
  exact NormalizeScore_Score {} (show ([{}] : List Node) ≠ [] by simp) [tainted, clean] (fun _ => "n")
    (by simp [tainted, clean])

end TaintToleration

end Caspr
