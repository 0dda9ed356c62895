import Caspr.Framework.Interface
import Caspr.Lib.Go
import Caspr.Lib.NestedCounter
import Mathlib.Tactic.Ring

/-! # Inter-pod affinity, the score (plugins/interpodaffinity/scoring.go)

`PreScore` sums, per topology pair (a key and a node's value for it), the signed weights that
every existing pod and the incoming pod give each other: the incoming pod's preferred
(anti-)affinity terms that the existing pod matches, and the existing pod's required affinity
terms (with the plugin's `HardPodAffinityWeight`, when it is positive) and preferred
(anti-)affinity terms that the incoming pod matches, each under the value of the term's key on
the existing pod's node.  `Score` of a node then adds the sums of the pairs it carries.

`PreScore` computes one map per node in parallel, stores the non-empty ones in the slots of an
array in the order the nodes reach an atomic counter, and merges the slots.  When the incoming
pod has no preferred terms it visits only the nodes of the snapshot that hold pods with
affinity, and on them only those pods.

The score of a node is what the definition says, over every node and every pod of the snapshot,
in every order of the parallel calls (`Score_after_PreScore_eq`):

* a map's `total` under a node's labels adds up as its counters do (`NestedCounter`), so the
  merge adds the totals of the per-node maps, in any order of the slots;
* a pod without affinity gives nothing to an incoming pod without preferred terms, and a node
  not in the affinity list holds no other pods, so the fast path leaves out only zeros.

*Modelling.*  The scores are integers: they add `int32` weights, one per pair of pods and term,
far from the bounds of `int64`.  The weight of a term times the multiplier is taken in `int32`,
as the code does.  The order of the calls of `processNode` is a list of the indices of the nodes
(`order`); every interleaving is one such list.  `NewPodInfo` never fails on a selector here (see
`LabelSelectorAsSelector`), the shared lister is always set and its lists never fail, so
`PreScore` returns no error; it writes a state exactly when there are nodes to score. -/

namespace Caspr

namespace InterPodAffinity

open NestedCounter

/-- `Name`. -/
def Name : String := "InterPodAffinity"

/-- `preScoreStateKey`. -/
def preScoreStateKey : String := "PreScore" ++ Name

/-- `scoreMap`: per topology key, per value, the summed weights. -/
abbrev scoreMap := AList fun _ : String => AList fun _ : String => ℤ

/-- `preScoreState`; `podInfo` is the incoming pod. -/
structure preScoreState where
  topologyScore : scoreMap
  podInfo : Pod

namespace scoreMap

/-- `m.processTerm(term, podToCheck, fixedNode, multiplier)`. -/
def processTerm (m : scoreMap) (term : WeightedAffinityTerm) (podToCheck : Pod) (fixedNode : Node)
    (multiplier : Int32) : scoreMap :=
  if fixedNode.labels.entries.length = 0 then m
  else
    match fixedNode.labels.lookup term.TopologyKey with
    | some tpValue =>
        if PodMatchesTermsNamespaceAndSelector podToCheck term.Namespaces term.Selector then
          inc m term.TopologyKey tpValue (term.Weight * multiplier).toInt
        else m
    | none => m

/-- `m.processTerms(terms, podToCheck, fixedNode, multiplier)`. -/
def processTerms (m : scoreMap) (terms : List WeightedAffinityTerm) (podToCheck : Pod)
    (fixedNode : Node) (multiplier : Int32) : scoreMap :=
  terms.foldl (fun m term => m.processTerm term podToCheck fixedNode multiplier) m

end scoreMap

/-- `pl.processExistingPod(state, existingPod, existingPodNodeInfo, incomingPod, topoScore)` on the
node `existingPodNode` of the `NodeInfo`, which `processNode` has checked is not `nil`. -/
def processExistingPod (hardPodAffinityWeight : Int32) (state : preScoreState) (existingPod : Pod)
    (existingPodNode : Node) (incomingPod : Pod) (topoScore : scoreMap) : scoreMap :=
  let topoScore :=
    topoScore.processTerms (PreferredAffinityTerms state.podInfo) existingPod existingPodNode 1
  let topoScore :=
    topoScore.processTerms (PreferredAntiAffinityTerms state.podInfo) existingPod existingPodNode (-1)
  let topoScore :=
    if hardPodAffinityWeight > 0 then
      (RequiredAffinityTerms existingPod).foldl (fun topoScore term =>
        topoScore.processTerm { toAffinityTerm := term, Weight := hardPodAffinityWeight } incomingPod
          existingPodNode 1) topoScore
    else topoScore
  let topoScore :=
    topoScore.processTerms (PreferredAffinityTerms existingPod) incomingPod existingPodNode 1
  topoScore.processTerms (PreferredAntiAffinityTerms existingPod) incomingPod existingPodNode (-1)

/-- `hasPreferredAffinityConstraints` of `PreScore`. -/
def hasPreferredAffinityConstraints (pod : Pod) : Bool :=
  match pod.affinity with
  | some a =>
      match a.podAffinity with
      | some pa => decide (pa.preferredDuringSchedulingIgnoredDuringExecution.length > 0)
      | none => false
  | none => false

/-- `hasPreferredAntiAffinityConstraints` of `PreScore`. -/
def hasPreferredAntiAffinityConstraints (pod : Pod) : Bool :=
  match pod.affinity with
  | some a =>
      match a.podAntiAffinity with
      | some pa => decide (pa.preferredDuringSchedulingIgnoredDuringExecution.length > 0)
      | none => false
  | none => false

/-- Whether `PreScore` visits every node and every pod. -/
def hasPreferredConstraints (pod : Pod) : Bool :=
  hasPreferredAffinityConstraints pod || hasPreferredAntiAffinityConstraints pod

/-- `allNodes` of `PreScore`: the snapshot's `List()`, or its `HavePodsWithAffinityList()` when
the pod has no preferred terms. -/
def preScoreNodes (pod : Pod) (allNodesList havePodsWithAffinityList : List NodeInfo) :
    List NodeInfo :=
  if hasPreferredConstraints pod then allNodesList else havePodsWithAffinityList

/-- The `processNode` closure of `PreScore` on one node: the map over the pods it processes, kept
when it is not empty. -/
def processNode (hardPodAffinityWeight : Int32) (state : preScoreState) (pod : Pod)
    (nodeInfo : NodeInfo) : Option scoreMap :=
  match nodeInfo.node with
  | none => none
  | some node =>
      let podsToProcess :=
        if hasPreferredConstraints pod then nodeInfo.pods else nodeInfo.podsWithAffinity
      let topoScore := podsToProcess.foldl (fun topoScore existingPod =>
        processExistingPod hardPodAffinityWeight state existingPod node pod topoScore) ∅
      if topoScore.entries.length > 0 then some topoScore else none

/-- `pl.PreScore(…, pod, nodes)` on a snapshot whose `List()` is `allNodesList` and whose
`HavePodsWithAffinityList()` is `havePodsWithAffinityList`: the state it writes, none when there
are no nodes to score.  The non-empty maps take the slots of `topoScores` in the order `order` in
which the calls of `processNode`, one per index of `allNodes`, reach the atomic counter. -/
def PreScore (hardPodAffinityWeight : Int32) (allNodesList havePodsWithAffinityList : List NodeInfo)
    (pod : Pod) (nodes : List Node) (order : List ℕ) : Option preScoreState :=
  if nodes.length = 0 then none
  else
    let allNodes := preScoreNodes pod allNodesList havePodsWithAffinityList
    let state : preScoreState := { topologyScore := ∅, podInfo := pod }
    let topoScores := order.filterMap fun i =>
      allNodes[i]?.bind (processNode hardPodAffinityWeight state pod)
    some { state with topologyScore := topoScores.foldl NestedCounter.append state.topologyScore }

/-- The message of `getPreScoreState` when `PreScore` wrote no state (`CycleState.Read`'s
`not found`). -/
def errReadPreScoreState : String :=
  "failed to read " ++ Go.Quote preScoreStateKey ++ " from cycleState: not found"

/-- `pl.Score(…, cycleState, pod, nodeName)`, where `nodeInfo` is what the snapshot's
`Get(nodeName)` returned (a `NodeInfo` with a node, or its error) and `state` what `PreScore`
wrote to the cycle state. -/
def Score (state : Option preScoreState) (nodeInfo : Except String NodeInfo) (nodeName : String) :
    Except Status ℤ :=
  match nodeInfo with
  | .error err =>
      .error (NewStatus .Error
        ("getting node " ++ Go.Quote nodeName ++ " from Snapshot: " ++ err ++ ", node is nil: true"))
  | .ok nodeInfo =>
      match nodeInfo.node with
      | none =>
          .error (NewStatus .Error
            ("getting node " ++ Go.Quote nodeName ++ " from Snapshot: <nil>, node is nil: true"))
      | some node =>
          match state with
          | none => .error (NewStatus .Error errReadPreScoreState)
          | some s => .ok (total s.topologyScore node.labels.lookup)

/-! ### What the score is -/

/-- `n` carries the value that `fixedNode` has under `key`. -/
def sameTopology (fixedNode n : Node) (key : String) : Prop :=
  (fixedNode.labels.lookup key).isSome ∧ fixedNode.labels.lookup key = n.labels.lookup key

instance (fixedNode n : Node) (key : String) : Decidable (sameTopology fixedNode n key) :=
  inferInstanceAs (Decidable (_ ∧ _))

/-- What a term of one pod gives the score of node `n`, for the other pod `podToCheck` on node
`fixedNode`: its weight times the multiplier, when the pod matches the term and the two nodes
carry the same value under the term's key. -/
def termScore (n fixedNode : Node) (podToCheck : Pod) (multiplier : Int32)
    (term : WeightedAffinityTerm) : ℤ :=
  if PodMatchesTermsNamespaceAndSelector podToCheck term.Namespaces term.Selector = true ∧
      sameTopology fixedNode n term.TopologyKey then (term.Weight * multiplier).toInt
  else 0

/-- What the existing pod `existingPod` on `existingPodNode` and the incoming pod `pod` give the
score of `n` through the terms of both. -/
def existingPodScore (hardPodAffinityWeight : Int32) (pod existingPod : Pod)
    (existingPodNode n : Node) : ℤ :=
  ((PreferredAffinityTerms pod).map (termScore n existingPodNode existingPod 1)).sum +
    ((PreferredAntiAffinityTerms pod).map (termScore n existingPodNode existingPod (-1))).sum +
    (if hardPodAffinityWeight > 0 then
      ((RequiredAffinityTerms existingPod).map fun term =>
        termScore n existingPodNode pod 1
          { toAffinityTerm := term, Weight := hardPodAffinityWeight }).sum
    else 0) +
    ((PreferredAffinityTerms existingPod).map (termScore n existingPodNode pod 1)).sum +
    ((PreferredAntiAffinityTerms existingPod).map (termScore n existingPodNode pod (-1))).sum

/-- What the pods of a node give the score of `n`; nothing for a `NodeInfo` without a node. -/
def nodeScore (hardPodAffinityWeight : Int32) (pod : Pod) (nodeInfo : NodeInfo) (n : Node) : ℤ :=
  match nodeInfo.node with
  | some node => (nodeInfo.pods.map fun e => existingPodScore hardPodAffinityWeight pod e node n).sum
  | none => 0

/-- The affinity score of `n` for `pod`: what every pod of every node gives it. -/
def affinityScore (hardPodAffinityWeight : Int32) (pod : Pod) (allNodes : List NodeInfo)
    (n : Node) : ℤ :=
  (allNodes.map (nodeScore hardPodAffinityWeight pod · n)).sum

/-! ### The maps of `PreScore`, read by a node's labels -/

section totals

variable (n : Node)

theorem lookup_eq_none_of_length {l : AList fun _ : String => String}
    (h : l.entries.length = 0) (key : String) : l.lookup key = none := by
  simp [AList.lookup, List.length_eq_zero_iff.mp h]

theorem total_processTerm (m : scoreMap) (term : WeightedAffinityTerm) (podToCheck : Pod)
    (fixedNode : Node) (multiplier : Int32) :
    total (m.processTerm term podToCheck fixedNode multiplier) n.labels.lookup =
      total m n.labels.lookup + termScore n fixedNode podToCheck multiplier term := by
  by_cases hlen : fixedNode.labels.entries.length = 0
  · have hnone := lookup_eq_none_of_length hlen term.TopologyKey
    simp [scoreMap.processTerm, hlen, termScore, sameTopology, hnone]
  · cases hv : fixedNode.labels.lookup term.TopologyKey with
    | none => simp [scoreMap.processTerm, hlen, hv, termScore, sameTopology]
    | some tpValue =>
        by_cases hm : PodMatchesTermsNamespaceAndSelector podToCheck term.Namespaces term.Selector
        · simp only [scoreMap.processTerm, if_neg hlen, hv, if_pos hm]
          rw [total_inc]
          simp [termScore, sameTopology, hv, hm, eq_comm]
        · simp [scoreMap.processTerm, hlen, hv, hm, termScore]

theorem total_processTerms (m : scoreMap) (terms : List WeightedAffinityTerm) (podToCheck : Pod)
    (fixedNode : Node) (multiplier : Int32) :
    total (m.processTerms terms podToCheck fixedNode multiplier) n.labels.lookup =
      total m n.labels.lookup + (terms.map (termScore n fixedNode podToCheck multiplier)).sum :=
  foldl_add_sum _ (total · n.labels.lookup) _
    (fun m term => total_processTerm n m term podToCheck fixedNode multiplier) terms m

/-- **One existing pod adds its score.** -/
theorem total_processExistingPod (hardPodAffinityWeight : Int32) (state : preScoreState)
    (existingPod : Pod) (existingPodNode : Node) (topoScore : scoreMap) :
    total (processExistingPod hardPodAffinityWeight state existingPod existingPodNode state.podInfo
        topoScore) n.labels.lookup =
      total topoScore n.labels.lookup +
        existingPodScore hardPodAffinityWeight state.podInfo existingPod existingPodNode n := by
  have hhard : ∀ t : scoreMap,
      total (if hardPodAffinityWeight > 0 then
          (RequiredAffinityTerms existingPod).foldl (fun t term =>
            scoreMap.processTerm t { toAffinityTerm := term, Weight := hardPodAffinityWeight }
              state.podInfo existingPodNode 1) t
        else t) n.labels.lookup =
        total t n.labels.lookup + if hardPodAffinityWeight > 0 then
          ((RequiredAffinityTerms existingPod).map fun term =>
            termScore n existingPodNode state.podInfo 1
              { toAffinityTerm := term, Weight := hardPodAffinityWeight }).sum
        else 0 := by
    intro t
    split_ifs
    · exact foldl_add_sum _ (total · n.labels.lookup) _
        (fun t term => total_processTerm n t
          { toAffinityTerm := term, Weight := hardPodAffinityWeight } state.podInfo existingPodNode 1)
        _ t
    · rw [add_zero]
  dsimp only [processExistingPod]
  rw [total_processTerms, total_processTerms, hhard, total_processTerms, total_processTerms]
  unfold existingPodScore
  ring

theorem total_of_length_eq_zero {m : scoreMap} (h : m.entries.length = 0) :
    total m n.labels.lookup = 0 := by
  simp [total_eq_sum_entries, List.length_eq_zero_iff.mp h]

theorem total_of_nonempty (t : scoreMap) :
    (if t.entries.length > 0 then some t else none).elim 0 (total · n.labels.lookup) =
      total t n.labels.lookup := by
  split_ifs with h
  · rfl
  · exact (total_of_length_eq_zero n (by omega)).symm

/-- **One node adds the score of the pods it processes**: the map `processNode` keeps, if any,
totals their scores. -/
theorem total_processNode (hardPodAffinityWeight : Int32) (pod : Pod) (nodeInfo : NodeInfo)
    {node : Node} (hnode : nodeInfo.node = some node) :
    (processNode hardPodAffinityWeight { topologyScore := ∅, podInfo := pod } pod nodeInfo).elim 0
        (total · n.labels.lookup) =
      ((if hasPreferredConstraints pod then nodeInfo.pods else nodeInfo.podsWithAffinity).map
        fun e => existingPodScore hardPodAffinityWeight pod e node n).sum := by
  have hfold := foldl_add_sum _ (total · n.labels.lookup) _
    (fun t e => total_processExistingPod n hardPodAffinityWeight
      { topologyScore := ∅, podInfo := pod } e node t)
    (if hasPreferredConstraints pod then nodeInfo.pods else nodeInfo.podsWithAffinity) ∅
  simp only [total_empty, zero_add] at hfold
  simp only [processNode, hnode]
  rw [total_of_nonempty, hfold]

theorem processNode_of_none (hardPodAffinityWeight : Int32) (state : preScoreState) (pod : Pod)
    {nodeInfo : NodeInfo} (hnode : nodeInfo.node = none) :
    processNode hardPodAffinityWeight state pod nodeInfo = none := by
  simp [processNode, hnode]

end totals

/-! ### The fast path -/

theorem PreferredAffinityTerms_eq_nil {pod : Pod} (h : hasPreferredAffinityConstraints pod = false) :
    PreferredAffinityTerms pod = [] := by
  unfold hasPreferredAffinityConstraints at h
  unfold PreferredAffinityTerms getWeightedAffinityTerms
  match ha : pod.affinity with
  | none => simp
  | some a =>
      rw [ha] at h
      cases hp : a.podAffinity with
      | none => simp [hp]
      | some pa => simp_all

theorem PreferredAntiAffinityTerms_eq_nil {pod : Pod}
    (h : hasPreferredAntiAffinityConstraints pod = false) : PreferredAntiAffinityTerms pod = [] := by
  unfold hasPreferredAntiAffinityConstraints at h
  unfold PreferredAntiAffinityTerms getWeightedAffinityTerms
  match ha : pod.affinity with
  | none => simp
  | some a =>
      rw [ha] at h
      cases hp : a.podAntiAffinity with
      | none => simp [hp]
      | some pa => simp_all

theorem terms_eq_nil_of_podWithAffinity {e : Pod} (h : podWithAffinity e = false) :
    RequiredAffinityTerms e = [] ∧ PreferredAffinityTerms e = [] ∧
      PreferredAntiAffinityTerms e = [] := by
  unfold podWithAffinity at h
  unfold RequiredAffinityTerms GetPodAffinityTerms getAffinityTerms PreferredAffinityTerms
    PreferredAntiAffinityTerms getWeightedAffinityTerms
  match ha : e.affinity with
  | none => simp
  | some a =>
      rw [ha] at h
      have hpa : a.podAffinity = none := by simpa using (Bool.or_eq_false_iff.mp h).1
      have hanti : a.podAntiAffinity = none := by simpa using (Bool.or_eq_false_iff.mp h).2
      simp [hpa, hanti]

/-- **A pod without affinity gives nothing to a pod without preferred terms.** -/
theorem existingPodScore_eq_zero (hardPodAffinityWeight : Int32) {pod e : Pod}
    (hp : hasPreferredConstraints pod = false) (he : podWithAffinity e = false)
    (existingPodNode n : Node) : existingPodScore hardPodAffinityWeight pod e existingPodNode n = 0 := by
  obtain ⟨hpa, hpanti⟩ := Bool.or_eq_false_iff.mp hp
  obtain ⟨hreq, hpref, hprefanti⟩ := terms_eq_nil_of_podWithAffinity he
  simp [existingPodScore, PreferredAffinityTerms_eq_nil hpa, PreferredAntiAffinityTerms_eq_nil hpanti,
    hreq, hpref, hprefanti]

section fastPath

variable (hardPodAffinityWeight : Int32) {pod : Pod} (n : Node)

/-- On a node whose `PodsWithAffinity` are its pods with affinity, those pods give all the score
of its pods. -/
theorem sum_podsWithAffinity (hp : hasPreferredConstraints pod = false) {nodeInfo : NodeInfo}
    (hpwa : nodeInfo.podsWithAffinity.Perm (nodeInfo.pods.filter podWithAffinity))
    (node : Node) :
    (nodeInfo.podsWithAffinity.map fun e => existingPodScore hardPodAffinityWeight pod e node n).sum =
      (nodeInfo.pods.map fun e => existingPodScore hardPodAffinityWeight pod e node n).sum := by
  rw [(hpwa.map _).sum_eq]
  exact Go.sum_map_filter_of_eq_zero _ _ _ fun e _ he =>
    existingPodScore_eq_zero hardPodAffinityWeight hp he node n

/-- What `PreScore` adds for a node it visits, from its map. -/
def visitScore (pod : Pod) (nodeInfo : NodeInfo) : ℤ :=
  (processNode hardPodAffinityWeight { topologyScore := ∅, podInfo := pod } pod nodeInfo).elim 0
    (total · n.labels.lookup)

/-- **The nodes `PreScore` visits give the score of every node**, on the fast path too. -/
theorem sum_visitScore (allNodesList havePodsWithAffinityList : List NodeInfo)
    (hhave : havePodsWithAffinityList.Perm
      (allNodesList.filter fun m => 0 < m.podsWithAffinity.length))
    (hpwa : ∀ m ∈ allNodesList, m.podsWithAffinity.Perm (m.pods.filter podWithAffinity)) :
    ((preScoreNodes pod allNodesList havePodsWithAffinityList).map
        (visitScore hardPodAffinityWeight n pod)).sum =
      affinityScore hardPodAffinityWeight pod allNodesList n := by
  have hnode : ∀ m : NodeInfo, visitScore hardPodAffinityWeight n pod m =
      match m.node with
      | some node =>
          ((if hasPreferredConstraints pod then m.pods else m.podsWithAffinity).map
            fun e => existingPodScore hardPodAffinityWeight pod e node n).sum
      | none => 0 := by
    intro m
    cases hm : m.node with
    | none => simp [visitScore, processNode_of_none _ _ _ hm]
    | some node => exact total_processNode n hardPodAffinityWeight pod m hm
  unfold preScoreNodes affinityScore
  cases hp : hasPreferredConstraints pod with
  | true =>
      refine congrArg List.sum (List.map_congr_left fun m _ => ?_)
      rw [hnode, hp]
      rfl
  | false =>
      have hsame : ∀ m ∈ allNodesList, visitScore hardPodAffinityWeight n pod m =
          nodeScore hardPodAffinityWeight pod m n := by
        intro m hm
        rw [hnode, hp, nodeScore]
        cases m.node with
        | none => rfl
        | some node => exact sum_podsWithAffinity hardPodAffinityWeight n hp (hpwa m hm) node
      have hzero : ∀ m ∈ allNodesList, decide (0 < m.podsWithAffinity.length) = false →
          visitScore hardPodAffinityWeight n pod m = 0 := by
        intro m _ hlen
        have hnil : m.podsWithAffinity = [] := by simpa using hlen
        rw [hnode, hp]
        cases m.node <;> simp [hnil]
      rw [if_neg (by simp), (hhave.map _).sum_eq,
        Go.sum_map_filter_of_eq_zero _ _ _ hzero]
      exact congrArg List.sum (List.map_congr_left hsame)

end fastPath

/-! ### `Score` after `PreScore` -/

/-- **The merged map totals what the visited nodes give**, in every order of the calls of
`processNode`. -/
theorem total_PreScore (hardPodAffinityWeight : Int32) (pod : Pod)
    (allNodesList havePodsWithAffinityList : List NodeInfo) {nodes : List Node} (hnodes : nodes ≠ [])
    {order : List ℕ}
    (horder : order.Perm (List.range (preScoreNodes pod allNodesList havePodsWithAffinityList).length)) :
    ∃ s, PreScore hardPodAffinityWeight allNodesList havePodsWithAffinityList pod nodes order = some s ∧
      ∀ n : Node, total s.topologyScore n.labels.lookup =
        ((preScoreNodes pod allNodesList havePodsWithAffinityList).map
          (visitScore hardPodAffinityWeight n pod)).sum := by
  have hlen : nodes.length ≠ 0 := by simpa using hnodes
  refine ⟨_, by simp only [PreScore, if_neg hlen]; rfl, fun n => ?_⟩
  rw [total_foldl_append, total_empty, zero_add, NestedCounter.sum_map_filterMap]
  exact sum_map_indices_of_perm (fun o => (o.bind _).elim 0 (total · n.labels.lookup)) _ horder

/-- **`Score` after `PreScore` is the affinity score**: on every snapshot whose affinity lists are
exact, for every incoming pod, hard weight, order of the parallel calls and node. -/
theorem Score_after_PreScore_eq (hardPodAffinityWeight : Int32) (pod : Pod)
    (allNodesList havePodsWithAffinityList : List NodeInfo)
    (hhave : havePodsWithAffinityList.Perm
      (allNodesList.filter fun m => 0 < m.podsWithAffinity.length))
    (hpwa : ∀ m ∈ allNodesList, m.podsWithAffinity.Perm (m.pods.filter podWithAffinity))
    (nodes : List Node) (hnodes : nodes ≠ []) (order : List ℕ)
    (horder : order.Perm (List.range (preScoreNodes pod allNodesList havePodsWithAffinityList).length))
    (nodeInfo : NodeInfo) (n : Node) (hn : nodeInfo.node = some n) (nodeName : String) :
    Score (PreScore hardPodAffinityWeight allNodesList havePodsWithAffinityList pod nodes order)
        (.ok nodeInfo) nodeName =
      .ok (affinityScore hardPodAffinityWeight pod allNodesList n) := by
  obtain ⟨s, hs, htotal⟩ :=
    total_PreScore hardPodAffinityWeight pod allNodesList havePodsWithAffinityList hnodes horder
  simp only [Score, hs, hn]
  rw [htotal n, sum_visitScore hardPodAffinityWeight n allNodesList havePodsWithAffinityList hhave hpwa]

/-- Two labelled nodes of one zone: the pod `e` on the first needs pods labelled `app=x` in its
zone, and the incoming pod, labelled so, prefers (weight `5`) pods labelled `app=web`, as `w` on
the second is; the parallel calls finish in the order second, first.  The first node scores
`1 + 5`. -/
theorem Score_after_PreScore_eq_twoNodes :
    let node₁ : Node := { name := "n1", labels := AList.singleton "zone" "a" }
    let node₂ : Node := { name := "n2", labels := AList.singleton "zone" "a" }
    let xTerm : PodAffinityTerm :=
      { labelSelector := some { matchLabels := [("app", "x")] }, topologyKey := "zone" }
    let webTerm : PodAffinityTerm :=
      { labelSelector := some { matchLabels := [("app", "web")] }, topologyKey := "zone" }
    let e : Pod :=
      { name := "e", labels := AList.singleton "app" "db",
        affinity := some
          { podAffinity := some { requiredDuringSchedulingIgnoredDuringExecution := [xTerm] } } }
    let w : Pod := { name := "w", labels := AList.singleton "app" "web" }
    let prefersWeb : PodAffinity :=
      { preferredDuringSchedulingIgnoredDuringExecution := [{ weight := 5, podAffinityTerm := webTerm }] }
    let pod : Pod :=
      { name := "p", labels := AList.singleton "app" "x",
        affinity := some { podAffinity := some prefersWeb } }
    let ni₁ : NodeInfo := { node := some node₁, pods := [e], podsWithAffinity := [e] }
    let ni₂ : NodeInfo := { node := some node₂, pods := [w] }
    Score (PreScore 1 [ni₁, ni₂] [ni₁] pod [node₁, node₂] [1, 0]) (.ok ni₁) "n1" =
        .ok (affinityScore 1 pod [ni₁, ni₂] node₁) ∧
      affinityScore 1 pod [ni₁, ni₂] node₁ = 6 := by
  intro node₁ node₂ xTerm webTerm e w prefersWeb pod ni₁ ni₂
  have hpwa : ∀ m ∈ [ni₁, ni₂], m.podsWithAffinity.Perm (m.pods.filter podWithAffinity) := by
    intro m hm
    simp only [List.mem_cons, List.not_mem_nil, or_false] at hm
    rcases hm with rfl | rfl
    · exact List.Perm.refl _
    · exact List.Perm.refl _
  exact ⟨Score_after_PreScore_eq 1 pod [ni₁, ni₂] [ni₁] (List.Perm.refl _) hpwa [node₁, node₂]
    (List.cons_ne_nil _ _) [1, 0] (List.Perm.swap 0 1 []) ni₁ node₁ rfl "n1", by decide⟩

end InterPodAffinity

end Caspr
