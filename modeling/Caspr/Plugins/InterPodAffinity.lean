import Caspr.Framework.Interface
import Caspr.Lib.Counter

/-! # Inter-pod affinity, the filter (plugins/interpodaffinity/filtering.go)

`PreFilter` counts, for every topology pair (a key and a node's value for it), three things:

* the existing pods whose required anti-affinity terms select the incoming pod, over the nodes
  of the snapshot that hold pods with required anti-affinity, and on each node over those pods;
* the existing pods that match every required affinity term of the incoming pod;
* the existing pods that match a required anti-affinity term of the incoming pod;

each once for every term whose key the pod's node carries.  `Filter` then rejects a node that
lacks a key of the pod's affinity, or whose pairs have no matching pod (unless no pod matches
anywhere and the pod matches its own terms), a node with a pair counted by the pod's
anti-affinity, and a node with a pair counted by an existing pod's anti-affinity.

`AddPod` and `RemovePod` (`updateWithPod`) add or subtract the contributions of one pod on one
node, deleting a counter once it is back to zero.

*Modelling.*  The counters are `Counter` maps; the loops over maps visit their entries in the
list's order, and the per-node maps that `PreFilter` computes in parallel are merged in the
order of the nodes, which does not change the sums.  `NewPodInfo` never fails on a selector
here (see `LabelSelectorAsSelector`), so `PreFilter` never returns its parse error and its state
is a value.  A `PodInfo` is its pod, whose terms are `RequiredAffinityTerms` and
`RequiredAntiAffinityTerms`. -/

namespace Caspr

namespace InterPodAffinity

/-- `topologyPair`. -/
structure topologyPair where
  key : String
  value : String
deriving DecidableEq, Repr

/-- `topologyToMatchedTermCount`. -/
abbrev topologyToMatchedTermCount := AList fun _ : topologyPair => ℤ

/-- `ErrReasonExistingAntiAffinityRulesNotMatch`. -/
def ErrReasonExistingAntiAffinityRulesNotMatch : String :=
  "node(s) didn't satisfy existing pods anti-affinity rules"

/-- `ErrReasonAffinityNotMatch`. -/
def ErrReasonAffinityNotMatch : String := "node(s) didn't match pod affinity/anti-affinity"

/-- `ErrReasonAffinityRulesNotMatch`. -/
def ErrReasonAffinityRulesNotMatch : String := "node(s) didn't match pod affinity rules"

/-- `ErrReasonAntiAffinityRulesNotMatch`. -/
def ErrReasonAntiAffinityRulesNotMatch : String := "node(s) didn't match pod anti-affinity rules"

/-- `podMatchesAllAffinityTerms(pod, terms)`: false for no terms. -/
def podMatchesAllAffinityTerms (pod : Pod) (terms : List AffinityTerm) : Bool :=
  if terms.length = 0 then false
  else terms.all fun term => PodMatchesTermsNamespaceAndSelector pod term.Namespaces term.Selector

/-- The body of the loops of `updateWith(Anti)AffinityTerms` for one term: `value` is added to
the counter of the term's pair on the node, if the node carries the key. -/
def addTermPair (m : topologyToMatchedTermCount) (targetPodNode : Node) (t : AffinityTerm)
    (value : ℤ) : topologyToMatchedTermCount :=
  match targetPodNode.labels.lookup t.TopologyKey with
  | some topologyValue => Counter.add m ⟨t.TopologyKey, topologyValue⟩ value
  | none => m

/-- `m.updateWithAffinityTerms(targetPod, targetPodNode, affinityTerms, value)`: every term
counts when the pod matches all of them. -/
def updateWithAffinityTerms (m : topologyToMatchedTermCount) (targetPod : Pod)
    (targetPodNode : Node) (affinityTerms : List AffinityTerm) (value : ℤ) :
    topologyToMatchedTermCount :=
  if podMatchesAllAffinityTerms targetPod affinityTerms then
    affinityTerms.foldl (fun m t => addTermPair m targetPodNode t value) m
  else m

/-- `m.updateWithAntiAffinityTerms(targetPod, targetPodNode, antiAffinityTerms, value)`: each
term that matches the pod counts. -/
def updateWithAntiAffinityTerms (m : topologyToMatchedTermCount) (targetPod : Pod)
    (targetPodNode : Node) (antiAffinityTerms : List AffinityTerm) (value : ℤ) :
    topologyToMatchedTermCount :=
  antiAffinityTerms.foldl (fun m a =>
    if PodMatchesTermsNamespaceAndSelector targetPod a.Namespaces a.Selector then
      addTermPair m targetPodNode a value
    else m) m

/-- `preFilterState`; `podInfo` is the incoming pod. -/
structure preFilterState where
  topologyToMatchedExistingAntiAffinityTerms : topologyToMatchedTermCount
  topologyToMatchedAffinityTerms : topologyToMatchedTermCount
  topologyToMatchedAntiAffinityTerms : topologyToMatchedTermCount
  podInfo : Pod

namespace preFilterState

/-- `s.updateWithPod(updatedPod, node, multiplier)`. -/
def updateWithPod (s : preFilterState) (updatedPod : Pod) (node : Node) (multiplier : ℤ) :
    preFilterState :=
  { s with
    topologyToMatchedExistingAntiAffinityTerms :=
      updateWithAntiAffinityTerms s.topologyToMatchedExistingAntiAffinityTerms s.podInfo node
        (RequiredAntiAffinityTerms updatedPod) multiplier
    topologyToMatchedAffinityTerms :=
      updateWithAffinityTerms s.topologyToMatchedAffinityTerms updatedPod node
        (RequiredAffinityTerms s.podInfo) multiplier
    topologyToMatchedAntiAffinityTerms :=
      updateWithAntiAffinityTerms s.topologyToMatchedAntiAffinityTerms updatedPod node
        (RequiredAntiAffinityTerms s.podInfo) multiplier }

/-- Whether `updateWithPod` reads the labels of the node: some term of one pod matches the
other. -/
def readsNode (s : preFilterState) (updatedPod : Pod) : Bool :=
  (RequiredAntiAffinityTerms updatedPod).any
      (fun a => PodMatchesTermsNamespaceAndSelector s.podInfo a.Namespaces a.Selector) ||
    podMatchesAllAffinityTerms updatedPod (RequiredAffinityTerms s.podInfo) ||
    (RequiredAntiAffinityTerms s.podInfo).any
      (fun a => PodMatchesTermsNamespaceAndSelector updatedPod a.Namespaces a.Selector)

end preFilterState

/-- `updateWithPod` on `nodeInfo.Node()`: reading the labels of a nil node panics. -/
def updateWithNode (s : preFilterState) (updatedPod : Pod) (node : Option Node)
    (multiplier : ℤ) : Except Go.Abort preFilterState :=
  match node with
  | some node => .ok (s.updateWithPod updatedPod node multiplier)
  | none => if s.readsNode updatedPod then .error .nilPointerDereference else .ok s

/-- `pl.AddPod(…, podToSchedule, podToAdd, nodeInfo)` on the state `PreFilter` wrote. -/
def AddPod (s : preFilterState) (podToAdd : Pod) (nodeInfo : NodeInfo) :
    Except Go.Abort preFilterState :=
  updateWithNode s podToAdd nodeInfo.node 1

/-- `pl.RemovePod(…, podToSchedule, podToRemove, nodeInfo)` on the state `PreFilter` wrote. -/
def RemovePod (s : preFilterState) (podToRemove : Pod) (nodeInfo : NodeInfo) :
    Except Go.Abort preFilterState :=
  updateWithNode s podToRemove nodeInfo.node (-1)

/-! ### `PreFilter` -/

/-- The `processNode` closure of `getTPMapMatchingExistingAntiAffinity` for one node: the map
over its pods with required anti-affinity, kept when it is not empty. -/
def existingAntiAffinityOfNode (pod : Pod) (nodeInfo : NodeInfo) :
    Option topologyToMatchedTermCount :=
  match nodeInfo.node with
  | none => none
  | some node =>
      let topoMap := nodeInfo.podsWithRequiredAntiAffinity.foldl (fun topoMap existingPod =>
        updateWithAntiAffinityTerms topoMap pod node (RequiredAntiAffinityTerms existingPod) 1) ∅
      if topoMap.entries.length ≠ 0 then some topoMap else none

/-- `getTPMapMatchingExistingAntiAffinity(pod, nodes)`: the maps of the nodes, merged. -/
def getTPMapMatchingExistingAntiAffinity (pod : Pod) (nodes : List NodeInfo) :
    topologyToMatchedTermCount :=
  (nodes.filterMap (existingAntiAffinityOfNode pod)).foldl Counter.append ∅

/-- The `processNode` closure of `getTPMapMatchingIncomingAffinityAntiAffinity` for one node: the
two maps over all its pods, kept when one of them is not empty. -/
def incomingAffinityAntiAffinityOfNode (podInfo : Pod) (nodeInfo : NodeInfo) :
    Option (topologyToMatchedTermCount × topologyToMatchedTermCount) :=
  match nodeInfo.node with
  | none => none
  | some node =>
      let maps := nodeInfo.pods.foldl (fun maps existingPod =>
        (updateWithAffinityTerms maps.1 existingPod node (RequiredAffinityTerms podInfo) 1,
          updateWithAntiAffinityTerms maps.2 existingPod node (RequiredAntiAffinityTerms podInfo) 1))
        (∅, ∅)
      if maps.1.entries.length > 0 ∨ maps.2.entries.length > 0 then some maps else none

/-- `getTPMapMatchingIncomingAffinityAntiAffinity(podInfo, allNodes)`: the maps of the nodes,
merged; nothing when the pod has no terms. -/
def getTPMapMatchingIncomingAffinityAntiAffinity (podInfo : Pod) (allNodes : List NodeInfo) :
    topologyToMatchedTermCount × topologyToMatchedTermCount :=
  if (RequiredAffinityTerms podInfo).length = 0 ∧ (RequiredAntiAffinityTerms podInfo).length = 0 then
    (∅, ∅)
  else
    (allNodes.filterMap (incomingAffinityAntiAffinityOfNode podInfo)).foldl
      (fun counts maps => (Counter.append counts.1 maps.1, Counter.append counts.2 maps.2)) (∅, ∅)

/-- `HavePodsWithRequiredAntiAffinityList()` of a snapshot whose `List()` is `allNodes`: the nodes
that keep a pod with required anti-affinity, as `updateNodeInfoSnapshotList` selects them. -/
def havePodsWithRequiredAntiAffinityList (allNodes : List NodeInfo) : List NodeInfo :=
  allNodes.filter fun n => 0 < n.podsWithRequiredAntiAffinity.length

/-- `pl.PreFilter(…, pod)` on the snapshot's `List()` and `HavePodsWithRequiredAntiAffinityList()`:
the state it writes. -/
def PreFilter (allNodes nodesWithRequiredAntiAffinityPods : List NodeInfo) (pod : Pod) :
    preFilterState :=
  let incoming := getTPMapMatchingIncomingAffinityAntiAffinity pod allNodes
  { topologyToMatchedAffinityTerms := incoming.1
    topologyToMatchedAntiAffinityTerms := incoming.2
    topologyToMatchedExistingAntiAffinityTerms :=
      getTPMapMatchingExistingAntiAffinity pod nodesWithRequiredAntiAffinityPods
    podInfo := pod }

/-! ### `Filter` -/

/-- `satisfyExistingPodsAntiAffinity(state, nodeInfo)`: no label of the node is a pair counted by
an existing pod's anti-affinity. -/
def satisfyExistingPodsAntiAffinity (state : preFilterState) (node : Node) : Bool :=
  if state.topologyToMatchedExistingAntiAffinityTerms.entries.length > 0 then
    node.labels.entries.all fun l =>
      !(Counter.get state.topologyToMatchedExistingAntiAffinityTerms ⟨l.1, l.2⟩ > 0)
  else true

/-- `satisfyPodAntiAffinity(state, nodeInfo)`: no pair of the node under a key of the pod's
anti-affinity is counted. -/
def satisfyPodAntiAffinity (state : preFilterState) (node : Node) : Bool :=
  if state.topologyToMatchedAntiAffinityTerms.entries.length > 0 then
    (RequiredAntiAffinityTerms state.podInfo).all fun term =>
      match node.labels.lookup term.TopologyKey with
      | some topologyValue =>
          !(Counter.get state.topologyToMatchedAntiAffinityTerms ⟨term.TopologyKey, topologyValue⟩ > 0)
      | none => true
  else true

/-- `satisfyPodAffinity(state, nodeInfo)`.  The loop returns `false` at the first term whose key
the node lacks; otherwise `podsExist` says whether every term's pair is counted, and when it is
not, the pod may still go where no pod matches yet if it matches its own terms. -/
def satisfyPodAffinity (state : preFilterState) (node : Node) : Bool :=
  let terms := RequiredAffinityTerms state.podInfo
  if terms.any fun term => (node.labels.lookup term.TopologyKey).isNone then false
  else
    let podsExist := terms.all fun term =>
      match node.labels.lookup term.TopologyKey with
      | some topologyValue =>
          decide (Counter.get state.topologyToMatchedAffinityTerms ⟨term.TopologyKey, topologyValue⟩ > 0)
      | none => true
    if !podsExist then
      decide (state.topologyToMatchedAffinityTerms.entries.length = 0) &&
        podMatchesAllAffinityTerms state.podInfo terms
    else true

/-- `pl.Filter(…, pod, nodeInfo)` on the state `PreFilter` wrote; `none` is the nil status. -/
def Filter (state : preFilterState) (nodeInfo : NodeInfo) : Option Status :=
  match nodeInfo.node with
  | none => some ⟨.Error, ["node not found"]⟩
  | some node =>
      if !satisfyPodAffinity state node then
        some ⟨.UnschedulableAndUnresolvable,
          [ErrReasonAffinityNotMatch, ErrReasonAffinityRulesNotMatch]⟩
      else if !satisfyPodAntiAffinity state node then
        some ⟨.Unschedulable, [ErrReasonAffinityNotMatch, ErrReasonAntiAffinityRulesNotMatch]⟩
      else if !satisfyExistingPodsAntiAffinity state node then
        some ⟨.Unschedulable,
          [ErrReasonAffinityNotMatch, ErrReasonExistingAntiAffinityRulesNotMatch]⟩
      else none

end InterPodAffinity

end Caspr
