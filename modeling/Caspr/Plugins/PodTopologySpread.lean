import Caspr.Plugins.NodeAffinity
import Caspr.Framework.Interface

/-! # Pod topology spread, the filter's state (plugins/podtopologyspread/filtering.go)

For a pod with hard spread constraints, `PreFilter` counts, for every topology pair (a
constraint's key and a node's value for it), the pods that match the constraint's selector, and
records for every key its two critical paths, the values with the fewest matching pods.  Only
the nodes that pass the pod's node selector and required node affinity, and carry every key,
create pairs (`calPreFilterState`); the pods of every node are then counted into the pairs that
exist, terminating pods and pods of other namespaces left out.

Preemption changes the state in place through `AddPod` and `RemovePod` (`updateWithPod`), for
the pods nominated to a node or removed from it.  That update checks the namespace and the
node's keys, but neither the pod's node affinity nor whether the updated pod is terminating,
and it adds to the count of the pair through a pointer that a missing pair leaves nil.

*Modelling.*  Go maps are association lists; the loops over `TpPairToMatchNum` visit its
entries in the list's order.  The counters are `int32`; they count pods, so they are integers
here.  The constraints of a pod without its own come from `buildDefaultConstraints`, which reads
the services and controllers that select the pod: they are a parameter. -/

namespace Caspr

namespace PodTopologySpread

/-- `topologyPair`. -/
structure topologyPair where
  key : String
  value : String
deriving DecidableEq, Repr

/-- `topologySpreadConstraint`, a hard or soft constraint with its selector parsed. -/
structure topologySpreadConstraint where
  MaxSkew : ℤ
  TopologyKey : String
  Selector : Selector

/-- One of the two entries of `criticalPaths`. -/
structure criticalPath where
  TopologyValue : String
  MatchNum : ℤ
deriving DecidableEq, Repr

/-- `criticalPaths`, the array `[2]` of paths. -/
abbrev criticalPaths := criticalPath × criticalPath

/-- `math.MaxInt32`. -/
def MaxInt32 : ℤ := 2 ^ 31 - 1

/-- `newCriticalPaths()`. -/
def newCriticalPaths : criticalPaths := (⟨"", MaxInt32⟩, ⟨"", MaxInt32⟩)

/-- `p[0], p[1] = p[1], p[0]` when `p[0].MatchNum > p[1].MatchNum`. -/
def swapIfGreater (p : criticalPaths) : criticalPaths :=
  if p.1.MatchNum > p.2.MatchNum then (p.2, p.1) else p

/-- `p.update(tpVal, num)`: a value already on a path gets the new number, and the two paths
are swapped if they are out of order; another value takes the first path if its number is
below it (pushing the first to the second), or else the second if below it. -/
def update (p : criticalPaths) (tpVal : String) (num : ℤ) : criticalPaths :=
  if tpVal = p.1.TopologyValue then swapIfGreater ({ p.1 with MatchNum := num }, p.2)
  else if tpVal = p.2.TopologyValue then swapIfGreater (p.1, { p.2 with MatchNum := num })
  else if num < p.1.MatchNum then (⟨tpVal, num⟩, p.1)
  else if num < p.2.MatchNum then (p.1, ⟨tpVal, num⟩)
  else p

/-- `preFilterState`; a pair missing from `TpPairToMatchNum` is a nil counter. -/
structure preFilterState where
  Constraints : List topologySpreadConstraint := []
  TpKeyToCriticalPaths : AList (fun _ : String => criticalPaths) := ∅
  TpPairToMatchNum : AList (fun _ : topologyPair => ℤ) := ∅

/-- `nodeLabelsMatchSpreadConstraints(nodeLabels, constraints)`: the node carries every
constraint's key. -/
def nodeLabelsMatchSpreadConstraints (nodeLabels : AList (fun _ : String => String))
    (constraints : List topologySpreadConstraint) : Bool :=
  constraints.all fun c => (nodeLabels.lookup c.TopologyKey).isSome

/-- `filterTopologySpreadConstraints(constraints, action)`: the constraints of the action, with
their selectors parsed. -/
def filterTopologySpreadConstraints (constraints : List TopologySpreadConstraint)
    (action : UnsatisfiableConstraintAction) : List topologySpreadConstraint :=
  (constraints.filter fun c => c.whenUnsatisfiable = action).map fun c =>
    { MaxSkew := c.maxSkew, TopologyKey := c.topologyKey,
      Selector := LabelSelectorAsSelector c.labelSelector }

/-- `countPodsMatchSelector(podInfos, selector, ns)`: the pods of the namespace that are not
terminating and that the selector matches. -/
def countPodsMatchSelector (podInfos : List Pod) (selector : Selector) (ns : String) : ℕ :=
  podInfos.countP fun p => p.deletionTimestamp.isNone && p.podNamespace == ns &&
    selector.Matches p.labels

/-- The pair of a constraint on a node: its key and the node's value for it. -/
def pairOf (c : topologySpreadConstraint) (node : Node) : topologyPair :=
  ⟨c.TopologyKey, (node.labels.lookup c.TopologyKey).getD ""⟩

/-- The first loop of `calPreFilterState`: a zero counter for the pair of every constraint on
every node that passes the pod's node selector and affinity and carries every key. -/
def initPairs (pod : Pod) (constraints : List topologySpreadConstraint) (allNodes : List NodeInfo) :
    AList (fun _ : topologyPair => ℤ) :=
  allNodes.foldl (fun m n =>
    match n.node with
    | none => m
    | some node =>
        if !PodMatchesNodeSelectorAndAffinityTerms pod node then m
        else if !nodeLabelsMatchSpreadConstraints node.labels constraints then m
        else constraints.foldl (fun m c => m.insert (pairOf c node) 0) m) ∅

/-- `processNode` for one node: its matching pods are added to the counter of every pair of it
that exists.  It reads the labels of the node, which is nil for a `NodeInfo` without one. -/
def processNode (pod : Pod) (constraints : List topologySpreadConstraint)
    (m : AList (fun _ : topologyPair => ℤ)) (nodeInfo : NodeInfo) :
    Except Go.Abort (AList (fun _ : topologyPair => ℤ)) :=
  match nodeInfo.node with
  | none => .error .nilPointerDereference
  | some node =>
      .ok (constraints.foldl (fun m c =>
        match m.lookup (pairOf c node) with
        | none => m
        | some tpCount =>
            m.insert (pairOf c node)
              (tpCount + countPodsMatchSelector nodeInfo.pods c.Selector pod.podNamespace)) m)

/-- The last loops of `calPreFilterState`: new critical paths for every key, updated with every
pair's count. -/
def criticalPathsOf (constraints : List topologySpreadConstraint)
    (TpPairToMatchNum : AList (fun _ : topologyPair => ℤ)) :
    Except Go.Abort (AList (fun _ : String => criticalPaths)) :=
  TpPairToMatchNum.entries.foldlM (fun t e =>
    match t.lookup e.1.key with
    | none => .error .nilPointerDereference
    | some p => .ok (t.insert e.1.key (update p e.1.value e.2)))
    (constraints.foldl (fun t c => t.insert c.TopologyKey newCriticalPaths) ∅)

/-- `pl.calPreFilterState(pod)` on the nodes of the snapshot, with the constraints that
`buildDefaultConstraints` gives a pod without its own. -/
def calPreFilterState (defaultConstraints : List topologySpreadConstraint) (pod : Pod)
    (allNodes : List NodeInfo) : Except Go.Abort preFilterState :=
  let constraints :=
    if pod.topologySpreadConstraints.length > 0 then
      filterTopologySpreadConstraints pod.topologySpreadConstraints .DoNotSchedule
    else defaultConstraints
  if constraints.length = 0 then .ok {}
  else
    match allNodes.foldlM (processNode pod constraints) (initPairs pod constraints allNodes) with
    | .error a => .error a
    | .ok TpPairToMatchNum =>
        match criticalPathsOf constraints TpPairToMatchNum with
        | .error a => .error a
        | .ok TpKeyToCriticalPaths =>
            .ok { Constraints := constraints, TpKeyToCriticalPaths := TpKeyToCriticalPaths,
                  TpPairToMatchNum := TpPairToMatchNum }

/-- One iteration of `updateWithPod` over the constraints: for a constraint whose selector
matches the updated pod, the counter of the node's pair is moved by `delta`, through a pointer
that is nil when the pair is missing, and the key's critical paths are updated. -/
def updateConstraint (updatedPod : Pod) (node : Node) (delta : ℤ) (s : preFilterState)
    (constraint : topologySpreadConstraint) : Except Go.Abort preFilterState :=
  if !constraint.Selector.Matches updatedPod.labels then .ok s
  else
    let pair := pairOf constraint node
    match s.TpPairToMatchNum.lookup pair with
    | none => .error .nilPointerDereference
    | some n =>
        match s.TpKeyToCriticalPaths.lookup pair.key with
        | none => .error .nilPointerDereference
        | some p =>
            .ok { s with
              TpPairToMatchNum := s.TpPairToMatchNum.insert pair (n + delta)
              TpKeyToCriticalPaths :=
                s.TpKeyToCriticalPaths.insert pair.key (update p pair.value (n + delta)) }

/-- `s.updateWithPod(updatedPod, preemptorPod, node, delta)`. -/
def updateWithPod (s : preFilterState) (updatedPod preemptorPod : Pod) (node : Option Node)
    (delta : ℤ) : Except Go.Abort preFilterState :=
  match node with
  | none => .ok s
  | some node =>
      if updatedPod.podNamespace ≠ preemptorPod.podNamespace then .ok s
      else if !nodeLabelsMatchSpreadConstraints node.labels s.Constraints then .ok s
      else s.Constraints.foldlM (updateConstraint updatedPod node delta) s

/-- `pl.AddPod(…, podToSchedule, podToAdd, nodeInfo)` on the state `PreFilter` wrote. -/
def AddPod (s : preFilterState) (podToSchedule podToAdd : Pod) (nodeInfo : NodeInfo) :
    Except Go.Abort preFilterState :=
  updateWithPod s podToAdd podToSchedule nodeInfo.node 1

/-- `pl.RemovePod(…, podToSchedule, podToRemove, nodeInfo)` on the state `PreFilter` wrote. -/
def RemovePod (s : preFilterState) (podToSchedule podToRemove : Pod) (nodeInfo : NodeInfo) :
    Except Go.Abort preFilterState :=
  updateWithPod s podToRemove podToSchedule nodeInfo.node (-1)

/-! ### The filter -/

def ErrReasonConstraintsNotMatch : String := "node(s) didn't match pod topology spread constraints"

def ErrReasonNodeLabelNotMatch : String := ErrReasonConstraintsNotMatch ++ " (missing required label)"

/-- The loop of `Filter` over the constraints: the status of the first one the node fails.  A
key without critical paths, an internal error in Go, is skipped; a pair without a counter counts
`0`. -/
def filterConstraints (s : preFilterState) (pod : Pod) (node : Node) :
    List topologySpreadConstraint → Option Status
  | [] => none
  | c :: cs =>
      match node.labels.lookup c.TopologyKey with
      | none => some (NewStatus .UnschedulableAndUnresolvable ErrReasonNodeLabelNotMatch)
      | some tpVal =>
          let selfMatchNum : ℤ := if c.Selector.Matches pod.labels then 1 else 0
          let pair : topologyPair := ⟨c.TopologyKey, tpVal⟩
          match s.TpKeyToCriticalPaths.lookup c.TopologyKey with
          | none => filterConstraints s pod node cs
          | some paths =>
              let minMatchNum := paths.1.MatchNum
              let matchNum := (s.TpPairToMatchNum.lookup pair).getD 0
              let skew := matchNum + selfMatchNum - minMatchNum
              if skew > c.MaxSkew then some (NewStatus .Unschedulable ErrReasonConstraintsNotMatch)
              else filterConstraints s pod node cs

/-- `pl.Filter(…, pod, nodeInfo)` on the state `PreFilter` wrote; `none` is the nil status. -/
def Filter (s : preFilterState) (pod : Pod) (nodeInfo : NodeInfo) : Option Status :=
  match nodeInfo.node with
  | none => some ⟨.Error, ["node not found"]⟩
  | some node => if s.Constraints.length = 0 then none else filterConstraints s pod node s.Constraints

/-- The preemptor's node selector excludes `n1`, so `calPreFilterState` creates no pair for it;
adding a pod nominated to `n1` dereferences the missing counter. -/
theorem AddPod_excluded_node :
    let n1 : Node := { name := "n1", labels := AList.singleton "kubernetes.io/hostname" "n1" }
    let n2 : Node :=
      { name := "n2",
        labels := (AList.singleton "kubernetes.io/hostname" "n2").insert "disk" "ssd" }
    let p : Pod :=
      { name := "p", podNamespace := "default", labels := AList.singleton "app" "web",
        nodeSelector := AList.singleton "disk" "ssd",
        topologySpreadConstraints :=
          [{ maxSkew := 1, topologyKey := "kubernetes.io/hostname",
             whenUnsatisfiable := .DoNotSchedule,
             labelSelector := some { matchLabels := [("app", "web")] } }] }
    let q : Pod := { name := "q", podNamespace := "default", labels := AList.singleton "app" "web" }
    ∃ s, calPreFilterState [] p [{ node := some n1 }, { node := some n2 }] = .ok s ∧
      (s.TpPairToMatchNum.lookup ⟨"kubernetes.io/hostname", "n1"⟩).isNone ∧
      AddPod s p q { node := some n1 } = .error .nilPointerDereference :=
  ⟨_, rfl, rfl, rfl⟩

end PodTopologySpread

end Caspr
