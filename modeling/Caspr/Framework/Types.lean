import Mathlib.Data.Finset.Basic
import Caspr.Framework.Resource
import Caspr.Lib.Go

/-! # Pods, nodes and `NodeInfo` (framework/types.go)

`NodeInfo` is the scheduler's aggregate of one node: the pods placed on it, the two sub-lists of
pods that declare (anti-)affinity, the host ports they use, and the sums of their requests.
`addPod` and `removePod` keep five aggregates up to date separately; `Aggregates.lean` states
what they are meant to be, as functions of `pods`, and proves that the methods keep them.

*Pointers.*  The Go code passes `*PodInfo` and `*NodeInfo` around and mutates them in place.
A `PodInfo` holds its pod and the affinity terms `NewPodInfo` parses from it, so it is modelled
by the pod; a mutating method returns the new `NodeInfo`, with the error it returns.

*Generations.*  `nextGeneration()` increments a package-level counter; a method that calls it
takes the fresh number `gen` as an argument and the caller (the cache) owns the counter. -/

namespace Caspr

/-! ### Pods and nodes -/

/-- `v1.ContainerPort`, the fields that host-port accounting reads. -/
structure ContainerPort where
  hostIP : String := ""
  protocol : String := ""
  hostPort : ℤ := 0
deriving DecidableEq, Repr

/-- `v1.Container`, the fields the scheduler's accounting reads. -/
structure Container where
  requests : ResourceList := ∅
  ports : List ContainerPort := []
deriving DecidableEq

/-! ### Labels and selectors (apimachinery `metav1.LabelSelector`, `labels.Selector`) -/

/-- `metav1.LabelSelectorOperator`. -/
inductive LabelSelectorOperator where
  | In
  | NotIn
  | Exists
  | DoesNotExist
deriving DecidableEq, Repr

/-- `metav1.LabelSelectorRequirement`, also standing for a `labels.Requirement`: a match label
`k: v` is the requirement `k In [v]` (`selection.Equals` and `selection.In` match alike). -/
structure LabelSelectorRequirement where
  key : String
  operator : LabelSelectorOperator
  values : List String := []
deriving DecidableEq, Repr

/-- `metav1.LabelSelector`. -/
structure LabelSelector where
  matchLabels : List (String × String) := []
  matchExpressions : List LabelSelectorRequirement := []
deriving DecidableEq, Repr

/-- `labels.Selector`: `Nothing()`, or requirements that must all match (`Everything()` has
none). -/
inductive Selector where
  | nothing
  | requirements (rs : List LabelSelectorRequirement)
deriving DecidableEq, Repr

/-- `Requirement.Matches`. -/
def LabelSelectorRequirement.Matches (r : LabelSelectorRequirement)
    (ls : AList (fun _ : String => String)) : Bool :=
  match r.operator, ls.lookup r.key with
  | .In, some v => decide (v ∈ r.values)
  | .In, none => false
  | .NotIn, some v => decide (v ∉ r.values)
  | .NotIn, none => true
  | .Exists, v => v.isSome
  | .DoesNotExist, v => v.isNone

/-- `Selector.Matches`. -/
def Selector.Matches : Selector → AList (fun _ : String => String) → Bool
  | .nothing, _ => false
  | .requirements rs, ls => rs.all fun r => r.Matches ls

/-- `Selector.Empty()`: whether the selector has no requirement; `Nothing()` is not empty. -/
def Selector.Empty : Selector → Bool
  | .nothing => false
  | .requirements rs => rs.isEmpty

/-- `metav1.LabelSelectorAsSelector`: a nil selector selects nothing, an empty one everything.
The validation of keys and values that `labels.NewRequirement` makes is not modelled: every
selector is taken as valid, so the conversion does not fail. -/
def LabelSelectorAsSelector : Option LabelSelector → Selector
  | none => .nothing
  | some ps =>
      .requirements (ps.matchLabels.map (fun (k, v) => { key := k, operator := .In, values := [v] }) ++
        ps.matchExpressions)

/-- `v1.PodAffinityTerm`: the pods selected by a label selector in some namespaces, on the
nodes sharing a topology value. -/
structure PodAffinityTerm where
  labelSelector : Option LabelSelector := none
  namespaces : List String := []
  topologyKey : String := ""
deriving DecidableEq, Repr

/-- `v1.WeightedPodAffinityTerm`: a term and the weight it adds to a node's score. -/
structure WeightedPodAffinityTerm where
  weight : Int32 := 0
  podAffinityTerm : PodAffinityTerm := {}
deriving DecidableEq, Repr

/-- `v1.PodAffinity`. -/
structure PodAffinity where
  requiredDuringSchedulingIgnoredDuringExecution : List PodAffinityTerm := []
  preferredDuringSchedulingIgnoredDuringExecution : List WeightedPodAffinityTerm := []
deriving DecidableEq, Repr

/-- `v1.PodAntiAffinity`. -/
structure PodAntiAffinity where
  requiredDuringSchedulingIgnoredDuringExecution : List PodAffinityTerm := []
  preferredDuringSchedulingIgnoredDuringExecution : List WeightedPodAffinityTerm := []
deriving DecidableEq, Repr

/-- `v1.NodeSelectorOperator`. -/
inductive NodeSelectorOperator where
  | In
  | NotIn
  | Exists
  | DoesNotExist
  | Gt
  | Lt
deriving DecidableEq, Repr

/-- `v1.NodeSelectorRequirement`. -/
structure NodeSelectorRequirement where
  key : String
  operator : NodeSelectorOperator
  values : List String := []
deriving DecidableEq, Repr

/-- `v1.NodeSelectorTerm`: requirements on the node's labels and on its fields. -/
structure NodeSelectorTerm where
  matchExpressions : List NodeSelectorRequirement := []
  matchFields : List NodeSelectorRequirement := []
deriving DecidableEq, Repr

/-- `v1.NodeSelector`: terms of which one must match. -/
structure NodeSelector where
  nodeSelectorTerms : List NodeSelectorTerm := []
deriving DecidableEq, Repr

/-- `v1.NodeAffinity`, its required part. -/
structure NodeAffinity where
  requiredDuringSchedulingIgnoredDuringExecution : Option NodeSelector := none
deriving DecidableEq, Repr

/-- `v1.Affinity`; a `nil` pointer is `none`. -/
structure Affinity where
  nodeAffinity : Option NodeAffinity := none
  podAffinity : Option PodAffinity := none
  podAntiAffinity : Option PodAntiAffinity := none
deriving DecidableEq, Repr

/-- `v1.UnsatisfiableConstraintAction`. -/
inductive UnsatisfiableConstraintAction where
  | DoNotSchedule
  | ScheduleAnyway
deriving DecidableEq, Repr

/-- `v1.TopologySpreadConstraint`. -/
structure TopologySpreadConstraint where
  maxSkew : ℤ
  topologyKey : String
  whenUnsatisfiable : UnsatisfiableConstraintAction
  labelSelector : Option LabelSelector := none
deriving DecidableEq, Repr

/-- `v1.TaintEffect`: the three effects API validation admits on a taint. -/
inductive TaintEffect where
  | NoSchedule
  | PreferNoSchedule
  | NoExecute
deriving DecidableEq, Repr

/-- `v1.Taint`. -/
structure Taint where
  key : String
  value : String := ""
  effect : TaintEffect
deriving DecidableEq, Repr

/-- `v1.TolerationOperator`; the empty operator means `Equal`. -/
inductive TolerationOperator where
  | Exists
  | Equal
deriving DecidableEq, Repr

/-- `v1.Toleration`; the empty effect, which tolerates every effect, is `none`. -/
structure Toleration where
  key : String := ""
  operator : TolerationOperator := .Equal
  value : String := ""
  effect : Option TaintEffect := none
deriving DecidableEq, Repr

/-- `v1.PodStatus`, the fields the scheduler reads; `startTime` is `StartTime`, a time in
nanoseconds, nil for a pod not started. -/
structure PodStatus where
  nominatedNodeName : String := ""
  startTime : Option ℤ := none
deriving DecidableEq

/-- `v1.Pod`, the fields the modelled code reads. -/
structure Pod where
  name : String := ""
  podNamespace : String := ""
  uid : String := ""
  resourceVersion : String := ""
  generation : ℤ := 0
  labels : AList (fun _ : String => String) := ∅
  nodeName : String := ""
  containers : List Container := []
  initContainers : List Container := []
  overhead : Option ResourceList := none
  affinity : Option Affinity := none
  nodeSelector : AList (fun _ : String => String) := ∅
  topologySpreadConstraints : List TopologySpreadConstraint := []
  /-- `DeletionTimestamp`, set once the pod is terminating. -/
  deletionTimestamp : Option ℤ := none
  /-- `Spec.Priority`, nil when the admission did not set it. -/
  priority : Option Int32 := none
  status : PodStatus := {}
  tolerations : List Toleration := []
deriving DecidableEq

/-- `v1.ContainerImage`: the names of an image present on a node, and its size. -/
structure ContainerImage where
  names : List String := []
  sizeBytes : ℤ := 0
deriving DecidableEq

/-- `v1.Node`, the fields the modelled code reads; `images` is `Status.Images`. -/
structure Node where
  name : String := ""
  labels : AList (fun _ : String => String) := ∅
  allocatable : ResourceList := ∅
  images : List ContainerImage := []
  taints : List Taint := []

/-- `framework.GetPodKey`: the pod's UID, which must not be empty. -/
def GetPodKey (pod : Pod) : Except String String :=
  if pod.uid = "" then .error "Cannot get cache key for pod with empty UID" else .ok pod.uid

theorem GetPodKey_of_eq {pod : Pod} (h : pod.uid = "") :
    GetPodKey pod = .error "Cannot get cache key for pod with empty UID" := if_pos h

theorem GetPodKey_of_ne {pod : Pod} (h : pod.uid ≠ "") : GetPodKey pod = .ok pod.uid := if_neg h

/-- The test of the loops that look a pod up by key: a pod whose key cannot be computed is
skipped (`continue`). -/
def hasKey (k : String) (p : Pod) : Bool :=
  match GetPodKey p with
  | .ok k2 => k == k2
  | .error _ => false

theorem hasKey_iff (k : String) (p : Pod) : hasKey k p = true ↔ p.uid ≠ "" ∧ p.uid = k := by
  unfold hasKey GetPodKey
  by_cases h : p.uid = ""
  · rw [if_pos h]
    exact ⟨fun e => Bool.noConfusion e, fun ⟨hne, _⟩ => absurd h hne⟩
  · rw [if_neg h, beq_iff_eq]
    exact ⟨fun e => ⟨h, e.symm⟩, fun ⟨_, e⟩ => e.symm⟩

theorem hasKey_self {p : Pod} (hk : p.uid ≠ "") : hasKey p.uid p = true :=
  (hasKey_iff _ _).mpr ⟨hk, rfl⟩

theorem hasKey_eq_false_of_ne {k : String} {p : Pod} (h : k ≠ p.uid) : hasKey k p = false := by
  cases hh : hasKey k p with
  | false => rfl
  | true => exact absurd ((hasKey_iff _ _).mp hh).2.symm h

/-- `podWithAffinity`. -/
def podWithAffinity (p : Pod) : Bool :=
  match p.affinity with
  | some a => a.podAffinity.isSome || a.podAntiAffinity.isSome
  | none => false

/-- `podWithRequiredAntiAffinity`. -/
def podWithRequiredAntiAffinity (p : Pod) : Bool :=
  match p.affinity with
  | some ⟨_, _, some anti⟩ => anti.requiredDuringSchedulingIgnoredDuringExecution.length != 0
  | _ => false

/-! ### Affinity terms (scheduler util) -/

/-- `util.GetPodAffinityTerms`: the required pod affinity terms. -/
def GetPodAffinityTerms (affinity : Option Affinity) : List PodAffinityTerm :=
  match affinity with
  | some a =>
      match a.podAffinity with
      | some pa => pa.requiredDuringSchedulingIgnoredDuringExecution
      | none => []
  | none => []

/-- `util.GetPodAntiAffinityTerms`: the required pod anti-affinity terms. -/
def GetPodAntiAffinityTerms (affinity : Option Affinity) : List PodAffinityTerm :=
  match affinity with
  | some a =>
      match a.podAntiAffinity with
      | some pa => pa.requiredDuringSchedulingIgnoredDuringExecution
      | none => []
  | none => []

/-- `util.GetNamespacesFromPodAffinityTerm`: the term's namespaces, or the pod's own. -/
def GetNamespacesFromPodAffinityTerm (pod : Pod) (podAffinityTerm : PodAffinityTerm) :
    List String :=
  if podAffinityTerm.namespaces.length = 0 then [pod.podNamespace] else podAffinityTerm.namespaces

/-- `util.PodMatchesTermsNamespaceAndSelector`. -/
def PodMatchesTermsNamespaceAndSelector (pod : Pod) (namespaces : List String)
    (selector : Selector) : Bool :=
  namespaces.contains pod.podNamespace && selector.Matches pod.labels

/-- `framework.AffinityTerm`, a term parsed by `NewPodInfo`: the namespaces it selects pods in, its
selector and its topology key. -/
structure AffinityTerm where
  Namespaces : List String
  Selector : Selector
  TopologyKey : String

/-- `newAffinityTerm(pod, term)`; the selector always converts (see `LabelSelectorAsSelector`). -/
def newAffinityTerm (pod : Pod) (term : PodAffinityTerm) : AffinityTerm :=
  { Namespaces := GetNamespacesFromPodAffinityTerm pod term
    Selector := LabelSelectorAsSelector term.labelSelector
    TopologyKey := term.topologyKey }

/-- `getAffinityTerms(pod, v1Terms)`. -/
def getAffinityTerms (pod : Pod) (v1Terms : List PodAffinityTerm) : List AffinityTerm :=
  v1Terms.map (newAffinityTerm pod)

/-- `NewPodInfo(pod).RequiredAffinityTerms`. -/
def RequiredAffinityTerms (pod : Pod) : List AffinityTerm :=
  getAffinityTerms pod (GetPodAffinityTerms pod.affinity)

/-- `NewPodInfo(pod).RequiredAntiAffinityTerms`. -/
def RequiredAntiAffinityTerms (pod : Pod) : List AffinityTerm :=
  getAffinityTerms pod (GetPodAntiAffinityTerms pod.affinity)

theorem RequiredAntiAffinityTerms_eq_nil {p : Pod} (h : podWithRequiredAntiAffinity p = false) :
    RequiredAntiAffinityTerms p = [] := by
  unfold podWithRequiredAntiAffinity at h
  unfold RequiredAntiAffinityTerms GetPodAntiAffinityTerms getAffinityTerms
  match hp : p.affinity with
  | none => simp
  | some ⟨_, _, none⟩ => simp
  | some ⟨_, _, some anti⟩ =>
      rw [hp] at h
      simpa using h

/-- `framework.WeightedAffinityTerm`: a parsed term and its weight. -/
structure WeightedAffinityTerm extends AffinityTerm where
  Weight : Int32

/-- `getWeightedAffinityTerms(pod, v1Terms)`. -/
def getWeightedAffinityTerms (pod : Pod) (v1Terms : List WeightedPodAffinityTerm) :
    List WeightedAffinityTerm :=
  v1Terms.map fun term =>
    { toAffinityTerm := newAffinityTerm pod term.podAffinityTerm, Weight := term.weight }

/-- `NewPodInfo(pod).PreferredAffinityTerms`. -/
def PreferredAffinityTerms (pod : Pod) : List WeightedAffinityTerm :=
  getWeightedAffinityTerms pod <|
    match pod.affinity with
    | some a =>
        match a.podAffinity with
        | some pa => pa.preferredDuringSchedulingIgnoredDuringExecution
        | none => []
    | none => []

/-- `NewPodInfo(pod).PreferredAntiAffinityTerms`. -/
def PreferredAntiAffinityTerms (pod : Pod) : List WeightedAffinityTerm :=
  getWeightedAffinityTerms pod <|
    match pod.affinity with
    | some a =>
        match a.podAntiAffinity with
        | some pa => pa.preferredDuringSchedulingIgnoredDuringExecution
        | none => []
    | none => []

/-! ### The request of a pod -/

section calculateResource

variable (cfg : Config)

/-- One iteration of the first loop of `calculateResource`: a container's requests are added,
and so are its non-zero CPU and memory requests. -/
def addContainer (acc : Resource × ℤ × ℤ) (c : Container) : Resource × ℤ × ℤ :=
  let non0 := GetNonzeroRequests cfg c.requests
  (acc.1.add cfg c.requests, acc.2.1 + non0.1, acc.2.2 + non0.2)

/-- One iteration of the second loop of `calculateResource`: the maximum with an init
container's requests. -/
def maxInitContainer (acc : Resource × ℤ × ℤ) (ic : Container) : Resource × ℤ × ℤ :=
  let non0 := GetNonzeroRequests cfg ic.requests
  (acc.1.setMaxResource cfg ic.requests,
    if acc.2.1 < non0.1 then non0.1 else acc.2.1,
    if acc.2.2 < non0.2 then non0.2 else acc.2.2)

/-- The last part of `calculateResource`: when `PodOverhead` is on, the overhead is added to the
requests, and its CPU (in `MilliValue`) and memory (in `Value`) to the non-zero requests. -/
def addOverhead (acc : Resource × ℤ × ℤ) : Option ResourceList → Resource × ℤ × ℤ
  | some overhead =>
      if cfg.podOverhead then
        (acc.1.add cfg overhead,
          acc.2.1 + (match overhead.lookup ResourceCPU with
            | some q => q.milliValue
            | none => 0),
          acc.2.2 + (match overhead.lookup ResourceMemory with
            | some q => q.value
            | none => 0))
      else acc
  | none => acc

/-- `calculateResource`: the requests of the pod, `max(Σ containers, initContainers) + overhead`,
with its non-zero CPU and memory requests. -/
def calculateResource (pod : Pod) : Resource × ℤ × ℤ :=
  addOverhead cfg
    (pod.initContainers.foldl (maxInitContainer cfg)
      (pod.containers.foldl (addContainer cfg) ({}, 0, 0)))
    pod.overhead

end calculateResource

/-! ### Host ports -/

/-- `framework.ProtocolPort`. -/
structure ProtocolPort where
  protocol : String
  port : ℤ
deriving DecidableEq, Repr

/-- `framework.DefaultBindAllHostIP`. -/
def DefaultBindAllHostIP : String := "0.0.0.0"

/-- `HostPortInfo`, a map from IP to a set of protocol-ports whose empty sets are deleted: the
set of the `(ip, protocol-port)` pairs it holds. -/
abbrev HostPortInfo := Finset (String × ProtocolPort)

namespace HostPortInfo

/-- `h.sanitize(&ip, &protocol)`. -/
def sanitize (ip protocol : String) : String × String :=
  (if ip = "" then DefaultBindAllHostIP else ip, if protocol = "" then "TCP" else protocol)

/-- `h.Add(ip, protocol, port)`. -/
def add (h : HostPortInfo) (ip protocol : String) (port : ℤ) : HostPortInfo :=
  if port ≤ 0 then h
  else insert ((sanitize ip protocol).1, ⟨(sanitize ip protocol).2, port⟩) h

/-- `h.Remove(ip, protocol, port)`. -/
def remove (h : HostPortInfo) (ip protocol : String) (port : ℤ) : HostPortInfo :=
  if port ≤ 0 then h
  else h.erase ((sanitize ip protocol).1, ⟨(sanitize ip protocol).2, port⟩)

/-- `h.CheckConflict(ip, protocol, port)`: the bind-all IP conflicts with the protocol-port on
any IP, any other IP with the protocol-port on itself or on the bind-all IP. -/
def CheckConflict (h : HostPortInfo) (ip protocol : String) (port : ℤ) : Bool :=
  if port ≤ 0 then false
  else
    let pp : ProtocolPort := ⟨(sanitize ip protocol).2, port⟩
    if (sanitize ip protocol).1 = DefaultBindAllHostIP then decide (∃ e ∈ h, e.2 = pp)
    else [DefaultBindAllHostIP, (sanitize ip protocol).1].any fun key => decide ((key, pp) ∈ h)

end HostPortInfo

/-! ### `NodeInfo` -/

/-- `framework.ImageStateSummary`: the size of an image and the number of nodes that have it. -/
structure ImageStateSummary where
  size : ℤ
  numNodes : ℕ
deriving DecidableEq

/-- `framework.NodeInfo`.  `TransientInfo`, the volume counts a scheduling cycle may note on the
node, is left out: no function modelled here reads or writes it. -/
structure NodeInfo where
  node : Option Node := none
  pods : List Pod := []
  podsWithAffinity : List Pod := []
  podsWithRequiredAntiAffinity : List Pod := []
  usedPorts : HostPortInfo := ∅
  requested : Resource := {}
  nonZeroRequested : Resource := {}
  allocatable : Resource := {}
  imageStates : AList (fun _ : String => ImageStateSummary) := ∅
  generation : ℤ := 0

namespace NodeInfo

variable (cfg : Config)

/-- `NewNodeInfo()`, with the generation it draws. -/
def NewNodeInfo (gen : ℤ) : NodeInfo := { generation := gen }

/-- `n.updateUsedPorts(pod, add)`. -/
def updateUsedPorts (h : HostPortInfo) (pod : Pod) (add : Bool) : HostPortInfo :=
  pod.containers.foldl (fun h c => c.ports.foldl (fun h p =>
    if add then h.add p.hostIP p.protocol p.hostPort
    else h.remove p.hostIP p.protocol p.hostPort) h) h

/-- `n.AddPod(pod)`, with the generation it draws. -/
def addPod (n : NodeInfo) (pod : Pod) (gen : ℤ) : NodeInfo :=
  let r := calculateResource cfg pod
  { n with
    requested :=
      { n.requested with
        milliCPU := n.requested.milliCPU + r.1.milliCPU
        memory := n.requested.memory + r.1.memory
        ephemeralStorage := n.requested.ephemeralStorage + r.1.ephemeralStorage
        scalarResources := fun name => n.requested.scalarResources name + r.1.scalarResources name }
    nonZeroRequested :=
      { n.nonZeroRequested with
        milliCPU := n.nonZeroRequested.milliCPU + r.2.1
        memory := n.nonZeroRequested.memory + r.2.2 }
    pods := n.pods ++ [pod]
    podsWithAffinity :=
      if podWithAffinity pod then n.podsWithAffinity ++ [pod] else n.podsWithAffinity
    podsWithRequiredAntiAffinity :=
      if podWithRequiredAntiAffinity pod then n.podsWithRequiredAntiAffinity ++ [pod]
      else n.podsWithRequiredAntiAffinity
    usedPorts := updateUsedPorts n.usedPorts pod true
    generation := gen }

/-- `removeFromSlice(s, k)`: swap-remove the first pod of key `k`. -/
def removeFromSlice (s : List Pod) (k : String) : List Pod :=
  Go.swapRemoveFirst (hasKey k) s

/-- The first part of `n.RemovePod(pod)`: the affinity sub-lists are pruned by the predicates
of the pod passed in, before it is known whether the pod is on the node. -/
def pruneAffinity (n : NodeInfo) (pod : Pod) (k : String) : NodeInfo :=
  { n with
    podsWithAffinity :=
      if podWithAffinity pod then removeFromSlice n.podsWithAffinity k else n.podsWithAffinity
    podsWithRequiredAntiAffinity :=
      if podWithRequiredAntiAffinity pod then removeFromSlice n.podsWithRequiredAntiAffinity k
      else n.podsWithRequiredAntiAffinity }

/-- The branch of `n.RemovePod(pod)` that found the pod at index `i`: the resources
subtracted are those of the pod passed in, not of the one stored. -/
def removeAt (n : NodeInfo) (pod : Pod) (i : ℕ) (gen : ℤ) : NodeInfo :=
  let r := calculateResource cfg pod
  { n with
    pods := Go.swapRemove n.pods i
    requested :=
      { n.requested with
        milliCPU := n.requested.milliCPU - r.1.milliCPU
        memory := n.requested.memory - r.1.memory
        ephemeralStorage := n.requested.ephemeralStorage - r.1.ephemeralStorage
        scalarResources := fun name => n.requested.scalarResources name - r.1.scalarResources name }
    nonZeroRequested :=
      { n.nonZeroRequested with
        milliCPU := n.nonZeroRequested.milliCPU - r.2.1
        memory := n.nonZeroRequested.memory - r.2.2 }
    usedPorts := updateUsedPorts n.usedPorts pod false
    generation := gen }

/-- `n.RemovePod(pod)`: the new `NodeInfo` and the error returned.  When the pod is not on the
node, the error message dereferences `n.node`, which panics on a node-less `NodeInfo`.
(`resetSlicesIfEmpty` only turns empty slices into `nil` ones, which lists do not tell
apart.) -/
def removePod (n : NodeInfo) (pod : Pod) (gen : ℤ) : Except Go.Abort (NodeInfo × Option String) :=
  match GetPodKey pod with
  | .error e => .ok (n, some e)
  | .ok k =>
      let n := n.pruneAffinity pod k
      match n.pods.findIdx? (hasKey k) with
      | some i => .ok (n.removeAt cfg pod i gen, none)
      | none =>
          match n.node with
          | some node =>
              .ok (n, some ("no corresponding pod " ++ pod.name ++ " in pods of node " ++ node.name))
          | none => .error .nilPointerDereference

/-- `NewResource(rl)`. -/
def NewResource (rl : ResourceList) : Resource := ({} : Resource).add cfg rl

/-- `n.SetNode(node)`, with the generation it draws. -/
def setNode (n : NodeInfo) (node : Node) (gen : ℤ) : NodeInfo :=
  { n with node := some node, allocatable := NewResource cfg node.allocatable, generation := gen }

/-- `n.RemoveNode()`, with the generation it draws. -/
def removeNode (n : NodeInfo) (gen : ℤ) : NodeInfo :=
  { n with node := none, generation := gen }

end NodeInfo

end Caspr
