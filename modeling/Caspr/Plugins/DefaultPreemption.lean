import Mathlib.Data.List.Sort
import Caspr.Framework.Interface
import Caspr.Framework.Types

/-! # Default preemption (plugins/defaultpreemption/default_preemption.go)

When no node fits a pod, `PostFilter` looks for nodes where evicting pods of lower priority
would make room (`FindCandidates`):

* `nodesWherePreemptionMightHelp` keeps the nodes the filters did not mark
  `UnschedulableAndUnresolvable`; a node missing from the status map reads a nil status, whose
  code is `Success`;
* `calculateNumCandidates` bounds the number of candidates by the plugin's arguments;
* `dryRunPreemption` runs `selectVictimsOnNode` on the nodes from a random offset and keeps the
  candidates that fit in two lists, those that violate no disruption budget first;
* `selectVictimsOnNode` removes every pod of lower priority, checks the pod fits, and then puts
  the removed pods back one by one, the budget-violating ones first, keeping as victims those
  whose return makes the pod no longer fit;
* `SelectCandidate` picks one candidate with `pickOneNodeForPreemption`, five passes over the
  candidates that keep those of fewest budget violations, then of lowest highest priority, of
  lowest sum of priorities, of fewest victims, and last the one whose most important victims
  started latest.

*Modelling.*
* The framework is a `PreemptHandle` over the cycle state `σ`: the verdict of
  `PodPassesFiltersOnNode` and the plugins' `AddPod` and `RemovePod` extensions, which fail with
  a status.
* `NodeInfo.AddPod` and `RemovePod` are those of the framework's model; the generation numbers
  they draw during the simulation are one number `gen`, which nothing in the simulation reads.
* Go's range over `nodeInfo.Pods` in the first loop of `selectVictimsOnNode` reads the backing
  array while `RemovePod` swap-removes from it; an element only ever moves to a lower position,
  into a slot the range has passed, so the range reads every pod once, in the original order.
* `sort.Slice` orders the potential victims by `MoreImportantPod`; its order among pods neither
  of which is more important than the other is unspecified, and the model takes insertion
  sort's, which Go's sort uses on short slices.
* `time.Now()` is one instant `now`.  `rand.Int31n` is the `offset` given.
* `dryRunPreemption` checks the nodes in parallel and cancels the others once enough candidates
  are found; the model checks them one at a time in index order, one of the interleavings.
* Go maps are association lists, iterated in the list's order. -/

namespace Caspr

namespace DefaultPreemption

/-! ### Priorities and start times (component-helpers, scheduler/util) -/

/-- `corev1helpers.PodPriority(pod)`: the pod's priority, `0` when it has none. -/
def PodPriority (pod : Pod) : Int32 := pod.priority.getD 0

/-- `util.GetPodStartTime(pod)` when the clock reads `now`. -/
def GetPodStartTime (now : ℤ) (pod : Pod) : ℤ := pod.status.startTime.getD now

/-- `util.MoreImportantPod(pod1, pod2)`: the higher priority, or on equal priorities the earlier
start. -/
def MoreImportantPod (now : ℤ) (pod1 pod2 : Pod) : Bool :=
  let p1 := PodPriority pod1
  let p2 := PodPriority pod2
  if p1 ≠ p2 then decide (p1 > p2)
  else decide (GetPodStartTime now pod1 < GetPodStartTime now pod2)

/-- `extenderv1.Victims`. -/
structure Victims where
  Pods : List Pod := []
  NumPDBViolations : Int64 := 0

/-- One iteration of `GetEarliestPodStartTime`'s loop: the earliest start among the pods of the
highest priority seen, and that priority. -/
def earliestStep (now : ℤ) (acc : ℤ × Int32) (pod : Pod) : ℤ × Int32 :=
  if PodPriority pod = acc.2 then
    (if GetPodStartTime now pod < acc.1 then GetPodStartTime now pod else acc.1, acc.2)
  else if PodPriority pod > acc.2 then (GetPodStartTime now pod, PodPriority pod)
  else acc

/-- `util.GetEarliestPodStartTime(victims)`: the earliest start of the victims of highest
priority, nil for no victims. -/
def GetEarliestPodStartTime (now : ℤ) (victims : Victims) : Option ℤ :=
  match victims.Pods with
  | [] => none
  | first :: _ =>
      some (victims.Pods.foldl (earliestStep now) (GetPodStartTime now first, PodPriority first)).1

/-! ### Disruption budgets -/

/-- `policy.PodDisruptionBudget`, the fields read here: its namespace, `Spec.Selector`,
`Status.DisruptionsAllowed` and the names of `Status.DisruptedPods`. -/
structure PodDisruptionBudget where
  pdbNamespace : String := ""
  Selector : Option LabelSelector := none
  DisruptionsAllowed : Int32 := 0
  DisruptedPods : List String := []

/-- Whether a budget counts a pod: same namespace, a selector that is not empty and matches the
pod's labels, and the pod not already among the disrupted ones. -/
def pdbCountsPod (pdb : PodDisruptionBudget) (pod : Pod) : Bool :=
  let selector := LabelSelectorAsSelector pdb.Selector
  pdb.pdbNamespace == pod.podNamespace && !selector.Empty && selector.Matches pod.labels &&
    !pdb.DisruptedPods.contains pod.name

/-- The loop of `filterPodsWithPDBViolation` over the budgets for one pod: every budget that
counts the pod is decremented, and the pod violates one when a decremented budget is negative. -/
def budgetsPass (pod : Pod) (budgets : List (PodDisruptionBudget × Int32)) :
    Bool × List (PodDisruptionBudget × Int32) :=
  let budgets := budgets.map fun b => if pdbCountsPod b.1 pod then (b.1, b.2 - 1) else b
  (budgets.any fun b => pdbCountsPod b.1 pod && decide (b.2 < 0), budgets)

/-- The loop of `filterPodsWithPDBViolation` over the pods, with the budgets left.  A pod without
labels is not checked against any budget. -/
def filterPodsLoop : List Pod → List (PodDisruptionBudget × Int32) → List Pod × List Pod
  | [], _ => ([], [])
  | pod :: pods, budgets =>
      let (violated, budgets) :=
        if pod.labels.entries.length ≠ 0 then budgetsPass pod budgets else (false, budgets)
      let (violatingPods, nonViolatingPods) := filterPodsLoop pods budgets
      if violated then (pod :: violatingPods, nonViolatingPods)
      else (violatingPods, pod :: nonViolatingPods)

/-- `filterPodsWithPDBViolation(pods, pdbs)`: the pods whose eviction would violate a budget,
and the others. -/
def filterPodsWithPDBViolation (pods : List Pod) (pdbs : List PodDisruptionBudget) :
    List Pod × List Pod :=
  filterPodsLoop pods (pdbs.map fun pdb => (pdb, pdb.DisruptionsAllowed))

/-! ### The number of candidates (validation_pluginargs.go) -/

/-- `config.DefaultPreemptionArgs`, with the defaults of `SetDefaults_DefaultPreemptionArgs`. -/
structure DefaultPreemptionArgs where
  MinCandidateNodesPercentage : Int32 := 10
  MinCandidateNodesAbsolute : Int32 := 100

def validateMinCandidateNodesPercentage (minCandidateNodesPercentage : Int32) : Option String :=
  if minCandidateNodesPercentage < 0 || minCandidateNodesPercentage > 100 then
    some "minCandidateNodesPercentage is not in the range [0, 100]"
  else none

def validateMinCandidateNodesAbsolute (minCandidateNodesAbsolute : Int32) : Option String :=
  if minCandidateNodesAbsolute < 0 then some "minCandidateNodesAbsolute is not in the range [0, inf)"
  else none

/-- `ValidateDefaultPreemptionArgs(args)`: the first error, `none` for valid arguments. -/
def ValidateDefaultPreemptionArgs (args : DefaultPreemptionArgs) : Option String :=
  match validateMinCandidateNodesPercentage args.MinCandidateNodesPercentage with
  | some err => some err
  | none =>
      match validateMinCandidateNodesAbsolute args.MinCandidateNodesAbsolute with
      | some err => some err
      | none =>
          if args.MinCandidateNodesPercentage = 0 && args.MinCandidateNodesAbsolute = 0 then
            some "both minCandidateNodesPercentage and minCandidateNodesAbsolute cannot be zero"
          else none

/-- `pl.calculateNumCandidates(numNodes)`, in `int32`. -/
def calculateNumCandidates (args : DefaultPreemptionArgs) (numNodes : Int32) : Int32 :=
  let n := (numNodes * args.MinCandidateNodesPercentage) / 100
  let n := if n < args.MinCandidateNodesAbsolute then args.MinCandidateNodesAbsolute else n
  if n > numNodes then numNodes else n

/-! ### Candidates -/

/-- `candidate`. -/
structure Candidate where
  victims : Victims
  name : String

/-- `candidateList`: the counter of additions, the number of slots, and the candidates of the
slots filled so far; additions are made one at a time, so they fill the slots in order. -/
structure candidateList where
  idx : Int32
  slots : Int32
  items : List Candidate

/-- `newCandidateList(size)`; `make` panics on a negative size. -/
def newCandidateList (size : Int32) : Except Go.Abort candidateList :=
  if size < 0 then .error .makeSliceLenOutOfRange else .ok ⟨-1, size, []⟩

namespace candidateList

/-- `cl.add(c)`: into the next slot, if there is one. -/
def add (cl : candidateList) (c : Candidate) : candidateList :=
  let idx := cl.idx + 1
  if idx < cl.slots then { cl with idx := idx, items := cl.items ++ [c] } else { cl with idx := idx }

/-- `cl.size()`. -/
def size (cl : candidateList) : Int32 :=
  let n := cl.idx + 1
  if n ≥ cl.slots then cl.slots else n

/-- `cl.get()`. -/
def get (cl : candidateList) : List Candidate := cl.items.take cl.size.toNatClampNeg

end candidateList

/-! ### The victims on one node -/

/-- What preemption asks of the framework, on a cycle state of type `σ`: the verdict of
`core.PodPassesFiltersOnNode` for a pod on a node, and the plugins' `AddPod` and `RemovePod`
extensions (`RunPreFilterExtensionAddPod`, `RunPreFilterExtensionRemovePod`), given the pod to
schedule, the pod added or removed and the node after the change, which fail with a status that
is not success. -/
structure PreemptHandle (σ : Type) where
  PodPassesFiltersOnNode : σ → Pod → NodeInfo → Bool
  RunPreFilterExtensionAddPod : σ → Pod → Pod → NodeInfo → Except Status σ
  RunPreFilterExtensionRemovePod : σ → Pod → Pod → NodeInfo → Except Status σ

section victims

variable {σ : Type} (cfg : Config) (ph : PreemptHandle σ) (gen : ℤ)

/-- The closure `removePod` of `selectVictimsOnNode`: `rp` out of the node, then the plugins
told; `none` stands for the error it returns. -/
def removePod (pod : Pod) (x : NodeInfo × σ) (rp : Pod) :
    Except Go.Abort (Option (NodeInfo × σ)) := do
  match ← x.1.removePod cfg rp gen with
  | (_, some _) => pure none
  | (nodeInfo, none) =>
      match ph.RunPreFilterExtensionRemovePod x.2 pod rp nodeInfo with
      | .error _ => pure none
      | .ok state => pure (some (nodeInfo, state))

/-- The closure `addPod` of `selectVictimsOnNode`: `ap` onto the node, then the plugins told;
`none` stands for the error it returns. -/
def addPod (pod : Pod) (x : NodeInfo × σ) (ap : Pod) : Option (NodeInfo × σ) :=
  let nodeInfo := x.1.addPod cfg ap gen
  match ph.RunPreFilterExtensionAddPod x.2 pod ap nodeInfo with
  | .error _ => none
  | .ok state => some (nodeInfo, state)

/-- The first loop of `selectVictimsOnNode`: every pod of lower priority than `pod`, in the order
of the node's pods, is a potential victim and is removed; `none` for an error. -/
def removeLowerPriorityPods (pod : Pod) :
    List Pod → NodeInfo × σ → Except Go.Abort (Option (List Pod × (NodeInfo × σ)))
  | [], x => pure (some ([], x))
  | p :: ps, x =>
      if PodPriority p < PodPriority pod then do
        match ← removePod cfg ph gen pod x p with
        | none => pure none
        | some x =>
            match ← removeLowerPriorityPods pod ps x with
            | none => pure none
            | some (vs, x) => pure (some (p :: vs, x))
      else removeLowerPriorityPods pod ps x

/-- A reprieve loop of `selectVictimsOnNode` (the closure `reprievePod` over a group): every pod
is put back, and removed again as a victim when `pod` no longer fits; the victims, or `none` for
an error. -/
def reprievePods (pod : Pod) :
    List Pod → NodeInfo × σ → Except Go.Abort (Option (List Pod × (NodeInfo × σ)))
  | [], x => pure (some ([], x))
  | p :: ps, x =>
      match addPod cfg ph gen pod x p with
      | none => pure none
      | some x =>
          if ph.PodPassesFiltersOnNode x.2 pod x.1 then reprievePods pod ps x
          else do
            match ← removePod cfg ph gen pod x p with
            | none => pure none
            | some x =>
                match ← reprievePods pod ps x with
                | none => pure none
                | some (vs, x) => pure (some (p :: vs, x))

/-- `selectVictimsOnNode(…, state, pod, nodeInfo, pdbs)` when the clock reads `now`: the victims,
how many of them violate a budget, and whether the pod fits. -/
def selectVictimsOnNode (now : ℤ) (state : σ) (pod : Pod) (nodeInfo : NodeInfo)
    (pdbs : List PodDisruptionBudget) : Except Go.Abort (List Pod × ℕ × Bool) := do
  match ← removeLowerPriorityPods cfg ph gen pod nodeInfo.pods (nodeInfo, state) with
  | none => pure ([], 0, false)
  | some (potentialVictims, x) =>
      if potentialVictims.length = 0 then pure ([], 0, false)
      else if !ph.PodPassesFiltersOnNode x.2 pod x.1 then pure ([], 0, false)
      else
        let potentialVictims :=
          potentialVictims.insertionSort fun p q => MoreImportantPod now p q = true
        let (violatingVictims, nonViolatingVictims) :=
          filterPodsWithPDBViolation potentialVictims pdbs
        match ← reprievePods cfg ph gen pod violatingVictims x with
        | none => pure ([], 0, false)
        | some (violating, x) =>
            match ← reprievePods cfg ph gen pod nonViolatingVictims x with
            | none => pure ([], 0, false)
            | some (nonViolating, _) => pure (violating ++ nonViolating, violating.length, true)

/-! ### The candidates of all nodes -/

/-- `framework.NodeToStatusMap`: the filters' status of each node name; a missing name reads a
nil status. -/
abbrev NodeToStatusMap := AList (fun _ : String => Status)

/-- `s.Code()`: a nil status is a success. -/
def statusCode : Option Status → Code
  | none => .Success
  | some s => s.code

/-- `nodesWherePreemptionMightHelp(nodes, m)`.  It reads the name of every node object. -/
def nodesWherePreemptionMightHelp (m : NodeToStatusMap) :
    List NodeInfo → Except Go.Abort (List NodeInfo)
  | [] => pure []
  | nodeInfo :: nodes => do
      match nodeInfo.node with
      | none => throw .nilPointerDereference
      | some node =>
          let rest ← nodesWherePreemptionMightHelp m nodes
          if statusCode (m.lookup node.name) = .UnschedulableAndUnresolvable then pure rest
          else pure (nodeInfo :: rest)

/-- The closure `checkNode` of `dryRunPreemption` on the node `nodeInfo`, over the two lists and
whether the search was cancelled; once cancelled, no further node is checked. -/
def checkNode (now : ℤ) (state : σ) (pod : Pod) (pdbs : List PodDisruptionBudget)
    (numCandidates : Int32) (acc : candidateList × candidateList × Bool) (nodeInfo : NodeInfo) :
    Except Go.Abort (candidateList × candidateList × Bool) := do
  let (nonViolatingCandidates, violatingCandidates, cancelled) := acc
  if cancelled then pure acc
  else
    let (pods, numPDBViolations, fits) ← selectVictimsOnNode cfg ph gen now state pod nodeInfo pdbs
    if !fits then pure acc
    else
      match nodeInfo.node with
      | none => throw .nilPointerDereference
      | some node =>
          let c : Candidate :=
            { victims := { Pods := pods, NumPDBViolations := .ofNat numPDBViolations },
              name := node.name }
          let (nonViolatingCandidates, violatingCandidates) :=
            if numPDBViolations = 0 then (nonViolatingCandidates.add c, violatingCandidates)
            else (nonViolatingCandidates, violatingCandidates.add c)
          let nvcSize := nonViolatingCandidates.size
          let vcSize := violatingCandidates.size
          pure (nonViolatingCandidates, violatingCandidates,
            nvcSize > 0 && nvcSize + vcSize ≥ numCandidates)

/-- `dryRunPreemption(…, state, pod, potentialNodes, pdbs, offset, numCandidates)`: the nodes
from `offset` on, around the list, the non-violating candidates first. -/
def dryRunPreemption (now : ℤ) (state : σ) (pod : Pod) (potentialNodes : List NodeInfo)
    (pdbs : List PodDisruptionBudget) (offset : ℕ) (numCandidates : Int32) :
    Except Go.Abort (List Candidate) := do
  let nonViolatingCandidates ← newCandidateList numCandidates
  let violatingCandidates ← newCandidateList numCandidates
  let nodes := (List.range potentialNodes.length).map fun i =>
    potentialNodes.getD ((offset + i) % potentialNodes.length) {}
  let (nonViolatingCandidates, violatingCandidates, _) ←
    nodes.foldlM (checkNode cfg ph gen now state pod pdbs numCandidates)
      (nonViolatingCandidates, violatingCandidates, false)
  pure (nonViolatingCandidates.get ++ violatingCandidates.get)

def ErrNoNodesAvailable : String := "no nodes available to schedule pods"

/-- `pl.FindCandidates(…, state, pod, m)` on the nodes `allNodes` of the snapshot and the
budgets `pdbs`, with the draw `offset` of `rand.Int31n`; the inner error is the one returned.
Clearing the pod's nominated node, when no node might help, is an API call left out. -/
def FindCandidates (args : DefaultPreemptionArgs) (now : ℤ) (state : σ) (pod : Pod)
    (allNodes : List NodeInfo) (m : NodeToStatusMap) (pdbs : List PodDisruptionBudget)
    (offset : ℕ) : Except Go.Abort (Except String (List Candidate)) := do
  if allNodes.length = 0 then pure (.error ErrNoNodesAvailable)
  else
    let potentialNodes ← nodesWherePreemptionMightHelp m allNodes
    if potentialNodes.length = 0 then pure (.ok [])
    else
      let numCandidates := calculateNumCandidates args (.ofNat potentialNodes.length)
      let candidates ←
        dryRunPreemption cfg ph gen now state pod potentialNodes pdbs offset numCandidates
      pure (.ok candidates)

end victims

/-! ### The choice of a candidate -/

/-- The map to victims of a list of candidates: the victims of each name. -/
abbrev VictimsMap := AList (fun _ : String => Victims)

/-- `candidatesToVictimsMap(candidates)`. -/
def candidatesToVictimsMap (candidates : List Candidate) : VictimsMap :=
  candidates.foldl (fun m c => m.insert c.name c.victims) ∅

/-- `s[0]`. -/
def index0 {α : Type} : List α → Except Go.Abort α
  | [] => .error .indexOutOfRange
  | x :: _ => .ok x

/-- `nodesToVictims[node]`, dereferenced. -/
def victimsOf (nodesToVictims : VictimsMap) (node : String) : Except Go.Abort Victims :=
  match nodesToVictims.lookup node with
  | none => .error .nilPointerDereference
  | some victims => .ok victims

/-- `math.MaxInt32`, as the `int64` the first pass compares with. -/
def MaxInt32 : Int64 := 2147483647

/-- One iteration of the first pass of `pickOneNodeForPreemption`: the fewest violations seen,
and the names that have them (`minNodes1`, reset to nil on a smaller number). -/
def pdbViolationsStep (acc : Int64 × List String) (e : Sigma fun _ : String => Victims) :
    Int64 × List String :=
  let numPDBViolatingPods := e.2.NumPDBViolations
  let acc := if numPDBViolatingPods < acc.1 then (numPDBViolatingPods, []) else acc
  if numPDBViolatingPods = acc.1 then (acc.1, acc.2 ++ [e.1]) else acc

/-- One iteration of the middle passes of `pickOneNodeForPreemption`: the least score seen, the
array being written and the number written. -/
def minStep {κ : Type} [LT κ] [DecidableLT κ] [DecidableEq κ]
    (score : String → Except Go.Abort κ) (acc : κ × List String × ℕ) (node : String) :
    Except Go.Abort (κ × List String × ℕ) := do
  let s ← score node
  let (m, dst, n) := acc
  let (m, n) := if s < m then (s, 0) else (m, n)
  pure (if s = m then (m, dst.set n node, n + 1) else (m, dst, n))

/-- One of the middle passes of `pickOneNodeForPreemption`: over the first `len` names of `src`,
those of least `score` are written to `dst` from its start, over what it held; the array and
the number written. -/
def minPass {κ : Type} [LT κ] [DecidableLT κ] [DecidableEq κ]
    (score : String → Except Go.Abort κ) (init : κ) (src : List String) (len : ℕ)
    (dst : List String) : Except Go.Abort (List String × ℕ) := do
  let (_, dst, n) ← (src.take len).foldlM (minStep score) (init, dst, 0)
  pure (dst, n)

/-- The highest priority among a node's victims: that of the first, which `Pods[0]` reads. -/
def highestPodPriority (nodesToVictims : VictimsMap) (node : String) : Except Go.Abort Int32 := do
  let victims ← victimsOf nodesToVictims node
  let first ← index0 victims.Pods
  pure (PodPriority first)

/-- The sum of a node's victims' priorities, each raised by `MaxInt32 + 1`, in `int64`. -/
def sumPriorities (nodesToVictims : VictimsMap) (node : String) : Except Go.Abort Int64 := do
  let victims ← victimsOf nodesToVictims node
  pure (victims.Pods.foldl (fun s pod => s + ((PodPriority pod).toInt64 + 2147483648)) 0)

/-- The number of a node's victims. -/
def numPods (nodesToVictims : VictimsMap) (node : String) : Except Go.Abort ℕ := do
  let victims ← victimsOf nodesToVictims node
  pure victims.Pods.length

/-- One iteration of the last pass: the latest earliest start seen and its node; a node without
victims is skipped. -/
def latestStartStep (now : ℤ) (nodesToVictims : VictimsMap) (acc : ℤ × String) (node : String) :
    Except Go.Abort (ℤ × String) := do
  let victims ← victimsOf nodesToVictims node
  match GetEarliestPodStartTime now victims with
  | none => pure acc
  | some earliestStartTimeOnNode =>
      pure (if earliestStartTimeOnNode > acc.1 then (earliestStartTimeOnNode, node) else acc)

/-- `pickOneNodeForPreemption(nodesToVictims)` when the clock reads `now`.  The scratch arrays
`minNodes1` and `minNodes2` are written in place by the passes; each pass reads the first names
of the one before. -/
def pickOneNodeForPreemption (now : ℤ) (nodesToVictims : VictimsMap) : Except Go.Abort String := do
  if nodesToVictims.entries.length = 0 then return ""
  let (_, minNodes1) := nodesToVictims.entries.foldl pdbViolationsStep (MaxInt32, [])
  let lenNodes1 := minNodes1.length
  if lenNodes1 = 1 then return (← index0 minNodes1)
  let (minNodes2, lenNodes2) ← minPass (highestPodPriority nodesToVictims) 2147483647 minNodes1
    lenNodes1 (List.replicate lenNodes1 "")
  if lenNodes2 = 1 then return (← index0 minNodes2)
  let (minNodes1, lenNodes1) ← minPass (sumPriorities nodesToVictims) 9223372036854775807
    minNodes2 lenNodes2 minNodes1
  if lenNodes1 = 1 then return (← index0 minNodes1)
  let (minNodes2, lenNodes2) ← minPass (numPods nodesToVictims) 2147483647 minNodes1 lenNodes1
    minNodes2
  if lenNodes2 = 1 then return (← index0 minNodes2)
  let first ← index0 minNodes2
  let victims ← victimsOf nodesToVictims first
  match GetEarliestPodStartTime now victims with
  | none => return first
  | some latestStartTime =>
      let (_, nodeToReturn) ← ((minNodes2.take lenNodes2).drop 1).foldlM
        (latestStartStep now nodesToVictims) (latestStartTime, first)
      return nodeToReturn

/-- `SelectCandidate(candidates)` when the clock reads `now`; `none` is the nil candidate. -/
def SelectCandidate (now : ℤ) (candidates : List Candidate) : Except Go.Abort (Option Candidate) :=
  match candidates with
  | [] => pure none
  | [c] => pure (some c)
  | c :: _ => do
      let victimsMap := candidatesToVictimsMap candidates
      let candidateNode ← pickOneNodeForPreemption now victimsMap
      match victimsMap.lookup candidateNode with
      | some victims => pure (some { victims := victims, name := candidateNode })
      | none => pure (some c)

end DefaultPreemption

end Caspr
