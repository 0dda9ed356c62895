import Mathlib.Data.Finset.Card
import Caspr.Cache.NodeTree
import Caspr.Lib.Run
import Caspr.Lib.LinkedList

/-! # The scheduler cache (internal/cache/cache.go)

`schedulerCache` holds what the scheduler believes is placed where.  A pod enters it either
*assumed* (`AssumePod`, when a scheduling cycle picks a node, before the binding is written) or
*added* (`AddPod`, when the informer delivers a bound pod), and leaves it by `ForgetPod` (a
failed cycle), `RemovePod` (a deleted pod) or expiry (an assumed pod whose binding finished
but whose `Add` event never came).  Three maps and one list carry this:

* `podStates`, from pod key (the UID) to the last version of the pod and its expiry data;
* `assumedPods`, the keys of the assumed pods;
* `nodes`, from node name to its `NodeInfo`, kept while the node exists or still has pods;
* the doubly linked list through `nodes` that puts the most recently updated `NodeInfo` first:
  its head and each item's `next` and `prev`, by node name (`links`), beside the list of names
  they are meant to hold from the head (`headNode`); `moveNodeInfoToHead` and
  `removeNodeInfoFromList` are the only functions that relink it;
* `imageStates`, from image name to its size and the nodes that have it, which the node events
  keep; each `NodeInfo` gets a summary of it (`ImageStates`) when its node is added or updated.

Every method returns the cache it leaves and the error it returns; `klog.Fatal` and Go's
run-time panics are `Go.Abort`.  Times are nanoseconds. -/

namespace Caspr

namespace Cache

/-- `podState`: the pod, and for an assumed pod whose binding finished, its expiry. -/
structure PodState where
  pod : Pod
  deadline : Option ℤ := none
  bindingFinished : Bool := false

/-- `imageState`: the size of an image and the names of the nodes that have it. -/
structure imageState where
  size : ℤ
  nodes : Finset String

/-- `schedulerCache`, with the package-level generation counter of `framework` beside it. -/
structure SchedulerCache where
  ttl : ℤ
  assumedPods : List String := []
  podStates : String → Option PodState := fun _ => none
  nodes : String → Option NodeInfo := fun _ => none
  headNode : List String := []
  links : DList.Links String := ⟨none, fun _ => none, fun _ => none⟩
  nodeTree : NodeTree := {}
  imageStates : String → Option imageState := fun _ => none
  generation : ℤ := 0

/-- What a cache method leaves: the cache and the error it returns (`none` for nil), unless the
process stops. -/
abbrev Result := Except Go.Abort (SchedulerCache × Option String)

/-- `newSchedulerCache(ttl, …)`. -/
def newSchedulerCache (ttl : ℤ) : SchedulerCache := { ttl := ttl }

namespace SchedulerCache

variable (cfg : Config)

/-- `nextGeneration()`: the counter is incremented and its new value returned. -/
def nextGeneration (cache : SchedulerCache) : SchedulerCache × ℤ :=
  ({ cache with generation := cache.generation + 1 }, cache.generation + 1)

/-- `cache.moveNodeInfoToHead(name)`: an item that is not the head is unlinked and linked in front
of the head; nothing happens for a name without a `NodeInfo`. -/
def moveNodeInfoToHead (cache : SchedulerCache) (name : String) : SchedulerCache :=
  match cache.nodes name with
  | none => cache
  | some _ =>
      if cache.links.head = some name then cache
      else { cache with links := (cache.links.unlink name).pushFront name,
                        headNode := name :: cache.headNode.erase name }

/-- `cache.removeNodeInfoFromList(name)`: unlink the item and delete it from `nodes`. -/
def removeNodeInfoFromList (cache : SchedulerCache) (name : String) : SchedulerCache :=
  match cache.nodes name with
  | none => cache
  | some _ =>
      { cache with links := cache.links.removeFrom name,
                   headNode := cache.headNode.erase name,
                   nodes := Function.update cache.nodes name none }

/-- Store `n` as the `NodeInfo` of `name` (the Go code mutates it through its pointer). -/
def setInfo (cache : SchedulerCache) (name : String) (n : NodeInfo) : SchedulerCache :=
  { cache with nodes := Function.update cache.nodes name (some n) }

/-- The `NodeInfo` of `name`, created by `NewNodeInfo()` in a new item when there is none. -/
def infoOrNew (cache : SchedulerCache) (name : String) : SchedulerCache × NodeInfo :=
  match cache.nodes name with
  | some n => (cache, n)
  | none =>
      let (cache, gen) := cache.nextGeneration
      ({ cache.setInfo name (NodeInfo.NewNodeInfo gen) with links := cache.links.fresh name },
        NodeInfo.NewNodeInfo gen)

/-- `cache.addPod(pod)`. -/
def addPod (cache : SchedulerCache) (pod : Pod) : SchedulerCache :=
  let (cache, n) := cache.infoOrNew pod.nodeName
  let (cache, gen) := cache.nextGeneration
  (cache.setInfo pod.nodeName (n.addPod cfg pod gen)).moveNodeInfoToHead pod.nodeName

/-- The end of `cache.removePod(pod)` once `NodeInfo.RemovePod` succeeded with `n'` (and drew
a generation): a node left without pods and without a node object is deleted, any other moves
to the head of the list. -/
def storeRemoved (cache : SchedulerCache) (name : String) (n' : NodeInfo) : SchedulerCache :=
  let cache := { cache.setInfo name n' with generation := cache.generation + 1 }
  if n'.pods = [] ∧ n'.node = none then cache.removeNodeInfoFromList name
  else cache.moveNodeInfoToHead name

/-- `cache.removePod(pod)`: a missing node is only logged. -/
def removePod (cache : SchedulerCache) (pod : Pod) : Result :=
  match cache.nodes pod.nodeName with
  | none => .ok (cache, none)
  | some n => do
      let (n', err) ← n.removePod cfg pod (cache.generation + 1)
      match err with
      | some e => .ok (cache.setInfo pod.nodeName n', some e)
      | none => .ok (cache.storeRemoved pod.nodeName n', none)

/-- `cache.updatePod(oldPod, newPod)`. -/
def updatePod (cache : SchedulerCache) (oldPod newPod : Pod) : Result := do
  let (cache, err) ← cache.removePod cfg oldPod
  match err with
  | some e => .ok (cache, some e)
  | none => .ok (cache.addPod cfg newPod, none)

/-- Whether `key` is in `assumedPods` (`cache.assumedPods[key]`). -/
def isAssumed (cache : SchedulerCache) (key : String) : Bool := key ∈ cache.assumedPods

/-- `cache.AssumePod(pod)`. -/
def AssumePod (cache : SchedulerCache) (pod : Pod) : Result :=
  match GetPodKey pod with
  | .error e => .ok (cache, some e)
  | .ok key =>
      match cache.podStates key with
      | some _ => .ok (cache, some ("pod " ++ key ++ " is in the cache, so can't be assumed"))
      | none =>
          let cache := cache.addPod cfg pod
          .ok ({ cache with podStates := Function.update cache.podStates key (some { pod := pod }),
                            assumedPods := key :: cache.assumedPods }, none)

/-- `cache.finishBinding(pod, now)`: an assumed pod gets the deadline `now + ttl`. -/
def finishBinding (cache : SchedulerCache) (pod : Pod) (now : ℤ) : Result :=
  match GetPodKey pod with
  | .error e => .ok (cache, some e)
  | .ok key =>
      match cache.podStates key with
      | some currState =>
          if cache.isAssumed key then
            let finished := { currState with bindingFinished := true,
                                             deadline := some (now + cache.ttl) }
            .ok ({ cache with podStates := Function.update cache.podStates key (some finished) },
              none)
          else .ok (cache, none)
      | none => .ok (cache, none)

/-- `cache.ForgetPod(pod)`: only an assumed pod is forgotten, and it is removed by the pod
passed in. -/
def ForgetPod (cache : SchedulerCache) (pod : Pod) : Result :=
  match GetPodKey pod with
  | .error e => .ok (cache, some e)
  | .ok key =>
      match cache.podStates key with
      | some currState =>
          if currState.pod.nodeName ≠ pod.nodeName then
            .ok (cache, some ("pod " ++ key ++ " was assumed on " ++ pod.nodeName ++
              " but assigned to " ++ currState.pod.nodeName))
          else if cache.isAssumed key then do
            let (cache, err) ← cache.removePod cfg pod
            match err with
            | some e => .ok (cache, some e)
            | none =>
                .ok ({ cache with assumedPods := cache.assumedPods.erase key,
                                  podStates := Function.update cache.podStates key none }, none)
          else .ok (cache, some ("pod " ++ key ++ " wasn't assumed so cannot be forgotten"))
      | none => .ok (cache, some ("pod " ++ key ++ " wasn't assumed so cannot be forgotten"))

/-- `cache.AddPod(pod)`: confirms an assumed pod (moving it when it was added to another node),
or adds back a pod that expired. -/
def AddPod (cache : SchedulerCache) (pod : Pod) : Result :=
  match GetPodKey pod with
  | .error e => .ok (cache, some e)
  | .ok key =>
      match cache.podStates key with
      | some currState =>
          if cache.isAssumed key then do
            let cache ← if currState.pod.nodeName ≠ pod.nodeName then do
                -- an error of `removePod` is only logged
                let (cache, _) ← cache.removePod cfg currState.pod
                pure (cache.addPod cfg pod)
              else pure cache
            let added := { currState with deadline := none, pod := pod }
            .ok ({ cache with assumedPods := cache.assumedPods.erase key,
                              podStates := Function.update cache.podStates key (some added) },
              none)
          else .ok (cache, some ("pod " ++ key ++ " was already in added state"))
      | none =>
          let cache := cache.addPod cfg pod
          .ok ({ cache with podStates := Function.update cache.podStates key (some { pod := pod }) },
            none)

/-- `klog.Fatalf` of `UpdatePod` and `RemovePod` when a pod moves between nodes. -/
def corrupted : Go.Abort := .fatal "Schedulercache is corrupted and can badly affect scheduling decisions"

/-- `cache.UpdatePod(oldPod, newPod)`: only an added pod is updated. -/
def UpdatePod (cache : SchedulerCache) (oldPod newPod : Pod) : Result :=
  match GetPodKey oldPod with
  | .error e => .ok (cache, some e)
  | .ok key =>
      match cache.podStates key with
      | some currState =>
          if cache.isAssumed key then
            .ok (cache, some ("pod " ++ key ++ " is not added to scheduler cache, so cannot be updated"))
          else if currState.pod.nodeName ≠ newPod.nodeName then .error corrupted
          else do
            let (cache, err) ← cache.updatePod cfg oldPod newPod
            match err with
            | some e => .ok (cache, some e)
            | none =>
                let updated := { currState with pod := newPod }
                .ok ({ cache with podStates := Function.update cache.podStates key (some updated) },
                  none)
      | none => .ok (cache, some ("pod " ++ key ++ " is not added to scheduler cache, so cannot be updated"))

/-- `cache.RemovePod(pod)`: only an added pod is removed, by its stored version. -/
def RemovePod (cache : SchedulerCache) (pod : Pod) : Result :=
  match GetPodKey pod with
  | .error e => .ok (cache, some e)
  | .ok key =>
      let notFound := "pod " ++ key ++ " is not found in scheduler cache, so cannot be removed from it"
      match cache.podStates key with
      | some currState =>
          if cache.isAssumed key then .ok (cache, some notFound)
          else if currState.pod.nodeName ≠ pod.nodeName then .error corrupted
          else do
            let (cache, err) ← cache.removePod cfg currState.pod
            match err with
            | some e => .ok (cache, some e)
            | none =>
                .ok ({ cache with podStates := Function.update cache.podStates key none }, none)
      | none => .ok (cache, some notFound)

/-! ### Image states -/

/-- `cache.createImageStateSummary(state)`: a copy of the image's size and number of nodes. -/
def createImageStateSummary (state : imageState) : ImageStateSummary :=
  { size := state.size, numNodes := state.nodes.card }

/-- The body of the loops of `addNodeImageStates` for the name `name` of `image` on `node`: the
node joins the image's state, created if missing, and the summary of the first occurrence of the
name is kept. -/
def addImageName (node : Node) (image : ContainerImage)
    (acc : SchedulerCache × AList fun _ : String => ImageStateSummary) (name : String) :
    SchedulerCache × AList fun _ : String => ImageStateSummary :=
  let (cache, newSum) := acc
  let state : imageState := match cache.imageStates name with
    | none => { size := image.sizeBytes, nodes := {node.name} }
    | some state => { state with nodes := insert node.name state.nodes }
  let cache := { cache with imageStates := Function.update cache.imageStates name (some state) }
  match newSum.lookup name with
  | some _ => (cache, newSum)
  | none => (cache, newSum.insert name (createImageStateSummary state))

/-- `cache.addNodeImageStates(node, nodeInfo)`: the cache, and the summaries it sets as
`nodeInfo.ImageStates`. -/
def addNodeImageStates (cache : SchedulerCache) (node : Node) :
    SchedulerCache × AList fun _ : String => ImageStateSummary :=
  node.images.foldl (fun acc image => image.names.foldl (addImageName node image) acc) (cache, ∅)

/-- The body of the loops of `removeNodeImageStates` for the image name `name`: the node leaves
the image's state, which is deleted once no node has the image. -/
def removeImageName (nodeName : String) (cache : SchedulerCache) (name : String) :
    SchedulerCache :=
  match cache.imageStates name with
  | some state =>
      let state := { state with nodes := state.nodes.erase nodeName }
      if state.nodes.card = 0 then
        { cache with imageStates := Function.update cache.imageStates name none }
      else { cache with imageStates := Function.update cache.imageStates name (some state) }
  | none => cache

/-- `cache.removeNodeImageStates(node)`; nothing for a nil node. -/
def removeNodeImageStates (cache : SchedulerCache) : Option Node → SchedulerCache
  | none => cache
  | some node =>
      node.images.foldl (fun cache image => image.names.foldl (removeImageName node.name) cache)
        cache

/-! ### Node events -/

/-- `cache.AddNode(node)`.  The images of the node object of a `NodeInfo` already there are
removed first; a new `NodeInfo` has no node object, for which `removeNodeImageStates` does
nothing. -/
def AddNode (cache : SchedulerCache) (node : Node) : Result :=
  let (cache, n) := cache.infoOrNew node.name
  let cache := cache.removeNodeImageStates n.node
  let cache := cache.moveNodeInfoToHead node.name
  let cache := { cache with nodeTree := cache.nodeTree.addNode node }
  let (cache, imageStates) := cache.addNodeImageStates node
  let (cache, gen) := cache.nextGeneration
  .ok (cache.setInfo node.name ({ n with imageStates := imageStates }.setNode cfg node gen), none)

/-- `cache.UpdateNode(oldNode, newNode)`. -/
def UpdateNode (cache : SchedulerCache) (oldNode newNode : Node) : Result :=
  let (cache, n) := match cache.nodes newNode.name with
    | some n => (cache.removeNodeImageStates n.node, n)
    | none =>
        let (cache, n) := cache.infoOrNew newNode.name
        ({ cache with nodeTree := cache.nodeTree.addNode newNode }, n)
  let cache := cache.moveNodeInfoToHead newNode.name
  let cache := { cache with nodeTree := cache.nodeTree.updateNode oldNode newNode }
  let (cache, imageStates) := cache.addNodeImageStates newNode
  let (cache, gen) := cache.nextGeneration
  .ok (cache.setInfo newNode.name ({ n with imageStates := imageStates }.setNode cfg newNode gen),
    none)

/-- `cache.RemoveNode(node)`: the `NodeInfo` of a node that still has pods is kept, without its
node object, until their deletion events arrive. -/
def RemoveNode (cache : SchedulerCache) (node : Node) : Result :=
  match cache.nodes node.name with
  | none => .ok (cache, some ("node " ++ node.name ++ " is not found"))
  | some n =>
      let (cache, gen) := cache.nextGeneration
      let n := n.removeNode gen
      let cache := cache.setInfo node.name n
      let cache := if n.pods = [] then cache.removeNodeInfoFromList node.name
        else cache.moveNodeInfoToHead node.name
      match cache.nodeTree.removeNode node with
      | .ok nt => .ok (({ cache with nodeTree := nt } : SchedulerCache).removeNodeImageStates node,
          none)
      | .error e => .ok (cache, some e)

/-- `cache.expirePod(key, ps)`. -/
def expirePod (cache : SchedulerCache) (key : String) (ps : PodState) : Result := do
  let (cache, err) ← cache.removePod cfg ps.pod
  match err with
  | some e => .ok (cache, some e)
  | none =>
      .ok ({ cache with assumedPods := cache.assumedPods.erase key,
                        podStates := Function.update cache.podStates key none }, none)

/-- One iteration of the loop of `cleanupAssumedPods(now)`; an error of `expirePod` is only
logged. -/
def cleanupAssumedPod (now : ℤ) (cache : SchedulerCache) (key : String) :
    Except Go.Abort SchedulerCache :=
  match cache.podStates key with
  | none => .error (.fatal "Key found in assumed set but not in podStates. Potentially a logical error.")
  | some ps =>
      if !ps.bindingFinished then .ok cache
      else
        match ps.deadline with
        | none => .error .nilPointerDereference
        | some deadline =>
            if now > deadline then do
              let (cache, _) ← cache.expirePod cfg key ps
              pure cache
            else .ok cache

/-- `cache.cleanupAssumedPods(now)`.  Go ranges over the `assumedPods` map in an unspecified
order; each iteration reads and deletes only its own key, and the model ranges over the keys
as listed. -/
def cleanupAssumedPods (cache : SchedulerCache) (now : ℤ) : Result := do
  let cache ← cache.assumedPods.foldlM (cleanupAssumedPod cfg now) cache
  pure (cache, none)

end SchedulerCache

/-- The calls the rest of the scheduler makes on the cache. -/
inductive CacheOp where
  | AssumePod (pod : Pod)
  | FinishBinding (pod : Pod) (now : ℤ)
  | ForgetPod (pod : Pod)
  | AddPod (pod : Pod)
  | UpdatePod (oldPod newPod : Pod)
  | RemovePod (pod : Pod)
  | AddNode (node : Node)
  | UpdateNode (oldNode newNode : Node)
  | RemoveNode (node : Node)
  | cleanupAssumedPods (now : ℤ)

namespace SchedulerCache

variable (cfg : Config)

/-- One call on the cache. -/
def apply (cache : SchedulerCache) : CacheOp → Result
  | .AssumePod pod => cache.AssumePod cfg pod
  | .FinishBinding pod now => cache.finishBinding pod now
  | .ForgetPod pod => cache.ForgetPod cfg pod
  | .AddPod pod => cache.AddPod cfg pod
  | .UpdatePod oldPod newPod => cache.UpdatePod cfg oldPod newPod
  | .RemovePod pod => cache.RemovePod cfg pod
  | .AddNode node => cache.AddNode cfg node
  | .UpdateNode oldNode newNode => cache.UpdateNode cfg oldNode newNode
  | .RemoveNode node => cache.RemoveNode node
  | .cleanupAssumedPods now => cache.cleanupAssumedPods cfg now

/-- The step relation of the cache: a call that returns, whatever error it returns. -/
def Step (cache : SchedulerCache) (op : CacheOp) (cache' : SchedulerCache) : Prop :=
  ∃ err, cache.apply cfg op = .ok (cache', err)

/-- The cache after calls that all return, or the abort that stops one. -/
def run (cache : SchedulerCache) : List CacheOp → Except Go.Abort SchedulerCache
  | [] => .ok cache
  | op :: ops => do
      let (cache, _) ← cache.apply cfg op
      cache.run ops

theorem reachable_of_run {ok : SchedulerCache → CacheOp → Prop} {init : SchedulerCache} :
    ∀ {cache cache' : SchedulerCache} (ops : List CacheOp), (∀ op ∈ ops, ∀ c, ok c op) →
      StepSystem.Reachable (Step cfg) ok init cache →
      cache.run cfg ops = .ok cache' → StepSystem.Reachable (Step cfg) ok init cache'
  | _, _, [], _, hr, h => by
      cases h
      exact hr
  | _, _, op :: ops, hok, hr, h => by
      simp only [run, bind, Except.bind] at h
      split at h
      · cases h
      · rename_i r hop
        exact reachable_of_run ops (fun o ho => hok o (List.mem_cons_of_mem op ho))
          (.step op hr (hok op List.mem_cons_self _) ⟨r.2, hop⟩) h

end SchedulerCache

end Cache

end Caspr
