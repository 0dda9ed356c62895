import Caspr.Cache.Cache

/-! # The snapshot (internal/cache/snapshot.go, `UpdateSnapshot` in cache.go)

At the start of every scheduling cycle the scheduler brings its `Snapshot` up to date with
`UpdateSnapshot`.  The snapshot keeps a copy of the `NodeInfo` of every node, the list of those
copies in the order of the node tree, and the sub-lists of the copies that hold pods with
affinity and with required anti-affinity.  `UpdateSnapshot` is incremental: it walks the list
of `NodeInfo`s from the most recently updated one and stops at the first that is not newer than
the snapshot, deletes entries by counting them against the node tree, and rebuilds the lists
only when it saw an entry created or deleted, or a node change its affinity status.

The Go lists hold pointers to the map's entries, and an entry is updated in place (`*existing =
*clone`).  The model keeps names in the lists: every entry created or deleted sets
`updateAllLists`, which rebuilds the list from the map, so a pointer in a list is always the
entry of its name.  `Clone` is a copy, which a value is.  The transient scheduler info and its
feature gate are left out.

What a change of zone does is not seen by the incremental walk: the node's entry exists and its
affinity status is the same, so the list keeps the old order while the node tree has a new one
(`UpdateSnapshot_zone_change`). -/

namespace Caspr

namespace Cache

/-- `Snapshot`; the lists hold the names of the map's entries. -/
structure Snapshot where
  nodeInfoMap : AList (fun _ : String => NodeInfo) := ∅
  nodeInfoList : List String := []
  havePodsWithAffinityNodeInfoList : List String := []
  havePodsWithRequiredAntiAffinityNodeInfoList : List String := []
  generation : ℤ := 0

/-- `NewEmptySnapshot()`. -/
def NewEmptySnapshot : Snapshot := {}

/-- What the loop of `UpdateSnapshot` carries: the snapshot and its three flags. -/
structure SnapshotUpdate where
  snapshot : Snapshot
  updateAllLists : Bool := false
  updateNodesHavePodsWithAffinity : Bool := false
  updateNodesHavePodsWithRequiredAntiAffinity : Bool := false

/-- Whether a `NodeInfo` changed between having and not having pods in one of its sub-lists. -/
def statusChanged (existing clone : List Pod) : Bool :=
  decide (0 < existing.length) != decide (0 < clone.length)

/-- The body of the loop of `UpdateSnapshot` for a `NodeInfo` newer than the snapshot: one with
a node is copied into the entry of the node's name, which is created when missing. -/
def copyNodeInfo (u : SnapshotUpdate) (info : NodeInfo) : SnapshotUpdate :=
  match info.node with
  | none => u
  | some np =>
      let (existing, updateAllLists) := match u.snapshot.nodeInfoMap.lookup np.name with
        | some existing => (existing, u.updateAllLists)
        | none => ({}, true)
      { snapshot := { u.snapshot with
          nodeInfoMap := u.snapshot.nodeInfoMap.insert np.name info }
        updateAllLists := updateAllLists
        updateNodesHavePodsWithAffinity := u.updateNodesHavePodsWithAffinity ||
          statusChanged existing.podsWithAffinity info.podsWithAffinity
        updateNodesHavePodsWithRequiredAntiAffinity :=
          u.updateNodesHavePodsWithRequiredAntiAffinity ||
            statusChanged existing.podsWithRequiredAntiAffinity info.podsWithRequiredAntiAffinity }

namespace SchedulerCache

/-- The loop of `UpdateSnapshot` over the `NodeInfo` list from its head: it stops at the first
`NodeInfo` not newer than the snapshot.  Every name of the list has a `NodeInfo`. -/
def copyNewer (cache : SchedulerCache) (snapshotGeneration : ℤ) :
    List String → SnapshotUpdate → SnapshotUpdate
  | [], u => u
  | name :: rest, u =>
      match cache.nodes name with
      | none => u
      | some info =>
          if info.generation ≤ snapshotGeneration then u
          else cache.copyNewer snapshotGeneration rest (copyNodeInfo u info)

/-- `cache.removeDeletedNodesFromSnapshot(snapshot)`: entries whose node is gone are deleted
until as many are left as the node tree has names.  Go ranges over the map in an unspecified
order; the model ranges over its keys as listed. -/
def removeDeletedNodesFromSnapshot (cache : SchedulerCache) (snapshot : Snapshot) : Snapshot :=
  let toDelete := snapshot.nodeInfoMap.entries.length - cache.nodeTree.numNodes
  let (nodeInfoMap, _) := snapshot.nodeInfoMap.keys.foldl
    (fun (acc : AList (fun _ : String => NodeInfo) × ℕ) name =>
      if acc.2 = 0 then acc
      else
        match cache.nodes name with
        | some n => if n.node.isNone then (acc.1.erase name, acc.2 - 1) else acc
        | none => (acc.1.erase name, acc.2 - 1))
    (snapshot.nodeInfoMap, toDelete)
  { snapshot with nodeInfoMap := nodeInfoMap }

/-- `cache.updateNodeInfoSnapshotList(snapshot, updateAll)`: the list in the order of the node
tree (names of the tree without an entry are only logged), and the two sub-lists. -/
def updateNodeInfoSnapshotList (cache : SchedulerCache) (snapshot : Snapshot) (updateAll : Bool) :
    Snapshot :=
  let nodeInfoList :=
    if updateAll then
      cache.nodeTree.list.1.filter fun name => (snapshot.nodeInfoMap.lookup name).isSome
    else snapshot.nodeInfoList
  let has (sub : NodeInfo → List Pod) (name : String) : Bool :=
    match snapshot.nodeInfoMap.lookup name with
    | some nodeInfo => decide (0 < (sub nodeInfo).length)
    | none => false
  { snapshot with
    nodeInfoList := nodeInfoList
    havePodsWithAffinityNodeInfoList := nodeInfoList.filter (has NodeInfo.podsWithAffinity)
    havePodsWithRequiredAntiAffinityNodeInfoList :=
      nodeInfoList.filter (has NodeInfo.podsWithRequiredAntiAffinity) }

/-- `cache.UpdateSnapshot(nodeSnapshot)`: the snapshot it leaves and the error it returns.  The
list of `NodeInfo`s links every entry of `nodes`, so its length is `len(cache.nodes)`. -/
def UpdateSnapshot (cache : SchedulerCache) (nodeSnapshot : Snapshot) : Snapshot × Option String :=
  let snapshotGeneration := nodeSnapshot.generation
  let u := cache.copyNewer snapshotGeneration cache.headNode { snapshot := nodeSnapshot }
  let snapshot := match cache.headNode with
    | name :: _ =>
        match cache.nodes name with
        | some info => { u.snapshot with generation := info.generation }
        | none => u.snapshot
    | [] => u.snapshot
  let (snapshot, updateAllLists) :=
    if snapshot.nodeInfoMap.entries.length > cache.nodeTree.numNodes then
      (cache.removeDeletedNodesFromSnapshot snapshot, true)
    else (snapshot, u.updateAllLists)
  let snapshot :=
    if updateAllLists || u.updateNodesHavePodsWithAffinity ||
        u.updateNodesHavePodsWithRequiredAntiAffinity then
      cache.updateNodeInfoSnapshotList snapshot updateAllLists
    else snapshot
  if snapshot.nodeInfoList.length ≠ cache.nodeTree.numNodes then
    (cache.updateNodeInfoSnapshotList snapshot true,
      some ("snapshot state is not consistent, length of NodeInfoList=" ++
        toString snapshot.nodeInfoList.length ++ " not equal to length of nodes in tree=" ++
        toString cache.nodeTree.numNodes ++ " , length of NodeInfoMap=" ++
        toString snapshot.nodeInfoMap.entries.length ++ ", length of nodes in cache=" ++
        toString cache.headNode.length ++ ", trying to recover"))
  else (snapshot, none)

end SchedulerCache

/-- The events of a scheduler that shares one snapshot: a call on the cache, or the
`UpdateSnapshot` of a new cycle. -/
inductive SnapshotEvent where
  | call (op : CacheOp)
  | UpdateSnapshot

/-- One event, with the error it returns. -/
def SnapshotEvent.apply (cfg : Config) (st : SchedulerCache × Snapshot) :
    SnapshotEvent → Except Go.Abort ((SchedulerCache × Snapshot) × Option String)
  | .call op => do
      let (cache, err) ← st.1.apply cfg op
      pure ((cache, st.2), err)
  | .UpdateSnapshot =>
      let (snapshot, err) := st.1.UpdateSnapshot st.2
      .ok ((st.1, snapshot), err)

/-- A run of events, with the error of its last event. -/
def runEvents (cfg : Config) (st : SchedulerCache × Snapshot) :
    List SnapshotEvent → Except Go.Abort ((SchedulerCache × Snapshot) × Option String)
  | [] => .ok (st, none)
  | [e] => SnapshotEvent.apply cfg st e
  | e :: es => do
      let (st, _) ← SnapshotEvent.apply cfg st e
      runEvents cfg st es

/-- The list a snapshot computed from scratch has: the names of the node tree, in its order,
that have an entry. -/
def treeOrderList (cache : SchedulerCache) (snapshot : Snapshot) : List String :=
  cache.nodeTree.list.1.filter fun name => (snapshot.nodeInfoMap.lookup name).isSome

/-- Two nodes in zones `zone-1` and `zone-2` are added and a snapshot taken; then the first
node moves to `zone-3`.  The node tree now lists the second node first, but the next
`UpdateSnapshot` returns nil with the old order. -/
theorem UpdateSnapshot_zone_change :
    let cfg : Config := ⟨true, true, fun _ => false⟩
    let a : Node := { name := "node-a", labels := AList.singleton LabelTopologyZone "zone-1" }
    let b : Node := { name := "node-b", labels := AList.singleton LabelTopologyZone "zone-2" }
    let a' : Node := { a with labels := AList.singleton LabelTopologyZone "zone-3" }
    ((runEvents cfg (newSchedulerCache 0, NewEmptySnapshot)
        [.call (.AddNode a), .call (.AddNode b), .UpdateSnapshot, .call (.UpdateNode a a'),
          .UpdateSnapshot]).toOption.map
      fun r => (r.2, r.1.2.nodeInfoList, treeOrderList r.1.1 r.1.2)) =
      some (none, ["node-a", "node-b"], ["node-b", "node-a"]) := by
  decide

end Cache

end Caspr
