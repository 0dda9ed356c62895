import Caspr.Lib.Go
import Caspr.Framework.Types

/-! # Connectivity-aware host selection (core/generic_scheduler.go)

CASPR replaces the last step of `genericScheduler.Schedule`, the choice among the feasible
nodes, by `selectConnectedHost`.  It reads a 5×5 adjacency matrix of the nodes `node-0` …
`node-4` from the file `/storage/hello/hello.txt`, and `AppMap["Spark"]`, the nodes where the
scheduler has placed the pods of the running application, and picks:

* for a pod whose name contains `spark`, a node with the most edges, the ties broken by a higher
  score and else at random;
* for any other pod, starting from the first listed node that holds a pod of the application, a
  node of higher score that is adjacent to the current choice and to every node of the
  application, and at random among the nodes of equal score.

Upstream, `selectHost` picks at random among the nodes of highest score; it is kept for
comparison.

Only the nodes `node-1` … `node-4` count as nodes of the application, and a name outside
`node-0` … `node-4` reads as index 0 (`nodeIndex`, Go's zero value of the missing key).

*Modelling.*
* The content of the file is a parameter, `hello`; when the file cannot be read the code goes on
  with no data, which is `hello = ""`.
* `rand.Intn` draws from a stream of outcomes (`Go.Intn`).
* `Schedule` is modelled from the feasible nodes on: which nodes pass the filter plugins and
  what the score plugins give them are inputs, the feasible nodes with their scores.  Every
  failure before (the snapshot, no nodes, a plugin error) ends the cycle as an empty list of
  feasible nodes does.  The numbers of evaluated and feasible nodes of `ScheduleResult` are only
  logged and are left out. -/

namespace Caspr

namespace GenericScheduler

/-- `framework.NodeScore`. -/
structure NodeScore where
  Name : String
  Score : ℤ
deriving DecidableEq, Repr

/-- The type of `Scheduler.AppMap`, `map[string]map[string][]string`: for an application, the
names of the pods placed on each node.  A missing inner map is Go's nil map. -/
abbrev AppNodePods := AList (fun _ : String => AList (fun _ : String => List String))

/-- `_, ok := AppMap["Spark"][node]`: whether the application has an entry for the node.
Reading a nil map finds nothing. -/
def hasEntry (AppMap : AppNodePods) (node : String) : Bool :=
  ((AppMap.lookup "Spark").bind fun nodes => nodes.lookup node).isSome

/-! ### The adjacency file -/

/-- The `[5][5]int` adjacency matrix. -/
abbrev Matrix5 := Fin 5 → Fin 5 → ℤ

/-- `strToIntArr(s)`: the numbers between single spaces; a piece that is not a number reads as
the value `Atoi` returns with its error, which is dropped. -/
def strToIntArr (s : String) : List ℤ := (Go.Split s ' ').map fun piece => (Go.Atoi piece).1

/-- The loop that fills `adjacencyMatrix` from `res` row by row, `adjacencyMatrix[i][j] =
res[5*i + j]`; it indexes `res` out of range when the file holds fewer than 25 numbers. -/
def fillAdjacencyMatrix (res : List ℤ) : Except Go.Abort Matrix5 :=
  if 25 ≤ res.length then .ok fun i j => res.getD (5 * i.val + j.val) 0
  else .error .indexOutOfRange

/-- `findedges(d)`: for each node, the number of `1`s of its row less one, its edges to other
nodes when the diagonal holds `1`. -/
def findedges (d : Matrix5) (i : Fin 5) : ℤ :=
  (((List.finRange 5).countP fun j => d i j = 1 : ℕ) : ℤ) - 1

/-- The map `m` of `selectConnectedHost` from node names to indices; a missing name reads as
`0`. -/
def nodeIndex (name : String) : Fin 5 :=
  if name = "node-0" then 0 else if name = "node-1" then 1 else if name = "node-2" then 2
  else if name = "node-3" then 3 else if name = "node-4" then 4 else 0

/-- `prevNodes`: `1` at the index of each of `node-1` … `node-4` that has an entry in
`AppMap["Spark"]`, `0` elsewhere. -/
def prevNodes (AppMap : AppNodePods) : Fin 5 → ℕ :=
  ["node-1", "node-2", "node-3", "node-4"].foldl
    (fun prev node => if hasEntry AppMap node then
      Function.update prev (nodeIndex node) (prev (nodeIndex node) + 1) else prev)
    fun _ => 0

/-! ### The selection loops -/

/-- The local variables that `selectConnectedHost`'s loops update. -/
structure HostChoice where
  maxScore : ℤ
  selected : String
  selectedEdges : ℤ
  cntOfMaxScore : ℕ := 1
  cnctd : Bool := false
  draws : ℕ → ℕ

/-- One iteration of the loop for `spark` pods: more edges win; on as many edges, a higher score
wins (without becoming the score to beat), else the node replaces the choice with probability
`1/cntOfMaxScore`. -/
def sparkStep (edges : Fin 5 → ℤ) (st : HostChoice) (ns : NodeScore) : HostChoice :=
  let nsEdges := edges (nodeIndex ns.Name)
  if nsEdges > st.selectedEdges then
    { st with maxScore := ns.Score, selected := ns.Name, selectedEdges := nsEdges,
              cntOfMaxScore := 1 }
  else if nsEdges = st.selectedEdges then
    if ns.Score > st.maxScore then { st with selected := ns.Name }
    else
      let cntOfMaxScore := st.cntOfMaxScore + 1
      let (r, draws) := Go.Intn cntOfMaxScore st.draws
      { st with cntOfMaxScore := cntOfMaxScore, draws := draws,
                selected := if r = 0 then ns.Name else st.selected }
  else st

/-- The loop over `prevNodes` that sets `cnctd`: `true` when node `k` is adjacent to the nodes of
the application met before the first that it is not adjacent to, `false` at that one.  With no
node of the application, `cnctd` keeps its value from the earlier iterations. -/
def connectedLoop (adj : Matrix5) (prev : Fin 5 → ℕ) (k : Fin 5) : List (Fin 5) → Bool → Bool
  | [], cnctd => cnctd
  | i :: is, cnctd =>
      if prev i ≠ 1 then connectedLoop adj prev k is cnctd
      else if adj i k = 1 then connectedLoop adj prev k is true
      else false

/-- One iteration of the loop for the other pods: a node of higher score adjacent to the choice
replaces it if it is adjacent to every node of the application; a node of equal score replaces
it with probability `1/cntOfMaxScore`, whatever its edges. -/
def connectedStep (adj : Matrix5) (prev : Fin 5 → ℕ) (st : HostChoice) (ns : NodeScore) :
    HostChoice :=
  if ns.Name = st.selected then st
  else if ns.Score > st.maxScore then
    if adj (nodeIndex ns.Name) (nodeIndex st.selected) = 1 then
      let cnctd := connectedLoop adj prev (nodeIndex ns.Name) (List.finRange 5) st.cnctd
      let st := { st with cntOfMaxScore := 1, cnctd := cnctd }
      if cnctd then { st with maxScore := ns.Score, selected := ns.Name } else st
    else st
  else if ns.Score = st.maxScore then
    let cntOfMaxScore := st.cntOfMaxScore + 1
    let (r, draws) := Go.Intn cntOfMaxScore st.draws
    { st with cntOfMaxScore := cntOfMaxScore, draws := draws,
              selected := if r = 0 then ns.Name else st.selected }
  else st

/-- The first listed node that holds a pod of the application, where the loop for the other
pods starts. -/
def startNode (prev : Fin 5 → ℕ) (nodeScoreList : List NodeScore) : Option NodeScore :=
  nodeScoreList.find? fun ns => prev (nodeIndex ns.Name) = 1

/-- `g.selectConnectedHost(nodeScoreList, podname, AppMap)` with the adjacency file `hello`:
the host, or the error for an empty list, and the rest of the random stream.  It panics when the
file holds fewer than 25 numbers. -/
def selectConnectedHost (hello : String) (nodeScoreList : List NodeScore) (podname : String)
    (AppMap : AppNodePods) (draws : ℕ → ℕ) :
    Except Go.Abort (Except String String × (ℕ → ℕ)) :=
  match nodeScoreList with
  | [] => .ok (.error "empty priorityList", draws)
  | first :: rest =>
      match fillAdjacencyMatrix (strToIntArr hello) with
      | .error e => .error e
      | .ok adjacencyMatrix =>
          let edges := findedges adjacencyMatrix
          let init : HostChoice :=
            { maxScore := first.Score, selected := first.Name,
              selectedEdges := edges (nodeIndex first.Name), draws := draws }
          let last :=
            if Go.Contains podname "spark" then rest.foldl (sparkStep edges) init
            else
              let prev := prevNodes AppMap
              let init := match startNode prev nodeScoreList with
                | some ns => { init with selected := ns.Name, maxScore := ns.Score }
                | none => init
              nodeScoreList.foldl (connectedStep adjacencyMatrix prev) init
          .ok (.ok last.selected, last.draws)

/-- One iteration of `selectHost`'s loop: a higher score wins, an equal one replaces the choice
with probability `1/cntOfMaxScore`. -/
def selectHostStep (st : HostChoice) (ns : NodeScore) : HostChoice :=
  if ns.Score > st.maxScore then
    { st with maxScore := ns.Score, selected := ns.Name, cntOfMaxScore := 1 }
  else if ns.Score = st.maxScore then
    let cntOfMaxScore := st.cntOfMaxScore + 1
    let (r, draws) := Go.Intn cntOfMaxScore st.draws
    { st with cntOfMaxScore := cntOfMaxScore, draws := draws,
              selected := if r = 0 then ns.Name else st.selected }
  else st

/-- `g.selectHost(nodeScoreList)`, the reservoir sampling among the nodes of highest score that
`selectConnectedHost` replaces; its loop keeps no edges (`selectedEdges` stays `0`). -/
def selectHost (nodeScoreList : List NodeScore) (draws : ℕ → ℕ) :
    Except String String × (ℕ → ℕ) :=
  match nodeScoreList with
  | [] => (.error "empty priorityList", draws)
  | first :: rest =>
      let last := rest.foldl selectHostStep
        { maxScore := first.Score, selected := first.Name, selectedEdges := 0, draws := draws }
      (.ok last.selected, last.draws)

/-! ### Schedule -/

/-- The errors of `Schedule` that the model keeps apart. -/
inductive ScheduleError where
  /-- `FitError`: no node passes the filter plugins. -/
  | FitError
  /-- The error of `selectConnectedHost`. -/
  | selectHost (err : String)
deriving DecidableEq, Repr

/-- `g.Schedule(…, pod, AppMap)` from the feasible nodes with their scores on: the only feasible
node is taken as it is, among several `selectConnectedHost` chooses. -/
def Schedule (hello : String) (pod : Pod) (AppMap : AppNodePods)
    (feasibleNodes : List NodeScore) (draws : ℕ → ℕ) :
    Except Go.Abort (Except ScheduleError String × (ℕ → ℕ)) :=
  match feasibleNodes with
  | [] => .ok (.error .FitError, draws)
  | [node] => .ok (.ok node.Name, draws)
  | _ :: _ :: _ => do
      let (host, draws) ← selectConnectedHost hello feasibleNodes pod.name AppMap draws
      pure (host.mapError .selectHost, draws)

end GenericScheduler

end Caspr
