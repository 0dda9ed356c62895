import Caspr.Core.GenericScheduler
import Caspr.Lib.Run

/-! # What the selection loops choose (core/generic_scheduler.go)

Each loop of `selectConnectedHost`, and the loop of `selectHost`, is a fold of one step over the
candidates, with the stream of random draws in its state.  Each is described here by an
invariant over the candidates seen so far that holds for every stream:

* `selectHost` keeps a candidate of the highest score seen (`ReservoirInv`), so it returns a
  node of maximal score (`selectHost_max`);
* the loop for `spark` pods keeps a candidate of the most edges seen (`SparkInv`), so it
  returns a node of maximal degree (`selectConnectedHost_spark_max_edges`).  Among nodes of that
  degree it does not keep the highest score: a higher score takes the choice without becoming
  the score to beat, and any node of the same degree, of whatever score, replaces the choice at
  random (`selectConnectedHost_spark_lower_score`);
* the loop for the other pods, when no node of the application is among `node-1` … `node-4`,
  never leaves its first candidate's score (`FirstScoreInv`): `cnctd` starts `false` and the
  adjacency loop over an empty set of nodes keeps it so, so a higher score never wins
  (`selectConnectedHost_no_app_first_score`), where `selectHost` would return it.

Before any loop, the matrix is filled with 25 numbers read between single spaces: a file with
fewer than 24 spaces, the empty content of a failed read among them, makes the fill index past
the numbers read (`selectConnectedHost_short_file`). -/

namespace Caspr

namespace GenericScheduler

/-! ### The adjacency file -/

theorem strToIntArr_length (s : String) : (strToIntArr s).length = s.toList.count ' ' + 1 := by
  rw [strToIntArr, List.length_map, Go.length_Split]

/-- **A file with fewer than 24 spaces makes `selectConnectedHost` index past the numbers it
read**, whatever the non-empty list of nodes, the pod and the application's nodes. -/
theorem selectConnectedHost_short_file (hello : String) (first : NodeScore) (rest : List NodeScore)
    (podname : String) (AppMap : AppNodePods) (draws : ℕ → ℕ)
    (hshort : hello.toList.count ' ' < 24) :
    selectConnectedHost hello (first :: rest) podname AppMap draws = .error .indexOutOfRange := by
  have hlen : ¬ 25 ≤ (strToIntArr hello).length := by
    rw [strToIntArr_length]
    omega
  simp only [selectConnectedHost, fillAdjacencyMatrix, if_neg hlen]

theorem selectConnectedHost_short_file_read_failed :
    selectConnectedHost "" [⟨"node-0", 0⟩] "" ∅ (fun _ => 0) = .error .indexOutOfRange :=
  selectConnectedHost_short_file "" _ _ _ _ _ (by decide)

/-- The draw of `rand.Intn(n)` and the stream after it. -/
@[simp] theorem Intn_eq (n : ℕ) (draws : ℕ → ℕ) :
    Go.Intn n draws = (draws 0 % n, fun k => draws (k + 1)) := rfl

/-! ### `selectHost` -/

/-- What `selectHost`'s loop keeps over the candidates `seen` so far: the choice is one of them
with the score to beat, and none of them scores more. -/
structure ReservoirInv (seen : List NodeScore) (st : HostChoice) : Prop where
  mem : ∃ ns ∈ seen, ns.Name = st.selected ∧ ns.Score = st.maxScore
  max : ∀ ns ∈ seen, ns.Score ≤ st.maxScore

theorem ReservoirInv.step {seen : List NodeScore} {st : HostChoice} (h : ReservoirInv seen st)
    (ns : NodeScore) : ReservoirInv (seen ++ [ns]) (selectHostStep st ns) := by
  obtain ⟨⟨m, hm, hname, hscore⟩, hmax⟩ := h
  have hmem : ∀ x ∈ seen ++ [ns], x ∈ seen ∨ x = ns := by simp
  unfold selectHostStep
  split_ifs with hgt heq
  · refine ⟨⟨ns, by simp, rfl, rfl⟩, fun x hx => ?_⟩
    rcases hmem x hx with hx | rfl
    · exact le_trans (hmax x hx) (le_of_lt hgt)
    · exact le_refl _
  · have hmax' : ∀ x ∈ seen ++ [ns], x.Score ≤ st.maxScore := by
      intro x hx
      rcases hmem x hx with hx | rfl
      · exact hmax x hx
      · exact le_of_eq heq
    simp only [Intn_eq]
    by_cases hr : st.draws 0 % (st.cntOfMaxScore + 1) = 0
    · exact ⟨⟨ns, by simp, by simp [hr], heq⟩, hmax'⟩
    · exact ⟨⟨m, List.mem_append_left _ hm, by simp [hr, hname], hscore⟩, hmax'⟩
  · refine ⟨⟨m, List.mem_append_left _ hm, hname, hscore⟩, fun x hx => ?_⟩
    rcases hmem x hx with hx | rfl
    · exact hmax x hx
    · exact le_of_lt (lt_of_le_of_ne (not_lt.mp hgt) heq)

theorem ReservoirInv.foldl : ∀ (l : List NodeScore) {seen : List NodeScore} {st : HostChoice},
    ReservoirInv seen st → ReservoirInv (seen ++ l) (l.foldl selectHostStep st) :=
  fun l seen st h =>
    StepSystem.foldl_history_invariant selectHostStep (fun _ _ ns h => h.step ns) l seen st h

/-- **`selectHost` returns a node of maximal score**, for every stream of draws. -/
theorem selectHost_max (first : NodeScore) (rest : List NodeScore) (draws : ℕ → ℕ) :
    ∃ host draws', selectHost (first :: rest) draws = (.ok host, draws') ∧
      ∃ ns ∈ first :: rest, ns.Name = host ∧ ∀ ns' ∈ first :: rest, ns'.Score ≤ ns.Score := by
  have hinit : ReservoirInv [first]
      { maxScore := first.Score, selected := first.Name, selectedEdges := 0, draws := draws } :=
    ⟨⟨first, by simp, rfl, rfl⟩, fun x hx => by simp at hx; rw [hx]⟩
  obtain ⟨⟨ns, hns, hname, hscore⟩, hmax⟩ := hinit.foldl rest
  refine ⟨_, _, rfl, ns, by simpa using hns, hname, fun ns' hns' => ?_⟩
  rw [hscore]
  exact hmax ns' (by simpa using hns')

/-! ### The loop for `spark` pods -/

section spark

variable (edges : Fin 5 → ℤ)

/-- What the loop for `spark` pods keeps over the candidates `seen` so far: the choice is one of
them, `selectedEdges` is its degree, and none of them has more. -/
structure SparkInv (seen : List NodeScore) (st : HostChoice) : Prop where
  mem : ∃ ns ∈ seen, ns.Name = st.selected
  edges_eq : st.selectedEdges = edges (nodeIndex st.selected)
  max : ∀ ns ∈ seen, edges (nodeIndex ns.Name) ≤ st.selectedEdges

theorem SparkInv.step {seen : List NodeScore} {st : HostChoice} (h : SparkInv edges seen st)
    (ns : NodeScore) : SparkInv edges (seen ++ [ns]) (sparkStep edges st ns) := by
  obtain ⟨⟨m, hm, hname⟩, hedges, hmax⟩ := h
  have hmem : ∀ x ∈ seen ++ [ns], x ∈ seen ∨ x = ns := by simp
  have hold : ∃ x ∈ seen ++ [ns], x.Name = st.selected := ⟨m, List.mem_append_left _ hm, hname⟩
  unfold sparkStep
  dsimp only
  split_ifs with hgt heq hscore
  · refine ⟨⟨ns, by simp, rfl⟩, rfl, fun x hx => ?_⟩
    rcases hmem x hx with hx | rfl
    · exact le_trans (hmax x hx) (le_of_lt hgt)
    · exact le_refl _
  all_goals
    have hmax' : ∀ x ∈ seen ++ [ns], edges (nodeIndex x.Name) ≤ st.selectedEdges := by
      intro x hx
      rcases hmem x hx with hx | rfl
      · exact hmax x hx
      · exact not_lt.mp hgt
  · exact ⟨⟨ns, by simp, rfl⟩, heq.symm, hmax'⟩
  · exact ⟨⟨ns, by simp, rfl⟩, heq.symm, hmax'⟩
  · exact ⟨hold, hedges, hmax'⟩
  · exact ⟨hold, hedges, hmax'⟩

theorem SparkInv.foldl : ∀ (l : List NodeScore) {seen : List NodeScore} {st : HostChoice},
    SparkInv edges seen st → SparkInv edges (seen ++ l) (l.foldl (sparkStep edges) st) :=
  fun l seen st h =>
    StepSystem.foldl_history_invariant (sparkStep edges) (fun _ _ ns h => h.step edges ns) l seen st h

end spark

/-- **For a `spark` pod, `selectConnectedHost` returns a node of maximal degree**, for every
stream of draws. -/
theorem selectConnectedHost_spark_max_edges (hello : String) (first : NodeScore)
    (rest : List NodeScore) (podname : String) (AppMap : AppNodePods) (draws : ℕ → ℕ)
    (adj : Matrix5) (hspark : Go.Contains podname "spark" = true)
    (hadj : fillAdjacencyMatrix (strToIntArr hello) = .ok adj) :
    ∃ host draws', selectConnectedHost hello (first :: rest) podname AppMap draws =
        .ok (.ok host, draws') ∧ (∃ ns ∈ first :: rest, ns.Name = host) ∧
      ∀ ns ∈ first :: rest, findedges adj (nodeIndex ns.Name) ≤ findedges adj (nodeIndex host) := by
  have hinit : SparkInv (findedges adj) [first]
      { maxScore := first.Score, selected := first.Name,
        selectedEdges := findedges adj (nodeIndex first.Name), draws := draws } :=
    ⟨⟨first, by simp, rfl⟩, rfl, fun x hx => by simp at hx; rw [hx]⟩
  obtain ⟨⟨ns, hns, hname⟩, hedges, hmax⟩ := hinit.foldl (findedges adj) rest
  refine ⟨_, _, by simp only [selectConnectedHost, hadj, hspark, if_true]; rfl, ⟨ns, by simpa using hns, hname⟩,
    fun x hx => ?_⟩
  rw [← hedges]
  exact hmax x (by simpa using hx)

/-- A `spark` pod over `node-0`, connected to no other node, and `node-1`, connected to `node-2`
and `node-3`: `node-1` is returned although it scores lower. -/
theorem selectConnectedHost_spark_max_edges_star :
    let file := "1 0 0 0 0 0 1 1 1 0 0 1 1 0 0 0 1 0 1 0 0 0 0 0 1"
    (selectConnectedHost file [⟨"node-0", 5⟩, ⟨"node-1", 1⟩] "spark-exec" ∅ (fun _ => 0)).map
        Prod.fst = .ok (.ok "node-1") ∧
      ∃ adj, fillAdjacencyMatrix (strToIntArr file) = .ok adj ∧
        ∃ host draws', selectConnectedHost file [⟨"node-0", 5⟩, ⟨"node-1", 1⟩] "spark-exec" ∅
            (fun _ => 0) = .ok (.ok host, draws') ∧
          (∃ ns ∈ [(⟨"node-0", 5⟩ : NodeScore), ⟨"node-1", 1⟩], ns.Name = host) ∧
          ∀ ns ∈ [(⟨"node-0", 5⟩ : NodeScore), ⟨"node-1", 1⟩],
            findedges adj (nodeIndex ns.Name) ≤ findedges adj (nodeIndex host) :=
  ⟨rfl, _, rfl, selectConnectedHost_spark_max_edges _ _ _ _ _ _ _ (by decide) rfl⟩

/-- **For a `spark` pod, a node of the same degree and a lower score can be returned**: on two
candidates of equal degree, the second replaces the first when the draw of `rand.Intn(2)` is
`0`, whatever their scores. -/
theorem selectConnectedHost_spark_lower_score (hello : String) (a b : NodeScore) (podname : String)
    (AppMap : AppNodePods) (draws : ℕ → ℕ) (adj : Matrix5)
    (hspark : Go.Contains podname "spark" = true)
    (hadj : fillAdjacencyMatrix (strToIntArr hello) = .ok adj)
    (hdeg : findedges adj (nodeIndex a.Name) = findedges adj (nodeIndex b.Name))
    (hscore : b.Score < a.Score) (hdraw : draws 0 % 2 = 0) :
    (selectConnectedHost hello [a, b] podname AppMap draws).map Prod.fst = .ok (.ok b.Name) := by
  have hnot' : ¬ b.Score > a.Score := not_lt.mpr hscore.le
  simp [selectConnectedHost, hadj, hspark, sparkStep, hdeg, hnot', hdraw, Except.map]

/-- The identity matrix, every node on its own, written as the monitor writes the file. -/
def identityFile : String := "1 0 0 0 0 0 1 0 0 0 0 0 1 0 0 0 0 0 1 0 0 0 0 0 1"

theorem selectConnectedHost_spark_lower_score_identity :
    (selectConnectedHost identityFile [⟨"node-0", 5⟩, ⟨"node-1", 1⟩] "spark-exec" ∅
      (fun _ => 0)).map Prod.fst = .ok (.ok "node-1") :=
  selectConnectedHost_spark_lower_score identityFile ⟨"node-0", 5⟩ ⟨"node-1", 1⟩ "spark-exec" ∅
    (fun _ => 0) _ (by decide) rfl (by decide) (by decide) rfl

/-! ### The loop for the other pods, with no node of the application -/

theorem prevNodes_eq_zero {AppMap : AppNodePods}
    (happ : ∀ n ∈ ["node-1", "node-2", "node-3", "node-4"], hasEntry AppMap n = false) :
    prevNodes AppMap = fun _ => 0 := by
  simp [prevNodes, happ]

theorem connectedLoop_zero (adj : Matrix5) (k : Fin 5) :
    ∀ (l : List (Fin 5)) (cnctd : Bool), connectedLoop adj (fun _ => 0) k l cnctd = cnctd
  | [], _ => rfl
  | i :: is, cnctd => by
      rw [connectedLoop, if_pos (by decide)]
      exact connectedLoop_zero adj k is cnctd

/-- What the loop for the other pods keeps when no node of the application is listed: the score
to beat is the first candidate's, `cnctd` is `false`, and the choice is a candidate of that
score. -/
structure FirstScoreInv (L : List NodeScore) (s₀ : ℤ) (st : HostChoice) : Prop where
  maxScore_eq : st.maxScore = s₀
  cnctd_false : st.cnctd = false
  mem : ∃ ns ∈ L, ns.Name = st.selected ∧ ns.Score = s₀

theorem FirstScoreInv.step {L : List NodeScore} {s₀ : ℤ} {st : HostChoice} (adj : Matrix5)
    (h : FirstScoreInv L s₀ st) {ns : NodeScore} (hns : ns ∈ L) :
    FirstScoreInv L s₀ (connectedStep adj (fun _ => 0) st ns) := by
  obtain ⟨hmax, hc, hmem⟩ := h
  unfold connectedStep
  simp only [connectedLoop_zero, hc, Bool.false_eq_true, if_false, Intn_eq]
  split_ifs with hsel hgt hadj heq hr
  · exact ⟨hmax, hc, hmem⟩
  · exact ⟨hmax, rfl, hmem⟩
  · exact ⟨hmax, hc, hmem⟩
  · exact ⟨hmax, rfl, ns, hns, by simp [hr], hmax ▸ heq⟩
  · exact ⟨hmax, rfl, by simpa [hr] using hmem⟩
  · exact ⟨hmax, hc, hmem⟩

theorem FirstScoreInv.foldl {L : List NodeScore} {s₀ : ℤ} (adj : Matrix5) :
    ∀ (l : List NodeScore) {st : HostChoice}, (∀ ns ∈ l, ns ∈ L) → FirstScoreInv L s₀ st →
      FirstScoreInv L s₀ (l.foldl (connectedStep adj (fun _ => 0)) st) := by
  intro l st hl h
  have hrun := StepSystem.foldl_invariant (connectedStep adj (fun _ => 0))
    (P := fun rest st => (∀ ns ∈ rest, ns ∈ L) ∧ FirstScoreInv L s₀ st)
    (fun st ns rest ⟨hrest, h⟩ =>
      ⟨fun x hx => hrest x (List.mem_cons_of_mem _ hx), h.step adj (hrest ns List.mem_cons_self)⟩)
    l st ⟨hl, h⟩
  exact hrun.2

/-- **With no node of the application, `selectConnectedHost` returns a node of its first
candidate's score**: for a pod without `spark` in its name, when none of `node-1` … `node-4`
holds a pod of the application, a candidate of higher score is never chosen, for every stream
of draws, so the node returned scores below it. -/
theorem selectConnectedHost_no_app_first_score (hello : String) (first : NodeScore)
    (rest : List NodeScore) (podname : String) (AppMap : AppNodePods) (draws : ℕ → ℕ)
    (hspark : Go.Contains podname "spark" = false)
    (happ : ∀ n ∈ ["node-1", "node-2", "node-3", "node-4"], hasEntry AppMap n = false)
    (hfile : 25 ≤ (strToIntArr hello).length)
    (hnodup : ((first :: rest).map (·.Name)).Nodup) (hlt : ∃ best ∈ rest, first.Score < best.Score) :
    ∃ host draws', selectConnectedHost hello (first :: rest) podname AppMap draws =
        .ok (.ok host, draws') ∧
      ∃ best ∈ first :: rest, ∀ ns ∈ first :: rest, ns.Name = host → ns.Score < best.Score := by
  have hprev := prevNodes_eq_zero happ
  have hstart : startNode (fun _ => 0) (first :: rest) = none := by
    rw [startNode, List.find?_eq_none]
    intro x _
    decide
  let adj : Matrix5 := fun i j => (strToIntArr hello).getD (5 * i.val + j.val) 0
  let init : HostChoice :=
    { maxScore := first.Score, selected := first.Name,
      selectedEdges := findedges adj (nodeIndex first.Name), draws := draws }
  let last := (first :: rest).foldl (connectedStep adj (fun _ => 0)) init
  have hrun : selectConnectedHost hello (first :: rest) podname AppMap draws =
      .ok (.ok last.selected, last.draws) := by
    simp only [selectConnectedHost, fillAdjacencyMatrix, if_pos hfile, hspark, hprev, hstart,
      Bool.false_eq_true, if_false]
    rfl
  obtain ⟨-, -, ⟨ns, hns, hname, hscore⟩⟩ :=
    FirstScoreInv.foldl adj (first :: rest) (fun _ h => h)
      (⟨rfl, rfl, first, by simp, rfl, rfl⟩ : FirstScoreInv (first :: rest) first.Score init)
  obtain ⟨best, hbest, hlt⟩ := hlt
  refine ⟨last.selected, last.draws, hrun, best, List.mem_cons_of_mem _ hbest, fun x hx hx' => ?_⟩
  have hxns : x = ns := List.inj_on_of_nodup_map hnodup hx hns (hx'.trans hname.symm)
  rw [hxns, hscore]
  exact hlt

theorem selectConnectedHost_no_app_first_score_two :
    ∃ host draws', selectConnectedHost identityFile [⟨"node-0", 1⟩, ⟨"node-1", 5⟩] "web" ∅
        (fun _ => 0) = .ok (.ok host, draws') ∧
      ∃ best ∈ [(⟨"node-0", 1⟩ : NodeScore), ⟨"node-1", 5⟩],
        ∀ ns ∈ [(⟨"node-0", 1⟩ : NodeScore), ⟨"node-1", 5⟩], ns.Name = host → ns.Score < best.Score :=
  selectConnectedHost_no_app_first_score identityFile ⟨"node-0", 1⟩ [⟨"node-1", 5⟩] "web" ∅
    (fun _ => 0) (by decide) (by decide) (by decide) (by decide) ⟨_, List.mem_singleton_self _, by decide⟩

end GenericScheduler

end Caspr
