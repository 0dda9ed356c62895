import Caspr.Plugins.PodTopologySpread
import Caspr.Framework.Interface

/-! # What the state of `PodTopologySpread` counts

`calPreFilterState` never aborts on a list of `NodeInfo`s that all have a node, and the state
it returns holds, for every pair it created, the number of matching pods over all the nodes of
that pair's value (`CountsAs`).  `AddPod` and `RemovePod` keep `CountsAs` for a pod added to or
removed from a node that the first loop of `calPreFilterState` counted: on such a node the
incremental update and the full computation agree, for every sequence of updates.

The two conditions are where `AddPod_excluded_node` and its kin fail: a node excluded by the
pod's node affinity has no pair to update, and a terminating pod is counted by `updateWithPod`
but not by `countPodsMatchSelector`. -/

namespace Caspr

namespace PodTopologySpread

variable (pod : Pod) (constraints : List topologySpreadConstraint)

/-- Whether the first loop of `calPreFilterState` creates the pairs of a node: it passes the
pod's node selector and required affinity and carries every key. -/
def Eligible (node : Node) : Bool :=
  PodMatchesNodeSelectorAndAffinityTerms pod node &&
    nodeLabelsMatchSpreadConstraints node.labels constraints

/-- The pairs that the first loop of `calPreFilterState` creates. -/
def pairsOf (allNodes : List NodeInfo) : List topologyPair :=
  allNodes.flatMap fun n =>
    match n.node with
    | none => []
    | some node => if Eligible pod constraints node then constraints.map (pairOf · node) else []

/-- What a node adds to the count of `P`: for every constraint whose pair on the node is `P`,
the pods of the node that it counts. -/
def nodeCount (P : topologyPair) (n : NodeInfo) : ℤ :=
  match n.node with
  | none => 0
  | some node =>
      (constraints.map fun c =>
        if pairOf c node = P then (countPodsMatchSelector n.pods c.Selector pod.podNamespace : ℤ)
        else 0).sum

/-- The count of `P` over the nodes. -/
def matchNum (allNodes : List NodeInfo) (P : topologyPair) : ℤ :=
  (allNodes.map (nodeCount pod constraints P)).sum

/-- The constraints `calPreFilterState` counts for: the pod's hard constraints, or the default
ones when it has none. -/
def hardConstraints (defaultConstraints : List topologySpreadConstraint) : List topologySpreadConstraint :=
  if pod.topologySpreadConstraints.length > 0 then
    filterTopologySpreadConstraints pod.topologySpreadConstraints .DoNotSchedule
  else defaultConstraints

/-- `s` holds, for every pair that the full computation on `allNodes` creates, its count there,
and no other pair; and critical paths for the key of every constraint. -/
structure CountsAs (allNodes : List NodeInfo) (s : preFilterState) : Prop where
  lookup_eq : ∀ P, s.TpPairToMatchNum.lookup P =
    if P ∈ pairsOf pod s.Constraints allNodes then some (matchNum pod s.Constraints allNodes P)
    else none
  paths : ∀ c ∈ s.Constraints, (s.TpKeyToCriticalPaths.lookup c.TopologyKey).isSome

theorem mem_pairsOf {allNodes : List NodeInfo} {P : topologyPair} :
    P ∈ pairsOf pod constraints allNodes ↔ ∃ n ∈ allNodes, ∃ node, n.node = some node ∧
      Eligible pod constraints node ∧ ∃ c ∈ constraints, pairOf c node = P := by
  simp only [pairsOf, List.mem_flatMap]
  constructor
  · rintro ⟨n, hn, hP⟩
    cases hnode : n.node with
    | none => simp [hnode] at hP
    | some node =>
        by_cases he : Eligible pod constraints node
        · simp only [hnode, he, if_true, List.mem_map] at hP
          exact ⟨n, hn, node, hnode, he, hP⟩
        · simp [hnode, he] at hP
  · rintro ⟨n, hn, node, hnode, he, hP⟩
    exact ⟨n, hn, by simpa [hnode, he] using hP⟩

/-! ### The full computation -/

theorem lookup_initPairs (allNodes : List NodeInfo) (P : topologyPair) :
    (initPairs pod constraints allNodes).lookup P =
      if P ∈ pairsOf pod constraints allNodes then some 0 else none := by
  unfold initPairs
  rw [show (none : Option ℤ) = (∅ : AList fun _ : topologyPair => ℤ).lookup P from rfl]
  generalize (∅ : AList fun _ : topologyPair => ℤ) = m
  induction allNodes generalizing m with
  | nil => simp [pairsOf]
  | cons n ns ih =>
      simp only [List.foldl_cons, pairsOf, List.flatMap_cons, List.mem_append] at ih ⊢
      rw [ih]
      cases hn : n.node with
      | none => simp
      | some node =>
          by_cases he : Eligible pod constraints node
          · have he' := he
            simp only [Eligible, Bool.and_eq_true] at he'
            simp only [he'.1, he'.2, he, Bool.not_true, Bool.false_eq_true, if_false, if_true,
              Go.lookup_foldl_insert, List.mem_map]
            by_cases hc : ∃ c ∈ constraints, pairOf c node = P <;> simp [hc]
          · simp only [Eligible, Bool.and_eq_true, not_and] at he
            by_cases h1 : PodMatchesNodeSelectorAndAffinityTerms pod node
            · simp [h1, he h1, Eligible]
            · simp [h1, Eligible]

theorem processNode_lookup {m m' : AList fun _ : topologyPair => ℤ} {n : NodeInfo}
    (h : processNode pod constraints m n = .ok m') (P : topologyPair) :
    m'.lookup P = (m.lookup P).map (· + nodeCount pod constraints P n) := by
  unfold processNode at h
  cases hn : n.node with
  | none => simp [hn] at h
  | some node =>
      simp only [hn, Except.ok.injEq] at h
      subst h
      simp only [nodeCount, hn]
      induction constraints generalizing m with
      | nil => simp
      | cons c cs ih =>
          rw [List.foldl_cons]
          split
          · next hc =>
              rw [ih]
              by_cases hP : pairOf c node = P
              · subst hP
                simp [hc]
              · simp [hP]
          · next t hc =>
              rw [ih]
              by_cases hP : pairOf c node = P
              · subst hP
                simp [hc, add_assoc]
              · simp [hP, AList.lookup_insert_ne (Ne.symm hP)]

theorem processNode_ok (m : AList fun _ : topologyPair => ℤ) {n : NodeInfo} (hn : n.node.isSome) :
    ∃ m', processNode pod constraints m n = .ok m' := by
  unfold processNode
  obtain ⟨node, hnode⟩ := Option.isSome_iff_exists.mp hn
  simp [hnode]

/-- The loop over the nodes never aborts when each has a node, and adds to every pair what all
the nodes contribute. -/
theorem foldlM_processNode (allNodes : List NodeInfo) (m : AList fun _ : topologyPair => ℤ)
    (hall : ∀ n ∈ allNodes, n.node.isSome) :
    ∃ m', allNodes.foldlM (processNode pod constraints) m = .ok m' ∧
      ∀ P, m'.lookup P = (m.lookup P).map (· + matchNum pod constraints allNodes P) := by
  -- the invariant: what the nodes still to come will add completes every count
  obtain ⟨m', h, -, hm'⟩ := StepSystem.foldlM_ok (processNode pod constraints)
    (P := fun ns m' => (∀ n ∈ ns, n.node.isSome) ∧ ∀ P,
      (m'.lookup P).map (· + matchNum pod constraints ns P) =
        (m.lookup P).map (· + matchNum pod constraints allNodes P))
    (fun m₁ n ns ⟨hns, hsum⟩ => by
      obtain ⟨m₂, h₂⟩ := processNode_ok pod constraints m₁ (hns n (List.mem_cons_self ..))
      refine ⟨m₂, h₂, fun n hn => hns n (List.mem_cons_of_mem _ hn), fun P => ?_⟩
      rw [← hsum, processNode_lookup pod constraints h₂, Option.map_map]
      congr 1
      funext x
      simp [matchNum, add_assoc])
    allNodes m ⟨hall, fun _ => rfl⟩
  refine ⟨m', h, fun P => ?_⟩
  simpa [matchNum] using hm' P

/-- The last loops of `calPreFilterState` never abort when every pair has the key of a
constraint, and leave critical paths for the key of every constraint. -/
theorem criticalPathsOf_ok (M : AList fun _ : topologyPair => ℤ)
    (hkeys : ∀ e ∈ M.entries, ∃ c ∈ constraints, c.TopologyKey = e.1.key) :
    ∃ t, criticalPathsOf constraints M = .ok t ∧
      ∀ c ∈ constraints, (t.lookup c.TopologyKey).isSome := by
  have hinit : ∀ c ∈ constraints, ((constraints.foldl (fun t c => t.insert c.TopologyKey
      newCriticalPaths) (∅ : AList fun _ : String => criticalPaths)).lookup c.TopologyKey).isSome := by
    intro c hc
    simp [Go.lookup_foldl_insert, List.mem_map_of_mem hc]
  unfold criticalPathsOf
  -- the invariant: every constraint's key has paths, and every pair to come has such a key
  refine Exists.imp (fun t h => ⟨h.1, h.2.1⟩) (StepSystem.foldlM_ok _
    (P := fun es (t : AList fun _ : String => criticalPaths) =>
      (∀ c ∈ constraints, (t.lookup c.TopologyKey).isSome) ∧
        ∀ e ∈ es, ∃ c ∈ constraints, c.TopologyKey = e.1.key) ?_ M.entries _ ⟨hinit, hkeys⟩)
  intro t e es ⟨ht, hes⟩
  obtain ⟨c, hc, hkey⟩ := hes e (List.mem_cons_self ..)
  obtain ⟨p, hp⟩ := Option.isSome_iff_exists.mp (ht c hc)
  rw [hkey] at hp
  rw [hp]
  refine ⟨_, rfl, fun c' hc' => ?_, fun e' he' => hes e' (List.mem_cons_of_mem _ he')⟩
  by_cases hk : c'.TopologyKey = e.1.key
  · rw [hk, AList.lookup_insert]
    rfl
  · simpa [AList.lookup_insert_ne hk] using ht c' hc'

/-- **`calPreFilterState` never aborts on nodes that all have a node object**, and counts every
pair it creates over all the nodes. -/
theorem calPreFilterState_countsAs (defaultConstraints : List topologySpreadConstraint)
    (allNodes : List NodeInfo) (hall : ∀ n ∈ allNodes, n.node.isSome) :
    ∃ s, calPreFilterState defaultConstraints pod allNodes = .ok s ∧
      s.Constraints = hardConstraints pod defaultConstraints ∧ CountsAs pod allNodes s := by
  unfold calPreFilterState hardConstraints
  generalize (if pod.topologySpreadConstraints.length > 0 then
    filterTopologySpreadConstraints pod.topologySpreadConstraints .DoNotSchedule
    else defaultConstraints) = cs
  dsimp only
  by_cases h0 : cs.length = 0
  · refine ⟨{}, by simp [h0], ?_, ?_, ?_⟩
    · exact (List.length_eq_zero_iff.mp h0).symm
    · intro P
      simp [mem_pairsOf]
    · simp
  · rw [if_neg h0]
    obtain ⟨M, hM, hMlookup⟩ := foldlM_processNode pod cs allNodes (initPairs pod cs allNodes) hall
    have hcounts : ∀ P, M.lookup P =
        if P ∈ pairsOf pod cs allNodes then some (matchNum pod cs allNodes P) else none := by
      intro P
      rw [hMlookup P, lookup_initPairs]
      split_ifs <;> simp
    have hkeys : ∀ e ∈ M.entries, ∃ c ∈ cs, c.TopologyKey = e.1.key := by
      intro e he
      have hl : M.lookup e.1 = some e.2 := AList.mem_lookup_iff.mpr he
      rw [hcounts] at hl
      split_ifs at hl with hP
      obtain ⟨n, -, node, -, -, c, hc, hcP⟩ := (mem_pairsOf pod cs).mp hP
      exact ⟨c, hc, by rw [← hcP]; rfl⟩
    obtain ⟨t, ht, hpaths⟩ := criticalPathsOf_ok cs M hkeys
    exact ⟨{ Constraints := cs, TpKeyToCriticalPaths := t, TpPairToMatchNum := M },
      by simp [hM, ht], rfl, hcounts, hpaths⟩

/-! ### The incremental update -/

/-- What `updateWithPod` adds to the count of `P` over the constraints `cs`: `delta` for each
constraint that matches the updated pod and whose pair on the node is `P`. -/
def updateDelta (cs : List topologySpreadConstraint) (q : Pod) (node : Node) (delta : ℤ)
    (P : topologyPair) : ℤ :=
  (cs.map fun c => if c.Selector.Matches q.labels ∧ pairOf c node = P then delta else 0).sum

@[simp] theorem updateDelta_nil (q : Pod) (node : Node) (delta : ℤ) (P : topologyPair) :
    updateDelta [] q node delta P = 0 := rfl

@[simp] theorem updateDelta_cons (c : topologySpreadConstraint) (cs : List topologySpreadConstraint)
    (q : Pod) (node : Node) (delta : ℤ) (P : topologyPair) :
    updateDelta (c :: cs) q node delta P =
      (if c.Selector.Matches q.labels ∧ pairOf c node = P then delta else 0) +
        updateDelta cs q node delta P := by
  simp [updateDelta]

theorem updateConstraint_ok (q : Pod) (node : Node) (delta : ℤ) (s : preFilterState)
    (c : topologySpreadConstraint)
    (hc : c.Selector.Matches q.labels → (s.TpPairToMatchNum.lookup (pairOf c node)).isSome ∧
      (s.TpKeyToCriticalPaths.lookup c.TopologyKey).isSome) :
    ∃ s', updateConstraint q node delta s c = .ok s' ∧ s'.Constraints = s.Constraints ∧
      (∀ P, s'.TpPairToMatchNum.lookup P = (s.TpPairToMatchNum.lookup P).map
        (· + updateDelta [c] q node delta P)) ∧
      ∀ k, (s.TpKeyToCriticalPaths.lookup k).isSome → (s'.TpKeyToCriticalPaths.lookup k).isSome := by
  unfold updateConstraint
  by_cases hm : c.Selector.Matches q.labels
  · obtain ⟨hP, hk⟩ := hc hm
    obtain ⟨n, hn⟩ := Option.isSome_iff_exists.mp hP
    obtain ⟨p, hp⟩ := Option.isSome_iff_exists.mp hk
    have hkey : (pairOf c node).key = c.TopologyKey := rfl
    simp only [hm, Bool.not_true, Bool.false_eq_true, if_false, hn]
    rw [hkey, hp]
    refine ⟨_, rfl, rfl, fun P => ?_, fun k hk' => ?_⟩
    · by_cases hPe : pairOf c node = P
      · subst hPe
        simp [hn, hm]
      · simp [hPe, AList.lookup_insert_ne (Ne.symm hPe)]
    · by_cases hke : k = c.TopologyKey
      · subst hke
        simp
      · simpa [AList.lookup_insert_ne hke] using hk'
  · refine ⟨s, by simp [hm], rfl, fun P => ?_, fun k hk => hk⟩
    simp [hm]

/-- The loop of `updateWithPod` never aborts when every constraint that matches the updated pod
has its pair and key, and adds `updateDelta` to every pair. -/
theorem foldlM_updateConstraint (q : Pod) (node : Node) (delta : ℤ)
    (cs : List topologySpreadConstraint) (s : preFilterState)
    (hcs : ∀ c ∈ cs, c.Selector.Matches q.labels →
      (s.TpPairToMatchNum.lookup (pairOf c node)).isSome ∧
        (s.TpKeyToCriticalPaths.lookup c.TopologyKey).isSome) :
    ∃ s', cs.foldlM (updateConstraint q node delta) s = .ok s' ∧ s'.Constraints = s.Constraints ∧
      (∀ P, s'.TpPairToMatchNum.lookup P =
        (s.TpPairToMatchNum.lookup P).map (· + updateDelta cs q node delta P)) ∧
      ∀ k, (s.TpKeyToCriticalPaths.lookup k).isSome → (s'.TpKeyToCriticalPaths.lookup k).isSome := by
  -- the invariant: the pairs and keys to come still exist, and what they will add completes
  -- every count
  obtain ⟨s', h, -, hC, hP, hK⟩ := StepSystem.foldlM_ok (updateConstraint q node delta)
    (P := fun cs' s' => (∀ c ∈ cs', c.Selector.Matches q.labels →
        (s'.TpPairToMatchNum.lookup (pairOf c node)).isSome ∧
          (s'.TpKeyToCriticalPaths.lookup c.TopologyKey).isSome) ∧
      s'.Constraints = s.Constraints ∧
      (∀ P, (s'.TpPairToMatchNum.lookup P).map (· + updateDelta cs' q node delta P) =
        (s.TpPairToMatchNum.lookup P).map (· + updateDelta cs q node delta P)) ∧
      ∀ k, (s.TpKeyToCriticalPaths.lookup k).isSome → (s'.TpKeyToCriticalPaths.lookup k).isSome)
    (fun s₁ c cs' ⟨hnext, hC, hP, hK⟩ => by
      obtain ⟨s₂, h₂, hC₂, hP₂, hK₂⟩ :=
        updateConstraint_ok q node delta s₁ c (hnext c (List.mem_cons_self ..))
      refine ⟨s₂, h₂, fun c' hc' hm => ?_, hC₂.trans hC, fun P => ?_, fun k hk => hK₂ k (hK k hk)⟩
      · obtain ⟨hp, hk⟩ := hnext c' (List.mem_cons_of_mem _ hc') hm
        refine ⟨?_, hK₂ _ hk⟩
        rw [hP₂]
        simpa using hp
      · rw [← hP P, hP₂, Option.map_map]
        congr 1
        funext x
        simp [add_assoc])
    cs s ⟨hcs, rfl, fun _ => rfl, fun _ hk => hk⟩
  refine ⟨s', h, hC, fun P => ?_, hK⟩
  simpa using hP P

/-- `s.updateWithPod(updatedPod, preemptorPod, node, delta)` on a node whose pairs and keys
exist, from a state with critical paths for every key. -/
theorem updateWithPod_ok (s : preFilterState) (q : Pod) (node : Node) (delta : ℤ)
    (hpairs : nodeLabelsMatchSpreadConstraints node.labels s.Constraints →
      ∀ c ∈ s.Constraints, (s.TpPairToMatchNum.lookup (pairOf c node)).isSome)
    (hpaths : ∀ c ∈ s.Constraints, (s.TpKeyToCriticalPaths.lookup c.TopologyKey).isSome) :
    ∃ s', updateWithPod s q pod (some node) delta = .ok s' ∧ s'.Constraints = s.Constraints ∧
      (∀ P, s'.TpPairToMatchNum.lookup P = (s.TpPairToMatchNum.lookup P).map (· +
        if q.podNamespace = pod.podNamespace ∧
          nodeLabelsMatchSpreadConstraints node.labels s.Constraints
        then updateDelta s.Constraints q node delta P else 0)) ∧
      ∀ c ∈ s'.Constraints, (s'.TpKeyToCriticalPaths.lookup c.TopologyKey).isSome := by
  unfold updateWithPod
  by_cases hns : q.podNamespace = pod.podNamespace
  · by_cases hl : nodeLabelsMatchSpreadConstraints node.labels s.Constraints
    · obtain ⟨s', h, hC, hP, hK⟩ := foldlM_updateConstraint q node delta s.Constraints s
        fun c hc _ => ⟨hpairs hl c hc, hpaths c hc⟩
      refine ⟨s', by simp [hns, hl, h], hC, fun P => by simp [hns, hl, hP], ?_⟩
      intro c hc
      rw [hC] at hc
      exact hK _ (hpaths c hc)
    · refine ⟨s, by simp [hns, hl], rfl, fun P => by simp [hl], hpaths⟩
  · refine ⟨s, by simp [hns], rfl, fun P => by simp [hns], hpaths⟩

/-! ### The incremental update agrees with the full computation -/

theorem pairsOf_replace (l₁ l₂ : List NodeInfo) (n : NodeInfo) (pods : List Pod) :
    pairsOf pod constraints (l₁ ++ { n with pods := pods } :: l₂) =
      pairsOf pod constraints (l₁ ++ n :: l₂) := by
  simp [pairsOf]

theorem nodeCount_replace {n : NodeInfo} {node : Node} (hn : n.node = some node)
    (pods : List Pod) (P : topologyPair) :
    nodeCount pod constraints P { n with pods := pods } =
      nodeCount pod constraints P n + (constraints.map fun c => if pairOf c node = P then
        ((countPodsMatchSelector pods c.Selector pod.podNamespace : ℤ) -
          countPodsMatchSelector n.pods c.Selector pod.podNamespace) else 0).sum := by
  simp only [nodeCount, hn, ← List.sum_map_add]
  congr 1
  apply List.map_congr_left
  intro c _
  split_ifs <;> omega

theorem matchNum_replace {l₁ l₂ : List NodeInfo} {n : NodeInfo} {node : Node}
    (hn : n.node = some node) (pods : List Pod) (P : topologyPair) :
    matchNum pod constraints (l₁ ++ { n with pods := pods } :: l₂) P =
      matchNum pod constraints (l₁ ++ n :: l₂) P + (constraints.map fun c => if pairOf c node = P then
        ((countPodsMatchSelector pods c.Selector pod.podNamespace : ℤ) -
          countPodsMatchSelector n.pods c.Selector pod.podNamespace) else 0).sum := by
  simp only [matchNum, List.map_append, List.map_cons, List.sum_append, List.sum_cons]
  rw [nodeCount_replace pod constraints hn pods P]
  omega

/-- What the pods of a node add to the counts changes as `updateWithPod` assumes when each
constraint's count moves by `delta` exactly for the constraints that match the updated pod. -/
theorem sum_count_change {q : Pod} {node : Node} {delta : ℤ} {pods pods₀ : List Pod}
    (P : topologyPair) :
    ∀ cs : List topologySpreadConstraint,
      (∀ c ∈ cs, (countPodsMatchSelector pods c.Selector pod.podNamespace : ℤ) =
        countPodsMatchSelector pods₀ c.Selector pod.podNamespace +
          if q.podNamespace = pod.podNamespace ∧ c.Selector.Matches q.labels then delta else 0) →
      (cs.map fun c => if pairOf c node = P then
          ((countPodsMatchSelector pods c.Selector pod.podNamespace : ℤ) -
            countPodsMatchSelector pods₀ c.Selector pod.podNamespace) else 0).sum =
        if q.podNamespace = pod.podNamespace then updateDelta cs q node delta P else 0
  | [], _ => by simp
  | c :: cs, h => by
      rw [List.map_cons, List.sum_cons,
        sum_count_change P cs fun c' hc' => h c' (List.mem_cons_of_mem _ hc'),
        h c (List.mem_cons_self ..), updateDelta_cons]
      by_cases hns : q.podNamespace = pod.podNamespace <;>
        by_cases hm : c.Selector.Matches q.labels <;> by_cases hP : pairOf c node = P <;>
        simp [hns, hm, hP]

/-- **`updateWithPod` keeps `CountsAs`** on a node whose pairs the first loop created, when the
counts of the node's new pods differ from the old ones by `delta` for each constraint that
matches the updated pod. -/
theorem updateWithPod_countsAs {s : preFilterState} {l₁ l₂ : List NodeInfo} {n : NodeInfo}
    {node : Node} {q : Pod} {delta : ℤ} {pods : List Pod}
    (hs : CountsAs pod (l₁ ++ n :: l₂) s) (hn : n.node = some node)
    (he : Eligible pod s.Constraints node)
    (hcount : ∀ c ∈ s.Constraints, (countPodsMatchSelector pods c.Selector pod.podNamespace : ℤ) =
      countPodsMatchSelector n.pods c.Selector pod.podNamespace +
        if q.podNamespace = pod.podNamespace ∧ c.Selector.Matches q.labels then delta else 0) :
    ∃ s', updateWithPod s q pod (some node) delta = .ok s' ∧ s'.Constraints = s.Constraints ∧
      CountsAs pod (l₁ ++ { n with pods := pods } :: l₂) s' := by
  have he' := he
  simp only [Eligible, Bool.and_eq_true] at he'
  have hpairs : ∀ c ∈ s.Constraints, (s.TpPairToMatchNum.lookup (pairOf c node)).isSome := by
    intro c hc
    have hmem : pairOf c node ∈ pairsOf pod s.Constraints (l₁ ++ n :: l₂) :=
      (mem_pairsOf pod s.Constraints).mpr ⟨n, by simp, node, hn, he, c, hc, rfl⟩
    simp [hs.lookup_eq, hmem]
  obtain ⟨s', h, hC, hP, hK⟩ := updateWithPod_ok pod s q node delta (fun _ => hpairs) hs.paths
  refine ⟨s', h, hC, ⟨fun P => ?_, hK⟩⟩
  rw [hP, hs.lookup_eq, hC, pairsOf_replace pod s.Constraints l₁ l₂ n pods,
    matchNum_replace pod s.Constraints hn pods P, sum_count_change pod P s.Constraints hcount]
  split_ifs <;> simp_all

theorem countPodsMatchSelector_cons (q : Pod) (pods : List Pod) (selector : Selector) (ns : String)
    (hq : q.deletionTimestamp = none) :
    (countPodsMatchSelector (q :: pods) selector ns : ℤ) = countPodsMatchSelector pods selector ns +
      if q.podNamespace = ns ∧ selector.Matches q.labels then 1 else 0 := by
  simp only [countPodsMatchSelector, List.countP_cons, hq, Option.isNone_none, Bool.true_and,
    Bool.and_eq_true, beq_iff_eq]
  split_ifs <;> simp

/-- **`AddPod` agrees with the full computation** for a pod that is not terminating, added to a
node whose pairs the first loop created. -/
theorem AddPod_countsAs {s : preFilterState} {l₁ l₂ : List NodeInfo} {n : NodeInfo} {node : Node}
    {q : Pod} {pods : List Pod} (hs : CountsAs pod (l₁ ++ n :: l₂) s) (hn : n.node = some node)
    (he : Eligible pod s.Constraints node) (hq : q.deletionTimestamp = none)
    (hpods : pods.Perm (q :: n.pods)) :
    ∃ s', AddPod s pod q { n with pods := pods } = .ok s' ∧ s'.Constraints = s.Constraints ∧
      CountsAs pod (l₁ ++ { n with pods := pods } :: l₂) s' := by
  have hcount : ∀ c ∈ s.Constraints, (countPodsMatchSelector pods c.Selector pod.podNamespace : ℤ) =
      countPodsMatchSelector n.pods c.Selector pod.podNamespace +
        if q.podNamespace = pod.podNamespace ∧ c.Selector.Matches q.labels then 1 else 0 := by
    intro c _
    rw [countPodsMatchSelector, hpods.countP_eq, ← countPodsMatchSelector,
      countPodsMatchSelector_cons q n.pods c.Selector pod.podNamespace hq]
  obtain ⟨s', h, hC, hs'⟩ := updateWithPod_countsAs pod hs hn he hcount
  exact ⟨s', by simpa [AddPod, hn] using h, hC, hs'⟩

/-- **`RemovePod` agrees with the full computation** for a pod of the node that is not
terminating, on a node whose pairs the first loop created. -/
theorem RemovePod_countsAs {s : preFilterState} {l₁ l₂ : List NodeInfo} {n : NodeInfo}
    {node : Node} {q : Pod} {pods : List Pod} (hs : CountsAs pod (l₁ ++ n :: l₂) s)
    (hn : n.node = some node) (he : Eligible pod s.Constraints node)
    (hq : q.deletionTimestamp = none) (hpods : n.pods.Perm (q :: pods)) :
    ∃ s', RemovePod s pod q { n with pods := pods } = .ok s' ∧ s'.Constraints = s.Constraints ∧
      CountsAs pod (l₁ ++ { n with pods := pods } :: l₂) s' := by
  have hcount : ∀ c ∈ s.Constraints, (countPodsMatchSelector pods c.Selector pod.podNamespace : ℤ) =
      countPodsMatchSelector n.pods c.Selector pod.podNamespace +
        if q.podNamespace = pod.podNamespace ∧ c.Selector.Matches q.labels then -1 else 0 := by
    intro c _
    have hc := countPodsMatchSelector_cons q pods c.Selector pod.podNamespace hq
    rw [countPodsMatchSelector, ← hpods.countP_eq, ← countPodsMatchSelector] at hc
    rw [hc]
    split_ifs <;> omega
  obtain ⟨s', h, hC, hs'⟩ := updateWithPod_countsAs pod hs hn he hcount
  exact ⟨s', by simpa [RemovePod, hn] using h, hC, hs'⟩

/-! ### Runs of the preemption simulation on one node -/

/-- The states and pods of the simulation on `n` from `s`, by calls for pods that are not
terminating. -/
abbrev SimReachable (n : NodeInfo) (s : preFilterState) :=
  StepSystem.Reachable (SimStep (fun s q ni => AddPod s pod q ni) (fun s q ni => RemovePod s pod q ni) n)
    (fun _ u => u.updatedPod.deletionTimestamp = none) (s, n.pods)

/-- Every run of the simulation on a counted node keeps `CountsAs`. -/
theorem SimReachable.countsAs {s s' : preFilterState} {l₁ l₂ : List NodeInfo} {n : NodeInfo}
    {node : Node} {pods : List Pod} (hs : CountsAs pod (l₁ ++ n :: l₂) s)
    (hn : n.node = some node) (he : Eligible pod s.Constraints node)
    (hr : SimReachable pod n s (s', pods)) :
    s'.Constraints = s.Constraints ∧ CountsAs pod (l₁ ++ { n with pods := pods } :: l₂) s' := by
  refine StepSystem.Reachable.invariant
    (P := fun sp => sp.1.Constraints = s.Constraints ∧
      CountsAs pod (l₁ ++ { n with pods := sp.2 } :: l₂) sp.1) ⟨rfl, hs⟩ ?_ hr
  rintro ⟨s₁, pods₁⟩ u ⟨s₂, pods₂⟩ ⟨hC, hs₁⟩ hq hstep
  have hn₁ : ({ n with pods := pods₁ } : NodeInfo).node = some node := hn
  have he₁ : Eligible pod s₁.Constraints node := hC ▸ he
  cases u with
  | add q =>
      obtain ⟨hpods, h⟩ := hstep
      obtain ⟨s', h', hC', hs'⟩ := AddPod_countsAs pod hs₁ hn₁ he₁ hq hpods
      obtain rfl : s' = s₂ := Except.ok.inj (h'.symm.trans h)
      exact ⟨hC'.trans hC, hs'⟩
  | remove q =>
      obtain ⟨hpods, h⟩ := hstep
      obtain ⟨s', h', hC', hs'⟩ := RemovePod_countsAs pod hs₁ hn₁ he₁ hq hpods
      obtain rfl : s' = s₂ := Except.ok.inj (h'.symm.trans h)
      exact ⟨hC'.trans hC, hs'⟩

/-- **On a node that `calPreFilterState` counted, the preemption simulation computes the counts
of the full computation**: after every sequence of `AddPod` and `RemovePod` calls for pods that
are not terminating, the counters are those `calPreFilterState` computes on the nodes with the
node's pods changed. -/
theorem SimReachable.eq_calPreFilterState {defaultConstraints : List topologySpreadConstraint}
    {s s' : preFilterState} {l₁ l₂ : List NodeInfo} {n : NodeInfo} {node : Node}
    {pods : List Pod} (h : calPreFilterState defaultConstraints pod (l₁ ++ n :: l₂) = .ok s)
    (hall : ∀ m ∈ l₁ ++ n :: l₂, m.node.isSome) (hn : n.node = some node)
    (he : Eligible pod (hardConstraints pod defaultConstraints) node)
    (hr : SimReachable pod n s (s', pods)) :
    ∃ s₀, calPreFilterState defaultConstraints pod (l₁ ++ { n with pods := pods } :: l₂) = .ok s₀ ∧
      s'.Constraints = s₀.Constraints ∧
      ∀ P, s'.TpPairToMatchNum.lookup P = s₀.TpPairToMatchNum.lookup P := by
  obtain ⟨s₁, h₁, hC₁, hs₁⟩ := calPreFilterState_countsAs pod defaultConstraints _ hall
  obtain rfl : s₁ = s := Except.ok.inj (h₁.symm.trans h)
  obtain ⟨hC', hs'⟩ := SimReachable.countsAs pod hs₁ hn (hC₁ ▸ he) hr
  have hall' : ∀ m ∈ l₁ ++ { n with pods := pods } :: l₂, m.node.isSome := by
    intro m hm
    simp only [List.mem_append, List.mem_cons] at hm
    rcases hm with hm | rfl | hm
    · exact hall m (by simp [hm])
    · simp [hn]
    · exact hall m (by simp [hm])
  obtain ⟨s₀, h₀, hC₀, hs₀⟩ := calPreFilterState_countsAs pod defaultConstraints _ hall'
  have hC : s'.Constraints = s₀.Constraints := by rw [hC', hC₁, hC₀]
  refine ⟨s₀, h₀, hC, fun P => ?_⟩
  rw [hs'.lookup_eq, hs₀.lookup_eq, hC]

/-- `q`, labelled `app=web`, added to the eligible node `n2` next to the excluded `n1`: the
simulation counts one pod on `n2`, as the full computation does with `q` on `n2`. -/
theorem SimReachable.eq_calPreFilterState_add :
    let n1 : Node := { name := "n1", labels := AList.singleton "kubernetes.io/hostname" "n1" }
    let n2 : Node :=
      { name := "n2",
        labels := (AList.singleton "kubernetes.io/hostname" "n2").insert "disk" "ssd" }
    let p : Pod :=
      { name := "p", podNamespace := "default", labels := AList.singleton "app" "web",
        nodeSelector := AList.singleton "disk" "ssd",
        topologySpreadConstraints :=
          [{ maxSkew := 1, topologyKey := "kubernetes.io/hostname",
             whenUnsatisfiable := .DoNotSchedule,
             labelSelector := some { matchLabels := [("app", "web")] } }] }
    let q : Pod := { name := "q", podNamespace := "default", labels := AList.singleton "app" "web" }
    let n : NodeInfo := { node := some n2 }
    ∃ s s', calPreFilterState [] p [{ node := some n1 }, n] = .ok s ∧
      AddPod s p q { n with pods := [q] } = .ok s' ∧
      s'.TpPairToMatchNum.lookup ⟨"kubernetes.io/hostname", "n2"⟩ = some 1 ∧
      ∃ s₀, calPreFilterState [] p [{ node := some n1 }, { n with pods := [q] }] = .ok s₀ ∧
        s'.Constraints = s₀.Constraints ∧
        ∀ P, s'.TpPairToMatchNum.lookup P = s₀.TpPairToMatchNum.lookup P := by
  intro n1 n2 p q n
  refine ⟨_, _, rfl, rfl, rfl, ?_⟩
  exact @SimReachable.eq_calPreFilterState p [] _ _ [{ node := some n1 }] [] n n2 [q] rfl
    (by decide) rfl (by decide) (.step (.add q) .init rfl ⟨List.Perm.refl _, rfl⟩)

end PodTopologySpread

end Caspr
