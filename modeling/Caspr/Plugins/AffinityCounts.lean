import Caspr.Plugins.InterPodAffinity
import Caspr.Framework.Aggregates
import Mathlib.Algebra.Order.BigOperators.Group.List
import Mathlib.Tactic.Linarith
import Mathlib.Tactic.Ring

/-! # What the state of `InterPodAffinity` counts

Each of the three maps of `preFilterState` is a `Counter` map whose counter for a pair is a sum
of contributions, one for each existing pod on each node of the snapshot (`CountsAs`):

* `existingCount`: the anti-affinity terms of the existing pod that select the incoming pod;
* `incomingAffCount`: the incoming pod's affinity terms, if the existing pod matches them all;
* `incomingAntiCount`: the incoming pod's anti-affinity terms that select the existing pod;

each term counting once on the pair of its key on the existing pod's node.  `PreFilter` computes
these sums on a snapshot whose `NodeInfo`s keep their pods with required anti-affinity apart as
`NodeInfo.AddPod` does; `AddPod` and `RemovePod` add and subtract one pod's contributions, so
every run of the preemption simulation on a node leaves the maps that `PreFilter` computes on
the snapshot with the node's pods changed, entry for entry, with no entry at zero or below, and
`Filter` gives the same verdicts on both. -/

namespace Caspr

namespace InterPodAffinity

open Counter

/-! ### One term, one pod -/

/-- What a term adds to the counter of `P` on a node: one if the node carries the term's key with
the value of `P`. -/
def termCount (node : Node) (P : topologyPair) (t : AffinityTerm) : ℤ :=
  match node.labels.lookup t.TopologyKey with
  | some v => if (⟨t.TopologyKey, v⟩ : topologyPair) = P then 1 else 0
  | none => 0

/-- What `updateWithAntiAffinityTerms` adds to `P` for each unit of its value: the terms that
select the target pod. -/
def antiCount (targetPod : Pod) (node : Node) (terms : List AffinityTerm) (P : topologyPair) : ℤ :=
  ((terms.filter fun a => PodMatchesTermsNamespaceAndSelector targetPod a.Namespaces a.Selector).map
    (termCount node P)).sum

/-- What `updateWithAffinityTerms` adds to `P` for each unit of its value: every term, if the
target pod matches them all. -/
def affCount (targetPod : Pod) (node : Node) (terms : List AffinityTerm) (P : topologyPair) : ℤ :=
  if podMatchesAllAffinityTerms targetPod terms then (terms.map (termCount node P)).sum else 0

theorem termCount_nonneg (node : Node) (P : topologyPair) (t : AffinityTerm) :
    0 ≤ termCount node P t := by
  unfold termCount
  split
  · split_ifs <;> omega
  · exact le_rfl

theorem sum_termCount_nonneg (node : Node) (P : topologyPair) (terms : List AffinityTerm) :
    0 ≤ (terms.map (termCount node P)).sum :=
  List.sum_nonneg fun x hx => by
    obtain ⟨t, -, rfl⟩ := List.mem_map.mp hx
    exact termCount_nonneg node P t

theorem antiCount_nonneg (targetPod : Pod) (node : Node) (terms : List AffinityTerm)
    (P : topologyPair) : 0 ≤ antiCount targetPod node terms P :=
  sum_termCount_nonneg node P _

theorem affCount_nonneg (targetPod : Pod) (node : Node) (terms : List AffinityTerm)
    (P : topologyPair) : 0 ≤ affCount targetPod node terms P := by
  unfold affCount
  split_ifs
  · exact sum_termCount_nonneg node P terms
  · exact le_rfl

theorem get_addTermPair (m : topologyToMatchedTermCount) (node : Node) (t : AffinityTerm)
    (value : ℤ) (P : topologyPair) :
    get (addTermPair m node t value) P = get m P + value * termCount node P t := by
  cases hl : node.labels.lookup t.TopologyKey with
  | none => simp [addTermPair, termCount, hl]
  | some v =>
      simp only [addTermPair, termCount, hl, get_add]
      by_cases hP : (⟨t.TopologyKey, v⟩ : topologyPair) = P
      · subst hP
        simp
      · simp [hP, Ne.symm hP]

theorem Positive.addTermPair {m : topologyToMatchedTermCount} (hm : Positive m) (node : Node)
    (t : AffinityTerm) {value : ℤ}
    (h : ∀ P, 0 ≤ get m P + value * termCount node P t) :
    Positive (InterPodAffinity.addTermPair m node t value) := by
  unfold InterPodAffinity.addTermPair
  split
  · next v hv =>
      refine hm.add ?_
      have := h ⟨t.TopologyKey, v⟩
      simpa [termCount, hv] using this
  · exact hm

/-- `0 ≤ g + v * c` follows from `0 ≤ g + v * (c + d)` when `g`, `c` and `d` are nonnegative,
whatever the sign of `v`: the counter moved by part of an update stays between its value before
and after the whole update. -/
theorem nonneg_of_nonneg_add_mul {g v c d : ℤ} (hg : 0 ≤ g) (hc : 0 ≤ c) (hd : 0 ≤ d)
    (h : 0 ≤ g + v * (c + d)) : 0 ≤ g + v * c := by
  rw [mul_add] at h
  rcases le_total 0 v with hv | hv
  · nlinarith [mul_nonneg hv hc]
  · nlinarith [mul_nonpos_of_nonpos_of_nonneg hv hd]

theorem get_foldl_addTermPair (node : Node) (value : ℤ) (P : topologyPair) :
    ∀ (terms : List AffinityTerm) (m : topologyToMatchedTermCount),
      get (terms.foldl (fun m t => addTermPair m node t value) m) P =
        get m P + value * (terms.map (termCount node P)).sum
  | [], m => by simp
  | t :: ts, m => by
      rw [List.foldl_cons, get_foldl_addTermPair node value P ts, get_addTermPair]
      simp only [List.map_cons, List.sum_cons]
      ring

theorem Positive.foldl_addTermPair (node : Node) (value : ℤ) :
    ∀ (terms : List AffinityTerm) {m : topologyToMatchedTermCount}, Positive m →
      (∀ P, 0 ≤ get m P + value * (terms.map (termCount node P)).sum) →
      Positive (terms.foldl (fun m t => InterPodAffinity.addTermPair m node t value) m)
  | [], _, hm, _ => hm
  | t :: ts, m, hm, h => by
      rw [List.foldl_cons]
      have hm' : Positive (InterPodAffinity.addTermPair m node t value) :=
        Positive.addTermPair hm node t fun P => nonneg_of_nonneg_add_mul (get_nonneg hm P)
          (termCount_nonneg node P t) (sum_termCount_nonneg node P ts) (by simpa using h P)
      refine Positive.foldl_addTermPair node value ts hm' fun P => ?_
      rw [get_addTermPair]
      have := h P
      simp only [List.map_cons, List.sum_cons] at this
      linarith

theorem updateWithAntiAffinityTerms_eq (m : topologyToMatchedTermCount) (targetPod : Pod)
    (node : Node) (terms : List AffinityTerm) (value : ℤ) :
    updateWithAntiAffinityTerms m targetPod node terms value =
      (terms.filter fun a => PodMatchesTermsNamespaceAndSelector targetPod a.Namespaces a.Selector).foldl
        (fun m t => addTermPair m node t value) m := by
  rw [updateWithAntiAffinityTerms, List.foldl_filter]

theorem get_updateWithAntiAffinityTerms (m : topologyToMatchedTermCount) (targetPod : Pod)
    (node : Node) (terms : List AffinityTerm) (value : ℤ) (P : topologyPair) :
    get (updateWithAntiAffinityTerms m targetPod node terms value) P =
      get m P + value * antiCount targetPod node terms P := by
  rw [updateWithAntiAffinityTerms_eq, get_foldl_addTermPair, antiCount]

theorem get_updateWithAffinityTerms (m : topologyToMatchedTermCount) (targetPod : Pod)
    (node : Node) (terms : List AffinityTerm) (value : ℤ) (P : topologyPair) :
    get (updateWithAffinityTerms m targetPod node terms value) P =
      get m P + value * affCount targetPod node terms P := by
  unfold updateWithAffinityTerms affCount
  split_ifs
  · rw [get_foldl_addTermPair]
  · simp

theorem Positive.updateWithAntiAffinityTerms {m : topologyToMatchedTermCount} (hm : Positive m)
    (targetPod : Pod) (node : Node) (terms : List AffinityTerm) {value : ℤ}
    (h : ∀ P, 0 ≤ get m P + value * antiCount targetPod node terms P) :
    Positive (InterPodAffinity.updateWithAntiAffinityTerms m targetPod node terms value) := by
  rw [updateWithAntiAffinityTerms_eq]
  exact Positive.foldl_addTermPair node value _ hm h

theorem Positive.updateWithAffinityTerms {m : topologyToMatchedTermCount} (hm : Positive m)
    (targetPod : Pod) (node : Node) (terms : List AffinityTerm) {value : ℤ}
    (h : ∀ P, 0 ≤ get m P + value * affCount targetPod node terms P) :
    Positive (InterPodAffinity.updateWithAffinityTerms m targetPod node terms value) := by
  unfold InterPodAffinity.updateWithAffinityTerms
  split_ifs with hall
  · exact Positive.foldl_addTermPair node value terms hm fun P => by
      simpa [affCount, hall] using h P
  · exact hm

/-! ### The full computation -/

/-- What a node adds to a sum over the snapshot: `c node p` over its pods `pods n`, nothing when
it has no node object (`processNode` logs the node and returns). -/
def nodeSum (pods : NodeInfo → List Pod) (c : Node → Pod → ℤ) (n : NodeInfo) : ℤ :=
  match n.node with
  | none => 0
  | some node => ((pods n).map (c node)).sum

/-- The sum of `nodeSum` over the nodes. -/
def nodesSum (pods : NodeInfo → List Pod) (c : Node → Pod → ℤ) (nodes : List NodeInfo) : ℤ :=
  (nodes.map (nodeSum pods c)).sum

/-- An existing pod's contribution to the first map: its anti-affinity terms that select the
incoming pod. -/
def existingCount (pod : Pod) (P : topologyPair) (node : Node) (existingPod : Pod) : ℤ :=
  antiCount pod node (RequiredAntiAffinityTerms existingPod) P

/-- An existing pod's contribution to the second map: the incoming pod's affinity terms, if the
existing pod matches them all. -/
def incomingAffCount (pod : Pod) (P : topologyPair) (node : Node) (existingPod : Pod) : ℤ :=
  affCount existingPod node (RequiredAffinityTerms pod) P

/-- An existing pod's contribution to the third map: the incoming pod's anti-affinity terms that
select it. -/
def incomingAntiCount (pod : Pod) (P : topologyPair) (node : Node) (existingPod : Pod) : ℤ :=
  antiCount existingPod node (RequiredAntiAffinityTerms pod) P

section sums

variable {pods : NodeInfo → List Pod} {c : Node → Pod → ℤ}

theorem nodeSum_of_node_eq_none {n : NodeInfo} (h : n.node = none) : nodeSum pods c n = 0 := by
  rw [nodeSum, h]

theorem nodeSum_of_node_eq_some {n : NodeInfo} {node : Node} (h : n.node = some node) :
    nodeSum pods c n = ((pods n).map (c node)).sum := by
  rw [nodeSum, h]

theorem nodeSum_nonneg (h : ∀ node p, 0 ≤ c node p) (n : NodeInfo) : 0 ≤ nodeSum pods c n := by
  cases hn : n.node with
  | none => rw [nodeSum_of_node_eq_none hn]
  | some node =>
      rw [nodeSum_of_node_eq_some hn]
      refine List.sum_nonneg fun x hx => ?_
      obtain ⟨p, -, rfl⟩ := List.mem_map.mp hx
      exact h node p

theorem nodesSum_nonneg (h : ∀ node p, 0 ≤ c node p) (nodes : List NodeInfo) :
    0 ≤ nodesSum pods c nodes := by
  refine List.sum_nonneg fun x hx => ?_
  obtain ⟨n, -, rfl⟩ := List.mem_map.mp hx
  exact nodeSum_nonneg h n

theorem nodesSum_eq_zero (h : ∀ node p, c node p = 0) (nodes : List NodeInfo) :
    nodesSum pods c nodes = 0 := by
  refine List.sum_eq_zero fun x hx => ?_
  obtain ⟨n, -, rfl⟩ := List.mem_map.mp hx
  cases hn : n.node with
  | none => exact nodeSum_of_node_eq_none hn
  | some node =>
      rw [nodeSum_of_node_eq_some hn, show c node = fun _ => 0 from funext (h node)]
      simp

theorem nodesSum_replace (l₁ l₂ : List NodeInfo) (n n' : NodeInfo) :
    nodesSum pods c (l₁ ++ n' :: l₂) =
      nodesSum pods c (l₁ ++ n :: l₂) + (nodeSum pods c n' - nodeSum pods c n) := by
  simp only [nodesSum, List.map_append, List.map_cons, List.sum_append, List.sum_cons]
  ring

end sums

theorem Positive.updateWithAntiAffinityTerms_one {m : topologyToMatchedTermCount}
    (hm : Positive m) (targetPod : Pod) (node : Node) (terms : List AffinityTerm) :
    Positive (InterPodAffinity.updateWithAntiAffinityTerms m targetPod node terms 1) :=
  Positive.updateWithAntiAffinityTerms hm targetPod node terms fun P => by
    have := get_nonneg hm P
    have := antiCount_nonneg targetPod node terms P
    linarith

theorem Positive.updateWithAffinityTerms_one {m : topologyToMatchedTermCount}
    (hm : Positive m) (targetPod : Pod) (node : Node) (terms : List AffinityTerm) :
    Positive (InterPodAffinity.updateWithAffinityTerms m targetPod node terms 1) :=
  Positive.updateWithAffinityTerms hm targetPod node terms fun P => by
    have := get_nonneg hm P
    have := affCount_nonneg targetPod node terms P
    linarith

theorem sum_map_filterMap {α β : Type} (f : α → Option β) (g : β → ℤ) :
    ∀ l : List α, ((l.filterMap f).map g).sum = (l.map fun a => ((f a).map g).getD 0).sum
  | [] => rfl
  | a :: l => by
      rw [List.filterMap_cons, List.map_cons, List.sum_cons, ← sum_map_filterMap f g l]
      cases f a <;> simp

theorem existingAntiAffinityOfNode_positive (pod : Pod) (n : NodeInfo)
    {t : topologyToMatchedTermCount} (h : existingAntiAffinityOfNode pod n = some t) :
    Positive t := by
  unfold existingAntiAffinityOfNode at h
  cases hn : n.node with
  | none => simp [hn] at h
  | some node =>
      simp only [hn] at h
      split_ifs at h
      cases h
      exact Positive.foldl _ (fun p _ m hm => Positive.updateWithAntiAffinityTerms_one hm pod node _)
        Positive.empty

theorem existingAntiAffinityOfNode_get (pod : Pod) (n : NodeInfo) (P : topologyPair) :
    ((existingAntiAffinityOfNode pod n).map (get · P)).getD 0 =
      nodeSum (·.podsWithRequiredAntiAffinity) (existingCount pod P) n := by
  unfold existingAntiAffinityOfNode
  cases hn : n.node with
  | none =>
      rw [nodeSum_of_node_eq_none hn]
      rfl
  | some node =>
      rw [nodeSum_of_node_eq_some hn]
      have hloop := get_foldl (fun topoMap existingPod => updateWithAntiAffinityTerms topoMap pod
        node (RequiredAntiAffinityTerms existingPod) 1) (existingCount pod P node) P
        (fun m p => by rw [get_updateWithAntiAffinityTerms, one_mul]; rfl)
        n.podsWithRequiredAntiAffinity ∅
      rw [get_empty, zero_add] at hloop
      simp only
      split_ifs with h
      · rw [Option.map_some, Option.getD_some, hloop]
      · rw [← hloop, get_eq_zero_of_length_eq_zero (not_not.mp h)]
        rfl

/-- **The first map of `PreFilter`** counts the anti-affinity terms of the pods with required
anti-affinity on the nodes given, and holds no entry at zero or below. -/
theorem getTPMapMatchingExistingAntiAffinity_spec (pod : Pod) (nodes : List NodeInfo) :
    Positive (getTPMapMatchingExistingAntiAffinity pod nodes) ∧
      ∀ P, get (getTPMapMatchingExistingAntiAffinity pod nodes) P =
        nodesSum (·.podsWithRequiredAntiAffinity) (existingCount pod P) nodes := by
  refine ⟨Positive.foldl_append (fun t ht => ?_) Positive.empty, fun P => ?_⟩
  · obtain ⟨n, -, hn⟩ := List.mem_filterMap.mp ht
    exact existingAntiAffinityOfNode_positive pod n hn
  · rw [getTPMapMatchingExistingAntiAffinity, get_foldl_append, get_empty, zero_add,
      sum_map_filterMap]
    simp only [existingAntiAffinityOfNode_get]
    rfl

theorem incomingAffinityAntiAffinityOfNode_positive (podInfo : Pod) (n : NodeInfo)
    {t : topologyToMatchedTermCount × topologyToMatchedTermCount}
    (h : incomingAffinityAntiAffinityOfNode podInfo n = some t) : Positive t.1 ∧ Positive t.2 := by
  unfold incomingAffinityAntiAffinityOfNode at h
  cases hn : n.node with
  | none => simp [hn] at h
  | some node =>
      simp only [hn] at h
      rw [Go.foldl_pair (fun m p => updateWithAffinityTerms m p node (RequiredAffinityTerms podInfo) 1)
        (fun m p => updateWithAntiAffinityTerms m p node (RequiredAntiAffinityTerms podInfo) 1)] at h
      split_ifs at h
      cases h
      exact ⟨Positive.foldl _ (fun p _ m hm => Positive.updateWithAffinityTerms_one hm p node _)
          Positive.empty,
        Positive.foldl _ (fun p _ m hm => Positive.updateWithAntiAffinityTerms_one hm p node _)
          Positive.empty⟩

theorem incomingAffinityAntiAffinityOfNode_get (podInfo : Pod) (n : NodeInfo) (P : topologyPair) :
    ((incomingAffinityAntiAffinityOfNode podInfo n).map (get ·.1 P)).getD 0 =
        nodeSum (·.pods) (incomingAffCount podInfo P) n ∧
      ((incomingAffinityAntiAffinityOfNode podInfo n).map (get ·.2 P)).getD 0 =
        nodeSum (·.pods) (incomingAntiCount podInfo P) n := by
  unfold incomingAffinityAntiAffinityOfNode
  cases hn : n.node with
  | none =>
      rw [nodeSum_of_node_eq_none hn, nodeSum_of_node_eq_none hn]
      exact ⟨rfl, rfl⟩
  | some node =>
      rw [nodeSum_of_node_eq_some hn, nodeSum_of_node_eq_some hn]
      have haff := get_foldl (fun m p => updateWithAffinityTerms m p node
        (RequiredAffinityTerms podInfo) 1) (incomingAffCount podInfo P node) P
        (fun m p => by rw [get_updateWithAffinityTerms, one_mul]; rfl) n.pods ∅
      have hanti := get_foldl (fun m p => updateWithAntiAffinityTerms m p node
        (RequiredAntiAffinityTerms podInfo) 1) (incomingAntiCount podInfo P node) P
        (fun m p => by rw [get_updateWithAntiAffinityTerms, one_mul]; rfl) n.pods ∅
      rw [get_empty, zero_add] at haff hanti
      simp only
      rw [Go.foldl_pair (fun m p => updateWithAffinityTerms m p node (RequiredAffinityTerms podInfo) 1)
        (fun m p => updateWithAntiAffinityTerms m p node (RequiredAntiAffinityTerms podInfo) 1)]
      split_ifs with h
      · exact ⟨haff, hanti⟩
      · obtain ⟨h₁, h₂⟩ := not_or.mp h
        rw [← haff, ← hanti, get_eq_zero_of_length_eq_zero (Nat.eq_zero_of_not_pos h₁),
          get_eq_zero_of_length_eq_zero (Nat.eq_zero_of_not_pos h₂)]
        exact ⟨rfl, rfl⟩

/-- **The second and third maps of `PreFilter`** count the incoming pod's affinity and
anti-affinity terms over the pods of the nodes given, and hold no entry at zero or below. -/
theorem getTPMapMatchingIncomingAffinityAntiAffinity_spec (pod : Pod) (nodes : List NodeInfo) :
    Positive (getTPMapMatchingIncomingAffinityAntiAffinity pod nodes).1 ∧
      Positive (getTPMapMatchingIncomingAffinityAntiAffinity pod nodes).2 ∧
      ∀ P, get (getTPMapMatchingIncomingAffinityAntiAffinity pod nodes).1 P =
          nodesSum (·.pods) (incomingAffCount pod P) nodes ∧
        get (getTPMapMatchingIncomingAffinityAntiAffinity pod nodes).2 P =
          nodesSum (·.pods) (incomingAntiCount pod P) nodes := by
  unfold getTPMapMatchingIncomingAffinityAntiAffinity
  split_ifs with hterms
  · have haff : RequiredAffinityTerms pod = [] := List.length_eq_zero_iff.mp hterms.1
    have hanti : RequiredAntiAffinityTerms pod = [] := List.length_eq_zero_iff.mp hterms.2
    refine ⟨Positive.empty, Positive.empty, fun P => ⟨?_, ?_⟩⟩
    · rw [get_empty, nodesSum_eq_zero fun node p => ?_]
      simp [incomingAffCount, affCount, haff, podMatchesAllAffinityTerms]
    · rw [get_empty, nodesSum_eq_zero fun node p => ?_]
      simp [incomingAntiCount, antiCount, hanti]
  · rw [Go.foldl_pair
      (fun c (maps : topologyToMatchedTermCount × topologyToMatchedTermCount) => append c maps.1)
      (fun c (maps : topologyToMatchedTermCount × topologyToMatchedTermCount) => append c maps.2)]
    refine ⟨Positive.foldl _ (fun t ht c hc => hc.append ?_) Positive.empty,
      Positive.foldl _ (fun t ht c hc => hc.append ?_) Positive.empty, fun P => ⟨?_, ?_⟩⟩
    · obtain ⟨n, -, hn⟩ := List.mem_filterMap.mp ht
      exact (incomingAffinityAntiAffinityOfNode_positive pod n hn).1
    · obtain ⟨n, -, hn⟩ := List.mem_filterMap.mp ht
      exact (incomingAffinityAntiAffinityOfNode_positive pod n hn).2
    · rw [get_foldl _ (get ·.1 P) P (fun c maps => get_append c maps.1 P), get_empty, zero_add,
        sum_map_filterMap]
      simp only [fun n => (incomingAffinityAntiAffinityOfNode_get pod n P).1]
      rfl
    · rw [get_foldl _ (get ·.2 P) P (fun c maps => get_append c maps.2 P), get_empty, zero_add,
        sum_map_filterMap]
      simp only [fun n => (incomingAffinityAntiAffinityOfNode_get pod n P).2]
      rfl

/-! ### The state and what it counts -/

/-- A map counts `c` over the pods of `nodes`, with no entry at zero or below. -/
structure MapCounts (c : topologyPair → Node → Pod → ℤ) (nodes : List NodeInfo)
    (m : topologyToMatchedTermCount) : Prop where
  positive : Positive m
  get_eq : ∀ P, get m P = nodesSum (·.pods) (c P) nodes

/-- The state counts, for the incoming pod `pod`, the terms of the pods of `nodes`. -/
structure CountsAs (pod : Pod) (nodes : List NodeInfo) (s : preFilterState) : Prop where
  podInfo_eq : s.podInfo = pod
  existing : MapCounts (existingCount pod) nodes s.topologyToMatchedExistingAntiAffinityTerms
  affinity : MapCounts (incomingAffCount pod) nodes s.topologyToMatchedAffinityTerms
  antiAffinity : MapCounts (incomingAntiCount pod) nodes s.topologyToMatchedAntiAffinityTerms

/-- The pods with required anti-affinity that a `NodeInfo` keeps apart are those of its pods. -/
def KeepsAntiAffinityPods (n : NodeInfo) : Prop :=
  n.podsWithRequiredAntiAffinity.Perm (n.pods.filter podWithRequiredAntiAffinity)

theorem sum_existingCount_of_keeps (pod : Pod) (P : topologyPair) (node : Node) {n : NodeInfo}
    (h : KeepsAntiAffinityPods n) :
    (n.podsWithRequiredAntiAffinity.map (existingCount pod P node)).sum =
      (n.pods.map (existingCount pod P node)).sum := by
  rw [(h.map _).sum_eq]
  refine Go.sum_map_filter_of_eq_zero _ _ _ fun p _ hp => ?_
  simp [existingCount, antiCount, RequiredAntiAffinityTerms_eq_nil hp]

/-- `getTPMapMatchingExistingAntiAffinity` walks the nodes that keep pods with required
anti-affinity and those pods only: it counts the anti-affinity terms of every pod. -/
theorem nodesSum_havePodsWithRequiredAntiAffinityList (pod : Pod) (P : topologyPair)
    {nodes : List NodeInfo} (h : ∀ n ∈ nodes, KeepsAntiAffinityPods n) :
    nodesSum (·.podsWithRequiredAntiAffinity) (existingCount pod P)
        (havePodsWithRequiredAntiAffinityList nodes) =
      nodesSum (·.pods) (existingCount pod P) nodes := by
  unfold nodesSum havePodsWithRequiredAntiAffinityList
  rw [Go.sum_map_filter_of_eq_zero _ _ _ fun n _ hn => ?_]
  · refine congrArg List.sum (List.map_congr_left fun n hn => ?_)
    cases hnode : n.node with
    | none => rw [nodeSum_of_node_eq_none hnode, nodeSum_of_node_eq_none hnode]
    | some node =>
        rw [nodeSum_of_node_eq_some hnode, nodeSum_of_node_eq_some hnode]
        exact sum_existingCount_of_keeps pod P node (h n hn)
  · have hnil : n.podsWithRequiredAntiAffinity = [] := by simpa using hn
    cases hnode : n.node with
    | none => exact nodeSum_of_node_eq_none hnode
    | some node =>
        rw [nodeSum_of_node_eq_some hnode, hnil]
        rfl

/-- **`PreFilter` counts** the terms of the pods of the snapshot. -/
theorem PreFilter_countsAs (pod : Pod) {nodes : List NodeInfo}
    (h : ∀ n ∈ nodes, KeepsAntiAffinityPods n) :
    CountsAs pod nodes (PreFilter nodes (havePodsWithRequiredAntiAffinityList nodes) pod) := by
  obtain ⟨hex, hexget⟩ :=
    getTPMapMatchingExistingAntiAffinity_spec pod (havePodsWithRequiredAntiAffinityList nodes)
  obtain ⟨haff, hanti, hget⟩ := getTPMapMatchingIncomingAffinityAntiAffinity_spec pod nodes
  exact ⟨rfl, ⟨hex, fun P => (hexget P).trans (nodesSum_havePodsWithRequiredAntiAffinityList pod P h)⟩,
    ⟨haff, fun P => (hget P).1⟩, ⟨hanti, fun P => (hget P).2⟩⟩

/-! ### `AddPod` and `RemovePod` -/

/-- A map that moves by `d` while the sum it counts moves by `d` keeps counting; it keeps its
entries positive because the new sums are sums of nonnegative contributions. -/
theorem MapCounts.step {c : topologyPair → Node → Pod → ℤ} (hc : ∀ P node p, 0 ≤ c P node p)
    {nodes nodes' : List NodeInfo} {m m' : topologyToMatchedTermCount} (hm : MapCounts c nodes m)
    (d : topologyPair → ℤ)
    (hsum : ∀ P, nodesSum (·.pods) (c P) nodes' = nodesSum (·.pods) (c P) nodes + d P)
    (hget : ∀ P, get m' P = get m P + d P) (hpos : (∀ P, 0 ≤ get m P + d P) → Positive m') :
    MapCounts c nodes' m' := by
  have hnew : ∀ P, get m P + d P = nodesSum (·.pods) (c P) nodes' := fun P => by
    rw [hsum P, hm.get_eq P]
  refine ⟨hpos fun P => ?_, fun P => (hget P).trans (hnew P)⟩
  rw [hnew P]
  exact nodesSum_nonneg (hc P) nodes'

theorem MapCounts.replace {c : topologyPair → Node → Pod → ℤ} {l₁ l₂ : List NodeInfo}
    {n n' : NodeInfo} {m : topologyToMatchedTermCount} (hm : MapCounts c (l₁ ++ n :: l₂) m)
    (h : ∀ P, nodeSum (·.pods) (c P) n' = nodeSum (·.pods) (c P) n) :
    MapCounts c (l₁ ++ n' :: l₂) m :=
  ⟨hm.positive, fun P => by rw [hm.get_eq P, nodesSum_replace l₁ l₂ n n', h P, sub_self, add_zero]⟩

theorem CountsAs.replace {pod : Pod} {l₁ l₂ : List NodeInfo} {n n' : NodeInfo}
    {s : preFilterState} (hs : CountsAs pod (l₁ ++ n :: l₂) s)
    (h : ∀ c : Node → Pod → ℤ, nodeSum (·.pods) c n' = nodeSum (·.pods) c n) :
    CountsAs pod (l₁ ++ n' :: l₂) s :=
  ⟨hs.podInfo_eq, hs.existing.replace fun _ => h _, hs.affinity.replace fun _ => h _,
    hs.antiAffinity.replace fun _ => h _⟩

/-- `updateWithPod` for the pod `q` on `node` with multiplier `v` keeps the state counting when
the pods of the node move by `v` times `q`. -/
theorem CountsAs.updateWithPod {pod q : Pod} {l₁ l₂ : List NodeInfo} {n n' : NodeInfo}
    {node : Node} {v : ℤ} {s : preFilterState} (hs : CountsAs pod (l₁ ++ n :: l₂) s)
    (hn : n.node = some node) (hn' : n'.node = some node)
    (hpods : ∀ c : Node → Pod → ℤ,
      (n'.pods.map (c node)).sum = (n.pods.map (c node)).sum + v * c node q) :
    CountsAs pod (l₁ ++ n' :: l₂) (s.updateWithPod q node v) := by
  have hsum : ∀ c : Node → Pod → ℤ, nodesSum (·.pods) c (l₁ ++ n' :: l₂) =
      nodesSum (·.pods) c (l₁ ++ n :: l₂) + v * c node q := fun c => by
    rw [nodesSum_replace l₁ l₂ n n', nodeSum_of_node_eq_some hn', nodeSum_of_node_eq_some hn,
      hpods c]
    ring
  obtain ⟨rfl, hex, haff, hanti⟩ := hs
  refine ⟨rfl, ?_, ?_, ?_⟩
  · exact hex.step (fun P node p => antiCount_nonneg _ _ _ _) _ (fun P => hsum _)
      (fun P => get_updateWithAntiAffinityTerms _ _ _ _ _ _)
      (Positive.updateWithAntiAffinityTerms hex.positive _ _ _)
  · exact haff.step (fun P node p => affCount_nonneg _ _ _ _) _ (fun P => hsum _)
      (fun P => get_updateWithAffinityTerms _ _ _ _ _ _)
      (Positive.updateWithAffinityTerms haff.positive _ _ _)
  · exact hanti.step (fun P node p => antiCount_nonneg _ _ _ _) _ (fun P => hsum _)
      (fun P => get_updateWithAntiAffinityTerms _ _ _ _ _ _)
      (Positive.updateWithAntiAffinityTerms hanti.positive _ _ _)

theorem updateWithNode_none {s s' : preFilterState} {q : Pod} {v : ℤ}
    (h : updateWithNode s q none v = .ok s') : s' = s := by
  unfold updateWithNode at h
  split_ifs at h
  cases h
  rfl

/-- **`AddPod` adds the pod's terms**, on the node the simulation gives it. -/
theorem AddPod_countsAs {pod q : Pod} {l₁ l₂ : List NodeInfo} {n : NodeInfo}
    {pods pods' : List Pod} {s s' : preFilterState}
    (hs : CountsAs pod (l₁ ++ { n with pods := pods } :: l₂) s) (hp : pods'.Perm (q :: pods))
    (h : AddPod s q { n with pods := pods' } = .ok s') :
    CountsAs pod (l₁ ++ { n with pods := pods' } :: l₂) s' := by
  unfold AddPod at h
  simp only at h
  rcases Option.eq_none_or_eq_some n.node with hn | ⟨node, hn⟩
  · rw [hn] at h
    obtain rfl := updateWithNode_none h
    exact hs.replace fun c => by
      rw [nodeSum_of_node_eq_none (n := { n with pods := pods' }) hn,
        nodeSum_of_node_eq_none (n := { n with pods := pods }) hn]
  · rw [hn] at h
    cases h
    refine hs.updateWithPod hn hn fun c => ?_
    rw [(hp.map _).sum_eq, List.map_cons, List.sum_cons]
    ring

/-- **`RemovePod` subtracts the pod's terms**, on the node the simulation gives it. -/
theorem RemovePod_countsAs {pod q : Pod} {l₁ l₂ : List NodeInfo} {n : NodeInfo}
    {pods pods' : List Pod} {s s' : preFilterState}
    (hs : CountsAs pod (l₁ ++ { n with pods := pods } :: l₂) s) (hp : pods.Perm (q :: pods'))
    (h : RemovePod s q { n with pods := pods' } = .ok s') :
    CountsAs pod (l₁ ++ { n with pods := pods' } :: l₂) s' := by
  unfold RemovePod at h
  simp only at h
  rcases Option.eq_none_or_eq_some n.node with hn | ⟨node, hn⟩
  · rw [hn] at h
    obtain rfl := updateWithNode_none h
    exact hs.replace fun c => by
      rw [nodeSum_of_node_eq_none (n := { n with pods := pods' }) hn,
        nodeSum_of_node_eq_none (n := { n with pods := pods }) hn]
  · rw [hn] at h
    cases h
    refine hs.updateWithPod hn hn fun c => ?_
    rw [(hp.map _).sum_eq, List.map_cons, List.sum_cons]
    ring

/-- The states of `InterPodAffinity`, and the pods of the node `n`, that runs of the preemption
simulation on `n` reach from the state `s`. -/
abbrev SimReachable (n : NodeInfo) (s : preFilterState) :=
  StepSystem.Reachable (SimStep AddPod RemovePod n) (fun _ _ => True) (s, n.pods)

/-- Every run of the simulation keeps `CountsAs`, on the snapshot with the node's pods changed. -/
theorem SimReachable.countsAs {pod : Pod} {l₁ l₂ : List NodeInfo} {n : NodeInfo}
    {s s' : preFilterState} {pods : List Pod} (hs : CountsAs pod (l₁ ++ n :: l₂) s)
    (hr : SimReachable n s (s', pods)) : CountsAs pod (l₁ ++ { n with pods := pods } :: l₂) s' := by
  refine StepSystem.Reachable.invariant
    (P := fun sp => CountsAs pod (l₁ ++ { n with pods := sp.2 } :: l₂) sp.1) hs ?_ hr
  rintro ⟨s₁, pods₁⟩ u ⟨s₂, pods₂⟩ hs₁ - hstep
  cases u with
  | add q =>
      obtain ⟨hpods, h⟩ := hstep
      exact AddPod_countsAs hs₁ hpods h
  | remove q =>
      obtain ⟨hpods, h⟩ := hstep
      exact RemovePod_countsAs hs₁ hpods h

/-! ### The same state, the same verdicts -/

theorem MapCounts.lookup_eq {c : topologyPair → Node → Pod → ℤ} {nodes : List NodeInfo}
    {m₁ m₂ : topologyToMatchedTermCount} (h₁ : MapCounts c nodes m₁) (h₂ : MapCounts c nodes m₂)
    (P : topologyPair) : m₁.lookup P = m₂.lookup P :=
  lookup_eq_of_get_eq h₁.positive h₂.positive (fun P => (h₁.get_eq P).trans (h₂.get_eq P).symm) P

/-- `Filter` reads the maps through their counters and whether they are empty, so states with the
same entries get the same verdicts. -/
theorem Filter_congr {s₁ s₂ : preFilterState} (hpod : s₁.podInfo = s₂.podInfo)
    (hex : ∀ P, s₁.topologyToMatchedExistingAntiAffinityTerms.lookup P =
      s₂.topologyToMatchedExistingAntiAffinityTerms.lookup P)
    (haff : ∀ P, s₁.topologyToMatchedAffinityTerms.lookup P =
      s₂.topologyToMatchedAffinityTerms.lookup P)
    (hanti : ∀ P, s₁.topologyToMatchedAntiAffinityTerms.lookup P =
      s₂.topologyToMatchedAntiAffinityTerms.lookup P)
    (nodeInfo : NodeInfo) : Filter s₁ nodeInfo = Filter s₂ nodeInfo := by
  unfold Filter satisfyPodAffinity satisfyPodAntiAffinity satisfyExistingPodsAntiAffinity
  rw [hpod, get_eq_of_lookup_eq hex, get_eq_of_lookup_eq haff, get_eq_of_lookup_eq hanti,
    length_eq_of_lookup_eq hex, length_eq_of_lookup_eq haff, length_eq_of_lookup_eq hanti]

/-- **The preemption simulation keeps what `PreFilter` computes**: on a snapshot whose
`NodeInfo`s keep their pods with required anti-affinity apart, after every sequence of `AddPod`
and `RemovePod` calls for the pods added to and removed from a node `n`, the three maps hold,
entry for entry, what `PreFilter` computes on the snapshot with `n` replaced by its `NodeInfo`
with those pods, they hold no entry at zero or below, and `Filter` gives the same verdict on every
node. -/
theorem SimReachable.eq_PreFilter {pod : Pod} {l₁ l₂ : List NodeInfo} {n n' : NodeInfo}
    {s : preFilterState} {pods : List Pod}
    (hkeeps : ∀ m ∈ l₁ ++ n :: l₂, KeepsAntiAffinityPods m)
    (hr : SimReachable n
      (PreFilter (l₁ ++ n :: l₂) (havePodsWithRequiredAntiAffinityList (l₁ ++ n :: l₂)) pod)
      (s, pods))
    (hnode : n'.node = n.node) (hpods : n'.pods.Perm pods) (hn' : KeepsAntiAffinityPods n') :
    let s₀ := PreFilter (l₁ ++ n' :: l₂) (havePodsWithRequiredAntiAffinityList (l₁ ++ n' :: l₂)) pod
    (∀ P, s.topologyToMatchedExistingAntiAffinityTerms.lookup P =
        s₀.topologyToMatchedExistingAntiAffinityTerms.lookup P) ∧
      (∀ P, s.topologyToMatchedAffinityTerms.lookup P = s₀.topologyToMatchedAffinityTerms.lookup P) ∧
      (∀ P, s.topologyToMatchedAntiAffinityTerms.lookup P =
        s₀.topologyToMatchedAntiAffinityTerms.lookup P) ∧
      Positive s.topologyToMatchedExistingAntiAffinityTerms ∧
      Positive s.topologyToMatchedAffinityTerms ∧ Positive s.topologyToMatchedAntiAffinityTerms ∧
      ∀ nodeInfo, Filter s nodeInfo = Filter s₀ nodeInfo := by
  intro s₀
  have hs : CountsAs pod (l₁ ++ n' :: l₂) s := by
    refine (SimReachable.countsAs (PreFilter_countsAs pod hkeeps) hr).replace fun c => ?_
    rcases Option.eq_none_or_eq_some n.node with hn | ⟨node, hn⟩
    · rw [nodeSum_of_node_eq_none (hnode.trans hn),
        nodeSum_of_node_eq_none (n := { n with pods := pods }) hn]
    · rw [nodeSum_of_node_eq_some (hnode.trans hn),
        nodeSum_of_node_eq_some (n := { n with pods := pods }) hn]
      exact (hpods.map _).sum_eq
  have hkeeps' : ∀ m ∈ l₁ ++ n' :: l₂, KeepsAntiAffinityPods m := by
    intro m hm
    simp only [List.mem_append, List.mem_cons] at hm
    rcases hm with hm | rfl | hm
    · exact hkeeps m (by simp [hm])
    · exact hn'
    · exact hkeeps m (by simp [hm])
  have hs₀ : CountsAs pod (l₁ ++ n' :: l₂) s₀ := PreFilter_countsAs pod hkeeps'
  have hex := hs.existing.lookup_eq hs₀.existing
  have haff := hs.affinity.lookup_eq hs₀.affinity
  have hanti := hs.antiAffinity.lookup_eq hs₀.antiAffinity
  exact ⟨hex, haff, hanti, hs.existing.positive, hs.affinity.positive, hs.antiAffinity.positive,
    Filter_congr (hs.podInfo_eq.trans hs₀.podInfo_eq.symm) hex haff hanti⟩

/-- A node in zone `a` with a pod `e` whose anti-affinity repels the incoming pod, which needs a
pod labelled `app=web` in its zone: the nominated `q`, labelled so, is added and `e` removed, so
the affinity count stays at one and the anti-affinity entry of `e` is dropped at zero. -/
theorem SimReachable.eq_PreFilter_addRemove :
    let node : Node := { name := "node-0", labels := AList.singleton "zone" "a" }
    let webTerm : PodAffinityTerm :=
      { labelSelector := some { matchLabels := [("app", "web")] }, topologyKey := "zone" }
    let roleTerm : PodAffinityTerm :=
      { labelSelector := some { matchLabels := [("role", "x")] }, topologyKey := "zone" }
    let e : Pod :=
      { name := "e", uid := "ue", labels := AList.singleton "app" "web",
        affinity := some
          { podAntiAffinity := some { requiredDuringSchedulingIgnoredDuringExecution := [roleTerm] } } }
    let q : Pod := { name := "q", uid := "uq", labels := AList.singleton "app" "web" }
    let pod : Pod :=
      { name := "p", labels := AList.singleton "role" "x",
        affinity := some
          { podAffinity := some { requiredDuringSchedulingIgnoredDuringExecution := [webTerm] } } }
    let n : NodeInfo := { node := some node, pods := [e], podsWithRequiredAntiAffinity := [e] }
    let s := ((PreFilter [n] (havePodsWithRequiredAntiAffinityList [n]) pod).updateWithPod q node
      1).updateWithPod e node (-1)
    let n' : NodeInfo := { node := some node, pods := [q] }
    let s₀ := PreFilter [n'] (havePodsWithRequiredAntiAffinityList [n']) pod
    ((∀ P, s.topologyToMatchedExistingAntiAffinityTerms.lookup P =
        s₀.topologyToMatchedExistingAntiAffinityTerms.lookup P) ∧
      (∀ P, s.topologyToMatchedAffinityTerms.lookup P = s₀.topologyToMatchedAffinityTerms.lookup P) ∧
      (∀ P, s.topologyToMatchedAntiAffinityTerms.lookup P =
        s₀.topologyToMatchedAntiAffinityTerms.lookup P) ∧
      Positive s.topologyToMatchedExistingAntiAffinityTerms ∧
      Positive s.topologyToMatchedAffinityTerms ∧ Positive s.topologyToMatchedAntiAffinityTerms ∧
      ∀ nodeInfo, Filter s nodeInfo = Filter s₀ nodeInfo) ∧
    s.topologyToMatchedAffinityTerms.lookup ⟨"zone", "a"⟩ = some 1 ∧
    (PreFilter [n] (havePodsWithRequiredAntiAffinityList [n]) pod).topologyToMatchedExistingAntiAffinityTerms.lookup
      ⟨"zone", "a"⟩ = some 1 ∧
    s.topologyToMatchedExistingAntiAffinityTerms.lookup ⟨"zone", "a"⟩ = none := by
  intro node webTerm roleTerm e q pod n s n' s₀
  have hkeeps : ∀ m ∈ [] ++ n :: [], KeepsAntiAffinityPods m := by
    intro m hm
    simp only [List.nil_append, List.mem_singleton] at hm
    subst hm
    exact List.Perm.refl _
  have h₁ : SimReachable n (PreFilter [n] (havePodsWithRequiredAntiAffinityList [n]) pod)
      ((PreFilter [n] (havePodsWithRequiredAntiAffinityList [n]) pod).updateWithPod q node 1,
        [q, e]) :=
    .step (.add q) .init trivial ⟨List.Perm.refl (q :: [e]), rfl⟩
  have hr : SimReachable n (PreFilter [n] (havePodsWithRequiredAntiAffinityList [n]) pod)
      (s, [q]) :=
    .step (.remove e) h₁ trivial ⟨List.Perm.swap e q [], rfl⟩
  exact ⟨@SimReachable.eq_PreFilter pod [] [] n n' s [q] hkeeps hr rfl (List.Perm.refl _) .nil,
    by decide, by decide, by decide⟩

end InterPodAffinity

end Caspr
