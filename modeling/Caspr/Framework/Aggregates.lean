import Caspr.Framework.Types

/-! # The aggregates of a `NodeInfo`

`NodeInfo.AddPod` and `NodeInfo.RemovePod` update five aggregates of the node separately:
`Requested` (CPU, memory, ephemeral storage and every scalar resource), `NonZeroRequested`
(CPU and memory), and the sub-lists `PodsWithAffinity` and `PodsWithRequiredAntiAffinity`.
`Aggregates` states what they should be, as functions of `Pods`: the sums of
`calculateResource` over the pods, and (as multisets) the pods with affinity and with
required anti-affinity.

`Aggregates.addPod` shows that adding keeps them.  Removal needs two facts about the node,
which the cache's own invariant supplies: at most one pod of the key is on the node, and it
requests what the pod passed in requests (`SameRequest`), because `RemovePod` subtracts the
resources of the pod it is given and prunes the sub-lists by that pod's predicates
(`Aggregates.removePod`).  The statements are about multisets: `RemovePod` swap-removes, so the
order of `Pods` is not kept. -/

namespace Caspr

namespace NodeInfo

open List

variable (cfg : Config)

/-! ### What each method changes -/

section fields

variable (n : NodeInfo) (pod : Pod) (g : ℤ)

@[simp] theorem NewNodeInfo_pods : (NewNodeInfo g).pods = [] := rfl
@[simp] theorem NewNodeInfo_node : (NewNodeInfo g).node = none := rfl
@[simp] theorem NewNodeInfo_generation : (NewNodeInfo g).generation = g := rfl

@[simp] theorem addPod_pods : (n.addPod cfg pod g).pods = n.pods ++ [pod] := rfl
@[simp] theorem addPod_node : (n.addPod cfg pod g).node = n.node := rfl
@[simp] theorem addPod_generation : (n.addPod cfg pod g).generation = g := rfl

@[simp] theorem pruneAffinity_pods (k : String) : (n.pruneAffinity pod k).pods = n.pods := rfl
@[simp] theorem pruneAffinity_node (k : String) : (n.pruneAffinity pod k).node = n.node := rfl
@[simp] theorem pruneAffinity_generation (k : String) :
    (n.pruneAffinity pod k).generation = n.generation := rfl

@[simp] theorem removeAt_pods (i : ℕ) : (n.removeAt cfg pod i g).pods = Go.swapRemove n.pods i := rfl
@[simp] theorem removeAt_node (i : ℕ) : (n.removeAt cfg pod i g).node = n.node := rfl
@[simp] theorem removeAt_generation (i : ℕ) : (n.removeAt cfg pod i g).generation = g := rfl

@[simp] theorem setNode_pods (node : Node) : (n.setNode cfg node g).pods = n.pods := rfl
@[simp] theorem setNode_node (node : Node) : (n.setNode cfg node g).node = some node := rfl
@[simp] theorem setNode_generation (node : Node) : (n.setNode cfg node g).generation = g := rfl

@[simp] theorem removeNode_pods : (n.removeNode g).pods = n.pods := rfl
@[simp] theorem removeNode_node : (n.removeNode g).node = none := rfl
@[simp] theorem removeNode_generation : (n.removeNode g).generation = g := rfl

end fields

/-! ### The outcomes of `removePod` -/

section removePod

variable {n : NodeInfo} {pod : Pod} {g : ℤ}

/-- `removePod` on a node that holds a pod of the key: it is removed and the generation
bumped. -/
theorem removePod_of_mem (hk : pod.uid ≠ "") (hmem : ∃ b ∈ n.pods, hasKey pod.uid b = true) :
    ∃ i, n.removePod cfg pod g = .ok ((n.pruneAffinity pod pod.uid).removeAt cfg pod i g, none) ∧
      n.pods.findIdx? (hasKey pod.uid) = some i := by
  obtain ⟨b, hb, hkb⟩ := hmem
  obtain ⟨i, hi⟩ : ∃ i, n.pods.findIdx? (hasKey pod.uid) = some i := by
    cases h : n.pods.findIdx? (hasKey pod.uid) with
    | none => exact absurd hkb (by simpa using List.findIdx?_eq_none_iff.mp h b hb)
    | some i => exact ⟨i, rfl⟩
  refine ⟨i, ?_, hi⟩
  simp only [removePod, GetPodKey, hk, if_false, pruneAffinity_pods, hi]

/-- `removePod` on a node without a pod of the key changes nothing but the affinity
sub-lists, and returns an error (or panics on a node-less `NodeInfo`). -/
theorem removePod_of_not_mem (hnone : ∀ b ∈ n.pods, hasKey pod.uid b = false) {n' : NodeInfo}
    {err : Option String} (hr : n.removePod cfg pod g = .ok (n', err)) :
    n' = n.pruneAffinity pod pod.uid ∨ n' = n := by
  unfold removePod at hr
  cases hkey : GetPodKey pod with
  | error e =>
      rw [hkey] at hr
      exact .inr (Prod.mk.inj (Except.ok.inj hr)).1.symm
  | ok k =>
      have hk : k = pod.uid := by
        unfold GetPodKey at hkey
        split at hkey <;> simp_all
      subst hk
      have hfind : n.pods.findIdx? (hasKey pod.uid) = none := List.findIdx?_eq_none_iff.mpr hnone
      rw [hkey] at hr
      simp only [pruneAffinity_pods, hfind] at hr
      split at hr
      · exact .inl (Prod.mk.inj (Except.ok.inj hr)).1.symm
      · cases hr

/-- `removePod` that returns no error found a pod of the key, at the first index of the key, and
swap-removed it. -/
theorem removePod_eq_ok_none {n' : NodeInfo} (hr : n.removePod cfg pod g = .ok (n', none)) :
    pod.uid ≠ "" ∧ ∃ i, n.pods.findIdx? (hasKey pod.uid) = some i ∧
      n' = (n.pruneAffinity pod pod.uid).removeAt cfg pod i g := by
  unfold removePod at hr
  by_cases hk : pod.uid = ""
  · rw [GetPodKey_of_eq hk] at hr
    simp at hr
  refine ⟨hk, ?_⟩
  rw [GetPodKey, if_neg hk] at hr
  simp only [pruneAffinity_pods] at hr
  cases hi : n.pods.findIdx? (hasKey pod.uid) with
  | none =>
      simp only [hi] at hr
      split at hr <;> simp at hr
  | some i =>
      simp only [hi] at hr
      exact ⟨i, rfl, (Prod.mk.inj (Except.ok.inj hr)).1.symm⟩

end removePod

/-! ### The aggregates -/

/-- Two versions of a pod request the same resources and declare the same affinity. -/
def SameRequest (p q : Pod) : Prop :=
  calculateResource cfg p = calculateResource cfg q ∧
    podWithAffinity p = podWithAffinity q ∧
    podWithRequiredAntiAffinity p = podWithRequiredAntiAffinity q

/-- The aggregates of a `NodeInfo` are the sums over its pods and the sub-lists of its pods. -/
structure Aggregates (n : NodeInfo) : Prop where
  milliCPU : n.requested.milliCPU = (n.pods.map fun p => (calculateResource cfg p).1.milliCPU).sum
  memory : n.requested.memory = (n.pods.map fun p => (calculateResource cfg p).1.memory).sum
  ephemeralStorage :
    n.requested.ephemeralStorage = (n.pods.map fun p => (calculateResource cfg p).1.ephemeralStorage).sum
  scalarResources : ∀ name,
    n.requested.scalarResources name = (n.pods.map fun p => (calculateResource cfg p).1.scalarResources name).sum
  nonZeroMilliCPU : n.nonZeroRequested.milliCPU = (n.pods.map fun p => (calculateResource cfg p).2.1).sum
  nonZeroMemory : n.nonZeroRequested.memory = (n.pods.map fun p => (calculateResource cfg p).2.2).sum
  podsWithAffinity : n.podsWithAffinity ~ n.pods.filter podWithAffinity
  podsWithRequiredAntiAffinity :
    n.podsWithRequiredAntiAffinity ~ n.pods.filter podWithRequiredAntiAffinity

variable {cfg}

theorem aggregates_NewNodeInfo (g : ℤ) : Aggregates cfg (NewNodeInfo g) where
  milliCPU := rfl
  memory := rfl
  ephemeralStorage := rfl
  scalarResources _ := rfl
  nonZeroMilliCPU := rfl
  nonZeroMemory := rfl
  podsWithAffinity := .nil
  podsWithRequiredAntiAffinity := .nil

theorem perm_filter_append {s t : List Pod} (f : Pod → Bool) (pod : Pod) (h : s ~ t.filter f) :
    (if f pod then s ++ [pod] else s) ~ (t ++ [pod]).filter f := by
  rw [List.filter_append]
  by_cases hf : f pod = true
  · simpa [hf] using h.append_right [pod]
  · simpa [hf] using h

theorem Aggregates.addPod {n : NodeInfo} (h : Aggregates cfg n) (pod : Pod) (g : ℤ) :
    Aggregates cfg (n.addPod cfg pod g) where
  milliCPU := by simp [NodeInfo.addPod, h.milliCPU]
  memory := by simp [NodeInfo.addPod, h.memory]
  ephemeralStorage := by simp [NodeInfo.addPod, h.ephemeralStorage]
  scalarResources name := by simp [NodeInfo.addPod, h.scalarResources name]
  nonZeroMilliCPU := by simp [NodeInfo.addPod, h.nonZeroMilliCPU]
  nonZeroMemory := by simp [NodeInfo.addPod, h.nonZeroMemory]
  podsWithAffinity := perm_filter_append podWithAffinity pod h.podsWithAffinity
  podsWithRequiredAntiAffinity :=
    perm_filter_append podWithRequiredAntiAffinity pod h.podsWithRequiredAntiAffinity

theorem Aggregates.setNode {n : NodeInfo} (h : Aggregates cfg n) (node : Node) (g : ℤ) :
    Aggregates cfg (n.setNode cfg node g) :=
  { h with }

theorem Aggregates.removeNode {n : NodeInfo} (h : Aggregates cfg n) (g : ℤ) :
    Aggregates cfg (n.removeNode g) :=
  { h with }

theorem Aggregates.imageStates {n : NodeInfo} (h : Aggregates cfg n)
    (is : AList fun _ : String => ImageStateSummary) :
    Aggregates cfg { n with imageStates := is } :=
  { h with }

/-- A sub-list pruned by the predicate of the pod passed in, when at most one pod of the key is
on the node and it passes the predicate exactly when the pod passed in does. -/
theorem perm_prune_filter {s t : List Pod} (f : Pod → Bool) (pod : Pod) (k : String)
    (h : s ~ t.filter f) (huniq : t.countP (hasKey k) ≤ 1)
    (hsame : ∀ b ∈ t, hasKey k b = true → f b = f pod) :
    (if f pod then removeFromSlice s k else s) ~ (t.filter fun x => !hasKey k x).filter f := by
  have hcomm : (t.filter fun x => !hasKey k x).filter f = (t.filter f).filter fun x => !hasKey k x := by
    simp only [List.filter_filter, Bool.and_comm]
  by_cases hf : f pod = true
  · have hs : s.countP (hasKey k) ≤ 1 := by
      have hle : (t.filter f).countP (hasKey k) ≤ t.countP (hasKey k) := by
        rw [List.countP_filter]
        exact List.countP_mono_left fun x _ hx => (Bool.and_eq_true_iff.mp hx).1
      rw [h.countP_eq]
      exact le_trans hle huniq
    rw [if_pos hf, hcomm, removeFromSlice]
    exact (Go.swapRemoveFirst_perm_filter _ s hs).trans (h.filter _)
  · rw [if_neg hf, List.filter_filter]
    refine h.trans (List.Perm.of_eq (List.filter_congr fun x hxt => ?_))
    by_cases hx : hasKey k x = true
    · simp [hx, hsame x hxt hx, hf]
    · simp [hx]

theorem Aggregates.pruneAffinity_eq {n : NodeInfo} (h : Aggregates cfg n) (pod : Pod) {k : String}
    (hnone : ∀ b ∈ n.pods, hasKey k b = false) : n.pruneAffinity pod k = n := by
  have hsub : ∀ (s : List Pod) (f : Pod → Bool), s ~ n.pods.filter f → removeFromSlice s k = s :=
    fun s f hs => Go.swapRemoveFirst_of_forall_not _ _ fun x hx =>
      hnone x (List.mem_of_mem_filter (hs.subset hx))
  have h1 := hsub _ _ h.podsWithAffinity
  have h2 := hsub _ _ h.podsWithRequiredAntiAffinity
  unfold pruneAffinity
  split_ifs <;> simp_all

/-- **Removal keeps the aggregates** when at most one pod of the key is on the node and it
requests what the pod passed in requests. -/
theorem Aggregates.removePod {n n' : NodeInfo} {pod : Pod} {g : ℤ} {err : Option String}
    (h : Aggregates cfg n) (huniq : n.pods.countP (hasKey pod.uid) ≤ 1)
    (hsame : ∀ b ∈ n.pods, hasKey pod.uid b = true → SameRequest cfg b pod)
    (hr : n.removePod cfg pod g = .ok (n', err)) : Aggregates cfg n' := by
  by_cases hmem : ∃ b ∈ n.pods, hasKey pod.uid b = true
  · obtain ⟨b, hb, hkb⟩ := hmem
    have hk : pod.uid ≠ "" := by
      obtain ⟨hne, heq⟩ := (hasKey_iff _ _).mp hkb
      rwa [← heq]
    obtain ⟨i, hres, hi⟩ := removePod_of_mem cfg hk ⟨b, hb, hkb⟩
    rw [hres] at hr
    obtain ⟨rfl, -⟩ := Prod.mk.inj (Except.ok.inj hr)
    have hone : n.pods.countP (hasKey pod.uid) = 1 :=
      le_antisymm huniq (List.countP_pos_iff.mpr ⟨b, hb, hkb⟩)
    have hpods : Go.swapRemove n.pods i ~ n.pods.filter fun x => !hasKey pod.uid x :=
      Go.swapRemove_perm_filter _ _ huniq hi
    -- every sum over the pods is the removed pod's term plus the sum over the others
    have hsum : ∀ (F : Pod → ℤ), (∀ b ∈ n.pods, hasKey pod.uid b = true → F b = F pod) →
        ((Go.swapRemove n.pods i).map F).sum = (n.pods.map F).sum - F pod := by
      intro F hF
      rw [(hpods.map F).sum_eq, Go.sum_map_of_countP_eq_one F _ n.pods hone (F pod) hF]
      omega
    have hreq : ∀ b ∈ n.pods, hasKey pod.uid b = true →
        calculateResource cfg b = calculateResource cfg pod := fun b hb hkb => (hsame b hb hkb).1
    refine
      { milliCPU := ?_, memory := ?_, ephemeralStorage := ?_, scalarResources := ?_,
        nonZeroMilliCPU := ?_, nonZeroMemory := ?_, podsWithAffinity := ?_,
        podsWithRequiredAntiAffinity := ?_ }
    · simp only [removeAt, pruneAffinity, h.milliCPU]
      rw [hsum _ fun b hb hkb => by rw [hreq b hb hkb]]
    · simp only [removeAt, pruneAffinity, h.memory]
      rw [hsum _ fun b hb hkb => by rw [hreq b hb hkb]]
    · simp only [removeAt, pruneAffinity, h.ephemeralStorage]
      rw [hsum _ fun b hb hkb => by rw [hreq b hb hkb]]
    · intro name
      simp only [removeAt, pruneAffinity, h.scalarResources name]
      rw [hsum _ fun b hb hkb => by rw [hreq b hb hkb]]
    · simp only [removeAt, pruneAffinity, h.nonZeroMilliCPU]
      rw [hsum _ fun b hb hkb => by rw [hreq b hb hkb]]
    · simp only [removeAt, pruneAffinity, h.nonZeroMemory]
      rw [hsum _ fun b hb hkb => by rw [hreq b hb hkb]]
    · simp only [removeAt, pruneAffinity]
      exact (perm_prune_filter _ pod _ h.podsWithAffinity huniq
        fun b hb hkb => (hsame b hb hkb).2.1).trans (hpods.filter _).symm
    · simp only [removeAt, pruneAffinity]
      exact (perm_prune_filter _ pod _ h.podsWithRequiredAntiAffinity huniq
        fun b hb hkb => (hsame b hb hkb).2.2).trans (hpods.filter _).symm
  · have hnone : ∀ b ∈ n.pods, hasKey pod.uid b = false := fun b hb => by
      simpa using fun h' => hmem ⟨b, hb, h'⟩
    rcases removePod_of_not_mem cfg hnone hr with rfl | rfl
    · rw [h.pruneAffinity_eq pod hnone]; exact h
    · exact h

end NodeInfo

end Caspr
