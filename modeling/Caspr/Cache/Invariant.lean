import Caspr.Cache.Cache
import Caspr.Framework.Aggregates

/-! # The invariant of the scheduler cache

Ten operations move pods between the assumed and added states and between nodes.  This module
states what they keep, for every state reachable from `newSchedulerCache` by calls whose pods
have non-empty UIDs and, for a given UID, never change their node, requests, affinity or ports
(what the API server guarantees of the versions of one pod), and whose `UpdatePod` events
pair two versions of one pod (`OpOk`):

* every assumed key has a pod state, and an assumed pod whose binding finished has a deadline,
  so `cleanupAssumedPods` neither calls `klog.Fatal` nor dereferences a nil deadline;
* for every key of `podStates` exactly one pod of that key is stored, on the node of its pod
  state, and no pod of that key on any other node; every stored pod's key is in `podStates`
  (`Inv.count`, one equation per key and node);
* a `NodeInfo` without a node object and without pods is not kept (`Inv.no_ghost`);
* every `NodeInfo` has its aggregates (`Inv.aggregates`) and a generation not above the last
  one drawn (`Inv.generation`).

The proof is layered.  The first section gives, for each primitive of `cache.go`
(`moveNodeInfoToHead`, `removeNodeInfoFromList`, `addPod`, `removePod`), what it does to the
pods of each node, to the node objects and to the generations; the operations are then
compositions of primitives, and `Inv` is carried through each. -/

namespace Caspr

/-- The parts of a pod that the cache reads and that the API server keeps for one UID: its node,
its containers (requests and host ports), its overhead and its affinity. -/
structure PodProfile where
  nodeName : String
  containers : List Container
  initContainers : List Container
  overhead : Option ResourceList
  affinity : Option Affinity

/-- The profile of a version of a pod. -/
def Pod.profile (p : Pod) : PodProfile :=
  ⟨p.nodeName, p.containers, p.initContainers, p.overhead, p.affinity⟩

theorem countP_hasKey_filter (k k' : String) (l : List Pod) :
    (l.filter fun x => !hasKey k x).countP (hasKey k') =
      if k' = k then 0 else l.countP (hasKey k') := by
  rw [List.countP_filter]
  split_ifs with hk
  · subst hk
    exact List.countP_eq_zero.mpr fun x _ => by cases hasKey k' x <;> simp
  · refine List.countP_congr fun x _ => ?_
    constructor
    · intro hx; simp only [Bool.and_eq_true] at hx; exact hx.1
    · intro hx
      have hne : k ≠ x.uid := fun e => hk (((hasKey_iff _ _).mp hx).2.symm.trans e.symm)
      simp [hx, hasKey_eq_false_of_ne hne]

namespace Cache

open List StepSystem

namespace SchedulerCache

variable (cfg : Config)

/-! ### The primitives, field by field -/

/-- The pods the cache holds on node `m`. -/
def podsOn (s : SchedulerCache) (m : String) : List Pod :=
  match s.nodes m with
  | some n => n.pods
  | none => []

section primitives

variable (s : SchedulerCache) (name : String)

@[simp] theorem moveNodeInfoToHead_nodes : (s.moveNodeInfoToHead name).nodes = s.nodes := by
  unfold moveNodeInfoToHead; split <;> [rfl; split <;> rfl]
@[simp] theorem moveNodeInfoToHead_podStates :
    (s.moveNodeInfoToHead name).podStates = s.podStates := by
  unfold moveNodeInfoToHead; split <;> [rfl; split <;> rfl]
@[simp] theorem moveNodeInfoToHead_assumedPods :
    (s.moveNodeInfoToHead name).assumedPods = s.assumedPods := by
  unfold moveNodeInfoToHead; split <;> [rfl; split <;> rfl]
@[simp] theorem moveNodeInfoToHead_generation :
    (s.moveNodeInfoToHead name).generation = s.generation := by
  unfold moveNodeInfoToHead; split <;> [rfl; split <;> rfl]
@[simp] theorem moveNodeInfoToHead_ttl : (s.moveNodeInfoToHead name).ttl = s.ttl := by
  unfold moveNodeInfoToHead; split <;> [rfl; split <;> rfl]

@[simp] theorem removeNodeInfoFromList_nodes :
    (s.removeNodeInfoFromList name).nodes = Function.update s.nodes name none := by
  unfold removeNodeInfoFromList
  split
  · rename_i h; rw [← h, Function.update_eq_self]
  · rfl
@[simp] theorem removeNodeInfoFromList_podStates :
    (s.removeNodeInfoFromList name).podStates = s.podStates := by
  unfold removeNodeInfoFromList; split <;> rfl
@[simp] theorem removeNodeInfoFromList_assumedPods :
    (s.removeNodeInfoFromList name).assumedPods = s.assumedPods := by
  unfold removeNodeInfoFromList; split <;> rfl
@[simp] theorem removeNodeInfoFromList_generation :
    (s.removeNodeInfoFromList name).generation = s.generation := by
  unfold removeNodeInfoFromList; split <;> rfl
@[simp] theorem removeNodeInfoFromList_ttl : (s.removeNodeInfoFromList name).ttl = s.ttl := by
  unfold removeNodeInfoFromList; split <;> rfl

@[simp] theorem setInfo_nodes (n : NodeInfo) :
    (s.setInfo name n).nodes = Function.update s.nodes name (some n) := rfl
@[simp] theorem setInfo_podStates (n : NodeInfo) : (s.setInfo name n).podStates = s.podStates := rfl
@[simp] theorem setInfo_assumedPods (n : NodeInfo) :
    (s.setInfo name n).assumedPods = s.assumedPods := rfl
@[simp] theorem setInfo_generation (n : NodeInfo) :
    (s.setInfo name n).generation = s.generation := rfl
@[simp] theorem setInfo_ttl (n : NodeInfo) : (s.setInfo name n).ttl = s.ttl := rfl

theorem foldl_imageStates_only {α β : Type} (π : β → SchedulerCache) (g : β → α → β)
    (hg : ∀ b x, ∃ is, π (g b x) = { π b with imageStates := is }) (l : List α) (b : β) :
    ∃ is, π (l.foldl g b) = { π b with imageStates := is } := by
  induction l generalizing b with
  | nil => exact ⟨(π b).imageStates, rfl⟩
  | cons x l ih =>
      obtain ⟨is₁, h₁⟩ := hg b x
      obtain ⟨is₂, h₂⟩ := ih (g b x)
      exact ⟨is₂, by rw [List.foldl_cons, h₂, h₁]⟩

theorem removeNodeImageStates_eq (o : Option Node) :
    ∃ is, s.removeNodeImageStates o = { s with imageStates := is } := by
  cases o with
  | none => exact ⟨s.imageStates, rfl⟩
  | some node =>
      refine foldl_imageStates_only id _ (fun c image => ?_) node.images s
      refine foldl_imageStates_only id _ (fun c name => ?_) image.names c
      unfold removeImageName
      split
      · dsimp only [id]
        split_ifs
        · exact ⟨_, rfl⟩
        · exact ⟨_, rfl⟩
      · exact ⟨c.imageStates, rfl⟩

theorem addNodeImageStates_eq (node : Node) :
    ∃ is, (s.addNodeImageStates node).1 = { s with imageStates := is } := by
  refine foldl_imageStates_only Prod.fst _ (fun acc image => ?_) node.images (s, ∅)
  refine foldl_imageStates_only Prod.fst _ (fun acc name => ?_) image.names acc
  obtain ⟨c, newSum⟩ := acc
  unfold addImageName
  dsimp only
  cases newSum.lookup name <;> exact ⟨_, rfl⟩

section images

variable (o : Option Node) (node : Node)

@[simp] theorem removeNodeImageStates_nodes : (s.removeNodeImageStates o).nodes = s.nodes := by
  obtain ⟨is, h⟩ := s.removeNodeImageStates_eq o; rw [h]
@[simp] theorem removeNodeImageStates_podStates :
    (s.removeNodeImageStates o).podStates = s.podStates := by
  obtain ⟨is, h⟩ := s.removeNodeImageStates_eq o; rw [h]
@[simp] theorem removeNodeImageStates_assumedPods :
    (s.removeNodeImageStates o).assumedPods = s.assumedPods := by
  obtain ⟨is, h⟩ := s.removeNodeImageStates_eq o; rw [h]
@[simp] theorem removeNodeImageStates_generation :
    (s.removeNodeImageStates o).generation = s.generation := by
  obtain ⟨is, h⟩ := s.removeNodeImageStates_eq o; rw [h]
@[simp] theorem removeNodeImageStates_ttl : (s.removeNodeImageStates o).ttl = s.ttl := by
  obtain ⟨is, h⟩ := s.removeNodeImageStates_eq o; rw [h]

@[simp] theorem addNodeImageStates_nodes : (s.addNodeImageStates node).1.nodes = s.nodes := by
  obtain ⟨is, h⟩ := s.addNodeImageStates_eq node; rw [h]
@[simp] theorem addNodeImageStates_podStates :
    (s.addNodeImageStates node).1.podStates = s.podStates := by
  obtain ⟨is, h⟩ := s.addNodeImageStates_eq node; rw [h]
@[simp] theorem addNodeImageStates_assumedPods :
    (s.addNodeImageStates node).1.assumedPods = s.assumedPods := by
  obtain ⟨is, h⟩ := s.addNodeImageStates_eq node; rw [h]
@[simp] theorem addNodeImageStates_generation :
    (s.addNodeImageStates node).1.generation = s.generation := by
  obtain ⟨is, h⟩ := s.addNodeImageStates_eq node; rw [h]
@[simp] theorem addNodeImageStates_ttl : (s.addNodeImageStates node).1.ttl = s.ttl := by
  obtain ⟨is, h⟩ := s.addNodeImageStates_eq node; rw [h]

end images

/-- The `NodeInfo` that `infoOrNew` returns: the stored one, or a fresh one. -/
def baseInfo : NodeInfo := (s.nodes name).getD (NodeInfo.NewNodeInfo (s.generation + 1))

theorem infoOrNew_snd : (s.infoOrNew name).2 = s.baseInfo name := by
  unfold infoOrNew baseInfo; split <;> simp_all [nextGeneration]

theorem infoOrNew_fst_nodes :
    (s.infoOrNew name).1.nodes = Function.update s.nodes name (some (s.baseInfo name)) := by
  unfold infoOrNew baseInfo
  split
  · rename_i n h; rw [h, Option.getD_some, ← h, Function.update_eq_self]
  · rename_i h; simp [nextGeneration, h]

@[simp] theorem infoOrNew_fst_podStates : (s.infoOrNew name).1.podStates = s.podStates := by
  unfold infoOrNew; split <;> rfl
@[simp] theorem infoOrNew_fst_assumedPods : (s.infoOrNew name).1.assumedPods = s.assumedPods := by
  unfold infoOrNew; split <;> rfl
@[simp] theorem infoOrNew_fst_ttl : (s.infoOrNew name).1.ttl = s.ttl := by
  unfold infoOrNew; split <;> rfl
theorem infoOrNew_fst_generation :
    (s.infoOrNew name).1.generation =
      if (s.nodes name).isSome then s.generation else s.generation + 1 := by
  unfold infoOrNew; split <;> simp_all [nextGeneration]

end primitives

section addPod

variable (s : SchedulerCache) (pod : Pod)

theorem addPod_eq : s.addPod cfg pod =
    ((s.infoOrNew pod.nodeName).1.nextGeneration.1.setInfo pod.nodeName
      ((s.infoOrNew pod.nodeName).2.addPod cfg pod
        (s.infoOrNew pod.nodeName).1.nextGeneration.2)).moveNodeInfoToHead pod.nodeName := rfl

theorem addPod_generation : (s.addPod cfg pod).generation =
    (if (s.nodes pod.nodeName).isSome then s.generation else s.generation + 1) + 1 := by
  rw [addPod_eq, ← infoOrNew_fst_generation]
  simp [nextGeneration]

theorem lt_addPod_generation : s.generation < (s.addPod cfg pod).generation := by
  rw [addPod_generation]; split_ifs <;> omega

theorem addPod_nodes : (s.addPod cfg pod).nodes = Function.update s.nodes pod.nodeName
    (some ((s.baseInfo pod.nodeName).addPod cfg pod (s.addPod cfg pod).generation)) := by
  have hg : (s.infoOrNew pod.nodeName).1.nextGeneration.2 = (s.addPod cfg pod).generation := by
    rw [addPod_eq]; simp [nextGeneration]
  rw [← hg, addPod_eq]
  simp [nextGeneration, infoOrNew_fst_nodes, infoOrNew_snd]

@[simp] theorem addPod_podStates : (s.addPod cfg pod).podStates = s.podStates := by
  rw [addPod_eq]; simp [nextGeneration]
@[simp] theorem addPod_assumedPods : (s.addPod cfg pod).assumedPods = s.assumedPods := by
  rw [addPod_eq]; simp [nextGeneration]

theorem addPod_congr {s' : SchedulerCache} (hn : s'.nodes = s.nodes)
    (hg : s'.generation = s.generation) :
    (s'.addPod cfg pod).nodes = (s.addPod cfg pod).nodes ∧
      (s'.addPod cfg pod).generation = (s.addPod cfg pod).generation := by
  have hgen : (s'.addPod cfg pod).generation = (s.addPod cfg pod).generation := by
    rw [addPod_generation, addPod_generation, hn, hg]
  refine ⟨?_, hgen⟩
  rw [addPod_nodes, addPod_nodes, hgen, baseInfo, baseInfo, hn, hg]

theorem podsOn_addPod (m : String) : (s.addPod cfg pod).podsOn m =
    if m = pod.nodeName then s.podsOn m ++ [pod] else s.podsOn m := by
  unfold podsOn
  rw [addPod_nodes]
  by_cases hm : m = pod.nodeName
  · subst hm
    simp only [Function.update_self, if_true, NodeInfo.addPod_pods, baseInfo]
    cases s.nodes pod.nodeName <;> rfl
  · simp only [Function.update_of_ne hm, if_neg hm]

end addPod

section storeRemoved

variable (s : SchedulerCache) (name : String) (n' : NodeInfo)

theorem storeRemoved_nodes : (s.storeRemoved name n').nodes = Function.update s.nodes name
    (if n'.pods = [] ∧ n'.node = none then none else some n') := by
  unfold storeRemoved; split_ifs <;> simp

@[simp] theorem storeRemoved_podStates : (s.storeRemoved name n').podStates = s.podStates := by
  unfold storeRemoved; split_ifs <;> simp
@[simp] theorem storeRemoved_assumedPods :
    (s.storeRemoved name n').assumedPods = s.assumedPods := by
  unfold storeRemoved; split_ifs <;> simp
@[simp] theorem storeRemoved_generation :
    (s.storeRemoved name n').generation = s.generation + 1 := by
  unfold storeRemoved; split_ifs <;> simp

theorem podsOn_storeRemoved (m : String) : (s.storeRemoved name n').podsOn m =
    if m = name then n'.pods else s.podsOn m := by
  unfold podsOn
  rw [storeRemoved_nodes]
  by_cases hm : m = name
  · subst hm
    simp only [Function.update_self, if_true]
    split_ifs with h
    · exact h.1.symm
    · rfl
  · simp only [Function.update_of_ne hm, if_neg hm]

end storeRemoved

end SchedulerCache

/-! ### What the API server guarantees, and what the cache keeps -/

section spec

variable (spec : String → PodProfile)

/-- A version of a pod as the API server delivers it: its profile is the one of its UID. -/
def PodOk (p : Pod) : Prop := p.profile = spec p.uid

/-- The calls whose pods are versions the API server delivered; `UpdatePod` pairs two versions
of one pod.  The other calls only look pods up by key. -/
def OpOk : CacheOp → Prop
  | .AssumePod pod => PodOk spec pod
  | .ForgetPod pod => PodOk spec pod
  | .AddPod pod => PodOk spec pod
  | .UpdatePod oldPod newPod => PodOk spec oldPod ∧ PodOk spec newPod ∧ oldPod.uid = newPod.uid
  | _ => True

variable {spec}

theorem PodOk.profile_eq {p q : Pod} (hp : PodOk spec p) (hq : PodOk spec q) (h : p.uid = q.uid) :
    p.profile = q.profile := by
  rw [hp, hq, h]

theorem PodOk.nodeName_eq {p q : Pod} (hp : PodOk spec p) (hq : PodOk spec q)
    (h : p.uid = q.uid) : p.nodeName = q.nodeName :=
  congrArg PodProfile.nodeName (hp.profile_eq hq h)

theorem PodOk.sameRequest (cfg : Config) {p q : Pod} (hp : PodOk spec p) (hq : PodOk spec q)
    (h : p.uid = q.uid) : NodeInfo.SameRequest cfg p q := by
  have hpq := hp.profile_eq hq h
  simp only [Pod.profile, PodProfile.mk.injEq] at hpq
  obtain ⟨-, hc, hi, ho, ha⟩ := hpq
  simp only [NodeInfo.SameRequest, calculateResource, podWithAffinity,
    podWithRequiredAntiAffinity, hc, hi, ho, ha, and_self]

end spec

/-- How many pods of key `k` node `m` should hold, by the pod states: one on the node of the
pod's state, none elsewhere. -/
def expected (podStates : String → Option PodState) (k m : String) : ℕ :=
  match podStates k with
  | some st => if st.pod.nodeName = m then 1 else 0
  | none => 0

@[simp] theorem expected_update_self (ps : String → Option PodState) (k m : String)
    (v : Option PodState) : expected (Function.update ps k v) k m =
      match v with
      | some st => if st.pod.nodeName = m then 1 else 0
      | none => 0 := by
  simp [expected]

@[simp] theorem expected_update_of_ne (ps : String → Option PodState) {k k' : String} (m : String)
    (v : Option PodState) (h : k' ≠ k) : expected (Function.update ps k v) k' m = expected ps k' m := by
  simp [expected, Function.update_of_ne h]

section invariant

variable (cfg : Config) (spec : String → PodProfile)

/-- What the invariant asks of the `NodeInfo` stored under name `m` when `g` is the last
generation drawn. -/
structure InfoOk (g : ℤ) (m : String) (n : NodeInfo) : Prop where
  kept : n.node ≠ none ∨ n.pods ≠ []
  aggregates : NodeInfo.Aggregates cfg n
  generation : n.generation ≤ g
  pods : ∀ p ∈ n.pods, p.uid ≠ "" ∧ PodOk spec p ∧ p.nodeName = m

/-- Every stored `NodeInfo` is as `InfoOk` asks. -/
def NodesOk (g : ℤ) (nodes : String → Option NodeInfo) : Prop :=
  ∀ m n, nodes m = some n → InfoOk cfg spec g m n

/-- The invariant of the cache. -/
structure Inv (s : SchedulerCache) : Prop where
  nodes : NodesOk cfg spec s.generation s.nodes
  count : ∀ k m, (s.podsOn m).countP (hasKey k) = expected s.podStates k m
  podStates : ∀ k st, s.podStates k = some st → st.pod.uid = k ∧ PodOk spec st.pod
  assumed : ∀ k ∈ s.assumedPods, ∃ st, s.podStates k = some st ∧
    (st.bindingFinished = true → st.deadline ≠ none)
  assumed_nodup : s.assumedPods.Nodup

end invariant

/-- Every `NodeInfo` that `s'` holds is one `s` held, or carries a generation drawn after `s`. -/
structure Fresh (s s' : SchedulerCache) : Prop where
  generation_le : s.generation ≤ s'.generation
  nodes : ∀ m n', s'.nodes m = some n' → s.nodes m = some n' ∨ s.generation < n'.generation

/-! ### The building blocks

Every operation is a composition of four changes, each of which keeps `Inv` and draws fresh
generations: a pod of an unknown key is stored and given a state (`Inv.addFresh`), a stored
pod is removed and its state dropped (`Inv.removePod_stored`), a state is replaced by one of the
same pod (`Inv.setState`), and the `NodeInfo` of a name is replaced keeping its pods
(`Inv.replaceInfo`).  Each takes the resulting cache by its fields. -/

section blocks

variable {cfg : Config} {spec : String → PodProfile}

theorem InfoOk.mono {g g' : ℤ} {m : String} {n : NodeInfo} (h : InfoOk cfg spec g m n)
    (hg : g ≤ g') : InfoOk cfg spec g' m n :=
  { h with generation := h.generation.trans hg }

theorem NodesOk.update {g g' : ℤ} {nodes : String → Option NodeInfo}
    (h : NodesOk cfg spec g nodes) (hg : g ≤ g') (name : String) {o : Option NodeInfo}
    (ho : ∀ n, o = some n → InfoOk cfg spec g' name n) :
    NodesOk cfg spec g' (Function.update nodes name o) := by
  intro m n hm
  by_cases hmn : m = name
  · subst hmn
    rw [Function.update_self] at hm
    exact ho n hm
  · rw [Function.update_of_ne hmn] at hm
    exact (h m n hm).mono hg

/-- The `NodeInfo` that `infoOrNew` returns has the aggregates of its pods, which are the pods
stored on the name. -/
theorem NodesOk.baseInfo {g : ℤ} {s : SchedulerCache} (h : NodesOk cfg spec g s.nodes)
    (m : String) :
    NodeInfo.Aggregates cfg (s.baseInfo m) ∧ (s.baseInfo m).pods = s.podsOn m ∧
      ∀ p ∈ (s.baseInfo m).pods, p.uid ≠ "" ∧ PodOk spec p ∧ p.nodeName = m := by
  unfold SchedulerCache.baseInfo SchedulerCache.podsOn
  cases hm : s.nodes m with
  | none => exact ⟨NodeInfo.aggregates_NewNodeInfo _, rfl, by simp⟩
  | some n => exact ⟨(h m n hm).aggregates, rfl, (h m n hm).pods⟩

theorem Fresh.refl (s : SchedulerCache) : Fresh s s := ⟨le_rfl, fun _ _ h => .inl h⟩

theorem Fresh.trans {s₁ s₂ s₃ : SchedulerCache} (h₁ : Fresh s₁ s₂) (h₂ : Fresh s₂ s₃) :
    Fresh s₁ s₃ where
  generation_le := h₁.generation_le.trans h₂.generation_le
  nodes m n h := by
    rcases h₂.nodes m n h with h' | h'
    · exact h₁.nodes m n h'
    · exact .inr (lt_of_le_of_lt h₁.generation_le h')

/-- Two changes in sequence: the invariant after the second, and fresh generations across
both. -/
theorem Fresh.trans_inv {s₁ s₂ s₃ : SchedulerCache} (h₁ : Fresh s₁ s₂)
    (h₂ : Inv cfg spec s₃ ∧ Fresh s₂ s₃) : Inv cfg spec s₃ ∧ Fresh s₁ s₃ :=
  ⟨h₂.1, h₁.trans h₂.2⟩

theorem Fresh.of_update {s t : SchedulerCache} {name : String} {o : Option NodeInfo}
    (hn : t.nodes = Function.update s.nodes name o) (hg : s.generation ≤ t.generation)
    (ho : ∀ n, o = some n → s.generation < n.generation) : Fresh s t where
  generation_le := hg
  nodes m n' hm := by
    rw [hn] at hm
    by_cases hmn : m = name
    · subst hmn
      rw [Function.update_self] at hm
      exact .inr (ho n' hm)
    · rw [Function.update_of_ne hmn] at hm
      exact .inl hm

theorem podsOn_of_nodes {s t : SchedulerCache} (hn : t.nodes = s.nodes) (m : String) :
    t.podsOn m = s.podsOn m := by
  unfold SchedulerCache.podsOn; rw [hn]

/-- A pod whose key has no state is stored on its node and given a state: `AssumePod`, and
`AddPod` of a pod the cache does not know. -/
theorem Inv.addFresh {s t : SchedulerCache} {pod : Pod} (h : Inv cfg spec s) (hk : pod.uid ≠ "")
    (hp : PodOk spec pod) (hnone : s.podStates pod.uid = none) (st : PodState)
    (hst : st.pod = pod) (hn : t.nodes = (s.addPod cfg pod).nodes)
    (hg : t.generation = (s.addPod cfg pod).generation)
    (hps : t.podStates = Function.update s.podStates pod.uid (some st))
    (ha : t.assumedPods = s.assumedPods ∨
      t.assumedPods = pod.uid :: s.assumedPods ∧ st.bindingFinished = false) :
    Inv cfg spec t ∧ Fresh s t := by
  have hlt := s.lt_addPod_generation cfg pod
  have hpods (m : String) :
      t.podsOn m = if m = pod.nodeName then s.podsOn m ++ [pod] else s.podsOn m := by
    rw [← SchedulerCache.podsOn_addPod]; exact podsOn_of_nodes hn m
  -- the keys that had a state are not the pod's
  have hother : ∀ k, s.podStates k ≠ none → k ≠ pod.uid := fun k hk' e => hk' (e ▸ hnone)
  refine ⟨⟨?nodes, ?count, ?podStates, ?assumed, ?nodup⟩, ?fresh⟩
  case nodes =>
    rw [hn, hg, SchedulerCache.addPod_nodes]
    refine h.nodes.update hlt.le _ fun n e => ?_
    cases e
    obtain ⟨hagg, -, hbase⟩ := h.nodes.baseInfo pod.nodeName
    refine ⟨.inr (by simp), hagg.addPod pod _, le_rfl, fun p hmem => ?_⟩
    rcases List.mem_append.mp hmem with hmem | hmem
    · exact hbase p hmem
    · rw [List.mem_singleton.mp hmem]; exact ⟨hk, hp, rfl⟩
  case count =>
    intro k m
    rw [hpods, hps]
    by_cases hkk : k = pod.uid
    · subst hkk
      have h0 : (s.podsOn m).countP (hasKey pod.uid) = 0 := by
        rw [h.count]; simp [expected, hnone]
      by_cases hm : m = pod.nodeName
      · subst hm; simp [h0, hst, hasKey_self hk]
      · simp [hm, h0, hst, Ne.symm hm]
    · rw [expected_update_of_ne _ _ _ hkk, ← h.count k m]
      split_ifs <;> simp [hasKey_eq_false_of_ne hkk]
  case podStates =>
    intro k st' hk'
    rw [hps] at hk'
    by_cases hkk : k = pod.uid
    · subst hkk
      rw [Function.update_self] at hk'
      cases hk'
      rw [hst]; exact ⟨rfl, hp⟩
    · rw [Function.update_of_ne hkk] at hk'
      exact h.podStates k st' hk'
  case assumed =>
    have hkeep : ∀ k ∈ s.assumedPods, ∃ st', t.podStates k = some st' ∧
        (st'.bindingFinished = true → st'.deadline ≠ none) := by
      intro k hk'
      obtain ⟨st', hs', hd⟩ := h.assumed k hk'
      refine ⟨st', ?_, hd⟩
      rw [hps, Function.update_of_ne (hother k (by simp [hs']))]
      exact hs'
    intro k hk'
    rcases ha with ha | ⟨ha, hfin⟩
    · rw [ha] at hk'; exact hkeep k hk'
    · rw [ha] at hk'
      rcases List.mem_cons.mp hk' with rfl | hk'
      · exact ⟨st, by rw [hps, Function.update_self], by simp [hfin]⟩
      · exact hkeep k hk'
  case nodup =>
    rcases ha with ha | ⟨ha, -⟩
    · rw [ha]; exact h.assumed_nodup
    · rw [ha]
      refine List.nodup_cons.mpr ⟨fun hmem => ?_, h.assumed_nodup⟩
      obtain ⟨st', hs', -⟩ := h.assumed _ hmem
      rw [hnone] at hs'
      cases hs'
  case fresh =>
    refine Fresh.of_update (hn.trans (s.addPod_nodes cfg pod)) (by rw [hg]; exact hlt.le) ?_
    intro n e
    cases e
    exact hlt

/-- Removing a version of a pod whose key has a state: the cache holds the pod on its node, so
`NodeInfo.RemovePod` finds it, and `removePod` ends in `storeRemoved` with the node's pods less
that key. -/
theorem Inv.removePod_found {s : SchedulerCache} {k : String} {st : PodState} {p : Pod}
    (h : Inv cfg spec s) (hst : s.podStates k = some st) (hp : PodOk spec p) (hpk : p.uid = k)
    (hnode : p.nodeName = st.pod.nodeName) :
    ∃ n n', s.nodes p.nodeName = some n ∧
      s.removePod cfg p = .ok (s.storeRemoved p.nodeName n', none) ∧
      n'.pods ~ n.pods.filter (fun x => !hasKey k x) ∧
      n'.generation = s.generation + 1 ∧ NodeInfo.Aggregates cfg n' := by
  have hcount : (s.podsOn p.nodeName).countP (hasKey k) = 1 := by
    rw [h.count]; simp [expected, hst, hnode]
  obtain ⟨n, hn⟩ : ∃ n, s.nodes p.nodeName = some n := by
    cases hn : s.nodes p.nodeName with
    | none => simp [SchedulerCache.podsOn, hn] at hcount
    | some n => exact ⟨n, rfl⟩
  simp only [SchedulerCache.podsOn, hn] at hcount
  obtain ⟨b, hb, hkb⟩ := List.countP_pos_iff.mp (by omega : 0 < n.pods.countP (hasKey k))
  have hbk := (hasKey_iff _ _).mp hkb
  subst hpk
  obtain ⟨i, hres, hi⟩ :=
    NodeInfo.removePod_of_mem cfg (g := s.generation + 1) (hbk.2 ▸ hbk.1) ⟨b, hb, hkb⟩
  have hinfo := h.nodes _ n hn
  refine ⟨n, (n.pruneAffinity p p.uid).removeAt cfg p i (s.generation + 1), hn, ?_,
    Go.swapRemove_perm_filter _ _ hcount.le hi, rfl, ?_⟩
  · simp [SchedulerCache.removePod, hn, hres, bind, Except.bind]
  · refine NodeInfo.Aggregates.removePod hinfo.aggregates hcount.le (fun b hb hkb => ?_) hres
    exact (hinfo.pods b hb).2.1.sameRequest cfg hp ((hasKey_iff _ _).mp hkb).2

/-- A stored pod of key `k` is removed from its node and its state dropped: `ForgetPod`,
`RemovePod` and expiry. -/
theorem Inv.dropStored {s t : SchedulerCache} {k name : String} {st : PodState}
    {n n' : NodeInfo} (h : Inv cfg spec s) (hst : s.podStates k = some st)
    (hname : st.pod.nodeName = name) (hn : s.nodes name = some n)
    (hpods : n'.pods ~ n.pods.filter (fun x => !hasKey k x))
    (hgen : n'.generation = s.generation + 1) (hagg : NodeInfo.Aggregates cfg n')
    (htn : t.nodes = (s.storeRemoved name n').nodes) (htg : t.generation = s.generation + 1)
    (hps : t.podStates = Function.update s.podStates k none)
    (ha : t.assumedPods = s.assumedPods.erase k) :
    Inv cfg spec t ∧ Fresh s t := by
  have hinfo := h.nodes name n hn
  have hsub : ∀ p ∈ n'.pods, p ∈ n.pods := fun p hp => List.mem_of_mem_filter (hpods.subset hp)
  have hpodsOn (m : String) : t.podsOn m = if m = name then n'.pods else s.podsOn m := by
    rw [← SchedulerCache.podsOn_storeRemoved]; exact podsOn_of_nodes htn m
  refine ⟨⟨?nodes, ?count, ?podStates, ?assumed, ?nodup⟩, ?fresh⟩
  case nodes =>
    rw [htn, htg, SchedulerCache.storeRemoved_nodes]
    refine h.nodes.update (by omega) name fun n₀ e => ?_
    by_cases hempty : n'.pods = [] ∧ n'.node = none
    · rw [if_pos hempty] at e; cases e
    · rw [if_neg hempty] at e
      cases e
      refine ⟨?_, hagg, by omega, fun p hp => hinfo.pods p (hsub p hp)⟩
      by_cases hnn : n'.node = none
      · exact .inr fun he => hempty ⟨he, hnn⟩
      · exact .inl hnn
  case count =>
    intro k' m
    rw [hpodsOn, hps]
    by_cases hm : m = name
    · rw [if_pos hm, hpods.countP_eq, countP_hasKey_filter]
      by_cases hkk : k' = k
      · subst hkk; simp
      · have hnpods : s.podsOn m = n.pods := by rw [hm]; simp [SchedulerCache.podsOn, hn]
        rw [if_neg hkk, expected_update_of_ne _ _ _ hkk, ← hnpods, h.count]
    · rw [if_neg hm]
      by_cases hkk : k' = k
      · subst hkk
        rw [h.count]
        simp [expected, hst, hname, Ne.symm hm]
      · rw [expected_update_of_ne _ _ _ hkk, h.count]
  case podStates =>
    intro k' st' hk'
    rw [hps] at hk'
    by_cases hkk : k' = k
    · subst hkk; rw [Function.update_self] at hk'; cases hk'
    · rw [Function.update_of_ne hkk] at hk'; exact h.podStates k' st' hk'
  case assumed =>
    intro k' hk'
    rw [ha] at hk'
    obtain ⟨hne, hmem⟩ := (List.Nodup.mem_erase_iff h.assumed_nodup).mp hk'
    rw [hps, Function.update_of_ne hne]
    exact h.assumed k' hmem
  case nodup =>
    rw [ha]; exact h.assumed_nodup.erase k
  case fresh =>
    refine Fresh.of_update (htn.trans (s.storeRemoved_nodes name n')) (by omega) fun n₀ e => ?_
    by_cases hempty : n'.pods = [] ∧ n'.node = none
    · rw [if_pos hempty] at e; cases e
    · rw [if_neg hempty] at e; cases e; omega

/-- A version `p` of a pod whose key `k` has a state is removed, and the invariant holds once the
state is dropped, whatever the caller then sets the other fields to. -/
theorem Inv.removePod_stored {s : SchedulerCache} {k : String} {st : PodState} {p : Pod}
    (h : Inv cfg spec s) (hst : s.podStates k = some st) (hp : PodOk spec p) (hpk : p.uid = k)
    (hnode : p.nodeName = st.pod.nodeName) :
    ∃ s₁, s.removePod cfg p = .ok (s₁, none) ∧ s₁.podStates = s.podStates ∧
      s₁.assumedPods = s.assumedPods ∧
      ∀ t : SchedulerCache, t.nodes = s₁.nodes → t.generation = s₁.generation →
        t.podStates = Function.update s.podStates k none →
        t.assumedPods = s.assumedPods.erase k → Inv cfg spec t ∧ Fresh s t := by
  obtain ⟨n, n', hn, hrem, hpods, hgen, hagg⟩ := h.removePod_found hst hp hpk hnode
  refine ⟨_, hrem, by simp, by simp, fun t htn htg hps ha => ?_⟩
  exact h.dropStored hst hnode.symm hn hpods hgen hagg htn (by simp [htg]) hps ha

/-- The state of a key is replaced by one of the same pod or of another version of it, the
nodes untouched: `finishBinding`, and `AddPod` of an assumed pod. -/
theorem Inv.setState {s t : SchedulerCache} {k : String} {st : PodState}
    (h : Inv cfg spec s) (hst : s.podStates k = some st) (st' : PodState) (huid : st'.pod.uid = k)
    (hp : PodOk spec st'.pod) (hnode : st'.pod.nodeName = st.pod.nodeName)
    (hn : t.nodes = s.nodes) (hg : t.generation = s.generation)
    (hps : t.podStates = Function.update s.podStates k (some st'))
    (ha : t.assumedPods = s.assumedPods ∧ (st'.bindingFinished = true → st'.deadline ≠ none) ∨
      t.assumedPods = s.assumedPods.erase k) :
    Inv cfg spec t ∧ Fresh s t := by
  refine ⟨⟨?nodes, ?count, ?podStates, ?assumed, ?nodup⟩, ⟨hg.ge, fun m n' hm => .inl (hn ▸ hm)⟩⟩
  case nodes => rw [hn, hg]; exact h.nodes
  case count =>
    intro k' m
    rw [podsOn_of_nodes hn, hps, h.count]
    by_cases hkk : k' = k
    · subst hkk; simp [expected, hst, hnode]
    · rw [expected_update_of_ne _ _ _ hkk]
  case podStates =>
    intro k' st'' hk'
    rw [hps] at hk'
    by_cases hkk : k' = k
    · subst hkk
      rw [Function.update_self] at hk'
      cases hk'
      exact ⟨huid, hp⟩
    · rw [Function.update_of_ne hkk] at hk'; exact h.podStates k' st'' hk'
  case assumed =>
    intro k' hk'
    rw [hps]
    rcases ha with ⟨ha, hfin⟩ | ha
    · rw [ha] at hk'
      by_cases hkk : k' = k
      · subst hkk; exact ⟨st', Function.update_self .., hfin⟩
      · rw [Function.update_of_ne hkk]; exact h.assumed k' hk'
    · rw [ha] at hk'
      obtain ⟨hne, hmem⟩ := (List.Nodup.mem_erase_iff h.assumed_nodup).mp hk'
      rw [Function.update_of_ne hne]
      exact h.assumed k' hmem
  case nodup =>
    rcases ha with ⟨ha, -⟩ | ha
    · rw [ha]; exact h.assumed_nodup
    · rw [ha]; exact h.assumed_nodup.erase k

/-- The `NodeInfo` of one name is replaced by one with the same pods and a fresh generation, or
dropped when it has no pods: `AddNode`, `UpdateNode`, `RemoveNode`. -/
theorem Inv.replaceInfo {s t : SchedulerCache} {name : String} {o : Option NodeInfo}
    (h : Inv cfg spec s) (hn : t.nodes = Function.update s.nodes name o)
    (hg : s.generation ≤ t.generation) (hps : t.podStates = s.podStates)
    (ha : t.assumedPods = s.assumedPods)
    (hsome : ∀ n', o = some n' → InfoOk cfg spec t.generation name n' ∧
      n'.pods = s.podsOn name ∧ s.generation < n'.generation)
    (hnone : o = none → s.podsOn name = []) :
    Inv cfg spec t ∧ Fresh s t := by
  have hpodsOn (m : String) : t.podsOn m = s.podsOn m := by
    unfold SchedulerCache.podsOn
    rw [hn]
    by_cases hm : m = name
    · subst hm
      rw [Function.update_self]
      cases ho : o with
      | none => simpa [SchedulerCache.podsOn] using (hnone ho).symm
      | some n' => simpa [SchedulerCache.podsOn] using (hsome n' ho).2.1
    · rw [Function.update_of_ne hm]
  refine ⟨⟨?nodes, ?count, ?podStates, ?assumed, ?nodup⟩,
    Fresh.of_update hn hg fun n' e => (hsome n' e).2.2⟩
  case nodes => rw [hn]; exact h.nodes.update hg name fun n' e => (hsome n' e).1
  case count => intro k m; rw [hpodsOn, hps]; exact h.count k m
  case podStates => rw [hps]; exact h.podStates
  case assumed => rw [ha, hps]; exact h.assumed
  case nodup => rw [ha]; exact h.assumed_nodup

end blocks

end Cache

end Caspr
