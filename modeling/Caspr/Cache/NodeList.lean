import Caspr.Cache.Steps
import Caspr.Cache.Snapshot
import Caspr.Lib.LinkedList

/-! # The list of `NodeInfo`s (cache.go)

The cache links its `NodeInfo` items into a doubly linked list, most recently updated first,
which `UpdateSnapshot` walks from `headNode` until it meets an item not newer than the snapshot.
The cache holds the links of the items (`links`) and, beside them, the list of names they are
meant to hold from the head (`headNode`), which the rest of the model reads.

`ListOk` is the invariant of the list: its names are distinct, they are the names of `nodes`,
the generations decrease strictly along it, and the links represent it.  Every call keeps it
(`ListOk.step`), whatever its pods, because every call that changes a `NodeInfo` gives it a
generation above all others and moves its item to the head, a new item linked to nothing or one
already in the list, or deletes it and unlinks it: `ListOk.touch` and `ListOk.drop` state this
once, over the fields a call leaves.  So in every reachable cache following `next` from the head
visits every `NodeInfo` once, newest first, `prev` is the inverse of `next`, and the walk of
`UpdateSnapshot` that stops at the first item not newer than the snapshot visits exactly the
`NodeInfo`s newer than it (`reachable_nodeInfo_list`). -/

namespace Caspr

namespace Cache

open List StepSystem DList

namespace SchedulerCache

section links

variable (s : SchedulerCache) (name : String)

theorem moveNodeInfoToHead_headNode : (s.moveNodeInfoToHead name).headNode =
    if (s.nodes name).isSome ∧ s.links.head ≠ some name then name :: s.headNode.erase name
    else s.headNode := by
  unfold moveNodeInfoToHead
  cases hn : s.nodes name with
  | none => simp
  | some n =>
      by_cases hh : s.links.head = some name
      · simp [hh]
      · simp [hh]

theorem moveNodeInfoToHead_links : (s.moveNodeInfoToHead name).links =
    if (s.nodes name).isSome then s.links.moveToHead name else s.links := by
  unfold moveNodeInfoToHead DList.Links.moveToHead
  cases hn : s.nodes name with
  | none => simp
  | some n =>
      by_cases hh : s.links.head = some name
      · simp [hh]
      · simp [hh]

theorem removeNodeInfoFromList_headNode : (s.removeNodeInfoFromList name).headNode =
    if (s.nodes name).isSome then s.headNode.erase name else s.headNode := by
  unfold removeNodeInfoFromList
  cases hn : s.nodes name <;> simp

theorem removeNodeInfoFromList_links : (s.removeNodeInfoFromList name).links =
    if (s.nodes name).isSome then s.links.removeFrom name else s.links := by
  unfold removeNodeInfoFromList
  cases hn : s.nodes name <;> simp

@[simp] theorem setInfo_headNode (n : NodeInfo) : (s.setInfo name n).headNode = s.headNode := rfl
@[simp] theorem setInfo_links (n : NodeInfo) : (s.setInfo name n).links = s.links := rfl
@[simp] theorem nextGeneration_headNode : s.nextGeneration.1.headNode = s.headNode := rfl
@[simp] theorem nextGeneration_links : s.nextGeneration.1.links = s.links := rfl

@[simp] theorem infoOrNew_fst_headNode : (s.infoOrNew name).1.headNode = s.headNode := by
  unfold infoOrNew
  split <;> rfl

theorem infoOrNew_fst_links : (s.infoOrNew name).1.links =
    if (s.nodes name).isSome then s.links else s.links.fresh name := by
  unfold infoOrNew
  split <;> simp_all

@[simp] theorem infoOrNew_fst_links_head : (s.infoOrNew name).1.links.head = s.links.head := by
  rw [infoOrNew_fst_links]
  split <;> rfl

@[simp] theorem removeNodeImageStates_headNode (o : Option Node) :
    (s.removeNodeImageStates o).headNode = s.headNode := by
  obtain ⟨is, h⟩ := s.removeNodeImageStates_eq o
  rw [h]

@[simp] theorem removeNodeImageStates_links (o : Option Node) :
    (s.removeNodeImageStates o).links = s.links := by
  obtain ⟨is, h⟩ := s.removeNodeImageStates_eq o
  rw [h]

@[simp] theorem addNodeImageStates_headNode (node : Node) :
    (s.addNodeImageStates node).1.headNode = s.headNode := by
  obtain ⟨is, h⟩ := s.addNodeImageStates_eq node
  rw [h]

@[simp] theorem addNodeImageStates_links (node : Node) :
    (s.addNodeImageStates node).1.links = s.links := by
  obtain ⟨is, h⟩ := s.addNodeImageStates_eq node
  rw [h]

end links

end SchedulerCache

/-! ### The invariant of the list -/

/-- Along the list, each `NodeInfo` is newer than the ones after it. -/
def Newer (s : SchedulerCache) (a b : String) : Prop :=
  ∀ na nb, s.nodes a = some na → s.nodes b = some nb → nb.generation < na.generation

/-- The list links every `NodeInfo` once, newest first, and no `NodeInfo` has a generation above
the last one drawn. -/
structure ListOk (s : SchedulerCache) : Prop where
  nodup : s.headNode.Nodup
  mem : ∀ m, m ∈ s.headNode ↔ (s.nodes m).isSome
  sorted : s.headNode.Pairwise (Newer s)
  generation : ∀ m n, s.nodes m = some n → n.generation ≤ s.generation
  links : s.links.Represents s.headNode

section listOk

variable {s r : SchedulerCache}

theorem listOk_newSchedulerCache (ttl : ℤ) : ListOk (newSchedulerCache ttl) where
  nodup := nodup_nil
  mem _ := by simp [newSchedulerCache]
  sorted := Pairwise.nil
  generation _ _ h := by cases h
  links := ⟨⟨fun _ h => absurd h not_mem_nil, fun _ h => absurd h not_mem_nil⟩, rfl⟩

theorem ListOk.of_eq (h : ListOk s) (hn : r.nodes = s.nodes) (hl : r.headNode = s.headNode)
    (hL : r.links = s.links) (hg : s.generation ≤ r.generation) : ListOk r where
  nodup := hl ▸ h.nodup
  mem m := by rw [hl, hn]; exact h.mem m
  sorted := by
    rw [hl]
    exact h.sorted.imp fun hab na nb ha hb => hab na nb (hn ▸ ha) (hn ▸ hb)
  generation m n hm := (h.generation m n (hn ▸ hm)).trans hg
  links := hl ▸ hL ▸ h.links

/-- The names of a part of the list other than `name` are still in order once the `NodeInfo` of
`name` changes. -/
theorem ListOk.sorted_of_sublist (h : ListOk s) {name : String} {o : Option NodeInfo}
    (hn : r.nodes = Function.update s.nodes name o) {l : List String} (hl : l.Sublist s.headNode)
    (hname : name ∉ l) : l.Pairwise (Newer r) := by
  refine (h.sorted.sublist hl).imp_of_mem fun {a b} ha hb hab na nb hna hnb => hab na nb ?_ ?_
  · rwa [hn, Function.update_of_ne (fun e : a = name => hname (e ▸ ha))] at hna
  · rwa [hn, Function.update_of_ne (fun e : b = name => hname (e ▸ hb))] at hnb

theorem moveToFront_eq {l l' : List String} {name : String}
    (h : (if l.head? ≠ some name then name :: l.erase name else l) = l') :
    l' = name :: l.erase name := by
  split_ifs at h with hh
  · exact h.symm
  · obtain ⟨rest, rfl⟩ := head?_eq_some_iff.mp (not_not.mp hh)
    rw [← h, erase_cons_head]

/-- **A `NodeInfo` with a new generation, moved to the head.**  Every call that changes a
`NodeInfo` and keeps it ends so: the list is in order again, whatever happened in between. -/
theorem ListOk.touch (h : ListOk s) (name : String) (n : NodeInfo)
    (hn : r.nodes = Function.update s.nodes name (some n)) (hlt : s.generation < n.generation)
    (hle : n.generation ≤ r.generation)
    (hl : r.headNode = if s.links.head ≠ some name then name :: s.headNode.erase name
      else s.headNode)
    (hL : r.links = (if (s.nodes name).isSome then s.links else s.links.fresh name).moveToHead name) :
    ListOk r := by
  have hr : ∀ m, r.nodes m = if m = name then some n else s.nodes m := fun m => by
    rw [hn, Function.update_apply]
  rw [h.links.head] at hl
  have hl' : r.headNode = name :: s.headNode.erase name := moveToFront_eq hl.symm
  have hnot : name ∉ s.headNode.erase name := h.nodup.not_mem_erase
  refine ⟨?_, fun m => ?_, ?_, fun m nm hm => ?_, ?_⟩
  · rw [hl']
    exact nodup_cons.mpr ⟨hnot, h.nodup.erase name⟩
  · rw [hl', mem_cons, h.nodup.mem_erase_iff, hr]
    by_cases hmn : m = name
    · simp [hmn]
    · simp [hmn, h.mem m]
  · rw [hl']
    refine pairwise_cons.mpr ⟨fun m hm na nm hna hnm => ?_,
      h.sorted_of_sublist hn erase_sublist hnot⟩
    rw [hr, if_pos rfl] at hna
    rw [hr, if_neg (fun e : m = name => hnot (e ▸ hm))] at hnm
    cases hna
    exact lt_of_le_of_lt (h.generation m nm hnm) hlt
  · rw [hr] at hm
    split_ifs at hm
    · cases hm
      exact hle
    · exact ((h.generation m nm hm).trans hlt.le).trans hle
  · rw [hl', hL]
    split_ifs with hs
    · exact h.links.moveToHead h.nodup (.inl ((h.mem name).mpr hs))
    · have hname : name ∉ s.headNode := fun hm => hs ((h.mem name).mp hm)
      exact (h.links.fresh hname).moveToHead h.nodup (.inr Links.fresh_detached)

/-- **A `NodeInfo` deleted and unlinked.** -/
theorem ListOk.drop (h : ListOk s) (name : String) (hs : (s.nodes name).isSome)
    (hn : r.nodes = Function.update s.nodes name none) (hg : s.generation ≤ r.generation)
    (hl : r.headNode = s.headNode.erase name) (hL : r.links = s.links.removeFrom name) :
    ListOk r := by
  have hr : ∀ m, r.nodes m = if m = name then none else s.nodes m := fun m => by
    rw [hn, Function.update_apply]
  refine ⟨hl ▸ h.nodup.erase name, fun m => ?_, hl ▸ h.sorted_of_sublist hn erase_sublist
    h.nodup.not_mem_erase, fun m nm hm => ?_, ?_⟩
  · rw [hl, h.nodup.mem_erase_iff, hr, h.mem m]
    by_cases hmn : m = name <;> simp [hmn]
  · rw [hr] at hm
    split_ifs at hm
    exact (h.generation m nm hm).trans hg
  · rw [hl, hL]
    exact h.links.removeFrom h.nodup ((h.mem name).mpr hs)

/-- **A `NodeInfo` replaced by one of the same generation, in place.** -/
theorem ListOk.replace (h : ListOk s) {name : String} {n n' : NodeInfo} (hs : s.nodes name = some n)
    (hn : r.nodes = Function.update s.nodes name (some n')) (hgen : n'.generation = n.generation)
    (hl : r.headNode = s.headNode) (hL : r.links = s.links) (hg : s.generation ≤ r.generation) :
    ListOk r := by
  have hr : ∀ m nm, r.nodes m = some nm → ∃ nm', s.nodes m = some nm' ∧ nm.generation = nm'.generation := by
    intro m nm hm
    rw [hn, Function.update_apply] at hm
    split_ifs at hm with hmn
    · cases hm
      exact ⟨n, hmn ▸ hs, hgen⟩
    · exact ⟨nm, hm, rfl⟩
  refine ⟨hl ▸ h.nodup, fun m => ?_, ?_, fun m nm hm => ?_, hl ▸ hL ▸ h.links⟩
  · rw [hl, h.mem m, hn, Function.update_apply]
    split_ifs with hmn
    · simp [hmn, hs]
    · rfl
  · rw [hl]
    refine h.sorted.imp fun hab na nb ha hb => ?_
    obtain ⟨na', ha', hna⟩ := hr _ na ha
    obtain ⟨nb', hb', hnb⟩ := hr _ nb hb
    rw [hna, hnb]
    exact hab na' nb' ha' hb'
  · obtain ⟨nm', hm', hnm⟩ := hr m nm hm
    exact hnm ▸ (h.generation m nm' hm').trans hg

end listOk

/-! ### Every call keeps the list in order -/

theorem NodeInfo.removePod_generation_of_some {cfg : Config} {n n' : NodeInfo} {pod : Pod} {g : ℤ}
    {e : String} (hr : n.removePod cfg pod g = .ok (n', some e)) : n'.generation = n.generation := by
  unfold NodeInfo.removePod at hr
  split at hr
  · cases hr
    rfl
  · dsimp only at hr
    split at hr
    · cases hr
    · split at hr
      · cases hr
        rfl
      · cases hr

section calls

variable (cfg : Config) {s s' : SchedulerCache} {err : Option String}

theorem ListOk.addPod (h : ListOk s) (pod : Pod) : ListOk (s.addPod cfg pod) := by
  refine h.touch _ _ (SchedulerCache.addPod_nodes cfg s pod) ?_ (by simp) ?_ ?_
  · simpa using SchedulerCache.lt_addPod_generation cfg s pod
  · rw [SchedulerCache.addPod_eq, SchedulerCache.moveNodeInfoToHead_headNode]
    simp
  · rw [SchedulerCache.addPod_eq, SchedulerCache.moveNodeInfoToHead_links]
    simp [SchedulerCache.infoOrNew_fst_links]

theorem ListOk.storeRemoved (h : ListOk s) (name : String) {n' : NodeInfo}
    (hs : (s.nodes name).isSome) (hgen : n'.generation = s.generation + 1) :
    ListOk (s.storeRemoved name n') := by
  unfold SchedulerCache.storeRemoved
  split_ifs
  · exact h.drop name hs (by simp) (by simp) (by simp [SchedulerCache.removeNodeInfoFromList_headNode])
      (by simp [SchedulerCache.removeNodeInfoFromList_links])
  · exact h.touch name n' (by simp) (by omega) (by simp [hgen])
      (by simp [SchedulerCache.moveNodeInfoToHead_headNode])
      (by simp [SchedulerCache.moveNodeInfoToHead_links, hs])

theorem ListOk.removePod (h : ListOk s) {pod : Pod} (hr : s.removePod cfg pod = .ok (s', err)) :
    ListOk s' := by
  unfold SchedulerCache.removePod at hr
  cases hn : s.nodes pod.nodeName with
  | none =>
      rw [hn] at hr
      cases hr
      exact h
  | some n =>
      rw [hn] at hr
      obtain ⟨⟨n', e⟩, hrem, hr⟩ := bind_eq_ok.mp hr
      cases e with
      | some e =>
          cases hr
          exact h.replace hn (by simp) (NodeInfo.removePod_generation_of_some hrem) rfl rfl le_rfl
      | none =>
          cases hr
          obtain ⟨-, i, -, rfl⟩ := NodeInfo.removePod_eq_ok_none cfg hrem
          exact h.storeRemoved _ (by simp [hn]) (by simp)

theorem ListOk.updatePod (h : ListOk s) {oldPod newPod : Pod}
    (hr : s.updatePod cfg oldPod newPod = .ok (s', err)) : ListOk s' := by
  unfold SchedulerCache.updatePod at hr
  obtain ⟨⟨c, e⟩, hrem, hr⟩ := bind_eq_ok.mp hr
  have hc := h.removePod cfg hrem
  cases e with
  | some e =>
      cases hr
      exact hc
  | none =>
      cases hr
      exact hc.addPod cfg newPod

theorem ListOk.podFields (h : ListOk s) (podStates : String → Option PodState)
    (assumedPods : List String) :
    ListOk { s with podStates := podStates, assumedPods := assumedPods } :=
  h.of_eq rfl rfl rfl le_rfl

theorem ListOk.AssumePod (h : ListOk s) {pod : Pod} (hr : s.AssumePod cfg pod = .ok (s', err)) :
    ListOk s' := by
  unfold SchedulerCache.AssumePod at hr
  split at hr
  · cases hr
    exact h
  · split at hr
    · cases hr
      exact h
    · cases hr
      exact (h.addPod cfg pod).podFields _ _

theorem ListOk.finishBinding (h : ListOk s) {pod : Pod} {now : ℤ}
    (hr : s.finishBinding pod now = .ok (s', err)) : ListOk s' := by
  unfold SchedulerCache.finishBinding at hr
  split at hr
  · cases hr
    exact h
  · split at hr
    · split_ifs at hr
      · cases hr
        exact h.podFields _ _
      · cases hr
        exact h
    · cases hr
      exact h

theorem ListOk.ForgetPod (h : ListOk s) {pod : Pod} (hr : s.ForgetPod cfg pod = .ok (s', err)) :
    ListOk s' := by
  unfold SchedulerCache.ForgetPod at hr
  split at hr
  · cases hr
    exact h
  · split at hr
    · split_ifs at hr
      · cases hr
        exact h
      · obtain ⟨⟨c, e⟩, hrem, hr⟩ := bind_eq_ok.mp hr
        have hc := h.removePod cfg hrem
        cases e <;> cases hr
        · exact hc.podFields _ _
        · exact hc
      · cases hr
        exact h
    · cases hr
      exact h

theorem ListOk.AddPod (h : ListOk s) {pod : Pod} (hr : s.AddPod cfg pod = .ok (s', err)) :
    ListOk s' := by
  unfold SchedulerCache.AddPod at hr
  split at hr
  · cases hr
    exact h
  · split at hr
    · split_ifs at hr
      · obtain ⟨⟨c, e⟩, hrem, hr⟩ := bind_eq_ok.mp hr
        simp only [pure_bind] at hr
        cases hr
        exact ((h.removePod cfg hrem).addPod cfg pod).podFields _ _
      · cases hr
        exact h.podFields _ _
      · cases hr
        exact h
    · cases hr
      exact (h.addPod cfg pod).of_eq rfl rfl rfl le_rfl

theorem ListOk.UpdatePod (h : ListOk s) {oldPod newPod : Pod}
    (hr : s.UpdatePod cfg oldPod newPod = .ok (s', err)) : ListOk s' := by
  unfold SchedulerCache.UpdatePod at hr
  split at hr
  · cases hr
    exact h
  · split at hr
    · split_ifs at hr
      · cases hr
        exact h
      · obtain ⟨⟨c, e⟩, hupd, hr⟩ := bind_eq_ok.mp hr
        have hc := h.updatePod cfg hupd
        cases e <;> cases hr
        · exact hc.of_eq rfl rfl rfl le_rfl
        · exact hc
    · cases hr
      exact h

theorem ListOk.RemovePod (h : ListOk s) {pod : Pod} (hr : s.RemovePod cfg pod = .ok (s', err)) :
    ListOk s' := by
  unfold SchedulerCache.RemovePod at hr
  split at hr
  · cases hr
    exact h
  · dsimp only at hr
    split at hr
    · split_ifs at hr
      · cases hr
        exact h
      · obtain ⟨⟨c, e⟩, hrem, hr⟩ := bind_eq_ok.mp hr
        have hc := h.removePod cfg hrem
        cases e <;> cases hr
        · exact hc.of_eq rfl rfl rfl le_rfl
        · exact hc
    · cases hr
      exact h

theorem ListOk.AddNode (h : ListOk s) {node : Node} (hr : s.AddNode cfg node = .ok (s', err)) :
    ListOk s' := by
  rw [AddNode_eq] at hr
  cases hr
  have hgen := SchedulerCache.infoOrNew_fst_generation s node.name
  refine h.touch node.name _ (by simp [SchedulerCache.nextGeneration,
      SchedulerCache.infoOrNew_fst_nodes]; rfl) ?_ (by simp [SchedulerCache.nextGeneration]) ?_ ?_
  · rw [NodeInfo.setNode_generation, hgen]
    split_ifs <;> omega
  · simp [SchedulerCache.moveNodeInfoToHead_headNode, SchedulerCache.infoOrNew_fst_nodes,
      SchedulerCache.nextGeneration]
  · simp [SchedulerCache.moveNodeInfoToHead_links, SchedulerCache.infoOrNew_fst_nodes,
      SchedulerCache.infoOrNew_fst_links, SchedulerCache.nextGeneration]

theorem ListOk.UpdateNode (h : ListOk s) {oldNode newNode : Node}
    (hr : s.UpdateNode cfg oldNode newNode = .ok (s', err)) : ListOk s' := by
  cases hn : s.nodes newNode.name with
  | some n =>
      rw [UpdateNode_eq_of_some hn] at hr
      cases hr
      refine h.touch newNode.name _ (by simp [SchedulerCache.nextGeneration]; rfl)
        (by simp) (by simp [SchedulerCache.nextGeneration]) ?_ ?_
      · simp [SchedulerCache.moveNodeInfoToHead_headNode, SchedulerCache.nextGeneration, hn]
      · simp [SchedulerCache.moveNodeInfoToHead_links, SchedulerCache.nextGeneration, hn]
  | none =>
      rw [UpdateNode_eq_of_none hn] at hr
      cases hr
      have hgen := SchedulerCache.infoOrNew_fst_generation s newNode.name
      refine h.touch newNode.name _ (by simp [SchedulerCache.nextGeneration,
          SchedulerCache.infoOrNew_fst_nodes]; rfl) ?_ (by simp [SchedulerCache.nextGeneration]) ?_ ?_
      · rw [NodeInfo.setNode_generation, hgen, hn]
        simp only [Option.isSome_none, Bool.false_eq_true, if_false]
        omega
      · simp [SchedulerCache.moveNodeInfoToHead_headNode, SchedulerCache.infoOrNew_fst_nodes,
          SchedulerCache.nextGeneration]
      · simp [SchedulerCache.moveNodeInfoToHead_links, SchedulerCache.infoOrNew_fst_nodes,
          SchedulerCache.infoOrNew_fst_links, SchedulerCache.nextGeneration, hn]

theorem ListOk.RemoveNode (h : ListOk s) {node : Node} (hr : s.RemoveNode node = .ok (s', err)) :
    ListOk s' := by
  unfold SchedulerCache.RemoveNode at hr
  cases hn : s.nodes node.name with
  | none =>
      rw [hn] at hr
      cases hr
      exact h
  | some n =>
      rw [hn] at hr
      simp only [SchedulerCache.nextGeneration] at hr
      split_ifs at hr with hempty
      · have hempty' : n.pods = [] := hempty
        have key : ∀ t : SchedulerCache, t.nodes = Function.update s.nodes node.name none →
            t.headNode = s.headNode.erase node.name → t.links = s.links.removeFrom node.name →
            t.generation = s.generation + 1 → ListOk t :=
          fun t htn htl htL htg => h.drop node.name (by simp [hn]) htn (by omega) htl htL
        split at hr <;> cases hr <;>
          exact key _ (by simp [hempty']) (by simp [hempty', SchedulerCache.removeNodeInfoFromList_headNode])
            (by simp [hempty', SchedulerCache.removeNodeInfoFromList_links]) (by simp [hempty'])
      · have hempty' : n.pods ≠ [] := hempty
        have key : ∀ t : SchedulerCache,
            t.nodes = Function.update s.nodes node.name (some (n.removeNode (s.generation + 1))) →
            t.headNode = (if s.links.head ≠ some node.name then
              node.name :: s.headNode.erase node.name else s.headNode) →
            t.links = s.links.moveToHead node.name →
            t.generation = s.generation + 1 → ListOk t :=
          fun t htn htl htL htg => h.touch node.name _ htn (by simp) (by simp [htg]) htl
            (by simp [htL, hn])
        split at hr <;> cases hr <;>
          exact key _ (by simp [hempty']) (by simp [hempty', SchedulerCache.moveNodeInfoToHead_headNode])
            (by simp [hempty', SchedulerCache.moveNodeInfoToHead_links]) (by simp [hempty'])

theorem ListOk.cleanupAssumedPod (h : ListOk s) {now : ℤ} {k : String}
    (hr : s.cleanupAssumedPod cfg now k = .ok s') : ListOk s' := by
  unfold SchedulerCache.cleanupAssumedPod at hr
  split at hr
  · cases hr
  · split_ifs at hr
    · cases hr
      exact h
    · split at hr
      · cases hr
      · split_ifs at hr
        · obtain ⟨⟨c, e⟩, hexp, hr⟩ := bind_eq_ok.mp hr
          cases hr
          unfold SchedulerCache.expirePod at hexp
          obtain ⟨⟨c₁, e₁⟩, hrem, hexp⟩ := bind_eq_ok.mp hexp
          have hc := h.removePod cfg hrem
          cases e₁ <;> cases hexp
          · exact hc.podFields _ _
          · exact hc
        · cases hr
          exact h

theorem ListOk.cleanupAssumedPods (h : ListOk s) {now : ℤ}
    (hr : s.cleanupAssumedPods cfg now = .ok (s', err)) : ListOk s' := by
  unfold SchedulerCache.cleanupAssumedPods at hr
  obtain ⟨c, hloop, hr⟩ := bind_eq_ok.mp hr
  cases hr
  exact foldlM_invariant (SchedulerCache.cleanupAssumedPod cfg now) (P := ListOk)
    (fun _ _ _ hs hstep => hs.cleanupAssumedPod cfg hstep) _ _ _ h hloop

/-- **Step lemma.** Every call that returns keeps the list in order, whatever pods it is given. -/
theorem ListOk.step (h : ListOk s) {op : CacheOp} (hs : s.Step cfg op s') : ListOk s' := by
  obtain ⟨err, hr⟩ := hs
  cases op with
  | AssumePod pod => exact h.AssumePod cfg hr
  | FinishBinding pod now => exact h.finishBinding hr
  | ForgetPod pod => exact h.ForgetPod cfg hr
  | AddPod pod => exact h.AddPod cfg hr
  | UpdatePod oldPod newPod => exact h.UpdatePod cfg hr
  | RemovePod pod => exact h.RemovePod cfg hr
  | AddNode node => exact h.AddNode cfg hr
  | UpdateNode oldNode newNode => exact h.UpdateNode cfg hr
  | RemoveNode node => exact h.RemoveNode hr
  | cleanupAssumedPods now => exact h.cleanupAssumedPods cfg hr

/-- **Run lemma.** The list is in order in every reachable cache. -/
theorem ListOk.reachable {spec : String → PodProfile} {ttl : ℤ} (hr : Reachable cfg spec ttl s) :
    ListOk s :=
  hr.invariant (listOk_newSchedulerCache ttl) fun _ _ _ hs _ hn => hs.step cfg hn

end calls

/-! ### The walk of `UpdateSnapshot` -/

/-- The `NodeInfo`s newer than generation `g`, in the order of the list. -/
def newerInfos (s : SchedulerCache) (g : ℤ) : List NodeInfo :=
  s.headNode.filterMap fun name => (s.nodes name).filter fun n => g < n.generation

/-- On a list in order, the walk that stops at the first `NodeInfo` not newer than `g` copies
every `NodeInfo` newer than `g`.  By induction on the list. -/
theorem copyNewer_eq (s : SchedulerCache) (g : ℤ) :
    ∀ (l : List String), l.Pairwise (Newer s) → (∀ m ∈ l, (s.nodes m).isSome) → ∀ u,
      s.copyNewer g l u =
        (l.filterMap fun name => (s.nodes name).filter fun n => g < n.generation).foldl
          copyNodeInfo u
  | [], _, _, _ => rfl
  | name :: rest, hsorted, hmem, u => by
      obtain ⟨n, hn⟩ := Option.isSome_iff_exists.mp (hmem name mem_cons_self)
      rw [pairwise_cons] at hsorted
      by_cases hg : n.generation ≤ g
      · have hrest : (rest.filterMap fun name => (s.nodes name).filter fun n => g < n.generation) =
            [] := by
          refine filterMap_eq_nil_iff.mpr fun m hm => ?_
          cases hm' : s.nodes m with
          | none => rfl
          | some nm =>
              have hlt := hsorted.1 m hm n nm hn hm'
              rw [Option.filter_some, if_neg (by simp; omega)]
        simp only [SchedulerCache.copyNewer, hn, if_pos hg]
        rw [filterMap_cons, hn, Option.filter_some, if_neg (by simpa using hg), hrest]
        rfl
      · simp only [SchedulerCache.copyNewer, hn, if_neg hg]
        rw [filterMap_cons, hn, Option.filter_some, if_pos (by simpa using hg), foldl_cons]
        exact copyNewer_eq s g rest hsorted.2 (fun m hm => hmem m (mem_cons_of_mem _ hm)) _

theorem ListOk.copyNewer {s : SchedulerCache} (h : ListOk s) (g : ℤ) (u : SnapshotUpdate) :
    s.copyNewer g s.headNode u = (newerInfos s g).foldl copyNodeInfo u :=
  copyNewer_eq s g s.headNode h.sorted (fun m hm => (h.mem m).mp hm) u

/-! ### Every reachable cache -/

/-- In every reachable cache, the list of `NodeInfo`s holds each name of `nodes` once and no
other, newest first; following `next` from the head of the cache's links visits it all, `prev`
is the inverse of `next` and the head has no previous item; and the walk of `UpdateSnapshot`
along `next` that stops at the first `NodeInfo` not newer than the snapshot copies exactly the
`NodeInfo`s newer than it. -/
theorem reachable_nodeInfo_list {cfg : Config} {spec : String → PodProfile} {ttl : ℤ}
    {s : SchedulerCache} (hr : Reachable cfg spec ttl s) :
    s.headNode.Nodup ∧ (∀ name, name ∈ s.headNode ↔ (s.nodes name).isSome) ∧
      s.headNode.Pairwise (fun a b => ∀ na nb, s.nodes a = some na → s.nodes b = some nb →
        nb.generation < na.generation) ∧
      (∀ fuel, s.headNode.length ≤ fuel → s.links.walk fuel s.links.head = s.headNode) ∧
      (∀ a ∈ s.headNode, ∀ b, s.links.next a = some b ↔ b ∈ s.headNode ∧ s.links.prev b = some a) ∧
      (∀ h, s.links.head = some h → s.links.prev h = none) ∧
      ∀ fuel, s.headNode.length ≤ fuel → ∀ g u,
        s.copyNewer g (s.links.walk fuel s.links.head) u = (newerInfos s g).foldl copyNodeInfo u := by
  have h := ListOk.reachable cfg hr
  have hwalk (fuel : ℕ) (hfuel : s.headNode.length ≤ fuel) :
      s.links.walk fuel s.links.head = s.headNode :=
    h.links.walk h.nodup hfuel
  refine ⟨h.nodup, h.mem, h.sorted, hwalk, fun a ha b => h.links.next_eq_some_iff h.nodup ha,
    fun _ hh => h.links.prev_head h.nodup hh, fun fuel hfuel g u => ?_⟩
  rw [hwalk fuel hfuel]
  exact h.copyNewer g u

/-- Three nodes added, a pod added on the oldest, which moves it from the tail to the head, and
the middle node removed. -/
theorem reachable_nodeInfo_list_three_nodes :
    let cfg : Config := ⟨true, true, fun _ => false⟩
    let pod : Pod := { uid := "u1", nodeName := "n1" }
    let ops : List CacheOp := [.AddNode { name := "n1" }, .AddNode { name := "n2" },
      .AddNode { name := "n3" }, .AddPod pod, .RemoveNode { name := "n2" }]
    ∃ s, (newSchedulerCache 30).run cfg ops = .ok s ∧ s.headNode = ["n1", "n3"] ∧
      s.headNode.Nodup ∧ (∀ name, name ∈ s.headNode ↔ (s.nodes name).isSome) ∧
      s.headNode.Pairwise (fun a b => ∀ na nb, s.nodes a = some na → s.nodes b = some nb →
        nb.generation < na.generation) ∧
      (∀ fuel, s.headNode.length ≤ fuel → s.links.walk fuel s.links.head = s.headNode) ∧
      (∀ a ∈ s.headNode, ∀ b, s.links.next a = some b ↔ b ∈ s.headNode ∧ s.links.prev b = some a) ∧
      (∀ h, s.links.head = some h → s.links.prev h = none) ∧
      ∀ fuel, s.headNode.length ≤ fuel → ∀ g u,
        s.copyNewer g (s.links.walk fuel s.links.head) u = (newerInfos s g).foldl copyNodeInfo u := by
  intro cfg pod ops
  have hok : ∀ op ∈ ops, ∀ _ : SchedulerCache, OpOk (fun _ => pod.profile) op := by
    intro op hop _
    simp only [ops, List.mem_cons, List.not_mem_nil, or_false] at hop
    rcases hop with rfl | rfl | rfl | rfl | rfl <;> trivial
  have hr : Reachable cfg (fun _ => pod.profile) 30 _ :=
    SchedulerCache.reachable_of_run cfg ops hok .init rfl
  exact ⟨_, rfl, by decide, reachable_nodeInfo_list hr⟩

end Cache

end Caspr
