import Mathlib.Data.Finset.Basic
import Caspr.Queue.PriorityQueue
import Caspr.Lib.Run

/-! # No pod is lost or duplicated by the scheduling queue

The three sub-queues index pods by two different keys: the heaps by `namespace/name`, the
unschedulable map by `name_namespace`.  Both stand for the pod's identity (`podId`, its
namespace and name) only for names without the separators.  Pod names and namespaces as the API
server admits them (DNS subdomains and labels) contain neither, and `ValidPod` says so.

`Inv` is what every reachable queue satisfies: each pod's identity is in at most one sub-queue,
at most once; the pods have valid names; the map stores each pod under its full name.

Each call either replaces a pod's entry by a new one (`Add`, `Update`,
`AddUnschedulableIfNotPresent`), removes one (`Pop`, `Delete`), or moves entries between the
sub-queues (the flushes and the move requests).  The lemmas below state this for each call as a
permutation of the list of queued pod infos (`queued`).  Hence, over the identities, a call is a
step of the abstract set of pending pods (`pendingAfter`).

Everything rests on one hypothesis about `Update`: it must be given the old version of the pod
it updates.  An `Update` with a nil old pod skips the two heaps.  It then adds to `activeQ` a pod
that `podBackoffQ` already holds (`Update_nil_duplicates`). -/

namespace Caspr

namespace Queue

open scoped List

/-! ### Names and keys -/

/-- A name the API server admits for a pod or a namespace: it holds neither separator of the
queue's keys. -/
def ValidName (s : String) : Prop := '/' ∉ s.toList ∧ '_' ∉ s.toList

instance : DecidablePred ValidName := fun _ => inferInstanceAs (Decidable (_ ∧ _))

/-- A pod whose name and namespace are valid. -/
def ValidPod (pod : Pod) : Prop := ValidName pod.name ∧ ValidName pod.podNamespace

instance : DecidablePred ValidPod := fun _ => inferInstanceAs (Decidable (_ ∧ _))

/-- The identity of a pod for the queue: its namespace and name. -/
def podId (pod : Pod) : String × String := (pod.podNamespace, pod.name)

/-- The identity of the pod of a pod info. -/
def infoId (pInfo : QueuedPodInfo) : String × String := podId pInfo.pod

private theorem length_pos_iff_ne_empty (s : String) : 0 < s.length ↔ s ≠ "" := by
  rw [← String.length_toList, List.length_pos_iff]
  simp

private theorem toList_join (a b : String) (c : Char) :
    (a ++ String.singleton c ++ b).toList = a.toList ++ c :: b.toList := by
  simp [String.toList_append]

private theorem ne_join_of_not_mem {s a b : String} (hs : '/' ∉ s.toList) :
    s ≠ a ++ "/" ++ b := by
  intro h
  apply hs
  rw [h, show ("/" : String) = String.singleton '/' from rfl, toList_join]
  simp

theorem MetaNamespaceKeyFunc_eq_iff {pod pod' : Pod} (hp : ValidPod pod) (hp' : ValidPod pod') :
    MetaNamespaceKeyFunc pod = MetaNamespaceKeyFunc pod' ↔ podId pod = podId pod' := by
  unfold MetaNamespaceKeyFunc podId
  simp only [length_pos_iff_ne_empty]
  by_cases hn : pod.podNamespace = "" <;> by_cases hn' : pod'.podNamespace = ""
  · simp [hn, hn']
  · simp only [hn, hn', ne_eq, not_true_eq_false, not_false_eq_true, if_false, if_true,
      Prod.mk.injEq]
    exact ⟨fun h => absurd h (ne_join_of_not_mem hp.1.1), fun h => absurd h.1.symm hn'⟩
  · simp only [hn, hn', ne_eq, not_true_eq_false, not_false_eq_true, if_false, if_true,
      Prod.mk.injEq]
    exact ⟨fun h => absurd h.symm (ne_join_of_not_mem hp'.1.1), fun h => by simp_all⟩
  · simp only [hn, hn', ne_eq, not_false_eq_true, if_true, Prod.mk.injEq]
    rw [show ("/" : String) = String.singleton '/' from rfl, ← String.toList_inj, toList_join,
      toList_join, Go.append_cons_inj_of_not_mem hp.2.1 hp'.2.1, String.toList_inj,
      String.toList_inj]

theorem GetPodFullName_eq_iff {pod pod' : Pod} (hp : ValidPod pod) (hp' : ValidPod pod') :
    GetPodFullName pod = GetPodFullName pod' ↔ podId pod = podId pod' := by
  unfold GetPodFullName podId
  rw [show ("_" : String) = String.singleton '_' from rfl, ← String.toList_inj, toList_join,
    toList_join, Go.append_cons_inj_of_not_mem hp.1.2 hp'.1.2, String.toList_inj,
    String.toList_inj, Prod.mk.injEq, and_comm]

@[simp] theorem infoId_newQueuedPodInfo (pod : Pod) (now : ℤ) :
    infoId (PriorityQueue.newQueuedPodInfo pod now) = podId pod := rfl

@[simp] theorem infoId_newQueuedPodInfoNoTimestamp (pod : Pod) :
    infoId (newQueuedPodInfoNoTimestamp pod) = podId pod := rfl

@[simp] theorem infoId_updatePod (oldPodInfo : QueuedPodInfo) (newPod : Pod) :
    infoId (updatePod oldPodInfo newPod) = podId newPod := rfl

/-! ### Filtering by key and by identity -/

/-- Pod infos whose pods have valid names. -/
def AllValid (l : List QueuedPodInfo) : Prop := ∀ y ∈ l, ValidPod y.pod

section filters

variable {l : List QueuedPodInfo}

theorem filter_key_eq_filter_id (hl : AllValid l) {x : QueuedPodInfo} (hx : ValidPod x.pod) :
    l.filter (fun y => podInfoKeyFunc y ≠ podInfoKeyFunc x) = l.filter (fun y => infoId y ≠ infoId x) :=
  List.filter_congr fun y hy =>
    decide_eq_decide.mpr (not_congr (MetaNamespaceKeyFunc_eq_iff (hl y hy) hx))

theorem filter_fullName_eq_filter_id (hl : AllValid l) {pod : Pod} (hp : ValidPod pod) :
    l.filter (fun y => GetPodFullName y.pod ≠ GetPodFullName pod) =
      l.filter (fun y => infoId y ≠ podId pod) :=
  List.filter_congr fun y hy =>
    decide_eq_decide.mpr (not_congr (GetPodFullName_eq_iff (hl y hy) hp))

theorem filter_id_eq_self {i : String × String} (h : i ∉ l.map infoId) :
    l.filter (fun y => infoId y ≠ i) = l :=
  List.filter_key_eq_self infoId h

end filters

/-! ### The unschedulable map -/

namespace UnschedulablePodsMap

variable {u : UnschedulablePodsMap}

/-- Every entry is stored under the full name of its pod. -/
def Keyed (u : UnschedulablePodsMap) : Prop :=
  ∀ e ∈ u.podInfoMap.entries, e.1 = GetPodFullName e.2.pod

theorem Keyed.entries_eq (hu : u.Keyed) :
    u.podInfoMap.entries = u.values.map fun v => ⟨GetPodFullName v.pod, v⟩ := by
  conv_lhs => rw [← List.map_id u.podInfoMap.entries]
  rw [values, List.map_map]
  exact List.map_congr_left fun e he => by
    obtain ⟨k, v⟩ := e
    simp only [id, Function.comp, Sigma.mk.injEq, heq_eq_eq, and_true]
    exact hu _ he

theorem Keyed.nodup (hu : u.Keyed) : (u.values.map fun v => GetPodFullName v.pod).Nodup := by
  have h := u.podInfoMap.keys_nodup
  rw [AList.keys, hu.entries_eq, List.keys, List.map_map] at h
  exact h

theorem values_delete (hu : u.Keyed) (pod : Pod) :
    (u.delete pod).values = u.values.filter (fun v => GetPodFullName v.pod ≠ GetPodFullName pod) := by
  rw [values, delete, AList.erase]
  simp only
  rw [List.kerase_eq_filter _ u.podInfoMap.nodupKeys, hu.entries_eq, List.filter_map, List.map_map]
  simp [Function.comp_def]

theorem values_addOrUpdate (hu : u.Keyed) (pInfo : QueuedPodInfo) :
    (u.addOrUpdate pInfo).values =
      pInfo :: u.values.filter (fun v => GetPodFullName v.pod ≠ GetPodFullName pInfo.pod) := by
  rw [values, addOrUpdate, AList.entries_insert, List.map_cons]
  simp only
  rw [List.kerase_eq_filter _ u.podInfoMap.nodupKeys, hu.entries_eq, List.filter_map, List.map_map]
  simp [Function.comp_def]

theorem Keyed.delete (hu : u.Keyed) (pod : Pod) : (u.delete pod).Keyed := by
  intro e he
  simp only [UnschedulablePodsMap.delete, AList.erase,
    List.kerase_eq_filter _ u.podInfoMap.nodupKeys] at he
  exact hu e (List.mem_of_mem_filter he)

theorem Keyed.addOrUpdate (hu : u.Keyed) (pInfo : QueuedPodInfo) : (u.addOrUpdate pInfo).Keyed := by
  intro e he
  simp only [UnschedulablePodsMap.addOrUpdate, AList.entries_insert, List.mem_cons,
    List.kerase_eq_filter _ u.podInfoMap.nodupKeys] at he
  rcases he with rfl | he
  · rfl
  · exact hu e (List.mem_of_mem_filter he)

theorem get_eq_some (hu : u.Keyed) {pod : Pod} {v : QueuedPodInfo} (h : u.get pod = some v) :
    v ∈ u.values ∧ GetPodFullName v.pod = GetPodFullName pod := by
  have he := AList.mem_lookup_iff.mp h
  exact ⟨List.mem_map.mpr ⟨_, he, rfl⟩, (hu _ he).symm⟩

theorem get_eq_none (hu : u.Keyed) {pod : Pod} (h : u.get pod = none) :
    ∀ v ∈ u.values, GetPodFullName v.pod ≠ GetPodFullName pod := by
  intro v hv hk
  obtain ⟨e, he, rfl⟩ := List.mem_map.mp hv
  rw [← hu e he] at hk
  exact AList.lookup_eq_none.mp h (hk ▸ AList.mem_keys.mpr (List.mem_map_of_mem he))

end UnschedulablePodsMap

/-! ### The invariant -/

namespace PriorityQueue

/-- The pod infos of the three sub-queues. -/
def queued (q : PriorityQueue) : List QueuedPodInfo :=
  q.activeQ.queue ++ q.podBackoffQ.queue ++ q.unschedulableQ.values

/-- The identities of the queued pods, one for each entry. -/
def ids (q : PriorityQueue) : List (String × String) := q.queued.map infoId

/-- What every reachable queue satisfies: the queued pods have valid names and distinct
identities, and the map stores each under its full name. -/
structure Inv (q : PriorityQueue) : Prop where
  valid : AllValid q.queued
  nodup : q.ids.Nodup
  keyed : q.unschedulableQ.Keyed

section parts

variable {q : PriorityQueue} (h : Inv q)
include h

theorem Inv.activeQ_valid : AllValid q.activeQ.queue := fun y hy =>
  h.valid y (List.mem_append_left _ (List.mem_append_left _ hy))

theorem Inv.podBackoffQ_valid : AllValid q.podBackoffQ.queue := fun y hy =>
  h.valid y (List.mem_append_left _ (List.mem_append_right _ hy))

theorem Inv.unschedulableQ_valid : AllValid q.unschedulableQ.values := fun y hy =>
  h.valid y (List.mem_append_right _ hy)

theorem Inv.unschedulableQ_nodup : (q.unschedulableQ.values.map infoId).Nodup := by
  have hnd := h.nodup
  simp only [ids, queued, List.map_append] at hnd
  exact (List.nodup_append.mp hnd).2.1

/-- An identity queued in one sub-queue is in no other. -/
theorem Inv.disjoint :
    (∀ y ∈ q.activeQ.queue, infoId y ∉ q.podBackoffQ.queue.map infoId ∧
      infoId y ∉ q.unschedulableQ.values.map infoId) ∧
    ∀ y ∈ q.podBackoffQ.queue, infoId y ∉ q.unschedulableQ.values.map infoId := by
  have hnd := h.nodup
  simp only [ids, queued, List.map_append, List.nodup_append, List.mem_append] at hnd
  obtain ⟨⟨-, -, hAB⟩, -, hABU⟩ := hnd
  refine ⟨fun y hy => ⟨?_, ?_⟩, fun y hy => ?_⟩
  · exact fun hmem => hAB _ (List.mem_map_of_mem hy) _ hmem rfl
  · exact fun hmem => hABU _ (.inl (List.mem_map_of_mem hy)) _ hmem rfl
  · exact fun hmem => hABU _ (.inr (List.mem_map_of_mem hy)) _ hmem rfl

end parts

/-! ### What a call can do to the queued pods -/

section effects

variable {q q' : PriorityQueue}

theorem mem_map_filter_ne {l : List QueuedPodInfo} {i j : String × String} (hj : j ≠ i) :
    j ∈ (l.filter (fun y => infoId y ≠ i)).map infoId ↔ j ∈ l.map infoId := by
  simp only [List.mem_map, List.mem_filter, decide_eq_true_eq]
  constructor
  · rintro ⟨a, ⟨ha, -⟩, rfl⟩
    exact ⟨a, ha, rfl⟩
  · rintro ⟨a, ha, rfl⟩
    exact ⟨a, ⟨ha, hj⟩, rfl⟩

theorem Inv.replace (h : Inv q) (hk : q'.unschedulableQ.Keyed) {x : QueuedPodInfo}
    (hx : ValidPod x.pod) (hs : q'.queued ~ x :: q.queued.filter (fun y => infoId y ≠ infoId x)) :
    Inv q' ∧ q'.ids.toFinset = insert (infoId x) q.ids.toFinset := by
  refine ⟨⟨fun y hy => ?_, ?_, hk⟩, ?_⟩
  · rcases List.mem_cons.mp (hs.subset hy) with rfl | hy
    · exact hx
    · exact h.valid y (List.mem_of_mem_filter hy)
  · rw [ids, (hs.map infoId).nodup_iff, List.map_cons, List.nodup_cons]
    refine ⟨fun hmem => ?_, (List.filter_sublist.map infoId).nodup h.nodup⟩
    obtain ⟨y, hy, hyx⟩ := List.mem_map.mp hmem
    exact (List.mem_filter.mp hy).2 |> of_decide_eq_true <| hyx
  · ext i
    rw [List.mem_toFinset, ids, (hs.map infoId).mem_iff, List.map_cons, List.mem_cons,
      Finset.mem_insert, List.mem_toFinset, ids]
    by_cases hi : i = infoId x
    · simp [hi]
    · rw [mem_map_filter_ne hi]

theorem Inv.remove (h : Inv q) (hk : q'.unschedulableQ.Keyed) {x : QueuedPodInfo}
    (hs : q.queued ~ x :: q'.queued) :
    Inv q' ∧ q'.ids.toFinset = q.ids.toFinset.erase (infoId x) := by
  have hnd : (x :: q'.queued).map infoId |>.Nodup := (hs.map infoId).nodup_iff.mp h.nodup
  rw [List.map_cons, List.nodup_cons] at hnd
  refine ⟨⟨fun y hy => h.valid y (hs.symm.subset (List.mem_cons_of_mem x hy)), hnd.2, hk⟩, ?_⟩
  ext i
  have hmem : i ∈ q.ids ↔ i = infoId x ∨ i ∈ q'.ids := by
    simp [ids, (hs.map infoId).mem_iff]
  by_cases hi : i = infoId x
  · subst hi
    simp only [Finset.mem_erase, ne_eq, not_true_eq_false, false_and, iff_false, List.mem_toFinset]
    exact hnd.1
  · simp [hi, hmem]

theorem Inv.drop (h : Inv q) (hk : q'.unschedulableQ.Keyed) {i : String × String}
    (hs : q'.queued ~ q.queued.filter (fun y => infoId y ≠ i)) :
    Inv q' ∧ q'.ids.toFinset = q.ids.toFinset.erase i := by
  refine ⟨⟨fun y hy => h.valid y (List.mem_of_mem_filter (hs.subset hy)), ?_, hk⟩, ?_⟩
  · rw [ids, (hs.map infoId).nodup_iff]
    exact (List.filter_sublist.map infoId).nodup h.nodup
  · ext j
    rw [List.mem_toFinset, ids, (hs.map infoId).mem_iff, Finset.mem_erase, List.mem_toFinset, ids]
    by_cases hj : j = i
    · subst hj
      simp
    · rw [mem_map_filter_ne hj]
      simp [hj]

theorem Inv.move (h : Inv q) (hk : q'.unschedulableQ.Keyed) (hs : q'.queued ~ q.queued) :
    Inv q' ∧ q'.ids.toFinset = q.ids.toFinset := by
  refine ⟨⟨fun y hy => h.valid y (hs.subset hy), ?_, hk⟩, ?_⟩
  · rw [ids, (hs.map infoId).nodup_iff]
    exact h.nodup
  · ext i
    rw [List.mem_toFinset, ids, (hs.map infoId).mem_iff, List.mem_toFinset, ids]

end effects

/-! ### Looking pods up by identity -/

section lookups

variable (less : QueuedPodInfo → QueuedPodInfo → Bool) {h : KeyedHeap podInfoKeyFunc}
  {x : QueuedPodInfo}

theorem heap_Get_eq_none (hv : AllValid h.queue) (hx : ValidPod x.pod) (hg : h.Get x = none) :
    infoId x ∉ h.queue.map infoId := by
  intro hmem
  obtain ⟨y, hy, hyx⟩ := List.mem_map.mp hmem
  have hk : podInfoKeyFunc y = podInfoKeyFunc x := (MetaNamespaceKeyFunc_eq_iff (hv y hy) hx).mpr hyx
  exact KeyedHeap.Get_eq_none_iff.mp hg (hk ▸ List.mem_map_of_mem hy)

theorem heap_Get_eq_some (hv : AllValid h.queue) (hx : ValidPod x.pod) {y : QueuedPodInfo}
    (hg : h.Get x = some y) : y ∈ h.queue ∧ infoId y = infoId x := by
  obtain ⟨hy, hk⟩ := KeyedHeap.Get_eq_some_iff.mp hg
  exact ⟨hy, (MetaNamespaceKeyFunc_eq_iff (hv y hy) hx).mp hk⟩

theorem heap_Add_perm (hv : AllValid h.queue) (hx : ValidPod x.pod) :
    (h.Add less x).queue ~ x :: h.queue.filter (fun y => infoId y ≠ infoId x) := by
  have hp := KeyedHeap.Add_perm less h x
  rwa [filter_key_eq_filter_id hv hx] at hp

theorem heap_dropKey_perm (hv : AllValid h.queue) (hx : ValidPod x.pod) :
    (h.dropKey less x).queue ~ h.queue.filter (fun y => infoId y ≠ infoId x) := by
  have hp := KeyedHeap.dropKey_perm less h x
  rwa [filter_key_eq_filter_id hv hx] at hp

variable {u : UnschedulablePodsMap} {pod : Pod}

theorem unschedulable_get_eq_none (hu : u.Keyed) (hv : AllValid u.values) (hp : ValidPod pod)
    (hg : u.get pod = none) : podId pod ∉ u.values.map infoId := by
  intro hmem
  obtain ⟨y, hy, hyp⟩ := List.mem_map.mp hmem
  exact UnschedulablePodsMap.get_eq_none hu hg y hy ((GetPodFullName_eq_iff (hv y hy) hp).mpr hyp)

theorem unschedulable_get_eq_some (hu : u.Keyed) (hv : AllValid u.values) (hp : ValidPod pod)
    {v : QueuedPodInfo} (hg : u.get pod = some v) : v ∈ u.values ∧ infoId v = podId pod := by
  obtain ⟨hv', hk⟩ := UnschedulablePodsMap.get_eq_some hu hg
  exact ⟨hv', (GetPodFullName_eq_iff (hv v hv') hp).mp hk⟩

theorem values_delete_eq_filter (hu : u.Keyed) (hv : AllValid u.values) (hp : ValidPod pod) :
    (u.delete pod).values = u.values.filter (fun y => infoId y ≠ podId pod) := by
  rw [UnschedulablePodsMap.values_delete hu, filter_fullName_eq_filter_id hv hp]

theorem values_addOrUpdate_eq_filter (hu : u.Keyed) (hv : AllValid u.values) {x : QueuedPodInfo}
    (hx : ValidPod x.pod) :
    (u.addOrUpdate x).values = x :: u.values.filter (fun y => infoId y ≠ infoId x) := by
  rw [UnschedulablePodsMap.values_addOrUpdate hu, filter_fullName_eq_filter_id hv hx]
  rfl

end lookups

/-! ### The calls, one by one -/

section calls

variable (lessFn : QueuedPodInfo → QueuedPodInfo → Bool) {q : PriorityQueue}

theorem Inv.Add (h : Inv q) {pod : Pod} (hp : ValidPod pod) (now : ℤ) :
    Inv (q.Add lessFn pod now) ∧
      (q.Add lessFn pod now).ids.toFinset = insert (podId pod) q.ids.toFinset := by
  have hx : ValidPod (newQueuedPodInfo pod now).pod := hp
  have hU : (if (q.unschedulableQ.get pod).isSome then q.unschedulableQ.delete pod
      else q.unschedulableQ).values = q.unschedulableQ.values.filter (fun y => infoId y ≠ podId pod) := by
    split_ifs with hg
    · exact values_delete_eq_filter h.keyed h.unschedulableQ_valid hp
    · rw [Option.not_isSome_iff_eq_none] at hg
      exact (filter_id_eq_self
        (unschedulable_get_eq_none h.keyed h.unschedulableQ_valid hp hg)).symm
  have hk : (if (q.unschedulableQ.get pod).isSome then q.unschedulableQ.delete pod
      else q.unschedulableQ).Keyed := by
    split_ifs
    · exact h.keyed.delete pod
    · exact h.keyed
  refine h.replace (x := newQueuedPodInfo pod now) hk hx ?_
  simp only [queued, PriorityQueue.Add, List.filter_append]
  rw [hU]
  exact ((heap_Add_perm lessFn h.activeQ_valid hx).append
    (heap_dropKey_perm _ h.podBackoffQ_valid hx)).append (.refl _)

theorem Inv.not_mem_ids (h : Inv q) {x : QueuedPodInfo} (hx : ValidPod x.pod)
    (hA : q.activeQ.Get x = none) (hB : q.podBackoffQ.Get x = none)
    (hU : q.unschedulableQ.get x.pod = none) : infoId x ∉ q.ids := by
  have hnA := heap_Get_eq_none h.activeQ_valid hx hA
  have hnB := heap_Get_eq_none h.podBackoffQ_valid hx hB
  have hnU := unschedulable_get_eq_none h.keyed h.unschedulableQ_valid hx hU
  simp only [ids, queued, List.map_append, List.mem_append, not_or]
  exact ⟨⟨hnA, hnB⟩, hnU⟩

/-- What `AddUnschedulableIfNotPresent` can do: fail and leave the queue when a sub-queue holds
the pod, or else add it, with the time of the call, to `podBackoffQ` or `unschedulableQ`. -/
theorem AddUnschedulableIfNotPresent_cases (pInfo : QueuedPodInfo) (podSchedulingCycle now : ℤ) :
    let x : QueuedPodInfo := { pInfo with timestamp := now }
    let q' := (q.AddUnschedulableIfNotPresent pInfo podSchedulingCycle now).1
    (((q.unschedulableQ.get pInfo.pod).isSome ∨ (q.activeQ.Get x).isSome ∨
        (q.podBackoffQ.Get x).isSome) ∧ q' = q) ∨
      (q.unschedulableQ.get pInfo.pod = none ∧ q.activeQ.Get x = none ∧ q.podBackoffQ.Get x = none ∧
        (q' = { q with podBackoffQ := q.podBackoffQ.Add q.podsCompareBackoffCompleted x } ∨
          q' = { q with unschedulableQ := q.unschedulableQ.addOrUpdate x })) := by
  intro x q'
  simp only [q', PriorityQueue.AddUnschedulableIfNotPresent]
  split_ifs <;> simp_all [x]

/-- `AddUnschedulableIfNotPresent` adds the pod to `podBackoffQ` or `unschedulableQ` when no
sub-queue holds it, and otherwise fails and leaves the queue: either way the pod is queued. -/
theorem Inv.AddUnschedulableIfNotPresent (h : Inv q) {pInfo : QueuedPodInfo}
    (hp : ValidPod pInfo.pod) (podSchedulingCycle now : ℤ) :
    Inv (q.AddUnschedulableIfNotPresent pInfo podSchedulingCycle now).1 ∧
      (q.AddUnschedulableIfNotPresent pInfo podSchedulingCycle now).1.ids.toFinset =
        insert (infoId pInfo) q.ids.toFinset := by
  have hx : ValidPod ({ pInfo with timestamp := now } : QueuedPodInfo).pod := hp
  rcases AddUnschedulableIfNotPresent_cases pInfo podSchedulingCycle now with
    ⟨hfound, hq⟩ | ⟨hU, hA, hB, hq⟩
  · rw [hq]
    refine ⟨h, (Finset.insert_eq_of_mem (List.mem_toFinset.mpr ?_)).symm⟩
    simp only [ids, queued, List.map_append, List.mem_append]
    rcases hfound with hU | hA | hB
    · obtain ⟨v, hv⟩ := Option.isSome_iff_exists.mp hU
      obtain ⟨hmem, hid⟩ := unschedulable_get_eq_some h.keyed h.unschedulableQ_valid hp hv
      exact .inr (List.mem_map.mpr ⟨v, hmem, hid⟩)
    · obtain ⟨y, hy⟩ := Option.isSome_iff_exists.mp hA
      obtain ⟨hmem, hid⟩ := heap_Get_eq_some h.activeQ_valid hx hy
      exact .inl (.inl (List.mem_map.mpr ⟨y, hmem, hid⟩))
    · obtain ⟨y, hy⟩ := Option.isSome_iff_exists.mp hB
      obtain ⟨hmem, hid⟩ := heap_Get_eq_some h.podBackoffQ_valid hx hy
      exact .inl (.inr (List.mem_map.mpr ⟨y, hmem, hid⟩))
  · have hnot := h.not_mem_ids hx hA hB hU
    have hnB := heap_Get_eq_none h.podBackoffQ_valid hx hB
    have hnU : infoId ({ pInfo with timestamp := now } : QueuedPodInfo) ∉
        q.unschedulableQ.values.map infoId :=
      unschedulable_get_eq_none h.keyed h.unschedulableQ_valid hx hU
    rcases hq with hq | hq <;> rw [hq] <;> refine h.replace (x := { pInfo with timestamp := now }) ?_ hx ?_
    · exact h.keyed
    · rw [filter_id_eq_self hnot]
      have hB' := heap_Add_perm q.podsCompareBackoffCompleted h.podBackoffQ_valid hx
      rw [filter_id_eq_self hnB] at hB'
      exact (((List.Perm.refl _).append hB').trans List.perm_middle).append_right _
    · exact h.keyed.addOrUpdate _
    · rw [filter_id_eq_self hnot]
      simp only [queued]
      rw [values_addOrUpdate_eq_filter h.keyed h.unschedulableQ_valid hx, filter_id_eq_self hnU]
      exact List.perm_middle

/-- What `Pop` can do: nothing, on an empty closed queue, or take the head of `activeQ` out. -/
theorem Pop_cases {r : Except String QueuedPodInfo} {q' : PriorityQueue}
    (hq : q.Pop lessFn = some (r, q')) :
    (q.activeQ.Peek = none ∧ q' = q) ∨
      ∃ x, q.activeQ.Peek = some x ∧ q.queued ~ x :: q'.queued ∧
        q'.unschedulableQ = q.unschedulableQ := by
  unfold PriorityQueue.Pop at hq
  split_ifs at hq with hlen hclosed
  · simp only [Option.some.injEq, Prod.mk.injEq] at hq
    refine .inl ⟨?_, hq.2.symm⟩
    simpa [KeyedHeap.Peek, KeyedHeap.Len] using hlen
  · split at hq
    · rename_i x A' hpop
      simp only [Option.some.injEq, Prod.mk.injEq] at hq
      obtain ⟨-, rfl⟩ := hq
      obtain ⟨hpeek, hperm⟩ := KeyedHeap.Pop_eq_some _ hpop
      exact .inr ⟨x, hpeek, (hperm.symm.append_right _).append_right _, rfl⟩
    · rename_i hpop
      have hne : q.activeQ.queue ≠ [] := by
        simpa [KeyedHeap.Len, List.length_eq_zero_iff] using hlen
      have hsome := KeyedHeap.Pop_isSome lessFn hne
      rw [hpop] at hsome
      cases hsome

theorem Inv.Delete (h : Inv q) {pod : Pod} (hp : ValidPod pod) :
    Inv (q.Delete lessFn pod) ∧
      (q.Delete lessFn pod).ids.toFinset = q.ids.toFinset.erase (podId pod) := by
  have hx : ValidPod (newQueuedPodInfoNoTimestamp pod).pod := hp
  unfold PriorityQueue.Delete
  split
  · rename_i A' hd
    by_cases hk : podInfoKeyFunc (newQueuedPodInfoNoTimestamp pod) ∈ q.activeQ.queue.map podInfoKeyFunc
    · obtain ⟨A'', hd', hperm⟩ := KeyedHeap.Delete_of_mem lessFn hk
      rw [hd'] at hd
      cases hd
      obtain ⟨y, hy, hky⟩ := List.mem_map.mp hk
      have hid : infoId y = podId pod := (MetaNamespaceKeyFunc_eq_iff (h.activeQ_valid y hy) hx).mp hky
      have hA : q.activeQ.queue.filter (fun y => podInfoKeyFunc y ≠ podInfoKeyFunc
          (newQueuedPodInfoNoTimestamp pod)) = q.activeQ.queue.filter (fun y => infoId y ≠ podId pod) :=
        filter_key_eq_filter_id h.activeQ_valid hx
      refine h.drop ?_ ?_
      · exact h.keyed
      simp only [queued, List.filter_append]
      rw [filter_id_eq_self (l := q.podBackoffQ.queue) (hid ▸ (h.disjoint.1 y hy).1),
        filter_id_eq_self (l := q.unschedulableQ.values) (hid ▸ (h.disjoint.1 y hy).2), ← hA]
      exact (hperm.append_right _).append_right _
    · rw [KeyedHeap.Delete_of_not_mem lessFn hk] at hd
      cases hd
  · rename_i e hd
    by_cases hk : podInfoKeyFunc (newQueuedPodInfoNoTimestamp pod) ∈ q.activeQ.queue.map podInfoKeyFunc
    · obtain ⟨A'', hd', -⟩ := KeyedHeap.Delete_of_mem lessFn hk
      rw [hd'] at hd
      cases hd
    · have hA : q.activeQ.queue.filter (fun y => infoId y ≠ podId pod) = q.activeQ.queue :=
        (filter_key_eq_filter_id h.activeQ_valid hx).symm.trans (List.filter_key_eq_self _ hk)
      refine h.drop ?_ ?_
      · exact h.keyed.delete pod
      simp only [queued, List.filter_append]
      rw [values_delete_eq_filter h.keyed h.unschedulableQ_valid hp, hA]
      exact ((List.Perm.refl _).append (heap_dropKey_perm _ h.podBackoffQ_valid hx)).append_right _

/-- The end of `Update`, for a pod that neither heap holds: an unschedulable entry of the pod is
replaced, in `activeQ` if the pod changed, in place otherwise; a pod not queued is added to
`activeQ`.  With a nil old pod, an unschedulable entry makes the call abort. -/
theorem Inv.updateUnschedulableOrAdd (h : Inv q) {oldPod : Option Pod} {newPod : Pod}
    (hp : ValidPod newPod) (hnA : podId newPod ∉ q.activeQ.queue.map infoId)
    (hnB : podId newPod ∉ q.podBackoffQ.queue.map infoId) (now : ℤ) {q' : PriorityQueue}
    (hq : q.updateUnschedulableOrAdd lessFn oldPod newPod now = .ok q') :
    Inv q' ∧ q'.ids.toFinset = insert (podId newPod) q.ids.toFinset := by
  unfold PriorityQueue.updateUnschedulableOrAdd at hq
  split at hq
  · -- an unschedulable entry of the pod
    rename_i us hg
    obtain ⟨hmem, husid⟩ := unschedulable_get_eq_some h.keyed h.unschedulableQ_valid hp hg
    have hx : ValidPod (updatePod us newPod).pod := hp
    have hnA' : infoId (updatePod us newPod) ∉ q.activeQ.queue.map infoId := hnA
    have hnB' : infoId (updatePod us newPod) ∉ q.podBackoffQ.queue.map infoId := hnB
    cases hu : isPodUpdated oldPod newPod with
    | error e =>
        rw [hu] at hq
        cases hq
    | ok updated =>
        rw [hu] at hq
        simp only [bind, Except.bind, pure, Except.pure] at hq
        cases updated
        · -- unchanged: replaced in place
          simp only [Bool.false_eq_true, if_false, Except.ok.injEq] at hq
          subst hq
          refine h.replace (x := updatePod us newPod) (h.keyed.addOrUpdate _) hx ?_
          simp only [queued, List.filter_append]
          rw [values_addOrUpdate_eq_filter h.keyed h.unschedulableQ_valid hx, filter_id_eq_self hnA',
            filter_id_eq_self hnB']
          exact List.perm_middle
        · -- changed: moved to `activeQ`
          simp only [if_true, Except.ok.injEq] at hq
          subst hq
          refine h.replace (x := updatePod us newPod) (h.keyed.delete _) hx ?_
          have hU : (q.unschedulableQ.delete us.pod).values =
              q.unschedulableQ.values.filter (fun y => infoId y ≠ infoId (updatePod us newPod)) := by
            rw [values_delete_eq_filter h.keyed h.unschedulableQ_valid
              (h.unschedulableQ_valid us hmem)]
            simp only [infoId] at husid
            rw [husid]
            rfl
          simp only [queued, List.filter_append]
          rw [hU, filter_id_eq_self hnA', filter_id_eq_self hnB']
          have hA := heap_Add_perm lessFn h.activeQ_valid hx
          rw [filter_id_eq_self hnA'] at hA
          exact (hA.append_right _).append_right _
  · -- not queued: added to `activeQ`
    rename_i hg
    simp only [pure, Except.pure, Except.ok.injEq] at hq
    subst hq
    have hx : ValidPod (newQueuedPodInfo newPod now).pod := hp
    have hnU : infoId (newQueuedPodInfo newPod now) ∉ q.unschedulableQ.values.map infoId :=
      unschedulable_get_eq_none h.keyed h.unschedulableQ_valid hp hg
    have hnB' : infoId (newQueuedPodInfo newPod now) ∉ q.podBackoffQ.queue.map infoId := hnB
    refine h.replace (x := newQueuedPodInfo newPod now) ?_ hx ?_
    · exact h.keyed
    simp only [queued, List.filter_append]
    rw [filter_id_eq_self hnU, filter_id_eq_self hnB']
    exact ((heap_Add_perm lessFn h.activeQ_valid hx).append_right _).append_right _

/-- `Update` given the old version of a pod replaces the pod's entry by the new version wherever
it is queued, and adds it to `activeQ` if it is not queued. -/
theorem Inv.Update (h : Inv q) {old newPod : Pod} (hp : ValidPod newPod)
    (hid : podId old = podId newPod) (now : ℤ) {q' : PriorityQueue}
    (hq : q.Update lessFn (some old) newPod now = .ok q') :
    Inv q' ∧ q'.ids.toFinset = insert (podId newPod) q.ids.toFinset := by
  have ho : ValidPod (newQueuedPodInfoNoTimestamp old).pod := by
    simp only [podId, Prod.mk.injEq] at hid
    exact ⟨hid.2 ▸ hp.1, hid.1 ▸ hp.2⟩
  simp only [PriorityQueue.Update] at hq
  split at hq
  · rename_i oi hg
    obtain ⟨hmem, hoid⟩ := heap_Get_eq_some h.activeQ_valid ho hg
    simp only [pure, Except.pure, Except.ok.injEq] at hq
    subst hq
    have hx : ValidPod (updatePod oi newPod).pod := hp
    have hidx : infoId oi = infoId (updatePod oi newPod) := hoid.trans hid
    refine h.replace (x := updatePod oi newPod) ?_ hx ?_
    · exact h.keyed
    simp only [queued, List.filter_append]
    rw [filter_id_eq_self (l := q.podBackoffQ.queue) (hidx ▸ (h.disjoint.1 oi hmem).1),
      filter_id_eq_self (l := q.unschedulableQ.values) (hidx ▸ (h.disjoint.1 oi hmem).2)]
    exact ((heap_Add_perm lessFn h.activeQ_valid hx).append_right _).append_right _
  · rename_i hgA
    have hnA : podId newPod ∉ q.activeQ.queue.map infoId := by
      simpa [hid] using heap_Get_eq_none h.activeQ_valid ho hgA
    split at hq
    · rename_i oi hg
      obtain ⟨hmem, hoid⟩ := heap_Get_eq_some h.podBackoffQ_valid ho hg
      simp only [pure, Except.pure, Except.ok.injEq] at hq
      subst hq
      have hx : ValidPod (updatePod oi newPod).pod := hp
      have hidx : infoId oi = infoId (updatePod oi newPod) := hoid.trans hid
      have hnA' : infoId (updatePod oi newPod) ∉ q.activeQ.queue.map infoId := hnA
      have hB := heap_dropKey_perm q.podsCompareBackoffCompleted h.podBackoffQ_valid
        (h.podBackoffQ_valid oi hmem)
      rw [hidx] at hB
      have hA := heap_Add_perm lessFn h.activeQ_valid hx
      rw [filter_id_eq_self hnA'] at hA
      refine h.replace (x := updatePod oi newPod) ?_ hx ?_
      · exact h.keyed
      simp only [queued, List.filter_append]
      rw [filter_id_eq_self hnA',
        filter_id_eq_self (l := q.unschedulableQ.values) (hidx ▸ (h.disjoint.2 oi hmem))]
      exact (hA.append hB).append_right _
    · rename_i hgB
      have hnB : podId newPod ∉ q.podBackoffQ.queue.map infoId := by
        simpa [hid] using heap_Get_eq_none h.podBackoffQ_valid ho hgB
      exact h.updateUnschedulableOrAdd lessFn hp hnA hnB now hq

theorem movePodToActiveOrBackoffQueue_perm (h : Inv q) (now : ℤ) {pInfo : QueuedPodInfo}
    (hmem : pInfo ∈ q.unschedulableQ.values) :
    (movePodToActiveOrBackoffQueue lessFn now q pInfo).queued ~ q.queued ∧
      (movePodToActiveOrBackoffQueue lessFn now q pInfo).unschedulableQ.values =
        q.unschedulableQ.values.filter (fun y => infoId y ≠ infoId pInfo) ∧
      (movePodToActiveOrBackoffQueue lessFn now q pInfo).unschedulableQ.Keyed := by
  have hp := h.unschedulableQ_valid pInfo hmem
  have hU : (q.unschedulableQ.delete pInfo.pod).values =
      q.unschedulableQ.values.filter (fun y => infoId y ≠ infoId pInfo) :=
    values_delete_eq_filter h.keyed h.unschedulableQ_valid hp
  have hnA : infoId pInfo ∉ q.activeQ.queue.map infoId := fun hA => by
    obtain ⟨y, hy, hyp⟩ := List.mem_map.mp hA
    exact (h.disjoint.1 y hy).2 (hyp ▸ List.mem_map_of_mem hmem)
  have hnB : infoId pInfo ∉ q.podBackoffQ.queue.map infoId := fun hB => by
    obtain ⟨y, hy, hyp⟩ := List.mem_map.mp hB
    exact h.disjoint.2 y hy (hyp ▸ List.mem_map_of_mem hmem)
  have hUperm := List.perm_cons_filter_key infoId h.unschedulableQ_nodup hmem
  have hrest : q.queued ~ pInfo :: (q.activeQ.queue ++ q.podBackoffQ.queue ++
      q.unschedulableQ.values.filter (fun y => infoId y ≠ infoId pInfo)) :=
    ((List.Perm.refl _).append hUperm).trans List.perm_middle
  unfold movePodToActiveOrBackoffQueue
  split_ifs
  · refine ⟨?_, hU, h.keyed.delete _⟩
    simp only [queued]
    rw [hU]
    have hB := heap_Add_perm q.podsCompareBackoffCompleted h.podBackoffQ_valid hp
    rw [filter_id_eq_self hnB] at hB
    exact ((((List.Perm.refl _).append hB).trans List.perm_middle).append_right _).trans hrest.symm
  · refine ⟨?_, hU, h.keyed.delete _⟩
    simp only [queued]
    rw [hU]
    have hA := heap_Add_perm lessFn h.activeQ_valid hp
    rw [filter_id_eq_self hnA] at hA
    exact ((hA.append_right _).append_right _).trans hrest.symm

/-- `movePodsToActiveOrBackoffQueue` over unschedulable pods moves each to a heap: the same pods
stay queued.  The loop keeps `Inv` and that the pods still to move are unschedulable. -/
theorem Inv.movePodsToActiveOrBackoffQueue (h : Inv q) {podInfoList : List QueuedPodInfo}
    (hl : podInfoList.Sublist q.unschedulableQ.values) (now : ℤ) :
    Inv (q.movePodsToActiveOrBackoffQueue lessFn podInfoList now) ∧
      (q.movePodsToActiveOrBackoffQueue lessFn podInfoList now).ids.toFinset = q.ids.toFinset := by
  obtain ⟨hinv, hperm, -⟩ := StepSystem.foldl_invariant (movePodToActiveOrBackoffQueue lessFn now)
    (P := fun rest s => Inv s ∧ s.queued ~ q.queued ∧ rest.Sublist s.unschedulableQ.values)
    (fun s i is ⟨hs, hperm, hsub⟩ => by
      have hmem : i ∈ s.unschedulableQ.values := hsub.subset List.mem_cons_self
      obtain ⟨hperm', hU', hk'⟩ := movePodToActiveOrBackoffQueue_perm lessFn hs now hmem
      refine ⟨(hs.move hk' hperm').1, hperm'.trans hperm, ?_⟩
      have hnd : ((i :: is).map infoId).Nodup := (hsub.map infoId).nodup hs.unschedulableQ_nodup
      rw [List.map_cons, List.nodup_cons] at hnd
      have hrest : (i :: is).filter (fun y => infoId y ≠ infoId i) = is := by
        rw [List.filter_cons_of_neg (by simp), filter_id_eq_self hnd.1]
      rw [hU', ← hrest]
      exact hsub.filter _)
    podInfoList q ⟨h, .refl _, hl⟩
  exact ⟨⟨hinv.valid, hinv.nodup, hinv.keyed⟩, (h.move (by exact hinv.keyed) hperm).2⟩

theorem Inv.MoveAllToActiveOrBackoffQueue (h : Inv q) (now : ℤ) :
    Inv (q.MoveAllToActiveOrBackoffQueue lessFn now) ∧
      (q.MoveAllToActiveOrBackoffQueue lessFn now).ids.toFinset = q.ids.toFinset :=
  h.movePodsToActiveOrBackoffQueue lessFn (List.Sublist.refl _) now

theorem Inv.AssignedPodAdded (h : Inv q) (pod : Pod) (now : ℤ) :
    Inv (q.AssignedPodAdded lessFn pod now) ∧
      (q.AssignedPodAdded lessFn pod now).ids.toFinset = q.ids.toFinset :=
  h.movePodsToActiveOrBackoffQueue lessFn List.filter_sublist now

theorem Inv.AssignedPodUpdated (h : Inv q) (pod : Pod) (now : ℤ) :
    Inv (q.AssignedPodUpdated lessFn pod now) ∧
      (q.AssignedPodUpdated lessFn pod now).ids.toFinset = q.ids.toFinset :=
  h.movePodsToActiveOrBackoffQueue lessFn List.filter_sublist now

theorem Inv.flushUnschedulableQLeftover (h : Inv q) (now : ℤ) :
    Inv (q.flushUnschedulableQLeftover lessFn now) ∧
      (q.flushUnschedulableQLeftover lessFn now).ids.toFinset = q.ids.toFinset := by
  simp only [PriorityQueue.flushUnschedulableQLeftover]
  split_ifs
  · exact h.movePodsToActiveOrBackoffQueue lessFn List.filter_sublist now
  · exact ⟨h, rfl⟩

/-- The loop of `flushBackoffQCompleted` moves the head of `podBackoffQ` to `activeQ` at each
iteration: the same pods stay queued.  By induction on the loop's fuel. -/
theorem Inv.flushBackoffQCompletedLoop (now : ℤ) :
    ∀ (fuel : ℕ) {q : PriorityQueue}, Inv q →
      Inv (flushBackoffQCompletedLoop lessFn now fuel q) ∧
        (flushBackoffQCompletedLoop lessFn now fuel q).ids.toFinset = q.ids.toFinset
  | 0, _, h => ⟨h, rfl⟩
  | fuel + 1, q, h => by
      simp only [PriorityQueue.flushBackoffQCompletedLoop]
      split
      · exact ⟨h, rfl⟩
      · rename_i raw hpeek
        split_ifs
        · exact ⟨h, rfl⟩
        · split
          · exact ⟨h, rfl⟩
          · rename_i x B' hpop
            obtain ⟨hpeek', hperm⟩ := KeyedHeap.Pop_eq_some _ hpop
            rw [hpeek, Option.some_inj] at hpeek'
            subst hpeek'
            have hmem : raw ∈ q.podBackoffQ.queue := hperm.subset List.mem_cons_self
            have hnA : infoId raw ∉ q.activeQ.queue.map infoId := fun hA => by
              obtain ⟨y, hy, hyr⟩ := List.mem_map.mp hA
              exact (h.disjoint.1 y hy).1 (hyr ▸ List.mem_map_of_mem hmem)
            have hA := heap_Add_perm lessFn h.activeQ_valid (h.podBackoffQ_valid raw hmem)
            rw [filter_id_eq_self hnA] at hA
            have hstep : queued { q with podBackoffQ := B', activeQ := q.activeQ.Add lessFn raw } ~
                q.queued :=
              ((hA.append_right _).trans List.perm_middle.symm |>.trans
                ((List.Perm.refl _).append hperm)).append_right _
            obtain ⟨h₁, hids₁⟩ := h.move (by exact h.keyed) hstep
            obtain ⟨h₂, hids₂⟩ := Inv.flushBackoffQCompletedLoop now fuel h₁
            exact ⟨h₂, hids₂.trans hids₁⟩

theorem Inv.flushBackoffQCompleted (h : Inv q) (now : ℤ) :
    Inv (q.flushBackoffQCompleted lessFn now) ∧
      (q.flushBackoffQCompleted lessFn now).ids.toFinset = q.ids.toFinset :=
  Inv.flushBackoffQCompletedLoop lessFn now _ h

theorem Inv.Close (h : Inv q) {q' : PriorityQueue} (hq : q.Close = .ok q') :
    Inv q' ∧ q'.ids.toFinset = q.ids.toFinset := by
  unfold PriorityQueue.Close at hq
  split_ifs at hq
  cases hq
  exact ⟨⟨h.valid, h.nodup, h.keyed⟩, rfl⟩

end calls

/-! ### Runs -/

/-- What the callers promise about a call: the pods they pass have valid names, and `Update` is
given the old version of the pod it updates (the informer passes the object it replaces). -/
def OpOk : QueueOp → Prop
  | .Add pod _ => ValidPod pod
  | .AddUnschedulableIfNotPresent pInfo _ _ => ValidPod pInfo.pod
  | .Update oldPod newPod _ => ValidPod newPod ∧ oldPod.map podId = some (podId newPod)
  | .Delete pod => ValidPod pod
  | .Pop | .MoveAllToActiveOrBackoffQueue _ | .AssignedPodAdded _ _ | .AssignedPodUpdated _ _
  | .flushBackoffQCompleted _ | .flushUnschedulableQLeftover _ | .Close => True

instance : DecidablePred OpOk
  | .Add pod _ => inferInstanceAs (Decidable (ValidPod pod))
  | .AddUnschedulableIfNotPresent pInfo _ _ => inferInstanceAs (Decidable (ValidPod pInfo.pod))
  | .Update oldPod newPod _ =>
      inferInstanceAs (Decidable (ValidPod newPod ∧ oldPod.map podId = some (podId newPod)))
  | .Delete pod => inferInstanceAs (Decidable (ValidPod pod))
  | .Pop | .MoveAllToActiveOrBackoffQueue _ | .AssignedPodAdded _ _ | .AssignedPodUpdated _ _
  | .flushBackoffQCompleted _ | .flushUnschedulableQLeftover _ | .Close => isTrue trivial

/-- The abstract queue: the set of pending pods, by identity, after a call on `q`.  A pod a call
adds is pending; the pod `Pop` returns, the head of `activeQ`, and the pod `Delete` names are
not; the other calls only move pods. -/
def pendingAfter (q : PriorityQueue) (P : Finset (String × String)) :
    QueueOp → Finset (String × String)
  | .Add pod _ => insert (podId pod) P
  | .AddUnschedulableIfNotPresent pInfo _ _ => insert (infoId pInfo) P
  | .Pop =>
      match q.activeQ.Peek with
      | some pInfo => P.erase (infoId pInfo)
      | none => P
  | .Update _ newPod _ => insert (podId newPod) P
  | .Delete pod => P.erase (podId pod)
  | .MoveAllToActiveOrBackoffQueue _ | .AssignedPodAdded _ _ | .AssignedPodUpdated _ _
  | .flushBackoffQCompleted _ | .flushUnschedulableQLeftover _ | .Close => P

section runs

variable (lessFn : QueuedPodInfo → QueuedPodInfo → Bool) {q q' : PriorityQueue}

private theorem Step_eq {op : QueueOp} {r : PriorityQueue}
    (happ : q.apply lessFn op = some (.ok r)) (hs : q.Step lessFn op q') : q' = r := by
  rw [PriorityQueue.Step, happ, Option.some.injEq, Except.ok.injEq] at hs
  exact hs.symm

/-- **Step lemma.** A call that keeps the callers' promises and returns keeps `Inv`, and moves
the queued identities as the abstract queue moves its pending set. -/
theorem Inv.step (h : Inv q) {op : QueueOp} (hop : OpOk op) (hs : q.Step lessFn op q') :
    Inv q' ∧ q'.ids.toFinset = pendingAfter q q.ids.toFinset op := by
  cases op with
  | Add pod now =>
      obtain rfl := Step_eq lessFn rfl hs
      exact h.Add lessFn hop now
  | AddUnschedulableIfNotPresent pInfo podSchedulingCycle now =>
      obtain rfl := Step_eq lessFn rfl hs
      exact h.AddUnschedulableIfNotPresent hop podSchedulingCycle now
  | Pop =>
      obtain ⟨⟨r, q''⟩, hpop, hr⟩ := Option.map_eq_some_iff.mp hs
      cases hr
      rcases Pop_cases lessFn hpop with ⟨hpeek, rfl⟩ | ⟨x, hpeek, hperm, hU⟩
      · exact ⟨h, by simp only [pendingAfter, hpeek]⟩
      · simp only [pendingAfter, hpeek]
        exact h.remove (by rw [hU]; exact h.keyed) hperm
  | Update oldPod newPod now =>
      obtain ⟨hp, hold⟩ := hop
      -- a call that keeps the promise names the old version of the pod
      obtain ⟨old, rfl, hid⟩ := Option.map_eq_some_iff.mp hold
      exact h.Update lessFn hp hid now (Option.some.inj hs)
  | Delete pod =>
      obtain rfl := Step_eq lessFn rfl hs
      exact h.Delete lessFn hop
  | MoveAllToActiveOrBackoffQueue now =>
      obtain rfl := Step_eq lessFn rfl hs
      exact h.MoveAllToActiveOrBackoffQueue lessFn now
  | AssignedPodAdded pod now =>
      obtain rfl := Step_eq lessFn rfl hs
      exact h.AssignedPodAdded lessFn pod now
  | AssignedPodUpdated pod now =>
      obtain rfl := Step_eq lessFn rfl hs
      exact h.AssignedPodUpdated lessFn pod now
  | flushBackoffQCompleted now =>
      obtain rfl := Step_eq lessFn rfl hs
      exact h.flushBackoffQCompleted lessFn now
  | flushUnschedulableQLeftover now =>
      obtain rfl := Step_eq lessFn rfl hs
      exact h.flushUnschedulableQLeftover lessFn now
  | Close => exact h.Close (Option.some.inj hs)

theorem inv_NewPriorityQueue (options : priorityQueueOptions) : Inv (NewPriorityQueue options) :=
  ⟨fun _ hy => (nomatch hy), List.nodup_nil, fun _ he => (nomatch he)⟩

/-- A call on the queue, and on the pending set beside it. -/
def TrackedStep (s : PriorityQueue × Finset (String × String)) (op : QueueOp)
    (s' : PriorityQueue × Finset (String × String)) : Prop :=
  s.1.Step lessFn op s'.1 ∧ s'.2 = pendingAfter s.1 s.2 op

/-- Queues and pending sets of the runs from `NewPriorityQueue` whose calls keep the callers'
promises. -/
abbrev Reachable (options : priorityQueueOptions) :
    PriorityQueue × Finset (String × String) → Prop :=
  StepSystem.Reachable (TrackedStep lessFn) (fun _ op => OpOk op) (NewPriorityQueue options, ∅)

/-- **Refinement.** Every reachable queue satisfies `Inv`, and its queued identities are the
pending set of the abstract queue. -/
theorem Inv.reachable {options : priorityQueueOptions} {s : PriorityQueue × Finset (String × String)}
    (hr : Reachable lessFn options s) : Inv s.1 ∧ s.1.ids.toFinset = s.2 := by
  refine hr.invariant (P := fun s => Inv s.1 ∧ s.1.ids.toFinset = s.2)
    ⟨inv_NewPriorityQueue options, rfl⟩ ?_
  rintro ⟨q, P⟩ op ⟨q', P'⟩ ⟨h, hP⟩ hop ⟨hstep, hP'⟩
  obtain ⟨h', hids⟩ := h.step lessFn hop hstep
  refine ⟨h', ?_⟩
  rw [hids, hP']
  simp only at hP
  rw [hP]

/-- A call that keeps the callers' promise and returns extends a run, and the pending set with it. -/
theorem Reachable.call {options : priorityQueueOptions} {q q' : PriorityQueue}
    {P P' : Finset (String × String)} (hr : Reachable lessFn options (q, P)) (op : QueueOp)
    (hop : OpOk op) (hs : q.Step lessFn op q') (hP : P' = pendingAfter q P op) :
    Reachable lessFn options (q', P') :=
  StepSystem.Reachable.step op hr hop ⟨hs, hP⟩

/-- **No pod is lost or duplicated.** In every queue reached by calls that keep the callers'
promises, each pod identity is queued at most once over the three sub-queues together (`ids`
lists them one entry after another), and the queued identities are the pending ones: those a
call added and neither a later `Pop` returned nor a later `Delete` named. -/
theorem queued_once_iff_pending {options : priorityQueueOptions} {q : PriorityQueue}
    {P : Finset (String × String)} (hr : Reachable lessFn options (q, P)) :
    q.ids.Nodup ∧ ∀ i, i ∈ q.ids ↔ i ∈ P := by
  obtain ⟨h, hids⟩ : Inv q ∧ q.ids.toFinset = P := Inv.reachable lessFn hr
  refine ⟨h.nodup, fun i => ?_⟩
  rw [← hids, List.mem_toFinset]

/-- `p` added, popped and found unschedulable, then `r` added: `r` is queued in `activeQ` and
`p` in `unschedulableQ`, each once. -/
theorem queued_once_iff_pending_run :
    let less : QueuedPodInfo → QueuedPodInfo → Bool := fun a b => decide (a.timestamp < b.timestamp)
    let p : Pod := { name := "p", podNamespace := "default" }
    let r : Pod := { name := "r", podNamespace := "default" }
    let ops : List QueueOp :=
      [.Add p 0, .Pop, .AddUnschedulableIfNotPresent { pod := p, attempts := 1 } 1 1, .Add r 2]
    ∃ q, (NewPriorityQueue {}).run less ops = some q ∧ q.ids = [("default", "r"), ("default", "p")] ∧
      q.ids.Nodup ∧ ∀ i, i ∈ q.ids ↔ i ∈ ({("default", "r"), ("default", "p")} : Finset _) := by
  intro less p r ops
  have h₀ : Reachable less {} (NewPriorityQueue {}, ∅) := .init
  have h₁ : Reachable less {} (_, {("default", "p")}) :=
    Reachable.call less h₀ (.Add p 0) (by decide) rfl rfl
  have h₂ : Reachable less {} (_, ∅) := Reachable.call less h₁ .Pop trivial rfl (by decide)
  have h₃ : Reachable less {} (_, {("default", "p")}) :=
    Reachable.call less h₂ (.AddUnschedulableIfNotPresent { pod := p, attempts := 1 } 1 1)
      (by decide) rfl (by decide)
  have h₄ : Reachable less {} (_, {("default", "r"), ("default", "p")}) :=
    Reachable.call less h₃ (.Add r 2) (by decide) rfl rfl
  exact ⟨_, rfl, rfl, queued_once_iff_pending less h₄⟩

/-- With a nil old pod, `Update` skips the two heaps: after a pod is popped, found unschedulable
while a move request came in, and sent to `podBackoffQ`, an informer update of it is added to
`activeQ` as well.  The heaps are ordered by timestamp. -/
theorem Update_nil_duplicates :
    let less : QueuedPodInfo → QueuedPodInfo → Bool := fun a b => decide (a.timestamp < b.timestamp)
    ∃ q', (NewPriorityQueue {}).run less
        [.Add { name := "p", podNamespace := "default" } 0, .Pop, .MoveAllToActiveOrBackoffQueue 1,
          .AddUnschedulableIfNotPresent
            { pod := { name := "p", podNamespace := "default" }, attempts := 1 } 1 1,
          .Update none { name := "p", podNamespace := "default" } 2] = some q' ∧
      q'.activeQ.queue.map infoId = [("default", "p")] ∧
      q'.podBackoffQ.queue.map infoId = [("default", "p")] :=
  ⟨_, rfl, rfl, rfl⟩

/-- `PendingPods` lists the pods of `activeQ` only: in a reachable queue, it returns a pending pod
exactly when neither `podBackoffQ` nor `unschedulableQ` holds it. -/
theorem PendingPods_iff_pending {options : priorityQueueOptions} {q : PriorityQueue}
    {P : Finset (String × String)} (hr : Reachable lessFn options (q, P)) (i : String × String) :
    i ∈ q.PendingPods.map podId ↔
      i ∈ P ∧ i ∉ (q.podBackoffQ.queue ++ q.unschedulableQ.values).map infoId := by
  obtain ⟨h, hids⟩ : Inv q ∧ q.ids.toFinset = P := Inv.reachable lessFn hr
  have hA : q.PendingPods.map podId = q.activeQ.queue.map infoId := List.map_map
  have hnd := h.nodup
  rw [ids, queued, List.append_assoc, List.map_append, List.nodup_append] at hnd
  rw [← hids, List.mem_toFinset, ids, queued, List.append_assoc, List.map_append, List.mem_append,
    hA]
  constructor
  · intro hi
    exact ⟨.inl hi, fun hj => hnd.2.2 i hi i hj rfl⟩
  · rintro ⟨hi | hi, hn⟩
    · exact hi
    · exact absurd hi hn

/-- A pod popped and found unschedulable: it is pending, in `unschedulableQ`, and `PendingPods`
leaves it out. -/
theorem PendingPods_iff_pending_unschedulable :
    let less : QueuedPodInfo → QueuedPodInfo → Bool := fun a b => decide (a.timestamp < b.timestamp)
    let p : Pod := { name := "p", podNamespace := "default" }
    let ops : List QueueOp :=
      [.Add p 0, .Pop, .AddUnschedulableIfNotPresent { pod := p, attempts := 1 } 1 1]
    ∃ q, (NewPriorityQueue {}).run less ops = some q ∧ q.PendingPods = [] ∧
      ∀ i, i ∈ q.PendingPods.map podId ↔ i ∈ ({("default", "p")} : Finset _) ∧
        i ∉ (q.podBackoffQ.queue ++ q.unschedulableQ.values).map infoId := by
  intro less p ops
  have h₀ : Reachable less {} (NewPriorityQueue {}, ∅) := .init
  have h₁ : Reachable less {} (_, {("default", "p")}) :=
    Reachable.call less h₀ (.Add p 0) (by decide) rfl rfl
  have h₂ : Reachable less {} (_, ∅) := Reachable.call less h₁ .Pop trivial rfl (by decide)
  have h₃ : Reachable less {} (_, {("default", "p")}) :=
    Reachable.call less h₂ (.AddUnschedulableIfNotPresent { pod := p, attempts := 1 } 1 1)
      (by decide) rfl (by decide)
  exact ⟨_, rfl, rfl, PendingPods_iff_pending less h₃⟩

/-- A pod popped and found unschedulable with no move request since is pending in
`unschedulableQ`, and `PendingPods` leaves it out.  The heaps are ordered by timestamp. -/
theorem PendingPods_omits_unschedulable :
    let less : QueuedPodInfo → QueuedPodInfo → Bool := fun a b => decide (a.timestamp < b.timestamp)
    ∃ q', (NewPriorityQueue {}).run less
        [.Add { name := "p", podNamespace := "default" } 0, .Pop,
          .AddUnschedulableIfNotPresent
            { pod := { name := "p", podNamespace := "default" }, attempts := 1 } 1 1] = some q' ∧
      q'.PendingPods = [] ∧
      q'.unschedulableQ.values.map (·.pod) = [{ name := "p", podNamespace := "default" }] :=
  ⟨_, rfl, rfl, rfl⟩

end runs

end PriorityQueue

end Queue

end Caspr
