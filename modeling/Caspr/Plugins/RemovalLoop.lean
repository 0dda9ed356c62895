import Caspr.Plugins.Victims

/-! # The removal loop of `selectVictimsOnNode`, on the array behind `nodeInfo.Pods`

`for _, p := range nodeInfo.Pods` evaluates the slice `nodeInfo.Pods` once: its length is fixed
for the whole loop, and each step reads its pod from the array behind the slice.  The body's
`RemovePod` writes to that same array (`n.Pods[i] = n.Pods[len(n.Pods)-1]`) before it shortens
the slice.  `removeLowerPriorityPodsRange` is the loop so: it carries the array `B`, reads the
pod of each index there, and every removal writes to it (`removePodArray`); the node's `pods`
is the front of `B` (`NodeInfo.pods <+: B`).

A removal at the `i`-th step writes at the index `RemovePod` finds, which is at most `i`: the pod
read at `i` is still at `i` when the slice reaches past `i`, and the slice is shorter than `i`
otherwise (`removePodArray_frame`).  So the array from the next index on is still the original
one, and the loop reads every pod that was on the node, once and in order: it is the loop over
the node's pods that `removeLowerPriorityPods` models (`removeLowerPriorityPodsRange_eq`), for
every node, pod and plugin.  With distinct keys, as on every node of a reachable cache
(`Cache.reachable_keysOk`), the victims are then the pods of lower priority in their order, and
the node keeps exactly the others (`removeLowerPriorityPodsRange_spec`). -/

namespace Caspr

namespace DefaultPreemption

open List

section range

variable {σ : Type} (cfg : Config) (ph : PreemptHandle σ) (gen : ℤ)

/-- The write of `n.RemovePod(pod)` to the array `B` behind `n.Pods`: the slot of the first pod
of the key takes the last pod of the slice. -/
def removePodArray (B : List Pod) (n : NodeInfo) (pod : Pod) : List Pod :=
  match GetPodKey pod with
  | .error _ => B
  | .ok k =>
      match n.pods.findIdx? (hasKey k) with
      | some i => Go.swapRemoveArray B n.pods.length i
      | none => B

/-- The first loop of `selectVictimsOnNode` as Go runs it, over the indices of the slice header:
the pod of each index is read from the array `B` behind `nodeInfo.Pods`, which every removal
writes to; `none` for an error. -/
def removeLowerPriorityPodsRange (pod : Pod) :
    List ℕ → List Pod → NodeInfo × σ → Except Go.Abort (Option (List Pod × (NodeInfo × σ)))
  | [], _, x => pure (some ([], x))
  | i :: is, B, x =>
      match B[i]? with
      | none => .error .indexOutOfRange
      | some p =>
          if PodPriority p < PodPriority pod then do
            match ← removePod cfg ph gen pod x p with
            | none => pure none
            | some x' =>
                match ← removeLowerPriorityPodsRange pod is (removePodArray B x.1 p) x' with
                | none => pure none
                | some (vs, x') => pure (some (p :: vs, x'))
          else removeLowerPriorityPodsRange pod is B x

variable {cfg ph gen}

/-- **A removal writes only where the loop has been.**  When the closure `removePod` removes the
pod read at index `i` of the array behind the node's pods, the node's new pods are the front of
the array it writes, and that array is unchanged past `i`. -/
theorem removePodArray_frame {pod rp : Pod} {x x' : NodeInfo × σ} {B : List Pod} {i : ℕ}
    (hpre : x.1.pods <+: B) (hread : B[i]? = some rp)
    (h : removePod cfg ph gen pod x rp = .ok (some x')) :
    x'.1.pods <+: removePodArray B x.1 rp ∧ (removePodArray B x.1 rp).drop (i + 1) = B.drop (i + 1) := by
  obtain ⟨hkey, j, hj, hx'⟩ := NodeInfo.removePod_eq_ok_none cfg (removePod_eq_some h).1
  have hB : B.take x.1.pods.length = x.1.pods := (prefix_iff_eq_take.mp hpre).symm
  have hlen : x.1.pods.length ≤ B.length := hpre.length_le
  have hwrite : removePodArray B x.1 rp = Go.swapRemoveArray B x.1.pods.length j := by
    simp only [removePodArray, GetPodKey, if_neg hkey, hj]
  have hji : j ≤ i := by
    obtain ⟨hjlen, -, hfirst⟩ := findIdx?_eq_some_iff_getElem.mp hj
    by_contra hij
    have hi : i < x.1.pods.length := by omega
    have hat : x.1.pods[i] = rp := by
      rw [← Option.some_inj, ← getElem?_eq_getElem hi, ← hB, getElem?_take_of_lt hi, hread]
    exact hfirst i (by omega) (by rw [hat]; exact hasKey_self hkey)
  rw [hwrite]
  refine ⟨?_, Go.drop_swapRemoveArray B _ (by omega)⟩
  have hslice : x'.1.pods = (Go.swapRemoveArray B x.1.pods.length j).take (x.1.pods.length - 1) := by
    rw [Go.take_swapRemoveArray B j hlen, hB, hx', NodeInfo.removeAt_pods,
      NodeInfo.pruneAffinity_pods]
  rw [hslice]
  exact take_prefix _ _

/-- **The range loop reads the original pods.**  From the `i`-th index on, while the array from
`i` on is the original one and the node's pods are its front, the loop over the remaining
indices is the loop over the remaining original pods.  The induction is on the number of indices
left; the agreement of the array past the current index is what it carries. -/
theorem removeLowerPriorityPodsRange_drop (pod : Pod) (orig : List Pod) :
    ∀ (k i : ℕ) (B : List Pod) (x : NodeInfo × σ), i + k = orig.length →
      B.drop i = orig.drop i → x.1.pods <+: B →
      removeLowerPriorityPodsRange cfg ph gen pod (range' i k) B x =
        removeLowerPriorityPods cfg ph gen pod (orig.drop i) x
  | 0, i, B, x, hk, _, _ => by
      rw [drop_eq_nil_of_le (by omega)]
      rfl
  | k + 1, i, B, x, hk, hdrop, hpre => by
      have hi : i < orig.length := by omega
      have hread : B[i]? = some orig[i] := by
        have h0 := congrArg (·[0]?) hdrop
        simp only [getElem?_drop, Nat.add_zero] at h0
        rw [h0, getElem?_eq_getElem hi]
      rw [range'_succ, drop_eq_getElem_cons hi, removeLowerPriorityPodsRange, hread,
        removeLowerPriorityPods]
      simp only
      by_cases hlow : PodPriority orig[i] < PodPriority pod
      · rw [if_pos hlow, if_pos hlow]
        rcases hr : removePod cfg ph gen pod x orig[i] with e | _ | x'
        · rfl
        · rfl
        · obtain ⟨hpre', hdrop'⟩ := removePodArray_frame hpre hread hr
          have hrest := removeLowerPriorityPodsRange_drop pod orig k (i + 1) _ x' (by omega)
            (hdrop'.trans (by rw [← drop_drop, hdrop, drop_drop])) hpre'
          rcases hnext : removeLowerPriorityPods cfg ph gen pod (drop (i + 1) orig) x' with
            e | _ | ⟨vs, x''⟩ <;> simp only [bind, Except.bind, hrest, hnext]
      · rw [if_neg hlow, if_neg hlow]
        exact removeLowerPriorityPodsRange_drop pod orig k (i + 1) B x (by omega)
          (by rw [← drop_drop, hdrop, drop_drop]) hpre

theorem removeLowerPriorityPodsRange_eq (pod : Pod) (nodeInfo : NodeInfo) (state : σ) :
    removeLowerPriorityPodsRange cfg ph gen pod (range nodeInfo.pods.length) nodeInfo.pods
        (nodeInfo, state) =
      removeLowerPriorityPods cfg ph gen pod nodeInfo.pods (nodeInfo, state) := by
  rw [range_eq_range']
  exact removeLowerPriorityPodsRange_drop pod nodeInfo.pods nodeInfo.pods.length 0 _ _
    (Nat.zero_add _) rfl (prefix_refl _)

/-- **The removal loop visits every pod of the node once.**  The loop as Go runs it, reading the
array that `RemovePod` rewrites, is the loop over the node's original pods; on a node whose pods
have distinct keys, a run that does not fail returns as potential victims exactly the pods of
lower priority than `pod`, in their order, and leaves the node holding exactly the others. -/
theorem removeLowerPriorityPodsRange_spec (pod : Pod) (nodeInfo : NodeInfo) (state : σ)
    (hk : KeysOk nodeInfo.pods) :
    removeLowerPriorityPodsRange cfg ph gen pod (range nodeInfo.pods.length) nodeInfo.pods
        (nodeInfo, state) =
      removeLowerPriorityPods cfg ph gen pod nodeInfo.pods (nodeInfo, state) ∧
    ∀ vs x', removeLowerPriorityPodsRange cfg ph gen pod (range nodeInfo.pods.length)
        nodeInfo.pods (nodeInfo, state) = .ok (some (vs, x')) →
      vs = nodeInfo.pods.filter (fun p => PodPriority p < PodPriority pod) ∧
        x'.1.pods ~ nodeInfo.pods.filter (fun p => !decide (PodPriority p < PodPriority pod)) := by
  refine ⟨removeLowerPriorityPodsRange_eq pod nodeInfo state, fun vs x' h => ?_⟩
  rw [removeLowerPriorityPodsRange_eq] at h
  obtain ⟨hvs, hperm, -, -⟩ := removeLowerPriorityPods_invariant (fun _ => True)
    (fun _ _ _ _ _ _ _ => trivial) nodeInfo.pods (nodeInfo, state) hk (Subperm.refl _) trivial h
  refine ⟨hvs, ?_⟩
  have hsplit := filter_append_perm (fun p => decide (PodPriority p < PodPriority pod)) nodeInfo.pods
  rw [← hvs] at hsplit
  exact (perm_append_right_iff vs).mp (hperm.trans (hsplit.symm.trans perm_append_comm))

/-- The node `n` of a cache that added pods `a`, `b`, `c` to it, where only `b` outranks the
preemptor: removing `a` moves `c` into the first slot of the array, and the loop still reads `c`
at its own index.  The keys of the node's pods are distinct because the cache reached it. -/
theorem removeLowerPriorityPodsRange_spec_threePods :
    let cfg : Config :=
      { localStorageCapacityIsolation := false, podOverhead := false,
        isScalarResourceName := fun _ => false }
    let ph : PreemptHandle Unit :=
      ⟨fun _ _ _ => true, fun s _ _ _ => .ok s, fun s _ _ _ => .ok s⟩
    let a : Pod := { name := "a", uid := "a", nodeName := "n", priority := some 0 }
    let b : Pod := { name := "b", uid := "b", nodeName := "n", priority := some 20 }
    let c : Pod := { name := "c", uid := "c", nodeName := "n", priority := some 0 }
    let pod : Pod := { name := "p", uid := "p", priority := some 10 }
    ∃ s, (Cache.newSchedulerCache 30).run cfg
        [.AddNode { name := "n" }, .AddPod a, .AddPod b, .AddPod c] = .ok s ∧
      ∃ nodeInfo, s.nodes "n" = some nodeInfo ∧ nodeInfo.pods = [a, b, c] ∧
        (removeLowerPriorityPodsRange cfg ph 0 pod (range nodeInfo.pods.length) nodeInfo.pods
            (nodeInfo, ()) =
          removeLowerPriorityPods cfg ph 0 pod nodeInfo.pods (nodeInfo, ()) ∧
        ∀ vs x', removeLowerPriorityPodsRange cfg ph 0 pod (range nodeInfo.pods.length)
            nodeInfo.pods (nodeInfo, ()) = .ok (some (vs, x')) →
          vs = nodeInfo.pods.filter (fun p => PodPriority p < PodPriority pod) ∧
            x'.1.pods ~ nodeInfo.pods.filter (fun p => !decide (PodPriority p < PodPriority pod))) := by
  intro cfg ph a b c pod
  have hok : ∀ op ∈ [Cache.CacheOp.AddNode { name := "n" }, .AddPod a, .AddPod b, .AddPod c],
      ∀ _ : Cache.SchedulerCache, Cache.OpOk (fun _ => a.profile) op := by
    intro op hop _
    simp only [List.mem_cons, List.not_mem_nil, or_false] at hop
    rcases hop with rfl | rfl | rfl | rfl <;> trivial
  have hr : Cache.Reachable cfg (fun _ => a.profile) 30 _ :=
    Cache.SchedulerCache.reachable_of_run cfg _ hok .init rfl
  refine ⟨_, rfl, _, rfl, rfl, ?_⟩
  exact removeLowerPriorityPodsRange_spec pod _ () (Cache.reachable_keysOk hr (m := "n") rfl)

end range

end DefaultPreemption

end Caspr
