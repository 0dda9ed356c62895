import Caspr.Cache.Steps

/-! # What the cache guarantees in every reachable state

The consequences of `Inv` that the rest of the scheduler relies on, for every state reachable
from `newSchedulerCache` by calls whose pods are versions the API server delivered:

* `reachable_consistent`: the three maps of the cache agree.  Every assumed key has a state;
  the pod of every key with a state is stored exactly once, on the node of its state, and on no
  other node; every stored pod has a state; an assumed pod whose binding finished has a
  deadline, so that `cleanupAssumedPods` returns at every time; and no `NodeInfo` without a node
  and without pods is kept.
* `reachable_aggregates`: every `NodeInfo` has the aggregates of its pods, and every
  `NodeInfo` a call changes or creates gets a generation above every generation before the
  call, which is what `UpdateSnapshot` relies on to copy only what changed. -/

namespace Caspr

namespace Cache

variable {cfg : Config} {spec : String → PodProfile}

section derived

variable {s : SchedulerCache}

theorem Inv.mem_podsOn (h : Inv cfg spec s) {m : String} {p : Pod} (hp : p ∈ s.podsOn m) :
    p.uid ≠ "" ∧ PodOk spec p ∧ p.nodeName = m := by
  unfold SchedulerCache.podsOn at hp
  cases hn : s.nodes m with
  | none => simp [hn] at hp
  | some n =>
      rw [hn] at hp
      exact (h.nodes m n hn).pods p hp

theorem Inv.countP_uid (h : Inv cfg spec s) (k m : String) :
    (s.podsOn m).countP (fun p => p.uid == k) = expected s.podStates k m := by
  rw [← h.count k m]
  refine List.countP_congr fun p hp => ?_
  simp [hasKey_iff, (h.mem_podsOn hp).1]

end derived

/-- **The maps of the cache agree** in every reachable state. -/
theorem reachable_consistent {ttl : ℤ} {s : SchedulerCache} (hr : Reachable cfg spec ttl s) :
    (∀ k ∈ s.assumedPods, (s.podStates k).isSome) ∧
    (∀ k st, s.podStates k = some st → ∀ m,
      (s.podsOn m).countP (fun p => p.uid == k) = if m = st.pod.nodeName then 1 else 0) ∧
    (∀ m, ∀ p ∈ s.podsOn m, (s.podStates p.uid).isSome) ∧
    (∀ k ∈ s.assumedPods, ∀ st, s.podStates k = some st → st.bindingFinished = true →
      st.deadline.isSome) ∧
    (∀ now, ∃ s', s.cleanupAssumedPods cfg now = .ok (s', none)) ∧
    (∀ m n, s.nodes m = some n → n.node.isSome ∨ n.pods ≠ []) := by
  have h := Inv.reachable hr
  refine ⟨?assumed, ?count, ?stored, ?deadline, ?cleanup, ?kept⟩
  case assumed =>
    intro k hk
    obtain ⟨st, hst, -⟩ := h.assumed k hk
    simp [hst]
  case count =>
    intro k st hst m
    rw [h.countP_uid, expected, hst]
    simp only [eq_comm]
  case stored =>
    intro m p hp
    -- the pod's key is counted once on its node, so the key has a state
    have hcount : 0 < (s.podsOn m).countP (hasKey p.uid) :=
      List.countP_pos_iff.mpr ⟨p, hp, hasKey_self (h.mem_podsOn hp).1⟩
    rw [h.count, expected] at hcount
    cases hst : s.podStates p.uid with
    | none => simp [hst] at hcount
    | some st => rfl
  case deadline =>
    intro k hk st hst hb
    obtain ⟨st', hst', hd⟩ := h.assumed k hk
    rw [hst] at hst'
    cases hst'
    exact Option.isSome_iff_ne_none.mpr (hd hb)
  case cleanup =>
    intro now
    obtain ⟨s', hs', -⟩ := h.cleanupAssumedPods now
    exact ⟨s', hs'⟩
  case kept =>
    intro m n hn
    rcases (h.nodes m n hn).kept with hnode | hpods
    · exact .inl (Option.isSome_iff_ne_none.mpr hnode)
    · exact .inr hpods

/-- Two nodes; a pod assumed on the first and a pod added to the second, then the second pod
and its node removed: the assumed pod alone is left, on the first node. -/
theorem reachable_consistent_assumed :
    let cfg : Config := ⟨true, true, fun _ => false⟩
    let p₁ : Pod := { uid := "u1", nodeName := "n1" }
    let p₂ : Pod := { uid := "u2", nodeName := "n2" }
    let ops : List CacheOp := [.AddNode { name := "n1" }, .AddNode { name := "n2" }, .AssumePod p₁,
      .AddPod p₂, .RemovePod p₂, .RemoveNode { name := "n2" }]
    ∃ s, (newSchedulerCache 30).run cfg ops = .ok s ∧ s.assumedPods = ["u1"] ∧
      (s.podsOn "n1").map (·.uid) = ["u1"] ∧ s.nodes "n2" = none ∧
      (∀ k ∈ s.assumedPods, (s.podStates k).isSome) ∧
      (∀ k st, s.podStates k = some st → ∀ m,
        (s.podsOn m).countP (fun p => p.uid == k) = if m = st.pod.nodeName then 1 else 0) ∧
      (∀ m, ∀ p ∈ s.podsOn m, (s.podStates p.uid).isSome) ∧
      (∀ k ∈ s.assumedPods, ∀ st, s.podStates k = some st → st.bindingFinished = true →
        st.deadline.isSome) ∧
      (∀ now, ∃ s', s.cleanupAssumedPods cfg now = .ok (s', none)) ∧
      (∀ m n, s.nodes m = some n → n.node.isSome ∨ n.pods ≠ []) := by
  intro cfg p₁ p₂ ops
  let spec : String → PodProfile := fun uid => if uid = "u1" then p₁.profile else p₂.profile
  have hok : ∀ op ∈ ops, ∀ _ : SchedulerCache, OpOk spec op := by
    intro op hop _
    simp only [ops, List.mem_cons, List.not_mem_nil, or_false] at hop
    rcases hop with rfl | rfl | rfl | rfl | rfl | rfl <;> trivial
  have hr : Reachable cfg spec 30 _ := SchedulerCache.reachable_of_run cfg ops hok .init rfl
  exact ⟨_, rfl, rfl, rfl, rfl, reachable_consistent hr⟩

/-- **Aggregates and generations** in every reachable state: every `NodeInfo` has the
aggregates of its pods, and a call leaves every `NodeInfo` as it was or gives it a generation
above every generation in the cache before the call. -/
theorem reachable_aggregates {ttl : ℤ} {s : SchedulerCache} (hr : Reachable cfg spec ttl s) :
    (∀ m n, s.nodes m = some n → NodeInfo.Aggregates cfg n) ∧
    ∀ op s', OpOk spec op → s.Step cfg op s' → ∀ m n', s'.nodes m = some n' →
      s.nodes m = some n' ∨ ∀ m₀ n₀, s.nodes m₀ = some n₀ → n₀.generation < n'.generation := by
  have h := Inv.reachable hr
  refine ⟨fun m n hn => (h.nodes m n hn).aggregates, fun op s' hop hs m n' hn' => ?_⟩
  rcases (h.step hop hs).2.nodes m n' hn' with hold | hlt
  · exact .inl hold
  · exact .inr fun m₀ n₀ hn₀ => lt_of_le_of_lt (h.nodes m₀ n₀ hn₀).generation hlt

/-- A pod assumed on an empty cache. -/
theorem reachable_aggregates_assumed :
    let pod : Pod := { uid := "u1", nodeName := "node-0" }
    let cfg : Config := ⟨true, true, fun _ => false⟩
    let c := (newSchedulerCache 30).addPod cfg pod
    let s : SchedulerCache := { c with
      podStates := Function.update c.podStates "u1" (some { pod := pod }),
      assumedPods := "u1" :: c.assumedPods }
    (∀ m n, s.nodes m = some n → NodeInfo.Aggregates cfg n) ∧
    ∀ op s', OpOk (fun _ => pod.profile) op → s.Step cfg op s' → ∀ m n', s'.nodes m = some n' →
      s.nodes m = some n' ∨ ∀ m₀ n₀, s.nodes m₀ = some n₀ → n₀.generation < n'.generation := by
  intro pod cfg c s
  exact @reachable_aggregates cfg (fun _ => pod.profile) 30 s
    (.step (.AssumePod pod) .init rfl ⟨none, rfl⟩)

/-- **Without the API server's guarantee the aggregates break**: `ForgetPod` takes out the stored
pod of its key but subtracts the requests of the version it is given.  Two pods of one CPU are
assumed on `n0`; the first is forgotten through a version that requests two, and `n0` is left
with the second pod and no CPU requested. -/
theorem reachable_aggregates_unassumed :
    let cfg : Config := ⟨true, true, fun _ => false⟩
    let cpu (m : ℕ) : Container := { requests := AList.singleton ResourceCPU (Quantity.milli m) }
    let p₁ : Pod := { uid := "u1", nodeName := "n0", containers := [cpu 1000] }
    let p₂ : Pod := { uid := "u2", nodeName := "n0", containers := [cpu 1000] }
    let ops : List CacheOp :=
      [.AssumePod p₁, .AssumePod p₂, .ForgetPod { p₁ with containers := [cpu 2000] }]
    ∃ s, (newSchedulerCache 30).run cfg ops = .ok s ∧
      StepSystem.Reachable (SchedulerCache.Step cfg) (fun _ _ => True) (newSchedulerCache 30) s ∧
      ∃ n, s.nodes "n0" = some n ∧ n.pods.map Pod.uid = ["u2"] ∧ n.requested.milliCPU = 0 ∧
        (n.pods.map fun p => (calculateResource cfg p).1.milliCPU).sum = 1000 := by
  intro cfg cpu p₁ p₂ ops
  exact ⟨_, rfl, SchedulerCache.reachable_of_run cfg ops (fun _ _ _ => trivial) .init rfl, _, rfl,
    by decide, by decide, by decide⟩

end Cache

end Caspr
