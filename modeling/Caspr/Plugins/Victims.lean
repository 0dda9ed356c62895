import Caspr.Framework.Aggregates
import Caspr.Plugins.Budgets
import Caspr.Cache.Consistency

/-! # The victims `selectVictimsOnNode` chooses on one node

`selectVictimsOnNode` removes every pod of lower priority than the preemptor from a copy of the
node, checks that the preemptor then fits, and puts the removed pods back one by one, more
important first and the pods whose eviction would violate a disruption budget before the others,
removing a pod again when the preemptor no longer fits with it.

The plugins see the node through their cycle state, which `PreFilter` computed from the pods of
the node, and which the `AddPod` and `RemovePod` extensions update as pods come and go.  When that
state is a function of the pods as a multiset, kept so by the extensions (`FollowsPods`), and the
filters' verdict reads the pods as a multiset (`VerdictOnPods`), every answer that fits is sound
(`selectVictimsOnNode_sound`): the victims are pods of the node of lower priority, the preemptor
passes the filters on the node without them, and the number returned counts the victims of the
violating group.

Each loop is described by an invariant over the node it works on: the pods still on the node
together with the victims so far are a permutation of what the loop started from
(`removeLowerPriorityPods_spec`, `reprievePods_spec`); `RemovePod` swap-removes, so nothing is
said about the order of the pods.  Removing a pod by key removes that very pod because the keys
of the node's pods are distinct (`KeysOk`), as they are on every node of a reachable cache
(`Cache.reachable_keysOk`). -/

namespace Caspr

namespace DefaultPreemption

open List StepSystem

/-! ### Pods with distinct keys -/

/-- The pods of a node have keys, and distinct ones: `NodeInfo.RemovePod`, which removes the
first pod of a key, then removes exactly the pod it is given. -/
def KeysOk (pods : List Pod) : Prop :=
  (pods.map Pod.uid).Nodup ∧ ∀ p ∈ pods, p.uid ≠ ""

namespace KeysOk

variable {l l' : List Pod}

theorem perm (h : KeysOk l) (hp : l ~ l') : KeysOk l' :=
  ⟨(hp.map Pod.uid).nodup_iff.mp h.1, fun p hp' => h.2 p (hp.mem_iff.mpr hp')⟩

theorem subperm (h : KeysOk l') (hs : l <+~ l') : KeysOk l := by
  obtain ⟨l₀, hperm, hsub⟩ := hs
  exact KeysOk.perm ⟨h.1.sublist (hsub.map Pod.uid), fun p hp => h.2 p (hsub.subset hp)⟩ hperm

theorem nodup (h : KeysOk l) : l.Nodup :=
  h.1.of_map Pod.uid

theorem eraseP_hasKey (h : KeysOk l) {rp : Pod} (hmem : rp ∈ l) :
    l.eraseP (hasKey rp.uid) = l.erase rp := by
  rw [erase_eq_eraseP']
  refine Go.eraseP_congr (fun x hx => ?_)
  have hiff : hasKey rp.uid x = true ↔ x = rp := by
    rw [hasKey_iff]
    constructor
    · rintro ⟨_, hk⟩
      exact inj_on_of_nodup_map h.1 hx hmem hk
    · rintro rfl
      exact ⟨h.2 x hx, rfl⟩
  exact Bool.eq_iff_iff.mpr (hiff.trans beq_iff_eq.symm)

end KeysOk

end DefaultPreemption

/-! ### The nodes of the cache -/

namespace Cache

/-- **The nodes of a cache that keeps its invariant hold pods with distinct keys.** -/
theorem Inv.keysOk {cfg : Config} {spec : String → PodProfile} {s : SchedulerCache}
    (h : Inv cfg spec s) {m : String} {n : NodeInfo} (hn : s.nodes m = some n) :
    DefaultPreemption.KeysOk n.pods := by
  have hpods : s.podsOn m = n.pods := by simp [SchedulerCache.podsOn, hn]
  refine ⟨List.nodup_iff_count_le_one.mpr fun k => ?_, fun p hp => ((h.nodes m n hn).pods p hp).1⟩
  have hcount : n.pods.countP ((fun x => x == k) ∘ Pod.uid) = expected s.podStates k m := by
    rw [← hpods]
    exact h.countP_uid k m
  have hexp : expected s.podStates k m ≤ 1 := by
    unfold expected
    split
    · split <;> omega
    · omega
  rw [List.count_eq_countP, List.countP_map, hcount]
  exact hexp

/-- In every reachable state of the cache, the pods of every node have distinct keys. -/
theorem reachable_keysOk {cfg : Config} {spec : String → PodProfile} {ttl : ℤ} {s : SchedulerCache}
    (hr : Reachable cfg spec ttl s) {m : String} {n : NodeInfo} (hn : s.nodes m = some n) :
    DefaultPreemption.KeysOk n.pods :=
  (Inv.reachable hr).keysOk hn

end Cache

namespace DefaultPreemption

open List StepSystem

theorem removePod_of_keysOk (cfg : Config) {n : NodeInfo} (hk : KeysOk n.pods) {rp : Pod}
    (hmem : rp ∈ n.pods) (g : ℤ) :
    ∃ n', n.removePod cfg rp g = .ok (n', none) ∧ n'.node = n.node ∧ n'.pods ~ n.pods.erase rp := by
  have hkey : rp.uid ≠ "" := hk.2 rp hmem
  obtain ⟨i, hr, hi⟩ :=
    NodeInfo.removePod_of_mem cfg hkey ⟨rp, hmem, (hasKey_iff _ _).mpr ⟨hkey, rfl⟩⟩
  refine ⟨_, hr, rfl, ?_⟩
  have hfirst : Go.swapRemoveFirst (hasKey rp.uid) n.pods = Go.swapRemove n.pods i := by
    simp [Go.swapRemoveFirst, hi]
  rw [NodeInfo.removeAt_pods, NodeInfo.pruneAffinity_pods, ← hfirst, ← hk.eraseP_hasKey hmem]
  exact Go.swapRemoveFirst_perm _ _

/-- The potential victims of `pod` on a node holding `pods`, in the order `selectVictimsOnNode`
reprieves them: the pods of lower priority, more important first. -/
def potentialVictims (now : ℤ) (pod : Pod) (pods : List Pod) : List Pod :=
  (pods.filter fun p => PodPriority p < PodPriority pod).insertionSort
    fun p q => MoreImportantPod now p q = true

theorem groups_disjoint {pods : List Pod} (pdbs : List PodDisruptionBudget) (hnodup : pods.Nodup) :
    ∀ a ∈ (filterPodsWithPDBViolation pods pdbs).1, ∀ b ∈ (filterPodsWithPDBViolation pods pdbs).2,
      a ≠ b := by
  obtain ⟨-, -, hpart⟩ := filterPodsWithPDBViolation_partition pods pdbs
  exact (nodup_append.mp (hpart.nodup_iff.mpr hnodup)).2.2

/-! ### The plugins' state and verdict -/

section search

variable {σ : Type} (cfg : Config) (ph : PreemptHandle σ) (gen : ℤ) (stateOf : List Pod → σ)
  (pod : Pod)

/-- The plugins' cycle state follows the pods of the node: it is `stateOf` of them in any order,
and an extension that succeeds after a pod is added to or removed from the node leaves `stateOf`
of the node's new pods.  In particular `AddPod` and `RemovePod` of one pod undo each other. -/
structure FollowsPods : Prop where
  perm : ∀ l l', l ~ l' → stateOf l = stateOf l'
  add : ∀ l p ni s, ni.pods ~ l ++ [p] →
    ph.RunPreFilterExtensionAddPod (stateOf l) pod p ni = .ok s → s = stateOf ni.pods
  remove : ∀ l p ni s, p ∈ l → ni.pods ~ l.erase p →
    ph.RunPreFilterExtensionRemovePod (stateOf l) pod p ni = .ok s → s = stateOf ni.pods

/-- The filters' verdict on a node reads its pods as a multiset. -/
def VerdictOnPods : Prop :=
  ∀ s ni ni', ni.node = ni'.node → ni.pods ~ ni'.pods →
    ph.PodPassesFiltersOnNode s pod ni = ph.PodPassesFiltersOnNode s pod ni'

variable {cfg ph gen stateOf pod}

/-! ### The closures -/

/-- The closure `removePod` succeeds through `RemovePod` without an error and an extension that
succeeds on the node it leaves. -/
theorem removePod_eq_some {x x' : NodeInfo × σ} {rp : Pod}
    (h : removePod cfg ph gen pod x rp = .ok (some x')) :
    x.1.removePod cfg rp gen = .ok (x'.1, none) ∧
      ph.RunPreFilterExtensionRemovePod x.2 pod rp x'.1 = .ok x'.2 := by
  obtain ⟨⟨n', err⟩, hr, h⟩ := bind_eq_ok.mp h
  cases err with
  | some e => cases h
  | none =>
      dsimp only at h
      cases hrun : ph.RunPreFilterExtensionRemovePod x.2 pod rp n' with
      | error e =>
          simp only [hrun] at h
          cases h
      | ok s =>
          simp only [hrun, pure, Except.pure, Except.ok.injEq, Option.some.injEq] at h
          subst h
          exact ⟨hr, hrun⟩

theorem removePod_pods {x x' : NodeInfo × σ} {rp : Pod} (hk : KeysOk x.1.pods)
    (hmem : rp ∈ x.1.pods) (h : removePod cfg ph gen pod x rp = .ok (some x')) :
    x'.1.node = x.1.node ∧ x'.1.pods ~ x.1.pods.erase rp := by
  obtain ⟨n', hr, hnode, hperm⟩ := removePod_of_keysOk cfg hk hmem gen
  obtain rfl : n' = x'.1 := (Prod.mk.inj (Except.ok.inj (hr.symm.trans (removePod_eq_some h).1))).1
  exact ⟨hnode, hperm⟩

theorem removePod_spec (hf : FollowsPods ph stateOf pod) {x x' : NodeInfo × σ} {rp : Pod}
    (hk : KeysOk x.1.pods) (hmem : rp ∈ x.1.pods) (hst : x.2 = stateOf x.1.pods)
    (h : removePod cfg ph gen pod x rp = .ok (some x')) :
    x'.1.node = x.1.node ∧ x'.1.pods ~ x.1.pods.erase rp ∧ x'.2 = stateOf x'.1.pods := by
  obtain ⟨hnode, hperm⟩ := removePod_pods hk hmem h
  have hrun := (removePod_eq_some h).2
  rw [hst] at hrun
  exact ⟨hnode, hperm, hf.remove _ rp _ _ hmem hperm hrun⟩

theorem addPod_spec (hf : FollowsPods ph stateOf pod) {x x' : NodeInfo × σ} {ap : Pod}
    (hst : x.2 = stateOf x.1.pods) (h : addPod cfg ph gen pod x ap = some x') :
    x'.1.node = x.1.node ∧ x'.1.pods = x.1.pods ++ [ap] ∧ x'.2 = stateOf x'.1.pods := by
  dsimp only [addPod] at h
  cases hrun : ph.RunPreFilterExtensionAddPod x.2 pod ap (x.1.addPod cfg ap gen) with
  | error e => simp [hrun] at h
  | ok s =>
      simp only [hrun, Option.some.injEq] at h
      subst h
      rw [hst] at hrun
      exact ⟨rfl, rfl, hf.add _ ap _ s (by simp) hrun⟩

/-! ### The two loops -/

/-- **The first loop removes exactly the pods of lower priority.**  Over pods of a node whose
keys are distinct, a run that does not fail returns the pods of lower priority than `pod`, in
their order, and leaves the node holding the others; a property `R` of the node and the plugins'
state that every removal of a pod of the node keeps holds at the end. -/
theorem removeLowerPriorityPods_invariant (R : NodeInfo × σ → Prop)
    (hR : ∀ x x' rp, KeysOk x.1.pods → rp ∈ x.1.pods → R x →
      removePod cfg ph gen pod x rp = .ok (some x') → R x') :
    ∀ (ps : List Pod) (x : NodeInfo × σ) {vs : List Pod} {x' : NodeInfo × σ},
      KeysOk x.1.pods → ps <+~ x.1.pods → R x →
      removeLowerPriorityPods cfg ph gen pod ps x = .ok (some (vs, x')) →
      vs = ps.filter (fun p => PodPriority p < PodPriority pod) ∧ x'.1.pods ++ vs ~ x.1.pods ∧
        x'.1.node = x.1.node ∧ R x'
  | [], x, vs, x', _, _, hRx, h => by
      simp only [removeLowerPriorityPods, pure, Except.pure, Except.ok.injEq, Option.some.injEq,
        Prod.mk.injEq] at h
      obtain ⟨rfl, rfl⟩ := h
      simp [hRx]
  | p :: ps, x, vs, x', hk, hsub, hRx, h => by
      rw [removeLowerPriorityPods] at h
      by_cases hlow : PodPriority p < PodPriority pod
      · rw [if_pos hlow] at h
        have hmem : p ∈ x.1.pods := hsub.subset mem_cons_self
        obtain ⟨r, hr, h⟩ := bind_eq_ok.mp h
        cases r with
        | none => cases h
        | some x₁ =>
            obtain ⟨hnode₁, hperm₁⟩ := removePod_pods hk hmem hr
            have hk₁ : KeysOk x₁.1.pods := (hk.subperm (erase_sublist ..).subperm).perm hperm₁.symm
            have hsub₁ : ps <+~ x₁.1.pods := by
              have hrest := hsub.erase p
              rw [erase_cons_head] at hrest
              exact hrest.trans hperm₁.symm.subperm
            obtain ⟨r₂, hr₂, h⟩ := bind_eq_ok.mp h
            cases r₂ with
            | none => cases h
            | some r₂ =>
                obtain ⟨vs', x₂⟩ := r₂
                simp only [pure, Except.pure, Except.ok.injEq, Option.some.injEq,
                  Prod.mk.injEq] at h
                obtain ⟨rfl, rfl⟩ := h
                obtain ⟨hvs, hperm, hnode, hR'⟩ :=
                  removeLowerPriorityPods_invariant R hR ps x₁ hk₁ hsub₁ (hR x x₁ p hk hmem hRx hr) hr₂
                refine ⟨by rw [filter_cons_of_pos (by simpa using hlow), hvs], ?_,
                  hnode.trans hnode₁, hR'⟩
                calc x₂.1.pods ++ p :: vs' ~ p :: (x₂.1.pods ++ vs') := perm_middle
                  _ ~ p :: x₁.1.pods := hperm.cons p
                  _ ~ p :: x.1.pods.erase p := hperm₁.cons p
                  _ ~ x.1.pods := (perm_cons_erase hmem).symm
      · rw [if_neg hlow] at h
        obtain ⟨hvs, hperm, hnode, hR'⟩ := removeLowerPriorityPods_invariant R hR ps x hk
          ((sublist_cons_self p ps).subperm.trans hsub) hRx h
        exact ⟨by rw [filter_cons_of_neg (by simpa using hlow), hvs], hperm, hnode, hR'⟩

theorem removeLowerPriorityPods_spec (hf : FollowsPods ph stateOf pod) :
    ∀ (ps : List Pod) (x : NodeInfo × σ) {vs : List Pod} {x' : NodeInfo × σ},
      KeysOk x.1.pods → ps <+~ x.1.pods → x.2 = stateOf x.1.pods →
      removeLowerPriorityPods cfg ph gen pod ps x = .ok (some (vs, x')) →
      vs = ps.filter (fun p => PodPriority p < PodPriority pod) ∧ x'.1.pods ++ vs ~ x.1.pods ∧
        x'.1.node = x.1.node ∧ x'.2 = stateOf x'.1.pods :=
  removeLowerPriorityPods_invariant (fun x => x.2 = stateOf x.1.pods)
    fun _ _ _ hk hmem hst h => (removePod_spec hf hk hmem hst h).2.2

/-- **A reprieve loop keeps the preemptor fitting.**  From a node the preemptor fits on, whose
state follows its pods and whose pods together with the group have distinct keys, a run that
does not fail returns a sublist of the group as victims and leaves a node the preemptor fits on,
holding the starting pods and the reprieved ones. -/
theorem reprievePods_spec (hf : FollowsPods ph stateOf pod) (hv : VerdictOnPods ph pod) :
    ∀ (ps : List Pod) (x : NodeInfo × σ) {vs : List Pod} {x' : NodeInfo × σ},
      KeysOk (x.1.pods ++ ps) → x.2 = stateOf x.1.pods →
      ph.PodPassesFiltersOnNode x.2 pod x.1 = true →
      reprievePods cfg ph gen pod ps x = .ok (some (vs, x')) →
      vs <+ ps ∧ x'.1.pods ++ vs ~ x.1.pods ++ ps ∧ x'.1.node = x.1.node ∧
        x'.2 = stateOf x'.1.pods ∧ ph.PodPassesFiltersOnNode x'.2 pod x'.1 = true
  | [], x, vs, x', _, hst, hfits, h => by
      simp only [reprievePods, pure, Except.pure, Except.ok.injEq, Option.some.injEq,
        Prod.mk.injEq] at h
      obtain ⟨rfl, rfl⟩ := h
      exact ⟨Sublist.refl _, Perm.refl _, rfl, hst, hfits⟩
  | p :: ps, x, vs, x', hk, hst, hfits, h => by
      rw [reprievePods] at h
      cases ha : addPod cfg ph gen pod x p with
      | none =>
          simp only [ha] at h
          cases h
      | some x₁ =>
          simp only [ha] at h
          obtain ⟨hnode₁, hpods₁, hst₁⟩ := addPod_spec hf hst ha
          have hk₁ : KeysOk (x₁.1.pods ++ ps) := by rwa [hpods₁, append_assoc, singleton_append]
          by_cases hfits₁ : ph.PodPassesFiltersOnNode x₁.2 pod x₁.1 = true
          · rw [if_pos hfits₁] at h
            obtain ⟨hsub, hperm, hnode, hst', hfits'⟩ :=
              reprievePods_spec hf hv ps x₁ hk₁ hst₁ hfits₁ h
            refine ⟨hsub.cons p, ?_, hnode.trans hnode₁, hst', hfits'⟩
            rwa [hpods₁, append_assoc, singleton_append] at hperm
          · rw [if_neg hfits₁] at h
            have hnotmem : p ∉ x.1.pods := fun hm =>
              (nodup_append.mp hk.nodup).2.2 p hm p mem_cons_self rfl
            obtain ⟨r, hr, h⟩ := bind_eq_ok.mp h
            cases r with
            | none => cases h
            | some x₂ =>
                have hk₁' : KeysOk x₁.1.pods := hk₁.subperm (sublist_append_left _ _).subperm
                have hmem : p ∈ x₁.1.pods := by simp [hpods₁]
                obtain ⟨hnode₂, hperm₂, hst₂⟩ := removePod_spec hf hk₁' hmem hst₁ hr
                have hback : x₂.1.pods ~ x.1.pods := by
                  rwa [hpods₁, erase_append_right _ hnotmem, erase_cons_head, append_nil] at hperm₂
                have hfits₂ : ph.PodPassesFiltersOnNode x₂.2 pod x₂.1 = true := by
                  rw [hst₂, hf.perm _ _ hback, ← hst, hv _ _ _ (hnode₂.trans hnode₁) hback]
                  exact hfits
                have hk₂ : KeysOk (x₂.1.pods ++ ps) :=
                  hk.subperm ((hback.append_right ps).subperm.trans
                    ((sublist_cons_self p ps).append_left _).subperm)
                obtain ⟨r₂, hr₂, h⟩ := bind_eq_ok.mp h
                cases r₂ with
                | none => cases h
                | some r₂ =>
                    obtain ⟨vs', x₃⟩ := r₂
                    simp only [pure, Except.pure, Except.ok.injEq, Option.some.injEq,
                      Prod.mk.injEq] at h
                    obtain ⟨rfl, rfl⟩ := h
                    obtain ⟨hsub, hperm, hnode, hst', hfits'⟩ :=
                      reprievePods_spec hf hv ps x₂ hk₂ hst₂ hfits₂ hr₂
                    refine ⟨hsub.cons_cons p, ?_, hnode.trans (hnode₂.trans hnode₁), hst', hfits'⟩
                    calc x₃.1.pods ++ p :: vs' ~ p :: (x₃.1.pods ++ vs') := perm_middle
                      _ ~ p :: (x₂.1.pods ++ ps) := hperm.cons p
                      _ ~ p :: (x.1.pods ++ ps) := (hback.append_right ps).cons p
                      _ ~ x.1.pods ++ p :: ps := perm_middle.symm

/-! ### The search -/

/-- **The victims `selectVictimsOnNode` returns when the pod fits make room for it.**  On a node
whose pods have distinct keys, with a state that follows the pods and filters that read them as a
multiset, an answer `(victims, numViolating, true)` names pods of the node of lower priority than
`pod`, the pod passes the filters on the node without them (whatever the order of the pods left),
and `numViolating` counts the victims of the violating group. -/
theorem selectVictimsOnNode_sound (now : ℤ) (state : σ) (nodeInfo : NodeInfo)
    (pdbs : List PodDisruptionBudget) (hf : FollowsPods ph stateOf pod)
    (hv : VerdictOnPods ph pod) (hkeys : KeysOk nodeInfo.pods)
    (hstate : state = stateOf nodeInfo.pods) {victims : List Pod} {numViolating : ℕ}
    (h : selectVictimsOnNode cfg ph gen now state pod nodeInfo pdbs =
      .ok (victims, numViolating, true)) :
    victims <+~ nodeInfo.pods ∧ (∀ v ∈ victims, PodPriority v < PodPriority pod) ∧
      (∀ ni : NodeInfo, ni.node = nodeInfo.node → ni.pods ++ victims ~ nodeInfo.pods →
        ph.PodPassesFiltersOnNode (stateOf ni.pods) pod ni = true) ∧
      numViolating = (victims.filter fun v =>
        v ∈ (filterPodsWithPDBViolation (potentialVictims now pod nodeInfo.pods) pdbs).1).length := by
  obtain ⟨r, hr, h⟩ := bind_eq_ok.mp h
  cases r with
  | none => cases h
  | some r =>
  obtain ⟨pv, x⟩ := r
  -- the first loop: the node without the pods of lower priority
  obtain ⟨hpv, hperm₀, hnode₀, hst₀⟩ :=
    removeLowerPriorityPods_spec hf nodeInfo.pods (nodeInfo, state) hkeys (Subperm.refl _) hstate hr
  subst hpv
  dsimp only at h
  split_ifs at h with hlen hfit
  · cases h
  · cases h
  have hfits₀ : ph.PodPassesFiltersOnNode x.2 pod x.1 = true := by simpa using hfit
  -- the potential victims, sorted
  have hsorted : (nodeInfo.pods.filter fun p => PodPriority p < PodPriority pod).insertionSort
      (fun p q => MoreImportantPod now p q = true) = potentialVictims now pod nodeInfo.pods := rfl
  rw [hsorted] at h
  have hpvs : potentialVictims now pod nodeInfo.pods ~ _ := perm_insertionSort _ _
  have hgroups := filterPodsWithPDBViolation_partition (potentialVictims now pod nodeInfo.pods) pdbs
  have hdisj := groups_disjoint pdbs (hpvs.nodup_iff.mpr (hkeys.nodup.filter _))
  generalize hg : filterPodsWithPDBViolation (potentialVictims now pod nodeInfo.pods) pdbs =
    groups at h hgroups hdisj ⊢
  obtain ⟨viol, nonviol⟩ := groups
  obtain ⟨hviol, hnonviol, hpart⟩ := hgroups
  dsimp only at h hviol hnonviol hpart hdisj ⊢
  have hall : x.1.pods ++ (viol ++ nonviol) ~ nodeInfo.pods :=
    ((hpart.trans hpvs).append_left _).trans hperm₀
  -- the reprieve of the violating group
  obtain ⟨r₁, hr₁, h⟩ := bind_eq_ok.mp h
  cases r₁ with
  | none => cases h
  | some r₁ =>
  obtain ⟨v₁, x₁⟩ := r₁
  have hk₁ : KeysOk (x.1.pods ++ viol) :=
    hkeys.subperm (((sublist_append_left viol nonviol).append_left _).subperm.trans hall.subperm)
  obtain ⟨hsub₁, hperm₁, hnode₁, hst₁, hfits₁⟩ := reprievePods_spec hf hv viol x hk₁ hst₀ hfits₀ hr₁
  have hall₁ : x₁.1.pods ++ v₁ ++ nonviol ~ nodeInfo.pods := by
    refine (hperm₁.append_right nonviol).trans ?_
    rw [append_assoc]
    exact hall
  -- the reprieve of the other group
  dsimp only at h
  obtain ⟨r₂, hr₂, h⟩ := bind_eq_ok.mp h
  cases r₂ with
  | none => cases h
  | some r₂ =>
  obtain ⟨v₂, x₂⟩ := r₂
  simp only [pure, Except.pure, Except.ok.injEq, Prod.mk.injEq] at h
  obtain ⟨rfl, rfl, -⟩ := h
  have hk₂ : KeysOk (x₁.1.pods ++ nonviol) :=
    hkeys.subperm (((sublist_append_left _ v₁).append_right nonviol).subperm.trans hall₁.subperm)
  obtain ⟨hsub₂, hperm₂, hnode₂, hst₂, hfits₂⟩ :=
    reprievePods_spec hf hv nonviol x₁ hk₂ hst₁ hfits₁ hr₂
  -- the last node checked holds the node's pods but the victims
  have hfinal : x₂.1.pods ++ (v₁ ++ v₂) ~ nodeInfo.pods :=
    calc x₂.1.pods ++ (v₁ ++ v₂) ~ x₂.1.pods ++ (v₂ ++ v₁) := perm_append_comm.append_left _
      _ = x₂.1.pods ++ v₂ ++ v₁ := (append_assoc ..).symm
      _ ~ x₁.1.pods ++ nonviol ++ v₁ := hperm₂.append_right v₁
      _ ~ x₁.1.pods ++ v₁ ++ nonviol := by
        rw [append_assoc, append_assoc]
        exact perm_append_comm.append_left _
      _ ~ nodeInfo.pods := hall₁
  refine ⟨(sublist_append_right _ _).subperm.trans hfinal.subperm, ?_, ?_, ?_⟩
  · intro v hv
    have hmem : v ∈ potentialVictims now pod nodeInfo.pods := by
      rcases mem_append.mp hv with hv | hv
      · exact hviol.subset (hsub₁.subset hv)
      · exact hnonviol.subset (hsub₂.subset hv)
    simpa using (mem_filter.mp (hpvs.subset hmem)).2
  · intro ni hnode hni
    have hx₂ : x₂.1.pods ~ ni.pods := (perm_append_right_iff (v₁ ++ v₂)).mp (hfinal.trans hni.symm)
    have hnodes : x₂.1.node = ni.node := hnode₂.trans (hnode₁.trans (hnode₀.trans hnode.symm))
    rw [hf.perm _ _ hx₂.symm, ← hst₂, ← hv _ _ _ hnodes hx₂]
    exact hfits₂
  · rw [filter_append, filter_eq_self.mpr (fun v hv => by simpa using hsub₁.subset hv),
      filter_eq_nil_iff.mpr (fun v hv hmem => hdisj v (by simpa using hmem) v (hsub₂.subset hv) rfl),
      append_nil]

/-- The node `n` of a cache that added `a` and `q` to it, where the filters reject the pod while
`q` is on the node and a budget allows no disruption of `q`: `q` is the one victim, counted as
violating, and `a` is reprieved.  The keys of the node's pods are distinct because the cache
reached it. -/
theorem selectVictimsOnNode_sound_budget_victim :
    let cfg : Config :=
      { localStorageCapacityIsolation := false, podOverhead := false,
        isScalarResourceName := fun _ => false }
    let a : Pod :=
      { name := "a", podNamespace := "default", uid := "a", nodeName := "n", priority := some 0 }
    let q : Pod :=
      { name := "q", podNamespace := "default", uid := "q", nodeName := "n", priority := some 0,
        labels := AList.singleton "app" "db" }
    let ph : PreemptHandle Unit :=
      ⟨fun _ _ ni => !ni.pods.any (·.uid == "q"), fun s _ _ _ => .ok s, fun s _ _ _ => .ok s⟩
    let pod : Pod := { name := "p", uid := "p", priority := some 10 }
    let pdb : PodDisruptionBudget :=
      { pdbNamespace := "default", Selector := some { matchLabels := [("app", "db")] } }
    ∃ s, (Cache.newSchedulerCache 30).run cfg [.AddNode { name := "n" }, .AddPod a, .AddPod q] =
        .ok s ∧
      ∃ nodeInfo, s.nodes "n" = some nodeInfo ∧
        selectVictimsOnNode cfg ph 0 0 () pod nodeInfo [pdb] = .ok ([q], 1, true) ∧
        ∀ ni : NodeInfo, ni.node = nodeInfo.node → ni.pods ++ [q] ~ nodeInfo.pods →
          ph.PodPassesFiltersOnNode () pod ni = true := by
  intro cfg a q ph pod pdb
  have hf : FollowsPods ph (fun _ => ()) pod :=
    ⟨fun _ _ _ => rfl, fun _ _ _ _ _ _ => rfl, fun _ _ _ _ _ _ _ => rfl⟩
  have hv : VerdictOnPods ph pod := fun _ ni ni' _ hp => by
    simp only [ph, hp.any_eq]
  have hok : ∀ op ∈ [Cache.CacheOp.AddNode { name := "n" }, .AddPod a, .AddPod q],
      ∀ _ : Cache.SchedulerCache, Cache.OpOk (fun _ => a.profile) op := by
    intro op hop _
    simp only [List.mem_cons, List.not_mem_nil, or_false] at hop
    rcases hop with rfl | rfl | rfl <;> trivial
  have hr : Cache.Reachable cfg (fun _ => a.profile) 30 _ :=
    Cache.SchedulerCache.reachable_of_run cfg _ hok .init rfl
  refine ⟨_, rfl, _, rfl, ?_⟩
  have hk := Cache.reachable_keysOk hr (m := "n") rfl
  exact (fun hrun => ⟨hrun, (selectVictimsOnNode_sound 0 () _ [pdb] hf hv hk rfl hrun).2.2.1⟩) rfl

end search

end DefaultPreemption

end Caspr
