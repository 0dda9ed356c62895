import Caspr.Cache.Invariant

/-! # Every call on the cache keeps its invariant

Each method of `schedulerCache` is taken apart branch by branch: a branch that returns an error
before changing anything leaves the cache as it was, and every other branch is one of the
building blocks of `Caspr.Cache.Invariant` or two of them in sequence (`UpdatePod` removes the
old version and adds the new one).  `Inv.step` collects the ten calls, and
`Inv.reachable` runs the induction over every run from `newSchedulerCache`.

The branches the invariant rules out are named where they occur: `removePod` always finds the
pod it is asked to remove, `AddPod` never finds an assumed pod on another node, and
`cleanupAssumedPods` finds a state and a deadline for every key it visits. -/

namespace Caspr

namespace Cache

open List StepSystem

variable {cfg : Config} {spec : String → PodProfile}

section calls

variable {s s' : SchedulerCache} {err : Option String}

theorem Inv.assumePod {pod : Pod} (h : Inv cfg spec s) (hp : PodOk spec pod)
    (hr : s.AssumePod cfg pod = .ok (s', err)) : Inv cfg spec s' ∧ Fresh s s' := by
  unfold SchedulerCache.AssumePod at hr
  by_cases hk : pod.uid = ""
  · rw [GetPodKey_of_eq hk] at hr
    cases hr
    exact ⟨h, .refl s⟩
  rw [GetPodKey_of_ne hk] at hr
  dsimp only at hr
  cases hst : s.podStates pod.uid with
  | some st =>
      rw [hst] at hr
      cases hr
      exact ⟨h, .refl s⟩
  | none =>
      rw [hst] at hr
      cases hr
      exact h.addFresh hk hp hst { pod := pod } rfl rfl rfl (by simp) (.inr ⟨by simp, rfl⟩)

theorem Inv.finishBinding {pod : Pod} {now : ℤ} (h : Inv cfg spec s)
    (hr : s.finishBinding pod now = .ok (s', err)) : Inv cfg spec s' ∧ Fresh s s' := by
  unfold SchedulerCache.finishBinding at hr
  by_cases hk : pod.uid = ""
  · rw [GetPodKey_of_eq hk] at hr
    cases hr
    exact ⟨h, .refl s⟩
  rw [GetPodKey_of_ne hk] at hr
  dsimp only at hr
  cases hst : s.podStates pod.uid with
  | none =>
      rw [hst] at hr
      cases hr
      exact ⟨h, .refl s⟩
  | some st =>
      rw [hst] at hr
      dsimp only at hr
      obtain ⟨huid, hok⟩ := h.podStates _ st hst
      by_cases ha : s.isAssumed pod.uid = true
      · rw [if_pos ha] at hr
        cases hr
        exact h.setState hst { st with bindingFinished := true, deadline := some (now + s.ttl) }
          huid hok rfl rfl rfl rfl (.inl ⟨rfl, by simp⟩)
      · rw [if_neg ha] at hr
        cases hr
        exact ⟨h, .refl s⟩

theorem Inv.forgetPod {pod : Pod} (h : Inv cfg spec s) (hp : PodOk spec pod)
    (hr : s.ForgetPod cfg pod = .ok (s', err)) : Inv cfg spec s' ∧ Fresh s s' := by
  unfold SchedulerCache.ForgetPod at hr
  by_cases hk : pod.uid = ""
  · rw [GetPodKey_of_eq hk] at hr
    cases hr
    exact ⟨h, .refl s⟩
  rw [GetPodKey_of_ne hk] at hr
  dsimp only at hr
  cases hst : s.podStates pod.uid with
  | none =>
      rw [hst] at hr
      cases hr
      exact ⟨h, .refl s⟩
  | some st =>
      rw [hst] at hr
      dsimp only at hr
      by_cases hnode : st.pod.nodeName ≠ pod.nodeName
      · rw [if_pos hnode] at hr
        cases hr
        exact ⟨h, .refl s⟩
      rw [if_neg hnode] at hr
      by_cases ha : s.isAssumed pod.uid = true
      · rw [if_pos ha] at hr
        obtain ⟨s₁, hrem, hps₁, ha₁, hinv⟩ :=
          h.removePod_stored hst hp rfl (not_not.mp hnode).symm
        rw [hrem] at hr
        cases hr
        exact hinv _ rfl rfl (by simp [hps₁]) (by simp [ha₁])
      · rw [if_neg ha] at hr
        cases hr
        exact ⟨h, .refl s⟩

theorem Inv.addPod {pod : Pod} (h : Inv cfg spec s) (hp : PodOk spec pod)
    (hr : s.AddPod cfg pod = .ok (s', err)) : Inv cfg spec s' ∧ Fresh s s' := by
  unfold SchedulerCache.AddPod at hr
  by_cases hk : pod.uid = ""
  · rw [GetPodKey_of_eq hk] at hr
    cases hr
    exact ⟨h, .refl s⟩
  rw [GetPodKey_of_ne hk] at hr
  dsimp only at hr
  cases hst : s.podStates pod.uid with
  | none =>
      rw [hst] at hr
      cases hr
      exact h.addFresh hk hp hst { pod := pod } rfl rfl rfl (by simp) (.inl (by simp))
  | some st =>
      rw [hst] at hr
      dsimp only at hr
      obtain ⟨huid, hok⟩ := h.podStates _ st hst
      by_cases ha : s.isAssumed pod.uid = true
      · rw [if_pos ha] at hr
        have hnode : st.pod.nodeName = pod.nodeName := hok.nodeName_eq hp huid
        rw [if_neg (not_not.mpr hnode)] at hr
        cases hr
        exact h.setState hst { st with deadline := none, pod := pod } rfl hp hnode.symm rfl rfl rfl
          (.inr rfl)
      · rw [if_neg ha] at hr
        cases hr
        exact ⟨h, .refl s⟩

theorem Inv.updatePod {oldPod newPod : Pod} (h : Inv cfg spec s) (hold : PodOk spec oldPod)
    (hnew : PodOk spec newPod) (huid : oldPod.uid = newPod.uid)
    (hr : s.UpdatePod cfg oldPod newPod = .ok (s', err)) : Inv cfg spec s' ∧ Fresh s s' := by
  unfold SchedulerCache.UpdatePod at hr
  by_cases hk : oldPod.uid = ""
  · rw [GetPodKey_of_eq hk] at hr
    cases hr
    exact ⟨h, .refl s⟩
  rw [GetPodKey_of_ne hk] at hr
  dsimp only at hr
  cases hst : s.podStates oldPod.uid with
  | none =>
      rw [hst] at hr
      cases hr
      exact ⟨h, .refl s⟩
  | some st =>
      rw [hst] at hr
      dsimp only at hr
      obtain ⟨hsuid, hok⟩ := h.podStates _ st hst
      by_cases ha : s.isAssumed oldPod.uid = true
      · rw [if_pos ha] at hr
        cases hr
        exact ⟨h, .refl s⟩
      rw [if_neg ha] at hr
      have hnode : st.pod.nodeName = newPod.nodeName := hok.nodeName_eq hnew (hsuid.trans huid)
      rw [if_neg (not_not.mpr hnode)] at hr
      -- `updatePod` removes the old version, which is found, and adds the new one
      obtain ⟨s₁, hrem, hps₁, ha₁, hinv⟩ :=
        h.removePod_stored hst hold rfl (hok.nodeName_eq hold hsuid).symm
      have hupd : s.updatePod cfg oldPod newPod = .ok (s₁.addPod cfg newPod, none) := by
        simp [SchedulerCache.updatePod, hrem, bind, Except.bind]
      rw [hupd] at hr
      cases hr
      have hnotA : oldPod.uid ∉ s.assumedPods := by simpa [SchedulerCache.isAssumed] using ha
      let s₂ : SchedulerCache := { s₁ with
        podStates := Function.update s.podStates oldPod.uid none,
        assumedPods := s.assumedPods.erase oldPod.uid }
      obtain ⟨hinv₂, hfresh₂⟩ := hinv s₂ rfl rfl rfl rfl
      obtain ⟨hn, hg⟩ := SchedulerCache.addPod_congr cfg s₁ newPod
        (show s₂.nodes = s₁.nodes from rfl) (show s₂.generation = s₁.generation from rfl)
      have hnone : s₂.podStates newPod.uid = none := by simp [s₂, ← huid]
      exact hfresh₂.trans_inv (hinv₂.addFresh (huid ▸ hk) hnew hnone { st with pod := newPod }
        rfl hn.symm hg.symm (by simp [s₂, hps₁, ← huid])
        (.inl (by simp [s₂, ha₁, List.erase_of_not_mem hnotA])))

theorem Inv.removePod {pod : Pod} (h : Inv cfg spec s)
    (hr : s.RemovePod cfg pod = .ok (s', err)) : Inv cfg spec s' ∧ Fresh s s' := by
  unfold SchedulerCache.RemovePod at hr
  by_cases hk : pod.uid = ""
  · rw [GetPodKey_of_eq hk] at hr
    cases hr
    exact ⟨h, .refl s⟩
  rw [GetPodKey_of_ne hk] at hr
  dsimp only at hr
  cases hst : s.podStates pod.uid with
  | none =>
      rw [hst] at hr
      cases hr
      exact ⟨h, .refl s⟩
  | some st =>
      rw [hst] at hr
      dsimp only at hr
      obtain ⟨hsuid, hok⟩ := h.podStates _ st hst
      by_cases ha : s.isAssumed pod.uid = true
      · rw [if_pos ha] at hr
        cases hr
        exact ⟨h, .refl s⟩
      rw [if_neg ha] at hr
      by_cases hnode : st.pod.nodeName ≠ pod.nodeName
      · rw [if_pos hnode] at hr
        cases hr
      rw [if_neg hnode] at hr
      obtain ⟨s₁, hrem, hps₁, ha₁, hinv⟩ := h.removePod_stored hst hok hsuid rfl
      rw [hrem] at hr
      cases hr
      have hnotA : pod.uid ∉ s.assumedPods := by simpa [SchedulerCache.isAssumed] using ha
      exact hinv _ rfl rfl (by simp [hps₁]) (by simp [ha₁, List.erase_of_not_mem hnotA])

end calls

/-! ### The node calls -/

section nodes

variable {s s' : SchedulerCache} {err : Option String}

/-- The `NodeInfo` of a name gets a node object and a fresh generation: `AddNode` and
`UpdateNode`. -/
theorem Inv.setNode {t : SchedulerCache} (node : Node)
    (is : AList fun _ : String => ImageStateSummary) (h : Inv cfg spec s)
    (hn : t.nodes = Function.update s.nodes node.name
      (some ({ s.baseInfo node.name with imageStates := is }.setNode cfg node t.generation)))
    (hg : s.generation < t.generation) (hps : t.podStates = s.podStates)
    (ha : t.assumedPods = s.assumedPods) : Inv cfg spec t ∧ Fresh s t := by
  obtain ⟨hagg, hpods, hbase⟩ := h.nodes.baseInfo node.name
  refine h.replaceInfo hn hg.le hps ha (fun n' e => ?_) (fun e => by cases e)
  cases e
  exact ⟨⟨.inl (by simp), (hagg.imageStates is).setNode node _, le_rfl, hbase⟩, hpods, hg⟩

theorem AddNode_eq (s : SchedulerCache) (node : Node) :
    s.AddNode cfg node =
      let n := (s.infoOrNew node.name).2
      let c := ((s.infoOrNew node.name).1.removeNodeImageStates n.node).moveNodeInfoToHead node.name
      let a := ({ c with nodeTree := c.nodeTree.addNode node } : SchedulerCache).addNodeImageStates
        node
      let c := a.1.nextGeneration
      .ok (c.1.setInfo node.name ({ n with imageStates := a.2 }.setNode cfg node c.2), none) := rfl

theorem Inv.addNode {node : Node} (h : Inv cfg spec s)
    (hr : s.AddNode cfg node = .ok (s', err)) : Inv cfg spec s' ∧ Fresh s s' := by
  rw [AddNode_eq] at hr
  cases hr
  have hgen := SchedulerCache.infoOrNew_fst_generation s node.name
  refine h.setNode node _ (by simp [SchedulerCache.nextGeneration,
      SchedulerCache.infoOrNew_fst_nodes, SchedulerCache.infoOrNew_snd]; rfl) ?_
    (by simp [SchedulerCache.nextGeneration]) (by simp [SchedulerCache.nextGeneration])
  · simp only [SchedulerCache.nextGeneration, SchedulerCache.setInfo_generation,
      SchedulerCache.addNodeImageStates_generation, SchedulerCache.moveNodeInfoToHead_generation,
      SchedulerCache.removeNodeImageStates_generation, hgen]
    split_ifs <;> omega

theorem UpdateNode_eq_of_some {oldNode newNode : Node} {n : NodeInfo}
    (hn : s.nodes newNode.name = some n) :
    s.UpdateNode cfg oldNode newNode =
      let c := (s.removeNodeImageStates n.node).moveNodeInfoToHead newNode.name
      let a := ({ c with nodeTree := c.nodeTree.updateNode oldNode newNode } : SchedulerCache)
        |>.addNodeImageStates newNode
      let g := a.1.nextGeneration
      .ok (g.1.setInfo newNode.name ({ n with imageStates := a.2 }.setNode cfg newNode g.2),
        none) := by
  unfold SchedulerCache.UpdateNode
  rw [hn]

theorem UpdateNode_eq_of_none {oldNode newNode : Node} (hn : s.nodes newNode.name = none) :
    s.UpdateNode cfg oldNode newNode =
      let n := (s.infoOrNew newNode.name).2
      let c := (s.infoOrNew newNode.name).1
      let c := ({ c with nodeTree := c.nodeTree.addNode newNode } : SchedulerCache)
        |>.moveNodeInfoToHead newNode.name
      let a := ({ c with nodeTree := c.nodeTree.updateNode oldNode newNode } : SchedulerCache)
        |>.addNodeImageStates newNode
      let g := a.1.nextGeneration
      .ok (g.1.setInfo newNode.name ({ n with imageStates := a.2 }.setNode cfg newNode g.2),
        none) := by
  unfold SchedulerCache.UpdateNode
  rw [hn]

theorem Inv.updateNode {oldNode newNode : Node} (h : Inv cfg spec s)
    (hr : s.UpdateNode cfg oldNode newNode = .ok (s', err)) : Inv cfg spec s' ∧ Fresh s s' := by
  cases hn : s.nodes newNode.name with
  | some n =>
      rw [UpdateNode_eq_of_some hn] at hr
      cases hr
      have hbase : s.baseInfo newNode.name = n := by simp [SchedulerCache.baseInfo, hn]
      refine h.setNode newNode _ (by simp [hbase, SchedulerCache.nextGeneration]; rfl)
        (by simp [SchedulerCache.nextGeneration])
        (by simp [SchedulerCache.nextGeneration]) (by simp [SchedulerCache.nextGeneration])
  | none =>
      rw [UpdateNode_eq_of_none hn] at hr
      cases hr
      have hgen := SchedulerCache.infoOrNew_fst_generation s newNode.name
      refine h.setNode newNode _ (by simp [SchedulerCache.nextGeneration,
          SchedulerCache.infoOrNew_fst_nodes, SchedulerCache.infoOrNew_snd]; rfl) ?_
        (by simp [SchedulerCache.nextGeneration]) (by simp [SchedulerCache.nextGeneration])
      simp only [SchedulerCache.nextGeneration, SchedulerCache.setInfo_generation,
        SchedulerCache.addNodeImageStates_generation, SchedulerCache.moveNodeInfoToHead_generation,
        hgen, hn]
      simp only [Option.isSome_none, Bool.false_eq_true, if_false]
      omega

theorem Inv.removeNode {node : Node} (h : Inv cfg spec s)
    (hr : s.RemoveNode node = .ok (s', err)) : Inv cfg spec s' ∧ Fresh s s' := by
  unfold SchedulerCache.RemoveNode at hr
  cases hn : s.nodes node.name with
  | none =>
      rw [hn] at hr
      cases hr
      exact ⟨h, .refl s⟩
  | some n =>
      rw [hn] at hr
      have hinfo := h.nodes node.name n hn
      have hpodsOn : s.podsOn node.name = n.pods := by simp [SchedulerCache.podsOn, hn]
      -- the `NodeInfo` is kept, without its node, exactly while it has pods; the node tree
      -- is not part of the invariant
      have key : ∀ t : SchedulerCache, t.nodes = Function.update s.nodes node.name
          (if n.pods = [] then none else some (n.removeNode (s.generation + 1))) →
          t.generation = s.generation + 1 → t.podStates = s.podStates →
          t.assumedPods = s.assumedPods → Inv cfg spec t ∧ Fresh s t := by
        intro t htn htg hps ha
        refine h.replaceInfo htn (by omega) hps ha (fun n' e => ?_) (fun e => ?_)
        · split_ifs at e with hempty
          cases e
          exact ⟨⟨.inr hempty, hinfo.aggregates.removeNode _, by simp [htg], hinfo.pods⟩,
            hpodsOn.symm, by simp⟩
        · split_ifs at e with hempty
          exact hpodsOn.trans hempty
      simp only [SchedulerCache.nextGeneration] at hr
      split_ifs at hr with hempty
      · have hempty' : n.pods = [] := hempty
        split at hr <;> cases hr <;>
          exact key _ (by simp [hempty']) (by simp [hempty']) (by simp [hempty']) (by simp [hempty'])
      · have hempty' : n.pods ≠ [] := hempty
        split at hr <;> cases hr <;>
          exact key _ (by simp [hempty']) (by simp [hempty']) (by simp [hempty']) (by simp [hempty'])

end nodes

/-! ### Expiry -/

section cleanup

variable {s : SchedulerCache}

/-- One iteration of the loop of `cleanupAssumedPods`, on a key of `assumedPods`: the key has a
state, and a finished binding has a deadline, so it does not abort; an expired pod is removed,
and only its key leaves `assumedPods`. -/
theorem Inv.cleanupAssumedPod {k : String} (h : Inv cfg spec s) (hk : k ∈ s.assumedPods)
    (now : ℤ) :
    ∃ s', s.cleanupAssumedPod cfg now k = .ok s' ∧ Inv cfg spec s' ∧ Fresh s s' ∧
      ∀ k' ∈ s.assumedPods, k' ≠ k → k' ∈ s'.assumedPods := by
  obtain ⟨st, hst, hfin⟩ := h.assumed k hk
  obtain ⟨hsuid, hok⟩ := h.podStates k st hst
  unfold SchedulerCache.cleanupAssumedPod
  rw [hst]
  dsimp only
  by_cases hb : st.bindingFinished = true
  · obtain ⟨d, hd⟩ := Option.ne_none_iff_exists'.mp (hfin hb)
    rw [if_neg (by simp [hb]), hd]
    dsimp only
    by_cases hnow : now > d
    · rw [if_pos hnow]
      obtain ⟨s₁, hrem, hps₁, ha₁, hinv⟩ := h.removePod_stored hst hok hsuid rfl
      let s₂ : SchedulerCache := { s₁ with
        assumedPods := s₁.assumedPods.erase k,
        podStates := Function.update s₁.podStates k none }
      obtain ⟨hinv₂, hfresh₂⟩ := hinv s₂ rfl rfl (by simp [s₂, hps₁]) (by simp [s₂, ha₁])
      refine ⟨s₂, by simp [s₂, SchedulerCache.expirePod, hrem, bind, Except.bind, pure, Except.pure],
        hinv₂, hfresh₂, fun k' hk' hne => ?_⟩
      simpa [s₂, ha₁] using (List.mem_erase_of_ne hne).mpr hk'
    · rw [if_neg hnow]
      exact ⟨s, rfl, h, .refl s, fun _ hk' _ => hk'⟩
  · rw [if_pos (by simpa using hb)]
    exact ⟨s, rfl, h, .refl s, fun _ hk' _ => hk'⟩

/-- `cleanupAssumedPods` never aborts and keeps the invariant.  The loop visits the keys of
`assumedPods` as they were when it started; each key it has still to visit is in the current
`assumedPods`, since an iteration only deletes its own key. -/
theorem Inv.cleanupAssumedPods (h : Inv cfg spec s) (now : ℤ) :
    ∃ s', s.cleanupAssumedPods cfg now = .ok (s', none) ∧ Inv cfg spec s' ∧ Fresh s s' := by
  have hstep : ∀ c k is, (Inv cfg spec c ∧ Fresh s c ∧ (∀ k' ∈ k :: is, k' ∈ c.assumedPods) ∧
      (k :: is).Nodup) → ∃ c', c.cleanupAssumedPod cfg now k = .ok c' ∧
      (Inv cfg spec c' ∧ Fresh s c' ∧ (∀ k' ∈ is, k' ∈ c'.assumedPods) ∧ is.Nodup) := by
    rintro c k is ⟨hc, hfc, hsub, hnd⟩
    obtain ⟨hnotin, hnd'⟩ := List.nodup_cons.mp hnd
    obtain ⟨c', hrun, hc', hfc', hkeep⟩ := hc.cleanupAssumedPod (hsub k (List.mem_cons_self ..)) now
    refine ⟨c', hrun, hc', hfc.trans hfc', fun k' hk' => ?_, hnd'⟩
    exact hkeep k' (hsub k' (List.mem_cons_of_mem _ hk')) fun e => hnotin (e ▸ hk')
  obtain ⟨s', hloop, hinv, hfresh, -⟩ :=
    foldlM_ok (SchedulerCache.cleanupAssumedPod cfg now)
      (P := fun is c => Inv cfg spec c ∧ Fresh s c ∧ (∀ k' ∈ is, k' ∈ c.assumedPods) ∧ is.Nodup)
      hstep s.assumedPods s
      ⟨h, .refl s, fun _ hk => hk, h.assumed_nodup⟩
  exact ⟨s', by simp [SchedulerCache.cleanupAssumedPods, hloop, bind, Except.bind, pure,
    Except.pure], hinv, hfresh⟩

end cleanup

/-! ### Runs -/

/-- Every call on the cache keeps the invariant and draws fresh generations for the
`NodeInfo`s it changes. -/
theorem Inv.step {s s' : SchedulerCache} {op : CacheOp} (h : Inv cfg spec s)
    (hop : OpOk spec op) (hs : s.Step cfg op s') : Inv cfg spec s' ∧ Fresh s s' := by
  obtain ⟨err, hr⟩ := hs
  cases op with
  | AssumePod pod => exact h.assumePod hop hr
  | FinishBinding pod now => exact h.finishBinding hr
  | ForgetPod pod => exact h.forgetPod hop hr
  | AddPod pod => exact h.addPod hop hr
  | UpdatePod oldPod newPod => exact h.updatePod hop.1 hop.2.1 hop.2.2 hr
  | RemovePod pod => exact h.removePod hr
  | AddNode node => exact h.addNode hr
  | UpdateNode oldNode newNode => exact h.updateNode hr
  | RemoveNode node => exact h.removeNode hr
  | cleanupAssumedPods now =>
      obtain ⟨s'', hrun, hinv, hfresh⟩ := h.cleanupAssumedPods now
      change s.cleanupAssumedPods cfg now = _ at hr
      rw [hrun] at hr
      cases hr
      exact ⟨hinv, hfresh⟩

theorem inv_newSchedulerCache (ttl : ℤ) : Inv cfg spec (newSchedulerCache ttl) where
  nodes _ _ h := by cases h
  count _ _ := rfl
  podStates _ _ h := by cases h
  assumed _ h := by cases h
  assumed_nodup := List.nodup_nil

/-- The states of the cache reachable from `newSchedulerCache` by calls whose pods are as the
API server delivers them. -/
abbrev Reachable (cfg : Config) (spec : String → PodProfile) (ttl : ℤ) : SchedulerCache → Prop :=
  StepSystem.Reachable (SchedulerCache.Step cfg) (fun _ op => OpOk spec op) (newSchedulerCache ttl)

/-- **The invariant holds in every reachable state.** -/
theorem Inv.reachable {ttl : ℤ} {s : SchedulerCache} (hr : Reachable cfg spec ttl s) :
    Inv cfg spec s :=
  hr.invariant (inv_newSchedulerCache ttl) fun _ _ _ hs hop hn => (hs.step hop hn).1

end Cache

end Caspr
