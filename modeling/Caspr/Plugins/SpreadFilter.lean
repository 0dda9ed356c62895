import Caspr.Plugins.SpreadCounts

/-! # What the filter of `PodTopologySpread` accepts

`Filter` accepts a node when it carries every constraint's key and, for every constraint whose
key has critical paths, the count of the node's pair, plus one if the pod matches the
constraint's selector, exceeds the smallest count of the key by at most `MaxSkew`
(`Filter_eq_none`).  Its only failures are the two reasons of the plugin and the status of a
`NodeInfo` without a node (`Filter_status`).

The counts are those of `calPreFilterState`: over all the nodes whose value has a pair, that is,
whose value some node passing the pod's node selector carries (`CountsAs`).  A node that fails
the selector but shares its value with one that passes adds its pods to that value's count, and
can make `Filter` reject a node the same value on selected nodes alone would leave within the
skew (`Filter_counts_unselected_node`). -/

namespace Caspr

namespace PodTopologySpread

/-- What `Filter`'s loop asks of one constraint on a node: the node carries its key and, when
the key has critical paths, the skew of the node's pair is at most `MaxSkew`. -/
def SkewOK (s : preFilterState) (pod : Pod) (node : Node) (c : topologySpreadConstraint) : Prop :=
  ∃ tpVal, node.labels.lookup c.TopologyKey = some tpVal ∧
    ∀ paths, s.TpKeyToCriticalPaths.lookup c.TopologyKey = some paths →
      (s.TpPairToMatchNum.lookup ⟨c.TopologyKey, tpVal⟩).getD 0 +
        (if c.Selector.Matches pod.labels then 1 else 0) - paths.1.MatchNum ≤ c.MaxSkew

/-- The loop accepts the node exactly when every constraint is within its skew. -/
theorem filterConstraints_eq_none (s : preFilterState) (pod : Pod) (node : Node) :
    ∀ cs, filterConstraints s pod node cs = none ↔ ∀ c ∈ cs, SkewOK s pod node c
  | [] => by simp [filterConstraints]
  | c :: cs => by
      have ih := filterConstraints_eq_none s pod node cs
      rw [List.forall_mem_cons, filterConstraints]
      cases hkey : node.labels.lookup c.TopologyKey with
      | none =>
          simp [SkewOK, hkey]
      | some tpVal =>
          dsimp only
          cases hpaths : s.TpKeyToCriticalPaths.lookup c.TopologyKey with
          | none =>
              simp [SkewOK, hkey, hpaths, ih]
          | some paths =>
              dsimp only
              by_cases hskew : (s.TpPairToMatchNum.lookup ⟨c.TopologyKey, tpVal⟩).getD 0 +
                  (if c.Selector.Matches pod.labels then 1 else 0) - paths.1.MatchNum > c.MaxSkew
              · rw [if_pos hskew]
                simp only [reduceCtorEq, false_iff, not_and]
                intro hok
                obtain ⟨v, hv, hle⟩ := hok
                rw [hkey, Option.some_inj] at hv
                subst hv
                exact absurd (hle paths hpaths) (not_le.mpr hskew)
              · rw [if_neg hskew, ih]
                have hok : SkewOK s pod node c := ⟨tpVal, hkey, fun p hp => by
                  rw [hpaths, Option.some_inj] at hp
                  subst hp
                  exact not_lt.mp hskew⟩
                simp [hok]

/-- The loop fails only with the two reasons of the plugin. -/
theorem filterConstraints_status (s : preFilterState) (pod : Pod) (node : Node) :
    ∀ cs {st : Status}, filterConstraints s pod node cs = some st →
      st = NewStatus .UnschedulableAndUnresolvable ErrReasonNodeLabelNotMatch ∨
        st = NewStatus .Unschedulable ErrReasonConstraintsNotMatch
  | [], _, h => by simp [filterConstraints] at h
  | c :: cs, st, h => by
      rw [filterConstraints] at h
      cases hkey : node.labels.lookup c.TopologyKey with
      | none =>
          simp only [hkey] at h
          exact .inl (Option.some.inj h).symm
      | some tpVal =>
          cases hpaths : s.TpKeyToCriticalPaths.lookup c.TopologyKey with
          | none =>
              simp only [hkey, hpaths] at h
              exact filterConstraints_status s pod node cs h
          | some paths =>
              simp only [hkey, hpaths] at h
              by_cases hskew : (s.TpPairToMatchNum.lookup ⟨c.TopologyKey, tpVal⟩).getD 0 +
                  (if c.Selector.Matches pod.labels then 1 else 0) - paths.1.MatchNum > c.MaxSkew
              · rw [if_pos hskew] at h
                exact .inr (Option.some.inj h).symm
              · rw [if_neg hskew] at h
                exact filterConstraints_status s pod node cs h

/-- **`Filter` accepts a node exactly when every constraint is within its skew**, or when the
state has no constraint. -/
theorem Filter_eq_none (s : preFilterState) (pod : Pod) (nodeInfo : NodeInfo) :
    Filter s pod nodeInfo = none ↔ ∃ node, nodeInfo.node = some node ∧
      (s.Constraints = [] ∨ ∀ c ∈ s.Constraints, SkewOK s pod node c) := by
  unfold Filter
  cases hn : nodeInfo.node with
  | none => simp
  | some node =>
      dsimp only
      by_cases h0 : s.Constraints.length = 0
      · simp [List.length_eq_zero_iff.mp h0]
      · have hne : s.Constraints ≠ [] := fun h => h0 (by simp [h])
        rw [if_neg h0, filterConstraints_eq_none]
        simp [hne]

/-- **`Filter` fails only with the plugin's two reasons, or for a missing node.** -/
theorem Filter_status (s : preFilterState) (pod : Pod) (nodeInfo : NodeInfo) {st : Status}
    (h : Filter s pod nodeInfo = some st) :
    st = ⟨.Error, ["node not found"]⟩ ∨
      st = NewStatus .UnschedulableAndUnresolvable ErrReasonNodeLabelNotMatch ∨
      st = NewStatus .Unschedulable ErrReasonConstraintsNotMatch := by
  unfold Filter at h
  split at h
  · exact .inl (Option.some.inj h).symm
  · split_ifs at h
    exact .inr (filterConstraints_status s pod _ _ h)

/-- **A node outside the pod's node selector counts toward the skew**: `n2` fails the selector
`disk=ssd` but shares the zone `A` of `n1`, which passes it; the matching pod on `n2` is counted
for `A`, so `Filter` rejects `n1` with a skew of `2`, where the selected nodes `n1` and `n3`
alone hold no matching pod. -/
theorem Filter_counts_unselected_node :
    let n1 : Node := { name := "n1", labels := (AList.singleton "zone" "A").insert "disk" "ssd" }
    let n2 : Node := { name := "n2", labels := AList.singleton "zone" "A" }
    let n3 : Node := { name := "n3", labels := (AList.singleton "zone" "B").insert "disk" "ssd" }
    let c : TopologySpreadConstraint :=
      { maxSkew := 1, topologyKey := "zone", whenUnsatisfiable := .DoNotSchedule,
        labelSelector := some { matchLabels := [("app", "web")] } }
    let p : Pod :=
      { name := "p", podNamespace := "default", labels := AList.singleton "app" "web",
        nodeSelector := AList.singleton "disk" "ssd", topologySpreadConstraints := [c] }
    let q : Pod := { name := "q", podNamespace := "default", labels := AList.singleton "app" "web" }
    let nodes : List NodeInfo := [{ node := some n1 }, { node := some n2, pods := [q] },
      { node := some n3 }]
    ∃ s, calPreFilterState [] p nodes = .ok s ∧
      Eligible p s.Constraints n1 = true ∧ Eligible p s.Constraints n2 = false ∧
      Eligible p s.Constraints n3 = true ∧
      s.TpPairToMatchNum.lookup ⟨"zone", "A"⟩ = some 1 ∧
      s.TpPairToMatchNum.lookup ⟨"zone", "B"⟩ = some 0 ∧
      Filter s p { node := some n1 } = some (NewStatus .Unschedulable ErrReasonConstraintsNotMatch) :=
  ⟨_, rfl, rfl, rfl, rfl, rfl, rfl, rfl⟩

end PodTopologySpread

end Caspr
