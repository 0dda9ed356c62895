import Caspr.Framework.Interface
import Caspr.Framework.Aggregates
import Mathlib.Data.Finset.Lattice.Lemmas
import Mathlib.Data.Finset.Card

/-! # The NodePorts plugin (plugins/nodeports/node_ports.go)

`PreFilter` collects the container ports of the incoming pod and `Filter` rejects a node whose
`UsedPorts` conflicts with one of them (`HostPortInfo.CheckConflict`).  `UsedPorts` is kept by
`NodeInfo.AddPod` and `RemovePod` as a set: a removal deletes the pod's tuples whether or not a
pod that stays holds them too.

`usedPorts` of a `NodeInfo` is therefore the set of the tuples of its pods (`portTuples`) only as
long as its pods hold pairwise distinct tuples.  `PortsOk` is that invariant; every change that
adds a pod holding no tuple of the node, or removes the one pod stored under a key, keeps it
(`PortsOk.step`), and on such a `NodeInfo` `Filter` rejects exactly the pods with a port that
conflicts with a port of a pod on the node (`Filter_eq_of_usedPorts`).  Two pods that share a
tuple break it: removing one frees the port the other still holds (`removePod_shared_port`). -/

namespace Caspr

namespace NodePorts

open HostPortInfo

/-- `ErrReason`. -/
def ErrReason : String := "node(s) didn't have free ports for the requested pod ports"

/-- `getContainerPorts(pods...)`. -/
def getContainerPorts (pods : List Pod) : List ContainerPort :=
  pods.flatMap fun pod => pod.containers.flatMap (·.ports)

/-- `preFilterState`: the container ports of the incoming pod. -/
abbrev preFilterState := List ContainerPort

/-- `pl.PreFilter(…, pod)`: the state it writes. -/
def PreFilter (pod : Pod) : preFilterState := getContainerPorts [pod]

/-- `fitsPorts(wantPorts, nodeInfo)`. -/
def fitsPorts (wantPorts : List ContainerPort) (nodeInfo : NodeInfo) : Bool :=
  wantPorts.all fun cp => !nodeInfo.usedPorts.CheckConflict cp.hostIP cp.protocol cp.hostPort

/-- `pl.Filter(…, pod, nodeInfo)` on the state `PreFilter` wrote; `none` is the nil status. -/
def Filter (state : preFilterState) (nodeInfo : NodeInfo) : Option Status :=
  if !fitsPorts state nodeInfo then some ⟨.Unschedulable, [ErrReason]⟩ else none

/-! ### The tuples of the pods -/

/-- The tuple `HostPortInfo.Add` records for a container port. -/
def portTuple (cp : ContainerPort) : String × ProtocolPort :=
  ((sanitize cp.hostIP cp.protocol).1, ⟨(sanitize cp.hostIP cp.protocol).2, cp.hostPort⟩)

/-- The tuples of the host ports of the pods. -/
def portTuples (pods : List Pod) : HostPortInfo :=
  (((getContainerPorts pods).filter fun cp => 0 < cp.hostPort).map portTuple).toFinset

/-- Two container ports conflict under `CheckConflict`'s rules: both bind a host port, with the
same protocol and port once sanitized, on the same IP or with one of them on every IP. -/
def PortConflict (a b : ContainerPort) : Prop :=
  0 < a.hostPort ∧ 0 < b.hostPort ∧ (portTuple a).2 = (portTuple b).2 ∧
    ((portTuple a).1 = (portTuple b).1 ∨ (portTuple a).1 = DefaultBindAllHostIP ∨
      (portTuple b).1 = DefaultBindAllHostIP)

instance (a b : ContainerPort) : Decidable (PortConflict a b) := by
  unfold PortConflict; infer_instance

theorem mem_portTuples {t : String × ProtocolPort} {pods : List Pod} :
    t ∈ portTuples pods ↔ ∃ cp ∈ getContainerPorts pods, 0 < cp.hostPort ∧ portTuple cp = t := by
  simp [portTuples, and_assoc]

theorem portTuples_append (l₁ l₂ : List Pod) :
    portTuples (l₁ ++ l₂) = portTuples l₁ ∪ portTuples l₂ := by
  simp [portTuples, getContainerPorts, List.filter_append, List.toFinset_append]

theorem portTuples_cons (p : Pod) (l : List Pod) :
    portTuples (p :: l) = portTuples [p] ∪ portTuples l := by
  rw [← portTuples_append]
  rfl

@[simp] theorem portTuples_nil : portTuples [] = ∅ := rfl

theorem portTuples_perm {l₁ l₂ : List Pod} (h : l₁.Perm l₂) : portTuples l₁ = portTuples l₂ := by
  ext t
  simp only [mem_portTuples, getContainerPorts]
  exact exists_congr fun cp => and_congr_left fun _ => (h.flatMap_right _).mem_iff

/-! ### `UsedPorts` -/

theorem foldl_add (ports : List ContainerPort) (h : HostPortInfo) :
    ports.foldl (fun h p => h.add p.hostIP p.protocol p.hostPort) h =
      h ∪ ((ports.filter fun cp => 0 < cp.hostPort).map portTuple).toFinset := by
  induction ports generalizing h with
  | nil => simp
  | cons cp ports ih =>
      rw [List.foldl_cons, ih]
      by_cases hp : cp.hostPort ≤ 0
      · have : ¬ 0 < cp.hostPort := by omega
        simp [HostPortInfo.add, hp, this]
      · have : 0 < cp.hostPort := by omega
        ext t
        simp only [HostPortInfo.add, hp, if_false, Finset.mem_union, Finset.mem_insert,
          List.mem_toFinset, List.map_cons, List.filter_cons, this, decide_true, if_true,
          List.mem_cons]
        tauto

theorem foldl_remove (ports : List ContainerPort) (h : HostPortInfo) :
    ports.foldl (fun h p => h.remove p.hostIP p.protocol p.hostPort) h =
      h \ ((ports.filter fun cp => 0 < cp.hostPort).map portTuple).toFinset := by
  induction ports generalizing h with
  | nil => simp
  | cons cp ports ih =>
      rw [List.foldl_cons, ih]
      by_cases hp : cp.hostPort ≤ 0
      · have : ¬ 0 < cp.hostPort := by omega
        simp [HostPortInfo.remove, hp, this]
      · have : 0 < cp.hostPort := by omega
        ext t
        simp only [HostPortInfo.remove, hp, if_false, Finset.mem_sdiff, Finset.mem_erase,
          List.mem_toFinset, List.map_cons, List.filter_cons, this, decide_true, if_true,
          List.mem_cons]
        tauto

theorem flatMap_ports_toFinset (c : Container) (cs : List Container) :
    ((((c :: cs).flatMap (·.ports)).filter fun cp => 0 < cp.hostPort).map portTuple).toFinset =
      ((c.ports.filter fun cp => 0 < cp.hostPort).map portTuple).toFinset ∪
        (((cs.flatMap (·.ports)).filter fun cp => 0 < cp.hostPort).map portTuple).toFinset := by
  rw [List.flatMap_cons, List.filter_append, List.map_append, List.toFinset_append]

theorem updateUsedPorts_true (h : HostPortInfo) (pod : Pod) :
    NodeInfo.updateUsedPorts h pod true = h ∪ portTuples [pod] := by
  suffices hcs : ∀ (cs : List Container) (h : HostPortInfo),
      cs.foldl (fun h c => c.ports.foldl (fun h p => h.add p.hostIP p.protocol p.hostPort) h) h =
        h ∪ (((cs.flatMap (·.ports)).filter fun cp => 0 < cp.hostPort).map portTuple).toFinset by
    simpa [NodeInfo.updateUsedPorts, portTuples, getContainerPorts] using hcs pod.containers h
  intro cs
  induction cs with
  | nil => simp
  | cons c cs ih =>
      intro h
      rw [List.foldl_cons, ih, foldl_add, flatMap_ports_toFinset, Finset.union_assoc]

theorem updateUsedPorts_false (h : HostPortInfo) (pod : Pod) :
    NodeInfo.updateUsedPorts h pod false = h \ portTuples [pod] := by
  suffices hcs : ∀ (cs : List Container) (h : HostPortInfo),
      cs.foldl (fun h c => c.ports.foldl (fun h p => h.remove p.hostIP p.protocol p.hostPort) h) h =
        h \ (((cs.flatMap (·.ports)).filter fun cp => 0 < cp.hostPort).map portTuple).toFinset by
    simpa [NodeInfo.updateUsedPorts, portTuples, getContainerPorts] using hcs pod.containers h
  intro cs
  induction cs with
  | nil => simp
  | cons c cs ih =>
      intro h
      rw [List.foldl_cons, ih, foldl_remove, flatMap_ports_toFinset, sdiff_sdiff_left]
      rfl

/-! ### `CheckConflict` and `Filter` -/

/-- **`CheckConflict` finds a conflicting tuple.** -/
theorem CheckConflict_iff (h : HostPortInfo) (cp : ContainerPort) :
    h.CheckConflict cp.hostIP cp.protocol cp.hostPort = true ↔
      0 < cp.hostPort ∧ ∃ t ∈ h, t.2 = (portTuple cp).2 ∧
        (t.1 = (portTuple cp).1 ∨ (portTuple cp).1 = DefaultBindAllHostIP ∨
          t.1 = DefaultBindAllHostIP) := by
  unfold CheckConflict
  by_cases hp : cp.hostPort ≤ 0
  · simp [hp]
  · have hpos : 0 < cp.hostPort := by omega
    simp only [hp, if_false, hpos, true_and]
    split_ifs with hall
    · simp [portTuple, hall]
    · simp only [List.any_cons, List.any_nil, Bool.or_false, Bool.or_eq_true, decide_eq_true_eq]
      constructor
      · rintro (h₁ | h₁)
        · exact ⟨_, h₁, rfl, .inr (.inr rfl)⟩
        · exact ⟨_, h₁, rfl, .inl rfl⟩
      · rintro ⟨⟨ip, pp⟩, ht, hpp, hip⟩
        simp only [portTuple] at hpp hip
        subst hpp
        rcases hip with rfl | hip | rfl
        · exact .inr ht
        · exact absurd hip hall
        · exact .inl ht

/-- Against the tuples of some pods, `CheckConflict` finds the ports of those pods that conflict. -/
theorem CheckConflict_portTuples_iff (pods : List Pod) (a : ContainerPort) :
    (portTuples pods).CheckConflict a.hostIP a.protocol a.hostPort = true ↔
      ∃ b ∈ getContainerPorts pods, PortConflict a b := by
  rw [CheckConflict_iff]
  constructor
  · rintro ⟨ha, t, ht, ht2, ht1⟩
    obtain ⟨b, hb, hbpos, rfl⟩ := mem_portTuples.mp ht
    exact ⟨b, hb, ha, hbpos, ht2.symm, ht1.elim (.inl ∘ Eq.symm) .inr⟩
  · rintro ⟨b, hb, ha, hbpos, h2, h1⟩
    exact ⟨ha, portTuple b, mem_portTuples.mpr ⟨b, hb, hbpos, rfl⟩, h2.symm,
      h1.elim (.inl ∘ Eq.symm) .inr⟩

/-- **`Filter` on a `NodeInfo` whose `UsedPorts` are the tuples of its pods** rejects exactly
the pods with a port that conflicts with a port of a pod on the node. -/
theorem Filter_eq_of_usedPorts (pod : Pod) {n : NodeInfo} (h : n.usedPorts = portTuples n.pods) :
    Filter (PreFilter pod) n =
      if ∃ a ∈ getContainerPorts [pod], ∃ b ∈ getContainerPorts n.pods, PortConflict a b then
        some ⟨.Unschedulable, [ErrReason]⟩
      else none := by
  have hfits : fitsPorts (PreFilter pod) n =
      !decide (∃ a ∈ getContainerPorts [pod], ∃ b ∈ getContainerPorts n.pods, PortConflict a b) := by
    rw [Bool.eq_iff_iff]
    simp only [fitsPorts, PreFilter, h, List.all_eq_true, Bool.not_eq_eq_eq_not, Bool.not_true,
      decide_eq_false_iff_not, not_exists, not_and]
    refine forall₂_congr fun a _ => ?_
    rw [← Bool.not_eq_true, CheckConflict_portTuples_iff]
    simp
  unfold Filter
  rw [hfits]
  by_cases hc : ∃ a ∈ getContainerPorts [pod], ∃ b ∈ getContainerPorts n.pods, PortConflict a b
  · simp only [hc, decide_true, Bool.not_true, Bool.not_false, if_true]
  · simp only [hc, decide_false, Bool.not_false, Bool.not_true, if_false]
    rfl

/-! ### Runs of `AddPod` and `RemovePod` -/

theorem portTuples_subset_of_mem {p : Pod} {l : List Pod} (h : p ∈ l) :
    portTuples [p] ⊆ portTuples l := by
  intro t ht
  obtain ⟨cp, hcp, hpos, rfl⟩ := mem_portTuples.mp ht
  refine mem_portTuples.mpr ⟨cp, ?_, hpos, rfl⟩
  simp only [getContainerPorts, List.flatMap_singleton] at hcp
  exact List.mem_flatMap.mpr ⟨p, h, hcp⟩

theorem disjoint_portTuples_of_forall {p : Pod} {l : List Pod}
    (h : ∀ q ∈ l, Disjoint (portTuples [p]) (portTuples [q])) :
    Disjoint (portTuples [p]) (portTuples l) := by
  induction l with
  | nil => simp
  | cons q l ih =>
      rw [portTuples_cons q l]
      exact Finset.disjoint_union_right.mpr
        ⟨h q List.mem_cons_self, ih fun q' hq' => h q' (List.mem_cons_of_mem q hq')⟩

/-- With pairwise distinct tuples, the pods other than the one stored under a key hold the
tuples of all the pods but those of the pod removed. -/
theorem portTuples_filter_not_key {pods : List Pod} {k : String} {p : Pod}
    (hpw : pods.Pairwise fun p q => Disjoint (portTuples [p]) (portTuples [q]))
    (hone : pods.countP (hasKey k) = 1)
    (hsame : ∀ b ∈ pods, hasKey k b = true → portTuples [b] = portTuples [p]) :
    portTuples (pods.filter fun x => !hasKey k x) = portTuples pods \ portTuples [p] := by
  obtain ⟨b, hb⟩ : ∃ b, pods.filter (hasKey k) = [b] := by
    rw [List.countP_eq_length_filter] at hone
    exact List.length_eq_one_iff.mp hone
  have hbmem : b ∈ pods.filter (hasKey k) := by simp [hb]
  have hperm : pods.Perm (b :: pods.filter fun x => !hasKey k x) := by
    simpa [hb] using (List.filter_append_perm (hasKey k) pods).symm
  have hdisj : Disjoint (portTuples [b]) (portTuples (pods.filter fun x => !hasKey k x)) :=
    disjoint_portTuples_of_forall
      (List.pairwise_cons.mp (hpw.perm hperm fun h => h.symm)).1
  rw [portTuples_perm hperm, portTuples_cons,
    ← hsame b (List.mem_of_mem_filter hbmem) (List.mem_filter.mp hbmem).2,
    Finset.union_sdiff_left, Finset.sdiff_eq_self_of_disjoint hdisj.symm]

variable (cfg : Config)

/-- One change to a `NodeInfo`: `AddPod`, or `RemovePod` whether or not it finds the pod. -/
def PodStep : NodeInfo → PodUpdate → NodeInfo → Prop
  | n, .add p, n' => ∃ g, n' = n.addPod cfg p g
  | n, .remove p, n' => ∃ g err, n.removePod cfg p g = .ok (n', err)

/-- A change keeps the pods' host ports apart: an added pod holds no tuple that a pod of the
node holds, and a removed pod is stored at most once under its key, with the same host ports. -/
def PortsApart : NodeInfo → PodUpdate → Prop
  | n, .add p => Disjoint (portTuples [p]) (portTuples n.pods)
  | n, .remove p => n.pods.countP (hasKey p.uid) ≤ 1 ∧
      ∀ b ∈ n.pods, hasKey p.uid b = true → portTuples [b] = portTuples [p]

instance (n : NodeInfo) (u : PodUpdate) : Decidable (PortsApart n u) := by
  cases u <;> unfold PortsApart <;> infer_instance

/-- `UsedPorts` are the tuples of the pods, which hold pairwise distinct tuples. -/
structure PortsOk (n : NodeInfo) : Prop where
  usedPorts_eq : n.usedPorts = portTuples n.pods
  pairwise : n.pods.Pairwise fun p q => Disjoint (portTuples [p]) (portTuples [q])

theorem portsOk_NewNodeInfo (g : ℤ) : PortsOk (NodeInfo.NewNodeInfo g) := ⟨rfl, .nil⟩

variable {cfg}

theorem PortsOk.addPod {n : NodeInfo} (h : PortsOk n) {p : Pod}
    (hp : Disjoint (portTuples [p]) (portTuples n.pods)) (g : ℤ) : PortsOk (n.addPod cfg p g) where
  usedPorts_eq := by
    simp only [NodeInfo.addPod, updateUsedPorts_true, h.usedPorts_eq, portTuples_append]
  pairwise := by
    refine List.pairwise_append.mpr ⟨h.pairwise, List.pairwise_singleton _ _, fun a ha b hb => ?_⟩
    rw [List.mem_singleton.mp hb]
    exact (hp.mono_right (portTuples_subset_of_mem ha)).symm

theorem PortsOk.removePod {n n' : NodeInfo} (h : PortsOk n) {p : Pod} {g : ℤ}
    {err : Option String} (hp : PortsApart n (.remove p))
    (hr : n.removePod cfg p g = .ok (n', err)) : PortsOk n' := by
  obtain ⟨huniq, hsame⟩ := hp
  by_cases hmem : ∃ b ∈ n.pods, hasKey p.uid b = true
  · obtain ⟨b, hb, hkb⟩ := hmem
    have hk : p.uid ≠ "" := by
      obtain ⟨hne, heq⟩ := (hasKey_iff _ _).mp hkb
      rwa [← heq]
    obtain ⟨i, hres, hi⟩ := NodeInfo.removePod_of_mem cfg hk ⟨b, hb, hkb⟩
    rw [hres] at hr
    obtain ⟨rfl, -⟩ := Prod.mk.inj (Except.ok.inj hr)
    have hone : n.pods.countP (hasKey p.uid) = 1 :=
      le_antisymm huniq (List.countP_pos_iff.mpr ⟨b, hb, hkb⟩)
    have hpods : (Go.swapRemove n.pods i).Perm (n.pods.filter fun x => !hasKey p.uid x) :=
      Go.swapRemove_perm_filter _ _ huniq hi
    refine ⟨?_, ?_⟩
    · simp only [NodeInfo.removeAt, NodeInfo.pruneAffinity, updateUsedPorts_false,
        h.usedPorts_eq]
      rw [portTuples_perm hpods, portTuples_filter_not_key h.pairwise hone hsame]
    · exact (h.pairwise.filter _).perm hpods.symm fun h => h.symm
  · have hnone : ∀ b ∈ n.pods, hasKey p.uid b = false := fun b hb => by
      simpa using fun h' => hmem ⟨b, hb, h'⟩
    rcases NodeInfo.removePod_of_not_mem cfg hnone hr with rfl | rfl
    · exact ⟨h.usedPorts_eq, h.pairwise⟩
    · exact h

/-- Every change that keeps the pods' host ports apart keeps `PortsOk`. -/
theorem PortsOk.step : StepSystem.Preserves (PodStep cfg) PortsApart PortsOk := by
  intro n u n' h hu hstep
  cases u with
  | add p =>
      obtain ⟨g, rfl⟩ := hstep
      exact h.addPod hu g
  | remove p =>
      obtain ⟨g, err, hr⟩ := hstep
      exact h.removePod hu hr

/-- **`NodePorts.Filter` on a `NodeInfo` whose pods hold distinct host ports**: after every run
of `AddPod` and `RemovePod` from a `NodeInfo` whose `UsedPorts` are the tuples of its pods, in
which no pod is added that holds a tuple of the node and every removed pod is stored at most
once under its key with the same host ports, `UsedPorts` are the tuples of the pods and `Filter`
rejects exactly the pods with a host port that conflicts with one of a pod on the node. -/
theorem reachable_Filter_iff_conflict {n₀ n : NodeInfo} (h₀ : PortsOk n₀)
    (hr : StepSystem.Reachable (PodStep cfg) PortsApart n₀ n) (pod : Pod) :
    n.usedPorts = portTuples n.pods ∧
      Filter (PreFilter pod) n =
        if ∃ a ∈ getContainerPorts [pod], ∃ b ∈ getContainerPorts n.pods, PortConflict a b then
          some ⟨.Unschedulable, [ErrReason]⟩
        else none := by
  have h := hr.invariant h₀ PortsOk.step
  exact ⟨h.usedPorts_eq, Filter_eq_of_usedPorts pod h.usedPorts_eq⟩

/-- A node holding `p` on port 80 and `r` on port 443, then `p` removed: port 80 is free again,
and a pod binding it passes. -/
theorem reachable_Filter_iff_conflict_web :
    let cfg : Config := ⟨true, true, fun _ => false⟩
    let web : ContainerPort := { hostPort := 80 }
    let tls : ContainerPort := { hostPort := 443 }
    let p : Pod := { name := "p", uid := "u1", containers := [{ ports := [web] }] }
    let r : Pod := { name := "r", uid := "u2", containers := [{ ports := [tls] }] }
    let q : Pod := { name := "q", uid := "u3", containers := [{ ports := [web] }] }
    ∃ n err, (((NodeInfo.NewNodeInfo 0).addPod cfg p 1).addPod cfg r 2).removePod cfg p 3 =
        .ok (n, err) ∧
      n.pods.map (·.name) = ["r"] ∧ Filter (PreFilter q) n = none ∧
      n.usedPorts = portTuples n.pods ∧
      Filter (PreFilter q) n =
        if ∃ a ∈ getContainerPorts [q], ∃ b ∈ getContainerPorts n.pods, PortConflict a b then
          some ⟨.Unschedulable, [ErrReason]⟩
        else none := by
  intro cfg web tls p r q
  have h₁ : StepSystem.Reachable (PodStep cfg) PortsApart (NodeInfo.NewNodeInfo 0)
      ((NodeInfo.NewNodeInfo 0).addPod cfg p 1) :=
    .step (.add p) .init (by decide) ⟨1, rfl⟩
  have h₂ : StepSystem.Reachable (PodStep cfg) PortsApart (NodeInfo.NewNodeInfo 0)
      (((NodeInfo.NewNodeInfo 0).addPod cfg p 1).addPod cfg r 2) :=
    .step (.add r) h₁ (by decide) ⟨2, rfl⟩
  have h₃ := StepSystem.Reachable.step (PodUpdate.remove p) h₂ (by decide) ⟨3, _, rfl⟩
  exact ⟨_, _, rfl, rfl, by decide, reachable_Filter_iff_conflict (portsOk_NewNodeInfo 0) h₃ q⟩

/-- Two pods on a node bind host port 80; when one is removed, `UsedPorts` is empty although the
other still binds the port, and `Filter` accepts a third pod that binds it too. -/
theorem removePod_shared_port :
    let cfg : Config := ⟨true, true, fun _ => false⟩
    let web : ContainerPort := { hostPort := 80 }
    let p₁ : Pod := { name := "p1", uid := "u1", containers := [{ ports := [web] }] }
    let p₂ : Pod := { name := "p2", uid := "u2", containers := [{ ports := [web] }] }
    let q : Pod := { name := "q", uid := "u3", containers := [{ ports := [web] }] }
    let n := ((NodeInfo.NewNodeInfo 0).addPod cfg p₁ 1).addPod cfg p₂ 2
    ((n.removePod cfg p₂ 3).toOption.map fun r =>
      (r.1.pods.map (·.name), r.1.usedPorts.card, Filter (PreFilter q) r.1,
        decide (∃ a ∈ getContainerPorts [q], ∃ b ∈ getContainerPorts r.1.pods, PortConflict a b))) =
      some (["p1"], 0, none, true) := by
  decide

end NodePorts

end Caspr
