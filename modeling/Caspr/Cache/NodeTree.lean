import Caspr.Framework.Types
import Caspr.Lib.RoundRobin
import Caspr.Lib.Run

/-! # The node tree (internal/cache/node_tree.go)

`nodeTree` keeps the names of the nodes grouped by zone, the zones in the order they first
appeared, and a count of the names.  `list()` enumerates the names round-robin over the zones,
one name of each zone at a time; the snapshot orders `nodeInfoList` by it, and the scheduler
starts its search for feasible nodes from a rotating index into that list.

The model follows the Go code: `tree` is a Go map from zone to a slice of names (a zone whose
slice becomes empty is deleted), `addNode` ignores a name already in its zone, `removeNode`
deletes the first occurrence and fails when the name is not in the zone the node's labels give,
and `updateNode` moves a node only when its zone key changes.  The loop of `list()` runs at most
one round per index into the longest zone, plus one round that finds every zone exhausted and
one that stops, which is the fuel `list` gives it.

`Inv` is what the tree keeps over any run of calls from the empty tree (`Reachable`) whose
callers keep their promises (`Call.Allowed`: a name given to `addNode` is not stored under
another zone, and `updateNode`'s old node carries the zone its name is stored under): `zones`
lists the keys of `tree` once each, no zone's list is empty or repeats a name, a name is stored
under one zone at most, and `numNodes` counts the names.  Each call is a few changes of the
representation (`Inv.setZone`, `Inv.appendZone`, `Inv.deleteZone`), and `updateNode`'s ignored
failure of `removeNode` is harmless because it fails only when the old name is stored nowhere
(`removeNode_eq_error`).  Then the loop of `list()` lists round `r` of the zone lists at its
`r`-th pass and counts as exhausted exactly the zones shorter than `r` (`listLoop_rows`), so
`list()` returns the round-robin interleaving of the zone lists and no error (`list_eq`,
`reachable_list`). -/

namespace Caspr

/-- `v1.LabelFailureDomainBetaZone`. -/
def LabelFailureDomainBetaZone : String := "failure-domain.beta.kubernetes.io/zone"
/-- `v1.LabelTopologyZone`. -/
def LabelTopologyZone : String := "topology.kubernetes.io/zone"
/-- `v1.LabelFailureDomainBetaRegion`. -/
def LabelFailureDomainBetaRegion : String := "failure-domain.beta.kubernetes.io/region"
/-- `v1.LabelTopologyRegion`. -/
def LabelTopologyRegion : String := "topology.kubernetes.io/region"

/-- `utilnode.GetZoneKey`: `region:\0:zone`, or `""` when the node has neither label. -/
def GetZoneKey (node : Node) : String :=
  let zone := match node.labels.lookup LabelFailureDomainBetaZone with
    | some z => z
    | none => (node.labels.lookup LabelTopologyZone).getD ""
  let region := match node.labels.lookup LabelFailureDomainBetaRegion with
    | some r => r
    | none => (node.labels.lookup LabelTopologyRegion).getD ""
  if region = "" ∧ zone = "" then "" else region ++ ":\x00:" ++ zone

/-- `nodeTree`.  `numNodes` is decremented only after a name is found, so it stays a natural
number. -/
structure NodeTree where
  tree : String → Option (List String) := fun _ => none
  zones : List String := []
  numNodes : ℕ := 0

namespace NodeTree

/-- `nt.addNode(n)`. -/
def addNode (nt : NodeTree) (n : Node) : NodeTree :=
  let zone := GetZoneKey n
  match nt.tree zone with
  | some na =>
      if n.name ∈ na then nt
      else { nt with tree := Function.update nt.tree zone (some (na ++ [n.name])),
                     numNodes := nt.numNodes + 1 }
  | none =>
      { nt with zones := nt.zones ++ [zone], tree := Function.update nt.tree zone (some [n.name]),
                numNodes := nt.numNodes + 1 }

/-- `nt.removeZone(zone)`. -/
def removeZone (nt : NodeTree) (zone : String) : NodeTree :=
  { nt with tree := Function.update nt.tree zone none, zones := nt.zones.erase zone }

/-- `nt.removeNode(n)`. -/
def removeNode (nt : NodeTree) (n : Node) : Except String NodeTree :=
  let zone := GetZoneKey n
  let notFound : Except String NodeTree :=
    .error ("node " ++ n.name ++ " in group " ++ zone ++ " was not found")
  match nt.tree zone with
  | some na =>
      match na.idxOf? n.name with
      | some i =>
          let nt' := { nt with tree := Function.update nt.tree zone (some (na.eraseIdx i)) }
          let nt' := if na.eraseIdx i = [] then nt'.removeZone zone else nt'
          .ok { nt' with numNodes := nt.numNodes - 1 }
      | none => notFound
  | none => notFound

/-- `nt.updateNode(old, new)` for a non-nil `old` (the cache always passes one): a node whose
zone key changed is removed, ignoring a failure, and added again. -/
def updateNode (nt : NodeTree) (old new : Node) : NodeTree :=
  if GetZoneKey old = GetZoneKey new then nt
  else
    match nt.removeNode old with
    | .ok nt' => nt'.addNode new
    | .error _ => nt.addNode new

/-- One round of the loop of `list()`: the name at `nodeIndex` of every zone that has one, and
the zones found exhausted for the first time. -/
def listRound (nt : NodeTree) (nodeIndex : ℕ) (acc : List String × ℕ) : List String × ℕ :=
  nt.zones.foldl
    (fun acc zone =>
      let na := (nt.tree zone).getD []
      if h : nodeIndex < na.length then (acc.1 ++ [na[nodeIndex]], acc.2)
      else (acc.1, if nodeIndex = na.length then acc.2 + 1 else acc.2))
    acc

/-- The loop of `list()`, with `fuel` rounds. -/
def listLoop (nt : NodeTree) :
    ℕ → List String → ℕ → ℕ → List String × Option String
  | 0, nodesList, _, _ => (nodesList, none)
  | fuel + 1, nodesList, numExhaustedZones, nodeIndex =>
      if nodesList.length < nt.numNodes then
        if numExhaustedZones ≥ nt.zones.length then
          (nodesList, some "all zones exhausted before reaching count of nodes expected")
        else
          let r := nt.listRound nodeIndex (nodesList, numExhaustedZones)
          listLoop nt fuel r.1 r.2 (nodeIndex + 1)
      else (nodesList, none)

/-- `nt.list()`: the node names round-robin over the zones, and the error returned. -/
def list (nt : NodeTree) : List String × Option String :=
  if nt.zones = [] then ([], none)
  else nt.listLoop ((nt.zones.map fun z => ((nt.tree z).getD []).length).sum + 2) [] 0 0

/-! ### The invariant -/

/-- The names of each zone, the zones in order. -/
def zoneLists (nt : NodeTree) : List (List String) := nt.zones.map fun z => (nt.tree z).getD []

/-- The name `x` is stored under the zone `z`. -/
def Stored (nt : NodeTree) (z x : String) : Prop := ∃ na, nt.tree z = some na ∧ x ∈ na

/-- The invariant of the node tree: `zones` lists the keys of `tree`, once each; no zone's list is
empty or repeats a name; a name is stored under one zone at most; and `numNodes` counts the
names. -/
structure Inv (nt : NodeTree) : Prop where
  zones_nodup : nt.zones.Nodup
  mem_zones : ∀ z, z ∈ nt.zones ↔ (nt.tree z).isSome
  ne_nil : ∀ z na, nt.tree z = some na → na ≠ []
  nodup : ∀ z na, nt.tree z = some na → na.Nodup
  zone_unique : ∀ z z' x, nt.Stored z x → nt.Stored z' x → z = z'
  numNodes_eq : nt.numNodes = (nt.zoneLists.map List.length).sum

theorem map_length_zoneLists (nt : NodeTree) :
    nt.zoneLists.map List.length = nt.zones.map fun z => ((nt.tree z).getD []).length := by
  simp [zoneLists]

theorem inv_empty : Inv {} where
  zones_nodup := List.nodup_nil
  mem_zones _ := by simp
  ne_nil _ _ h := by cases h
  nodup _ _ h := by cases h
  zone_unique _ _ _ h := by obtain ⟨_, h, _⟩ := h; cases h
  numNodes_eq := rfl

theorem sum_update {zones : List String} (hnd : zones.Nodup) {zone : String} (hz : zone ∈ zones)
    (F : String → ℕ) (v : ℕ) :
    (zones.map (Function.update F zone v)).sum + F zone = (zones.map F).sum + v := by
  rw [← List.sum_map_erase _ hz, ← List.sum_map_erase F hz, Function.update_self]
  have hrest : (zones.erase zone).map (Function.update F zone v) = (zones.erase zone).map F :=
    List.map_congr_left fun z hz' => Function.update_of_ne (hnd.mem_erase_iff.mp hz').1 _ _
  rw [hrest]
  omega

theorem length_getD_update (t : String → Option (List String)) (zone : String)
    (o : Option (List String)) :
    (fun z => ((Function.update t zone o z).getD []).length) =
      Function.update (fun z => ((t z).getD []).length) zone (o.getD []).length := by
  funext z
  by_cases h : z = zone
  · subst h
    simp
  · simp [Function.update_of_ne h]

section inv

variable {nt : NodeTree}

theorem Inv.mem_zones_of_eq_some (h : nt.Inv) {z : String} {na : List String}
    (hz : nt.tree z = some na) : z ∈ nt.zones :=
  (h.mem_zones z).mpr (by simp [hz])

theorem Inv.length_le_numNodes (h : nt.Inv) {z : String} {na : List String}
    (hz : nt.tree z = some na) : na.length ≤ nt.numNodes := by
  rw [h.numNodes_eq, map_length_zoneLists]
  have hsum := List.sum_map_erase (fun z => ((nt.tree z).getD []).length) (h.mem_zones_of_eq_some hz)
  simp only [hz, Option.getD_some] at hsum
  omega

theorem stored_update {nt' : NodeTree} {zone : String} {v : List String}
    (ht : nt'.tree = Function.update nt.tree zone (some v)) (z x : String) :
    nt'.Stored z x ↔ (z = zone ∧ x ∈ v) ∨ (z ≠ zone ∧ nt.Stored z x) := by
  by_cases hz : z = zone
  · subst hz
    simp [Stored, ht]
  · simp [Stored, ht, hz]

/-- A property of every list of the tree still holds after a zone's entry is set, when it holds
of the new entry. -/
theorem forall_update {t : String → Option (List String)} {zone : String}
    {o : Option (List String)} {P : List String → Prop} (hP : ∀ z l, t z = some l → P l)
    (ho : ∀ l, o = some l → P l) : ∀ z l, Function.update t zone o z = some l → P l := by
  intro z l hl
  by_cases hzz : z = zone
  · subst hzz
    rw [Function.update_self] at hl
    exact ho l hl
  · rw [Function.update_of_ne hzz] at hl
    exact hP z l hl

/-- **Setting a zone's list keeps the invariant** when the list is not empty, repeats no name and
holds no name of another zone, and `numNodes` moves with its length. -/
theorem Inv.setZone (h : nt.Inv) {zone : String} {na v : List String} {k : ℕ}
    (hz : nt.tree zone = some na) (hv : v ≠ []) (hvn : v.Nodup)
    (hfresh : ∀ z x, z ≠ zone → nt.Stored z x → x ∉ v)
    (hk : k + na.length = nt.numNodes + v.length) :
    Inv { nt with tree := Function.update nt.tree zone (some v), numNodes := k } where
  zones_nodup := h.zones_nodup
  mem_zones z := by
    rw [h.mem_zones]
    by_cases hzz : z = zone
    · subst hzz
      simp [hz]
    · simp [Function.update_of_ne hzz]
  ne_nil := forall_update h.ne_nil fun _ hl => Option.some.inj hl ▸ hv
  nodup := forall_update h.nodup fun _ hl => Option.some.inj hl ▸ hvn
  zone_unique z z' x hx hx' := by
    rw [stored_update rfl] at hx hx'
    rcases hx with ⟨rfl, hx⟩ | ⟨hz1, hx⟩ <;> rcases hx' with ⟨rfl, hx'⟩ | ⟨hz2, hx'⟩
    · rfl
    · exact absurd hx (hfresh z' x hz2 hx')
    · exact absurd hx' (hfresh z x hz1 hx)
    · exact h.zone_unique z z' x hx hx'
  numNodes_eq := by
    have hsum := sum_update h.zones_nodup (h.mem_zones_of_eq_some hz)
      (fun z => ((nt.tree z).getD []).length) v.length
    rw [map_length_zoneLists, length_getD_update]
    simp only [hz, Option.getD_some] at hsum ⊢
    have hnum := h.numNodes_eq
    rw [map_length_zoneLists] at hnum
    omega

/-- **Appending a zone keeps the invariant** when its one name is stored nowhere. -/
theorem Inv.appendZone (h : nt.Inv) {zone x : String} (hz : nt.tree zone = none)
    (hx : ∀ z, ¬ nt.Stored z x) :
    Inv
      { nt with
        zones := nt.zones ++ [zone]
        tree := Function.update nt.tree zone (some [x])
        numNodes := nt.numNodes + 1 } := by
  have hzn : zone ∉ nt.zones := by
    rw [h.mem_zones, hz]
    exact Bool.false_ne_true
  have hrest : nt.zones.map (fun z => (Function.update nt.tree zone (some [x]) z).getD []) =
      nt.zoneLists :=
    List.map_congr_left fun z hz' => by
      rw [Function.update_of_ne (by rintro rfl; exact hzn hz')]
  refine
    { zones_nodup := ?_, mem_zones := ?_, ne_nil := ?_, nodup := ?_, zone_unique := ?_,
      numNodes_eq := ?_ }
  · exact List.nodup_append.mpr ⟨h.zones_nodup, List.nodup_singleton zone,
      fun a ha b hb e => hzn (by rw [List.mem_singleton.mp hb] at e; exact e ▸ ha)⟩
  · intro z
    by_cases hzz : z = zone
    · subst hzz
      simp
    · simp [hzz, h.mem_zones]
  · exact forall_update h.ne_nil fun _ hl => Option.some.inj hl ▸ List.cons_ne_nil x []
  · exact forall_update h.nodup fun _ hl => Option.some.inj hl ▸ List.nodup_singleton x
  · intro z z' y hy hy'
    rw [stored_update rfl] at hy hy'
    rcases hy with ⟨rfl, hy⟩ | ⟨hz1, hy⟩ <;> rcases hy' with ⟨rfl, hy'⟩ | ⟨hz2, hy'⟩
    · rfl
    · exact absurd (List.mem_singleton.mp hy ▸ hy') (hx z')
    · exact absurd (List.mem_singleton.mp hy' ▸ hy) (hx z)
    · exact h.zone_unique z z' y hy hy'
  · show nt.numNodes + 1 = (((nt.zones ++ [zone]).map fun z =>
      (Function.update nt.tree zone (some [x]) z).getD []).map List.length).sum
    rw [List.map_append, hrest, List.map_singleton, Function.update_self, h.numNodes_eq]
    simp

theorem stored_of_update_none {nt' : NodeTree} {zone : String}
    (ht : nt'.tree = Function.update nt.tree zone none) {z x : String} (hx : nt'.Stored z x) :
    z ≠ zone ∧ nt.Stored z x := by
  obtain ⟨na, hna, hx⟩ := hx
  rw [ht] at hna
  by_cases hzz : z = zone
  · subst hzz
    simp at hna
  · rw [Function.update_of_ne hzz] at hna
    exact ⟨hzz, na, hna, hx⟩

/-- **Deleting a zone keeps the invariant**, with its names uncounted. -/
theorem Inv.deleteZone (h : nt.Inv) {zone : String} {na : List String} {k : ℕ}
    (hz : nt.tree zone = some na) (hk : k + na.length = nt.numNodes) :
    Inv
      { nt with
        tree := Function.update nt.tree zone none
        zones := nt.zones.erase zone
        numNodes := k } := by
  have hmem := h.mem_zones_of_eq_some hz
  refine
    { zones_nodup := h.zones_nodup.erase zone, mem_zones := ?_, ne_nil := ?_, nodup := ?_,
      zone_unique := ?_, numNodes_eq := ?_ }
  · intro z
    rw [h.zones_nodup.mem_erase_iff]
    by_cases hzz : z = zone
    · subst hzz
      simp
    · simp [hzz, h.mem_zones]
  · exact forall_update h.ne_nil fun _ hl => by cases hl
  · exact forall_update h.nodup fun _ hl => by cases hl
  · intro z z' x hx hx'
    exact h.zone_unique z z' x (stored_of_update_none rfl hx).2 (stored_of_update_none rfl hx').2
  · have hrest : (nt.zones.erase zone).map (fun z => ((Function.update nt.tree zone none z).getD []).length) =
        (nt.zones.erase zone).map fun z => ((nt.tree z).getD []).length :=
      List.map_congr_left fun z hz' => by
        rw [Function.update_of_ne (h.zones_nodup.mem_erase_iff.mp hz').1]
    have hsum := List.sum_map_erase (fun z => ((nt.tree z).getD []).length) hmem
    have hnum := h.numNodes_eq
    rw [map_length_zoneLists] at hnum ⊢
    simp only at hrest hsum ⊢
    rw [hrest]
    simp only [hz, Option.getD_some] at hsum
    omega

/-! ### Each call keeps the invariant -/

theorem stored_addNode (n : Node) (z x : String) :
    (nt.addNode n).Stored z x ↔ nt.Stored z x ∨ (z = GetZoneKey n ∧ x = n.name) := by
  unfold addNode
  dsimp only
  rcases hz : nt.tree (GetZoneKey n) with _ | na
  · rw [stored_update rfl]
    by_cases hzz : z = GetZoneKey n
    · subst hzz
      simp [Stored, hz]
    · simp [hzz]
  · dsimp only
    by_cases hmem : n.name ∈ na
    · rw [if_pos hmem]
      constructor
      · exact .inl
      · rintro (hs | ⟨rfl, rfl⟩)
        · exact hs
        · exact ⟨na, hz, hmem⟩
    · rw [if_neg hmem, stored_update rfl]
      by_cases hzz : z = GetZoneKey n
      · subst hzz
        simp [Stored, hz, or_comm]
      · simp [hzz]

/-- **`addNode` keeps the invariant** when the name is not stored under another zone. -/
theorem Inv.addNode (h : nt.Inv) (n : Node) (hn : ∀ z, nt.Stored z n.name → z = GetZoneKey n) :
    (nt.addNode n).Inv := by
  unfold NodeTree.addNode
  dsimp only
  rcases hz : nt.tree (GetZoneKey n) with _ | na
  · refine h.appendZone hz fun z hs => ?_
    obtain ⟨na, hna, hx⟩ := hs
    rw [hn z ⟨na, hna, hx⟩, hz] at hna
    cases hna
  · dsimp only
    by_cases hmem : n.name ∈ na
    · rw [if_pos hmem]
      exact h
    · rw [if_neg hmem]
      refine h.setZone hz (List.concat_ne_nil _ _) ?_ ?_
        (by rw [List.length_append, List.length_singleton]; omega)
      · refine (h.nodup _ _ hz).append (List.nodup_singleton _) ?_
        intro a ha hb
        rw [List.mem_singleton.mp hb] at ha
        exact hmem ha
      · intro z x hzz hs hx
        rcases List.mem_append.mp hx with hx | hx
        · exact hzz (h.zone_unique z _ x hs ⟨na, hz, hx⟩)
        · rw [List.mem_singleton.mp hx] at hs
          exact hzz (hn z hs)

theorem eraseIdx_of_idxOf?_eq_some {na : List String} {x : String} {i : ℕ}
    (h : na.idxOf? x = some i) : x ∈ na ∧ i < na.length ∧ na.eraseIdx i = na.erase x := by
  obtain ⟨hi, hget, -⟩ := List.idxOf?_eq_some_iff.mp h
  have hidx : na.idxOf x = i := by grind
  exact ⟨hget ▸ List.getElem_mem hi, hi, by rw [← hidx, List.eraseIdx_idxOf_eq_erase]⟩

theorem removeNode_eq_error {n : Node} {e : String} (h : nt.removeNode n = .error e) :
    ¬ nt.Stored (GetZoneKey n) n.name := by
  rintro ⟨na, hna, hx⟩
  unfold removeNode at h
  simp only [hna] at h
  cases hi : na.idxOf? n.name with
  | none => exact (List.idxOf?_eq_none_iff.mp hi) hx
  | some i => simp [hi] at h

/-- **`removeNode` keeps the invariant**, and stores what was stored but the node's name. -/
theorem Inv.removeNode (h : nt.Inv) {n : Node} {nt' : NodeTree} (hr : nt.removeNode n = .ok nt') :
    nt'.Inv ∧ ∀ z x, nt'.Stored z x → nt.Stored z x ∧ ¬ (z = GetZoneKey n ∧ x = n.name) := by
  unfold NodeTree.removeNode at hr
  dsimp only at hr
  rcases hz : nt.tree (GetZoneKey n) with _ | na
  · simp [hz] at hr
  rcases hi : na.idxOf? n.name with _ | i
  · simp [hz, hi] at hr
  simp only [hz, hi, Except.ok.injEq] at hr
  subst hr
  obtain ⟨hmem, hilen, herase⟩ := eraseIdx_of_idxOf?_eq_some hi
  have hnd := h.nodup _ _ hz
  have hle := h.length_le_numNodes hz
  have hpos : 0 < na.length := List.length_pos_of_mem hmem
  by_cases hempty : na.eraseIdx i = []
  · rw [if_pos hempty]
    have hlen : na.length = 1 := by
      have := List.length_eraseIdx_of_lt hilen
      rw [hempty, List.length_nil] at this
      omega
    refine ⟨?_, fun z x hs => ?_⟩
    · have hdel := h.deleteZone hz (k := nt.numNodes - 1) (by omega)
      simpa [removeZone, Function.update_idem] using hdel
    · obtain ⟨hzz, hs⟩ := @stored_of_update_none nt _ (GetZoneKey n) (by simp [removeZone]) _ _ hs
      exact ⟨hs, fun hc => hzz hc.1⟩
  · rw [if_neg hempty]
    refine ⟨h.setZone hz hempty (hnd.sublist (List.eraseIdx_sublist _ _)) ?_ ?_, fun z x hs => ?_⟩
    · intro z x hzz hs hx
      exact hzz (h.zone_unique z _ x hs ⟨na, hz, (List.eraseIdx_sublist _ _).subset hx⟩)
    · rw [List.length_eraseIdx_of_lt hilen]
      omega
    · rw [stored_update rfl, herase] at hs
      rcases hs with ⟨rfl, hx⟩ | ⟨hzz, hs⟩
      · obtain ⟨hne, hx⟩ := hnd.mem_erase_iff.mp hx
        exact ⟨⟨na, hz, hx⟩, fun hc => hne hc.2⟩
      · exact ⟨hs, fun hc => hzz hc.1⟩

/-- **`updateNode` keeps the invariant** when the old node's name, if stored, is stored under
the old node's zone, and the new node's name, if another, is not stored under another zone. -/
theorem Inv.updateNode (h : nt.Inv) (old new : Node)
    (hold : ∀ z, nt.Stored z old.name → z = GetZoneKey old)
    (hnew : ∀ z, nt.Stored z new.name → new.name ≠ old.name → z = GetZoneKey new) :
    (nt.updateNode old new).Inv := by
  unfold NodeTree.updateNode
  split_ifs with hkey
  · exact h
  cases hr : nt.removeNode old with
  | ok nt' =>
      obtain ⟨h', hst⟩ := h.removeNode hr
      refine h'.addNode new fun z hs => ?_
      obtain ⟨hs, hne⟩ := hst z _ hs
      by_cases hname : new.name = old.name
      · rw [hname] at hs hne
        exact absurd ⟨hold z hs, rfl⟩ hne
      · exact hnew z hs hname
  | error e =>
      refine h.addNode new fun z hs => ?_
      by_cases hname : new.name = old.name
      · rw [hname] at hs
        exact absurd (hold z hs ▸ hs) (removeNode_eq_error hr)
      · exact hnew z hs hname

end inv

/-! ### Runs of calls -/

/-- The calls the cache makes on its node tree. -/
inductive Call where
  | addNode (n : Node)
  | removeNode (n : Node)
  | updateNode (old new : Node)

/-- The tree after a call: a `removeNode` that fails leaves it as it was. -/
def Call.apply : Call → NodeTree → NodeTree
  | .addNode n, nt => nt.addNode n
  | .removeNode n, nt =>
      match nt.removeNode n with
      | .ok nt' => nt'
      | .error _ => nt
  | .updateNode old new, nt => nt.updateNode old new

/-- What a caller promises: `addNode` is not given a name stored under another zone, and
`updateNode`'s old node carries the zone its name is stored under, while its new node, if it
has another name, is given to `addNode` as above. -/
def Call.Allowed (nt : NodeTree) : Call → Prop
  | .addNode n => ∀ z, nt.Stored z n.name → z = GetZoneKey n
  | .removeNode _ => True
  | .updateNode old new =>
      (∀ z, nt.Stored z old.name → z = GetZoneKey old) ∧
        ∀ z, nt.Stored z new.name → new.name ≠ old.name → z = GetZoneKey new

/-- One call. -/
def next (nt : NodeTree) (c : Call) (nt' : NodeTree) : Prop := nt' = c.apply nt

/-- The trees of a run of allowed calls from the empty tree of `newNodeTree`. -/
def Reachable (nt : NodeTree) : Prop := StepSystem.Reachable next Call.Allowed {} nt

/-- Every allowed call keeps the invariant. -/
theorem inv_preserved : StepSystem.Preserves next Call.Allowed Inv := by
  rintro nt (n | n | ⟨old, new⟩) nt' h hok rfl
  · exact h.addNode n hok
  · dsimp only [Call.apply]
    cases hr : nt.removeNode n with
    | ok nt'' => exact (h.removeNode hr).1
    | error e => exact h
  · exact h.updateNode old new hok.1 hok.2

theorem Reachable.inv {nt : NodeTree} (hr : nt.Reachable) : nt.Inv :=
  StepSystem.Reachable.invariant inv_empty inv_preserved hr

/-! ### `list()` -/

/-- One round of `list()` appends the round's names and counts the zones it finds exhausted for
the first time, those whose length is the index. -/
theorem listRound_eq (nt : NodeTree) (r : ℕ) (acc : List String) (c : ℕ) :
    nt.listRound r (acc, c) =
      (acc ++ RoundRobin.row nt.zoneLists r, c + nt.zoneLists.countP (·.length = r)) := by
  unfold listRound zoneLists
  induction nt.zones generalizing acc c with
  | nil => simp
  | cons z zs ih =>
      rw [List.foldl_cons, List.map_cons, RoundRobin.row_cons, List.countP_cons]
      by_cases hr : r < ((nt.tree z).getD []).length
      · rw [dif_pos hr, ih, List.getElem?_eq_getElem hr]
        simp [hr.ne']
      · rw [dif_neg hr, ih, List.getElem?_eq_none (by omega)]
        by_cases he : r = ((nt.tree z).getD []).length
        · simp [he]
          omega
        · simp [he, Ne.symm he]

/-- The zones exhausted before round `r + 1`: those exhausted before round `r`, and those whose
length is `r`. -/
theorem countP_length_lt_succ (ls : List (List String)) (r : ℕ) :
    ls.countP (·.length < r + 1) = ls.countP (·.length < r) + ls.countP (·.length = r) := by
  induction ls with
  | nil => rfl
  | cons l ls ih =>
      simp only [List.countP_cons, ih]
      by_cases h : l.length < r
      · simp [h, Nat.lt_succ_of_lt h, Nat.ne_of_lt h]
        omega
      · by_cases he : l.length = r
        · simp [he]
          omega
        · have : ¬ l.length < r + 1 := by omega
          simp [h, he, this]

/-- After the round of the longest length every name is listed, and the loop stops without an
error. -/
theorem listLoop_done (nt : NodeTree) (hnum : nt.numNodes = (nt.zoneLists.map List.length).sum)
    (fuel c : ℕ) :
    nt.listLoop (fuel + 1) (RoundRobin.roundRobin nt.zoneLists) c
        (RoundRobin.maxLength nt.zoneLists) =
      (RoundRobin.roundRobin nt.zoneLists, none) := by
  have hall : (RoundRobin.roundRobin nt.zoneLists).length = nt.numNodes :=
    (RoundRobin.roundRobin_perm _).length_eq.trans (by rw [List.length_flatten, hnum])
  simp [listLoop, hall]

/-- **The loop of `list()` goes round until every name is listed.**  From round `r`, having
listed the first `r` rounds and counted the zones shorter than `r`, with rounds enough left, the
loop lists the round-robin interleaving and returns no error: before the longest length a zone
has a name left, so the listed names are fewer than `numNodes` and the zones are not all
exhausted.  The induction is on the rounds left. -/
theorem listLoop_rows (nt : NodeTree) (hnum : nt.numNodes = (nt.zoneLists.map List.length).sum) :
    ∀ fuel r, r ≤ RoundRobin.maxLength nt.zoneLists →
      RoundRobin.maxLength nt.zoneLists ≤ r + fuel →
      nt.listLoop (fuel + 1) (RoundRobin.rows nt.zoneLists r)
          (nt.zoneLists.countP (·.length < r)) r =
        (RoundRobin.roundRobin nt.zoneLists, none) := by
  intro fuel
  induction fuel with
  | zero =>
      intro r hr hfuel
      obtain rfl : r = RoundRobin.maxLength nt.zoneLists := by omega
      exact listLoop_done nt hnum 0 _
  | succ fuel ih =>
      intro r hr hfuel
      rcases Nat.lt_or_ge r (RoundRobin.maxLength nt.zoneLists) with hlt | hge
      · have hfew : (RoundRobin.rows nt.zoneLists r).length < nt.numNodes :=
          hnum ▸ RoundRobin.length_rows_lt_sum hlt
        obtain ⟨l, hl, hrl⟩ := RoundRobin.exists_lt_length_of_lt_maxLength hlt
        have hzones : nt.zoneLists.countP (·.length < r) < nt.zones.length := by
          rw [← List.length_map (f := fun z => (nt.tree z).getD []), ← zoneLists,
            List.countP_eq_length_filter]
          exact List.length_filter_lt_length_iff_exists.mpr ⟨l, hl, by simp; omega⟩
        rw [listLoop, if_pos hfew, if_neg (by omega)]
        dsimp only
        rw [listRound_eq, ← RoundRobin.rows_succ, ← countP_length_lt_succ]
        exact ih (r + 1) hlt (by omega)
      · obtain rfl : r = RoundRobin.maxLength nt.zoneLists := by omega
        exact listLoop_done nt hnum (fuel + 1) _

/-- **`list()` returns the round-robin interleaving of the zone lists, and no error**, when
`numNodes` counts the names. -/
theorem list_eq (nt : NodeTree) (hnum : nt.numNodes = (nt.zoneLists.map List.length).sum) :
    nt.list = (RoundRobin.roundRobin nt.zoneLists, none) := by
  unfold list
  split_ifs with hz
  · simp [zoneLists, hz, RoundRobin.roundRobin, RoundRobin.maxLength]
  · have hle := RoundRobin.maxLength_le_sum nt.zoneLists
    rw [← map_length_zoneLists, show (nt.zoneLists.map List.length).sum + 2 =
      ((nt.zoneLists.map List.length).sum + 1) + 1 from rfl]
    have hrun := listLoop_rows nt hnum ((nt.zoneLists.map List.length).sum + 1) 0
      (Nat.zero_le _) (by omega)
    rwa [RoundRobin.rows_zero, List.countP_eq_zero.mpr fun l _ => by simp] at hrun

theorem Inv.flatten_nodup {nt : NodeTree} (h : nt.Inv) : nt.zoneLists.flatten.Nodup := by
  have hstored : ∀ z ∈ nt.zones, ∀ x ∈ (nt.tree z).getD [], nt.Stored z x := by
    intro z hz x hx
    obtain ⟨na, hna⟩ := Option.isSome_iff_exists.mp ((h.mem_zones z).mp hz)
    rw [hna, Option.getD_some] at hx
    exact ⟨na, hna, hx⟩
  refine List.nodup_flatten.mpr ⟨?_, ?_⟩
  · intro l hl
    obtain ⟨z, hz, rfl⟩ := List.mem_map.mp hl
    obtain ⟨na, hna⟩ := Option.isSome_iff_exists.mp ((h.mem_zones z).mp hz)
    rw [hna, Option.getD_some]
    exact h.nodup z na hna
  · refine List.pairwise_map.mpr (h.zones_nodup.pairwise_of_forall_ne fun a ha b hb hab => ?_)
    intro x hxa hxb
    exact hab (h.zone_unique a b x (hstored a ha x hxa) (hstored b hb x hxb))

/-- **The node tree over any run of calls.**  From the empty tree, after any sequence of
`addNode`, `removeNode` and `updateNode` calls that keep their callers' promises, `numNodes` is
the number of names, `zones` lists the keys of `tree` once each, no zone's list is empty and no
name is repeated; and `list()` returns no error and the round-robin interleaving of the zone
lists, a permutation of all the names stored. -/
theorem reachable_list {nt : NodeTree} (hr : nt.Reachable) :
    nt.numNodes = (nt.zoneLists.map List.length).sum ∧
      nt.zones.Nodup ∧ (∀ z, z ∈ nt.zones ↔ (nt.tree z).isSome) ∧
      (∀ z na, nt.tree z = some na → na ≠ []) ∧
      nt.zoneLists.flatten.Nodup ∧
      nt.list = (RoundRobin.roundRobin nt.zoneLists, none) ∧
      (RoundRobin.roundRobin nt.zoneLists).Perm nt.zoneLists.flatten := by
  have h := hr.inv
  exact ⟨h.numNodes_eq, h.zones_nodup, h.mem_zones, h.ne_nil, h.flatten_nodup,
    list_eq nt h.numNodes_eq, RoundRobin.roundRobin_perm _⟩

/-- Nodes `a` and `b` in one zone and `c` in another, then `a` removed: the list takes the two
zones in turn. -/
theorem reachable_list_twoZones :
    let a : Node := { name := "a", labels := AList.singleton LabelTopologyZone "z1" }
    let b : Node := { name := "b", labels := AList.singleton LabelTopologyZone "z1" }
    let c : Node := { name := "c", labels := AList.singleton LabelTopologyZone "z2" }
    ∃ nt, (((({} : NodeTree).addNode a).addNode b).addNode c).removeNode a = .ok nt ∧
      nt.list.1 = ["b", "c"] ∧ nt.Reachable ∧
      (nt.numNodes = (nt.zoneLists.map List.length).sum ∧
        nt.zones.Nodup ∧ (∀ z, z ∈ nt.zones ↔ (nt.tree z).isSome) ∧
        (∀ z na, nt.tree z = some na → na ≠ []) ∧
        nt.zoneLists.flatten.Nodup ∧
        nt.list = (RoundRobin.roundRobin nt.zoneLists, none) ∧
        (RoundRobin.roundRobin nt.zoneLists).Perm nt.zoneLists.flatten) := by
  intro a b c
  have hnone : ∀ z x, ¬ ({} : NodeTree).Stored z x := fun _ _ ⟨_, hna, _⟩ => by cases hna
  have h₁ : Call.Allowed {} (.addNode a) := fun z hz => absurd hz (hnone z _)
  have h₂ : Call.Allowed (({} : NodeTree).addNode a) (.addNode b) := by
    intro z hz
    rcases (stored_addNode _ _ _).mp hz with hz | ⟨-, hx⟩
    · exact absurd hz (hnone z _)
    · exact absurd hx (by decide)
  have h₃ : Call.Allowed ((({} : NodeTree).addNode a).addNode b) (.addNode c) := by
    intro z hz
    rcases (stored_addNode _ _ _).mp hz with hz | ⟨-, hx⟩
    · rcases (stored_addNode _ _ _).mp hz with hz | ⟨-, hx⟩
      · exact absurd hz (hnone z _)
      · exact absurd hx (by decide)
    · exact absurd hx (by decide)
  have hr₃ : ((({} : NodeTree).addNode a).addNode b).addNode c |>.Reachable :=
    .step _ (.step _ (.step _ .init h₁ rfl) h₂ rfl) h₃ rfl
  have hr : (Call.removeNode a).apply (((({} : NodeTree).addNode a).addNode b).addNode c) |>.Reachable :=
    .step (.removeNode a) hr₃ trivial rfl
  exact ⟨_, rfl, rfl, hr, reachable_list hr⟩

end NodeTree

end Caspr
