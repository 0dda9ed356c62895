import Caspr.Framework.Types
import Caspr.Lib.Go
import Caspr.Lib.Run

/-! # The pod nominator (internal/queue/scheduling_queue.go)

`nominatedPodMap` keeps the pods nominated to run on each node twice: `nominatedPods`, the pods
of each node, and `nominatedPodToNode`, the node of each pod UID.  The queue's `Add`, `Update`,
`Delete` and `AddUnschedulableIfNotPresent`, the preemption and `assume` change it only through
`AddNominatedPod`, `DeleteNominatedPodIfExists` and `UpdateNominatedPod` (`Op`).

Every sequence of these keeps the two maps in step (`Inv`): a UID is mapped to a node exactly
when a pod with that UID is in the node's list, which holds each UID once, and no list is
empty.  `delete` then removes the pod with the UID from every list
(`NominatedPodsForNode_delete`), and `add` appends it to one (`add_eq`); `UpdateNominatedPod` of
a pod whose two versions name no node keeps the nomination the scheduler made in memory
(`UpdateNominatedPod_keeps`).

*Modelling.*  Go's maps are association lists; reading a missing key of `nominatedPods` gives
the nil list.  The lock and the log line of `add` are left out. -/

namespace Caspr

namespace Nominator

/-- `NominatedNodeName(pod)`. -/
def NominatedNodeName (p : Pod) : String := p.status.nominatedNodeName

/-- `nominatedPodMap`. -/
structure nominatedPodMap where
  nominatedPods : AList (fun _ : String => List Pod) := ∅
  nominatedPodToNode : AList (fun _ : String => String) := ∅

/-- `NewPodNominator()`. -/
def NewPodNominator : nominatedPodMap := {}

namespace nominatedPodMap

/-- `npm.NominatedPodsForNode(nodeName)`: `nominatedPods[nodeName]`, nil when missing. -/
def NominatedPodsForNode (npm : nominatedPodMap) (nodeName : String) : List Pod :=
  (npm.nominatedPods.lookup nodeName).getD []

/-- `npm.delete(p)`: the pod with `p`'s UID is spliced out of the list of its node, a list left
empty is deleted, and so is the UID's entry. -/
def delete (npm : nominatedPodMap) (p : Pod) : nominatedPodMap :=
  match npm.nominatedPodToNode.lookup p.uid with
  | none => npm
  | some nnn =>
      let pods := (npm.nominatedPods.lookup nnn).getD []
      { nominatedPods :=
          match pods.findIdx? (fun np => np.uid = p.uid) with
          | none => npm.nominatedPods
          | some i =>
              if (pods.eraseIdx i).length = 0 then npm.nominatedPods.erase nnn
              else npm.nominatedPods.insert nnn (pods.eraseIdx i)
        nominatedPodToNode := npm.nominatedPodToNode.erase p.uid }

/-- `npm.add(p, nodeName)`: the pod is deleted, then nominated to `nodeName`, or else to the
node its status names; with neither it is not nominated. -/
def add (npm : nominatedPodMap) (p : Pod) (nodeName : String) : nominatedPodMap :=
  let npm := npm.delete p
  let nnn := if nodeName.length = 0 then NominatedNodeName p else nodeName
  if nnn.length = 0 then npm
  else
    let npm := { npm with nominatedPodToNode := npm.nominatedPodToNode.insert p.uid nnn }
    let pods := (npm.nominatedPods.lookup nnn).getD []
    -- "already exists in the nominated map"
    if pods.any (fun np => np.uid = p.uid) then npm
    else { npm with nominatedPods := npm.nominatedPods.insert nnn (pods ++ [p]) }

/-- `npm.AddNominatedPod(pod, nodeName)`. -/
def AddNominatedPod (npm : nominatedPodMap) (pod : Pod) (nodeName : String) : nominatedPodMap :=
  npm.add pod nodeName

/-- `npm.DeleteNominatedPodIfExists(pod)`. -/
def DeleteNominatedPodIfExists (npm : nominatedPodMap) (pod : Pod) : nominatedPodMap :=
  npm.delete pod

/-- `npm.UpdateNominatedPod(oldPod, newPod)`: when neither version names a node, the node the
scheduler nominated the pod to in memory is kept. -/
def UpdateNominatedPod (npm : nominatedPodMap) (oldPod newPod : Pod) : nominatedPodMap :=
  let nodeName :=
    if NominatedNodeName oldPod = "" ∧ NominatedNodeName newPod = "" then
      match npm.nominatedPodToNode.lookup oldPod.uid with
      | some nnn => nnn
      | none => ""
    else ""
  (npm.delete oldPod).add newPod nodeName

/-! ### The two maps agree -/

/-- The UIDs of the pods nominated to the node `n`. -/
abbrev uidsOn (npm : nominatedPodMap) (n : String) : List String :=
  (npm.NominatedPodsForNode n).map (·.uid)

/-- **The nominator's invariant**: a UID is mapped to a node exactly when a pod with it is in
the node's list; a list holds each UID once and is not empty; no UID is mapped to `""`. -/
structure Inv (npm : nominatedPodMap) : Prop where
  toNode_iff : ∀ uid n, npm.nominatedPodToNode.lookup uid = some n ↔ uid ∈ npm.uidsOn n
  nodup : ∀ n, (npm.uidsOn n).Nodup
  nonempty : ∀ n pods, npm.nominatedPods.lookup n = some pods → pods ≠ []
  toNode_ne : ∀ uid n, npm.nominatedPodToNode.lookup uid = some n → n ≠ ""

theorem inv_NewPodNominator : Inv NewPodNominator where
  toNode_iff := by simp [NewPodNominator, uidsOn, NominatedPodsForNode]
  nodup := by simp [NewPodNominator, uidsOn, NominatedPodsForNode]
  nonempty := by simp [NewPodNominator]
  toNode_ne := by simp [NewPodNominator]

/-- A UID is in the lists of one node at most. -/
theorem Inv.node_unique {npm : nominatedPodMap} (h : Inv npm) {uid n n' : String}
    (hn : uid ∈ npm.uidsOn n) (hn' : uid ∈ npm.uidsOn n') : n = n' :=
  Option.some.inj (((h.toNode_iff uid n).mpr hn).symm.trans ((h.toNode_iff uid n').mpr hn'))

theorem countP_uid_le_one {l : List Pod} {uid : String} (h : (l.map (·.uid)).Nodup) :
    l.countP (fun np => np.uid = uid) ≤ 1 := by
  have hc := List.nodup_iff_count_le_one.mp h uid
  calc l.countP (fun np => np.uid = uid) = l.countP (fun np => np.uid == uid) :=
        List.countP_congr fun np _ => by simp
    _ ≤ 1 := by simpa [List.count, List.countP_map, Function.comp_def] using hc

theorem lookup_delete (npm : nominatedPodMap) (p : Pod) (uid : String) :
    (npm.delete p).nominatedPodToNode.lookup uid =
      if uid = p.uid then none else npm.nominatedPodToNode.lookup uid := by
  unfold delete
  split
  · rename_i hT
    split_ifs with hu
    · rw [hu, hT]
    · rfl
  · split_ifs with hu
    · rw [hu, AList.lookup_erase]
    · exact AList.lookup_erase_ne hu

/-- **`delete` takes the pod with the UID out of every list.** -/
theorem NominatedPodsForNode_delete {npm : nominatedPodMap} (h : Inv npm) (p : Pod) (n : String) :
    (npm.delete p).NominatedPodsForNode n =
      (npm.NominatedPodsForNode n).filter fun np => np.uid ≠ p.uid := by
  have hkeep : ∀ m, npm.nominatedPodToNode.lookup p.uid ≠ some m →
      (npm.NominatedPodsForNode m).filter (fun np => np.uid ≠ p.uid) = npm.NominatedPodsForNode m := by
    intro m hm
    rw [List.filter_eq_self]
    intro np hnp
    simp only [ne_eq, decide_eq_true_eq]
    intro heq
    exact hm ((h.toNode_iff _ _).mpr (List.mem_map.mpr ⟨np, hnp, heq⟩))
  unfold delete
  split
  · rename_i hT
    exact (hkeep n (by simp [hT])).symm
  · rename_i nnn hT
    have hmem : p.uid ∈ npm.uidsOn nnn := (h.toNode_iff _ _).mp hT
    obtain ⟨i, hi⟩ : ∃ i, (npm.NominatedPodsForNode nnn).findIdx? (fun np => np.uid = p.uid) = some i := by
      cases hf : (npm.NominatedPodsForNode nnn).findIdx? (fun np => np.uid = p.uid) with
      | none =>
          obtain ⟨np, hnp, heq⟩ := List.mem_map.mp hmem
          simpa [heq] using List.findIdx?_eq_none_iff.mp hf np hnp
      | some i => exact ⟨i, rfl⟩
    have hsplice : (npm.NominatedPodsForNode nnn).eraseIdx i =
        (npm.NominatedPodsForNode nnn).filter fun np => np.uid ≠ p.uid := by
      have herase := @List.eraseP_eq_eraseIdx _ (npm.NominatedPodsForNode nnn)
        (fun np => decide (np.uid = p.uid))
      rw [hi] at herase
      dsimp only at herase
      rw [← herase, Go.eraseP_eq_filter _ _ (countP_uid_le_one (h.nodup nnn))]
      simp only [decide_not]
    have hi' : ((npm.nominatedPods.lookup nnn).getD []).findIdx? (fun np => np.uid = p.uid) =
        some i := hi
    have hsplice' : ((npm.nominatedPods.lookup nnn).getD []).eraseIdx i =
        (npm.NominatedPodsForNode nnn).filter fun np => np.uid ≠ p.uid := hsplice
    simp only [NominatedPodsForNode, hi', hsplice']
    by_cases hn : n = nnn
    · subst hn
      split_ifs with hlen
      · rw [AList.lookup_erase, List.eq_nil_of_length_eq_zero hlen]
        rfl
      · rw [AList.lookup_insert]
        rfl
    · have hkeep' := hkeep n fun h' => hn (Option.some.inj (hT.symm.trans h')).symm
      split_ifs
      · rw [AList.lookup_erase_ne hn]
        exact hkeep'.symm
      · rw [AList.lookup_insert_ne hn]
        exact hkeep'.symm

theorem nonempty_delete {npm : nominatedPodMap} (h : Inv npm) (p : Pod) :
    ∀ n pods, (npm.delete p).nominatedPods.lookup n = some pods → pods ≠ [] := by
  intro n pods hn
  unfold delete at hn
  split at hn
  · exact h.nonempty n pods hn
  · rename_i nnn _
    dsimp only at hn
    split at hn
    · exact h.nonempty n pods hn
    · rename_i i _
      by_cases hnn : n = nnn
      · subst hnn
        split_ifs at hn with hlen
        · rw [AList.lookup_erase] at hn
          cases hn
        · rw [AList.lookup_insert] at hn
          obtain rfl := Option.some.inj hn
          exact fun hnil => hlen (by rw [hnil]; rfl)
      · split_ifs at hn
        · rw [AList.lookup_erase_ne hnn] at hn
          exact h.nonempty n pods hn
        · rw [AList.lookup_insert_ne hnn] at hn
          exact h.nonempty n pods hn

theorem mem_uids_filter {l : List Pod} {u uid : String} :
    uid ∈ (l.filter fun np => np.uid ≠ u).map (·.uid) ↔ uid ∈ l.map (·.uid) ∧ uid ≠ u := by
  simp only [List.mem_map, List.mem_filter, ne_eq, decide_eq_true_eq]
  constructor
  · rintro ⟨np, ⟨hnp, hne⟩, rfl⟩
    exact ⟨⟨np, hnp, rfl⟩, hne⟩
  · rintro ⟨⟨np, hnp, rfl⟩, hne⟩
    exact ⟨np, ⟨hnp, hne⟩, rfl⟩

/-- **`delete` keeps the invariant.** -/
theorem Inv.delete {npm : nominatedPodMap} (h : Inv npm) (p : Pod) : Inv (npm.delete p) where
  toNode_iff := by
    intro uid n
    simp only [uidsOn, NominatedPodsForNode_delete h, mem_uids_filter, lookup_delete]
    split_ifs with hu
    · simp [hu]
    · rw [h.toNode_iff]
      exact ⟨fun hm => ⟨hm, hu⟩, And.left⟩
  nodup := by
    intro n
    simp only [uidsOn, NominatedPodsForNode_delete h]
    exact (h.nodup n).sublist (List.filter_sublist.map _)
  nonempty := nonempty_delete h p
  toNode_ne := by
    intro uid n hn
    rw [lookup_delete] at hn
    split_ifs at hn
    exact h.toNode_ne uid n hn

theorem not_mem_uidsOn_delete {npm : nominatedPodMap} (h : Inv npm) (p : Pod) (n : String) :
    p.uid ∉ (npm.delete p).uidsOn n := by
  simp only [uidsOn, NominatedPodsForNode_delete h, mem_uids_filter]
  exact fun hm => hm.2 rfl

theorem add_eq {npm : nominatedPodMap} (h : Inv npm) {p : Pod} {nodeName nnn : String}
    (hn : (if nodeName.length = 0 then NominatedNodeName p else nodeName) = nnn) (hne : nnn ≠ "") :
    npm.add p nodeName =
      { nominatedPods :=
          (npm.delete p).nominatedPods.insert nnn ((npm.delete p).NominatedPodsForNode nnn ++ [p])
        nominatedPodToNode := (npm.delete p).nominatedPodToNode.insert p.uid nnn } := by
  have hlen : nnn.length ≠ 0 := fun h0 => hne (String.length_eq_zero_iff.mp h0)
  have hany : ((npm.delete p).NominatedPodsForNode nnn).any (fun np => np.uid = p.uid) = false := by
    rw [List.any_eq_false]
    intro np hnp heq
    exact not_mem_uidsOn_delete h p nnn (List.mem_map.mpr ⟨np, hnp, of_decide_eq_true heq⟩)
  unfold add
  dsimp only
  rw [hn, if_neg hlen, if_neg (by rw [← Bool.not_eq_true] at hany; exact hany)]
  rfl

theorem add_of_eq_empty {npm : nominatedPodMap} {p : Pod} {nodeName : String}
    (hn : (if nodeName.length = 0 then NominatedNodeName p else nodeName) = "") :
    npm.add p nodeName = npm.delete p := by
  unfold add
  simp only [hn, String.length_empty, if_true]

/-- **`add` keeps the invariant.** -/
theorem Inv.add {npm : nominatedPodMap} (h : Inv npm) (p : Pod) (nodeName : String) :
    Inv (npm.add p nodeName) := by
  have h₁ := h.delete p
  by_cases hne : (if nodeName.length = 0 then NominatedNodeName p else nodeName) = ""
  · rw [add_of_eq_empty hne]
    exact h₁
  set nnn := if nodeName.length = 0 then NominatedNodeName p else nodeName with hn
  rw [add_eq h hn.symm hne]
  have hout := not_mem_uidsOn_delete h p
  have huids : ∀ n, (uidsOn ⟨(npm.delete p).nominatedPods.insert nnn
      ((npm.delete p).NominatedPodsForNode nnn ++ [p]),
      (npm.delete p).nominatedPodToNode.insert p.uid nnn⟩ n) =
        if n = nnn then (npm.delete p).uidsOn nnn ++ [p.uid] else (npm.delete p).uidsOn n := by
    intro n
    split_ifs with hnn
    · subst hnn
      simp [uidsOn, NominatedPodsForNode, AList.lookup_insert]
    · simp [uidsOn, NominatedPodsForNode, AList.lookup_insert_ne hnn]
  refine ⟨fun uid n => ?_, fun n => ?_, fun n pods hpods => ?_, fun uid n hu => ?_⟩
  · rw [huids]
    by_cases hu : uid = p.uid
    · subst hu
      rw [AList.lookup_insert]
      split_ifs with hnn
      · simp [hnn]
      · exact ⟨fun hs => absurd (Option.some.inj hs).symm hnn, fun hm => absurd hm (hout n)⟩
    · rw [AList.lookup_insert_ne hu, h₁.toNode_iff]
      split_ifs with hnn
      · subst hnn
        simp [hu]
      · rfl
  · rw [huids]
    split_ifs with hnn
    · subst hnn
      exact List.nodup_append.mpr ⟨h₁.nodup _, List.nodup_singleton _,
        fun a ha b hb => by rw [List.mem_singleton.mp hb]; exact fun hab => hout _ (hab ▸ ha)⟩
    · exact h₁.nodup n
  · by_cases hnn : n = nnn
    · subst hnn
      rw [AList.lookup_insert] at hpods
      obtain rfl := Option.some.inj hpods
      simp
    · rw [AList.lookup_insert_ne hnn] at hpods
      exact h₁.nonempty n pods hpods
  · by_cases huid : uid = p.uid
    · subst huid
      rw [AList.lookup_insert] at hu
      obtain rfl := Option.some.inj hu
      exact hne
    · rw [AList.lookup_insert_ne huid] at hu
      exact h₁.toNode_ne uid n hu

/-- **`UpdateNominatedPod` keeps the invariant.** -/
theorem Inv.update {npm : nominatedPodMap} (h : Inv npm) (oldPod newPod : Pod) :
    Inv (npm.UpdateNominatedPod oldPod newPod) := by
  dsimp only [UpdateNominatedPod]
  exact (h.delete oldPod).add newPod _

/-- **`UpdateNominatedPod` keeps the nomination made in memory**: when neither version of the
pod names a node, the new version is nominated to the node the old one was, or to none. -/
theorem UpdateNominatedPod_keeps {npm : nominatedPodMap} (h : Inv npm) {oldPod newPod : Pod}
    (hold : NominatedNodeName oldPod = "") (hnew : NominatedNodeName newPod = "") :
    (npm.UpdateNominatedPod oldPod newPod).nominatedPodToNode.lookup newPod.uid =
      npm.nominatedPodToNode.lookup oldPod.uid := by
  unfold UpdateNominatedPod
  simp only [hold, hnew, and_self, if_true]
  cases hT : npm.nominatedPodToNode.lookup oldPod.uid with
  | none =>
      rw [add_of_eq_empty (by simp [hnew]), lookup_delete, if_pos rfl]
  | some n =>
      have hne : n ≠ "" := h.toNode_ne _ _ hT
      have hn : (if n.length = 0 then NominatedNodeName newPod else n) = n := by
        rw [if_neg fun h0 => hne (String.length_eq_zero_iff.mp h0)]
      dsimp only
      rw [add_eq (h.delete oldPod) hn hne, AList.lookup_insert]

end nominatedPodMap

/-- The calls that change the nominator. -/
inductive Op where
  | AddNominatedPod (pod : Pod) (nodeName : String)
  | DeleteNominatedPodIfExists (pod : Pod)
  | UpdateNominatedPod (oldPod newPod : Pod)

/-- One call. -/
def Op.apply (npm : nominatedPodMap) : Op → nominatedPodMap
  | .AddNominatedPod pod nodeName => npm.AddNominatedPod pod nodeName
  | .DeleteNominatedPodIfExists pod => npm.DeleteNominatedPodIfExists pod
  | .UpdateNominatedPod oldPod newPod => npm.UpdateNominatedPod oldPod newPod

/-- A step of the nominator: any call, in any state. -/
def Step (npm : nominatedPodMap) (op : Op) (npm' : nominatedPodMap) : Prop := npm' = op.apply npm

open nominatedPodMap

/-- **Every call keeps the invariant.** -/
theorem Inv.step : StepSystem.Preserves Step (fun _ _ => True) Inv := by
  intro npm op npm' h _ hstep
  subst hstep
  cases op with
  | AddNominatedPod pod nodeName => exact h.add pod nodeName
  | DeleteNominatedPodIfExists pod => exact h.delete pod
  | UpdateNominatedPod oldPod newPod => exact h.update oldPod newPod

/-- **The nominator after any sequence of calls.**  A UID is mapped to a node exactly when a pod
with that UID is nominated to the node; a UID is in the list of one node at most, and there at
most once; no list is empty; and `UpdateNominatedPod` of a pod whose two versions name no node
keeps for the new version the nomination the old one had. -/
theorem reachable_nominator_consistent {npm : nominatedPodMap}
    (hr : StepSystem.Reachable Step (fun _ _ => True) NewPodNominator npm) :
    (∀ uid n, npm.nominatedPodToNode.lookup uid = some n ↔
        ∃ p ∈ npm.NominatedPodsForNode n, p.uid = uid) ∧
      (∀ uid n n', (∃ p ∈ npm.NominatedPodsForNode n, p.uid = uid) →
        (∃ p ∈ npm.NominatedPodsForNode n', p.uid = uid) → n = n') ∧
      (∀ n, ((npm.NominatedPodsForNode n).map (·.uid)).Nodup) ∧
      (∀ n pods, npm.nominatedPods.lookup n = some pods → pods ≠ []) ∧
      (∀ oldPod newPod, NominatedNodeName oldPod = "" → NominatedNodeName newPod = "" →
        (npm.UpdateNominatedPod oldPod newPod).nominatedPodToNode.lookup newPod.uid =
          npm.nominatedPodToNode.lookup oldPod.uid) := by
  have h : Inv npm := hr.invariant inv_NewPodNominator Inv.step
  refine ⟨fun uid n => ?_, fun uid n n' hn hn' => ?_, h.nodup, h.nonempty,
    fun _ _ hold hnew => UpdateNominatedPod_keeps h hold hnew⟩
  · rw [h.toNode_iff, uidsOn, List.mem_map]
  · exact h.node_unique (List.mem_map.mpr hn) (List.mem_map.mpr hn')

/-- Pods `p` and `q` nominated to `node-1`, `p` nominated again, to `node-2`, by the
preemption, and `q` deleted: `p` is listed under `node-2` only, and nothing under `node-1`. -/
theorem reachable_nominator_consistent_preempted :
    let p : Pod := { name := "p", uid := "u" }
    let q : Pod := { name := "q", uid := "v" }
    let npm := (((NewPodNominator.AddNominatedPod p "node-1").AddNominatedPod q "node-1").AddNominatedPod
      p "node-2").DeleteNominatedPodIfExists q
    (npm.NominatedPodsForNode "node-1").map (·.uid) = [] ∧
      (npm.NominatedPodsForNode "node-2").map (·.uid) = ["u"] ∧
      (∀ uid n, npm.nominatedPodToNode.lookup uid = some n ↔
        ∃ p ∈ npm.NominatedPodsForNode n, p.uid = uid) ∧
      (∀ uid n n', (∃ p ∈ npm.NominatedPodsForNode n, p.uid = uid) →
        (∃ p ∈ npm.NominatedPodsForNode n', p.uid = uid) → n = n') ∧
      (∀ n, ((npm.NominatedPodsForNode n).map (·.uid)).Nodup) ∧
      (∀ n pods, npm.nominatedPods.lookup n = some pods → pods ≠ []) ∧
      (∀ oldPod newPod, NominatedNodeName oldPod = "" → NominatedNodeName newPod = "" →
        (npm.UpdateNominatedPod oldPod newPod).nominatedPodToNode.lookup newPod.uid =
          npm.nominatedPodToNode.lookup oldPod.uid) := by
  intro p q npm
  have h₁ : StepSystem.Reachable Step (fun _ _ => True) NewPodNominator
      (NewPodNominator.AddNominatedPod p "node-1") := .step (.AddNominatedPod p "node-1") .init trivial rfl
  have h₂ : StepSystem.Reachable Step (fun _ _ => True) NewPodNominator
      ((NewPodNominator.AddNominatedPod p "node-1").AddNominatedPod q "node-1") :=
    .step (.AddNominatedPod q "node-1") h₁ trivial rfl
  have h₃ : StepSystem.Reachable Step (fun _ _ => True) NewPodNominator
      (((NewPodNominator.AddNominatedPod p "node-1").AddNominatedPod q "node-1").AddNominatedPod
        p "node-2") :=
    .step (.AddNominatedPod p "node-2") h₂ trivial rfl
  exact ⟨by decide, by decide,
    reachable_nominator_consistent (.step (.DeleteNominatedPodIfExists q) h₃ trivial rfl)⟩

end Nominator

end Caspr
