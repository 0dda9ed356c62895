import Caspr.Cache.Steps

/-! # Image states (internal/cache/cache.go)

The cache keeps, for each image name, the set of the nodes whose node object lists the image
(`imageStates`).  `addNodeImageStates` puts a node in the set of every image it lists
(`addNodeImageStates_imageStates`) and gives the node's `NodeInfo` a summary of each: the size
and the number of nodes that have the image at that moment (`createImageStateSummary`).
`ImageLocality` scales a node's score by that number over the number of nodes.

The summaries are copies taken when their own node was last added or updated.  `AddNode` of
another node changes the set but leaves every other `NodeInfo` as it was (`AddNode_nodes_of_ne`),
so once a new node with an image joins, every node that had the image before keeps a summary
that counts one node too few (`AddNode_summary_stale`). -/

namespace Caspr

namespace Cache

namespace SchedulerCache

variable (s : SchedulerCache) (name : String)

@[simp] theorem moveNodeInfoToHead_imageStates :
    (s.moveNodeInfoToHead name).imageStates = s.imageStates := by
  unfold moveNodeInfoToHead; split <;> [rfl; split <;> rfl]

@[simp] theorem infoOrNew_fst_imageStates : (s.infoOrNew name).1.imageStates = s.imageStates := by
  unfold infoOrNew; split <;> rfl

@[simp] theorem setInfo_imageStates (n : NodeInfo) :
    (s.setInfo name n).imageStates = s.imageStates := rfl

@[simp] theorem nextGeneration_imageStates : s.nextGeneration.1.imageStates = s.imageStates := rfl

@[simp] theorem removeNodeImageStates_none : s.removeNodeImageStates none = s := rfl

end SchedulerCache

open SchedulerCache

variable {cfg : Config}

/-- The nodes of an image, if the cache has a state for it. -/
abbrev imageNodes (c : SchedulerCache) (X : String) : Option (Finset String) :=
  (c.imageStates X).map (·.nodes)

theorem addImageName_imageNodes (node : Node) (image : ContainerImage)
    (acc : SchedulerCache × AList fun _ : String => ImageStateSummary) (name X : String) :
    imageNodes (addImageName node image acc name).1 X =
      if X = name then some (insert node.name ((imageNodes acc.1 X).getD ∅))
      else imageNodes acc.1 X := by
  obtain ⟨c, newSum⟩ := acc
  unfold addImageName
  dsimp only
  by_cases hX : X = name
  · subst hX
    cases hst : c.imageStates X <;> cases newSum.lookup X <;> simp [hst, imageNodes]
  · cases newSum.lookup name <;> simp [hX, imageNodes]

theorem foldl_addImageName_imageNodes (node : Node) (image : ContainerImage) (X : String) :
    ∀ (names : List String) (acc : SchedulerCache × AList fun _ : String => ImageStateSummary),
      imageNodes (names.foldl (addImageName node image) acc).1 X =
        if X ∈ names then some (insert node.name ((imageNodes acc.1 X).getD ∅))
        else imageNodes acc.1 X
  | [], acc => by simp
  | name :: names, acc => by
      rw [List.foldl_cons, foldl_addImageName_imageNodes node image X names,
        addImageName_imageNodes]
      by_cases hX : X = name
      · simp [hX]
      · simp [hX]

/-- **`addNodeImageStates` adds the node to the set of every image it lists.** -/
theorem addNodeImageStates_imageNodes (c : SchedulerCache) (node : Node) (X : String) :
    imageNodes (c.addNodeImageStates node).1 X =
      if X ∈ node.images.flatMap (·.names) then some (insert node.name ((imageNodes c X).getD ∅))
      else imageNodes c X := by
  unfold addNodeImageStates
  suffices h : ∀ (images : List ContainerImage)
      (acc : SchedulerCache × AList fun _ : String => ImageStateSummary),
      imageNodes (images.foldl (fun acc image => image.names.foldl (addImageName node image) acc)
        acc).1 X =
        if X ∈ images.flatMap (·.names) then some (insert node.name ((imageNodes acc.1 X).getD ∅))
        else imageNodes acc.1 X from h node.images (c, ∅)
  intro images
  induction images with
  | nil => simp
  | cons image images ih =>
      intro acc
      rw [List.foldl_cons, ih, foldl_addImageName_imageNodes]
      by_cases hX : X ∈ image.names
      · simp [hX]
      · simp [hX]

theorem AddNode_nodes_of_ne {s s' : SchedulerCache} {node : Node} {err : Option String}
    {m : String} (hm : m ≠ node.name) (hr : s.AddNode cfg node = .ok (s', err)) :
    s'.nodes m = s.nodes m := by
  rw [AddNode_eq] at hr
  cases hr
  simp [SchedulerCache.nextGeneration, SchedulerCache.infoOrNew_fst_nodes,
    Function.update_of_ne hm]

/-- `AddNode` of a node the cache does not know adds it to the set of every image it lists. -/
theorem AddNode_imageNodes_of_new {s s' : SchedulerCache} {node : Node} {err : Option String}
    (hnew : s.nodes node.name = none) (hr : s.AddNode cfg node = .ok (s', err)) (X : String) :
    imageNodes s' X =
      if X ∈ node.images.flatMap (·.names) then some (insert node.name ((imageNodes s X).getD ∅))
      else imageNodes s X := by
  rw [AddNode_eq] at hr
  cases hr
  have hbase : (s.infoOrNew node.name).2.node = none := by
    simp [SchedulerCache.infoOrNew_snd, SchedulerCache.baseInfo, hnew]
  simp only [setInfo_imageStates, nextGeneration_imageStates, imageNodes]
  rw [← imageNodes, addNodeImageStates_imageNodes]
  simp [hbase, imageNodes]

/-- **A node's image summaries go stale**: when a node the cache does not know joins with an
image `X`, any other node `m` whose summary of `X` counted the nodes of `X` keeps that summary,
while the set of `X` gains the new node. -/
theorem AddNode_summary_stale {s s' : SchedulerCache} {node : Node} {err : Option String}
    {m X : String} {n : NodeInfo} {summary : ImageStateSummary} {state : imageState}
    (hnew : s.nodes node.name = none) (hm : m ≠ node.name) (hn : s.nodes m = some n)
    (hsum : n.imageStates.lookup X = some summary) (hstate : s.imageStates X = some state)
    (hfresh : summary.numNodes = state.nodes.card) (hout : node.name ∉ state.nodes)
    (hX : X ∈ node.images.flatMap (·.names)) (hr : s.AddNode cfg node = .ok (s', err)) :
    (s'.nodes m).bind (·.imageStates.lookup X) = some summary ∧
      ∃ state', s'.imageStates X = some state' ∧ state'.nodes.card = summary.numNodes + 1 := by
  refine ⟨by rw [AddNode_nodes_of_ne hm hr, hn, Option.bind_some, hsum], ?_⟩
  have h := AddNode_imageNodes_of_new hnew hr X
  rw [if_pos hX] at h
  obtain ⟨state', hstate', hnodes⟩ := Option.map_eq_some_iff.mp h
  have hs : imageNodes s X = some state.nodes := by simp [imageNodes, hstate]
  refine ⟨state', hstate', ?_⟩
  rw [hnodes, hs, Option.getD_some, Finset.card_insert_of_notMem hout, hfresh]

/-- Two nodes with the same image join an empty cache: the first node's summary still counts
one node where the set holds two. -/
theorem AddNode_summary_stale_two_nodes :
    let cfg : Config := ⟨true, true, fun _ => false⟩
    let a : Node := { name := "node-a", images := [{ names := ["img"], sizeBytes := 10 }] }
    let b : Node := { name := "node-b", images := [{ names := ["img"], sizeBytes := 10 }] }
    let c := ((((newSchedulerCache 30).AddNode cfg a).toOption.map Prod.fst).getD
      (newSchedulerCache 30))
    ∃ s' err, c.AddNode cfg b = .ok (s', err) ∧
      (s'.nodes "node-a").bind (·.imageStates.lookup "img") = some ⟨10, 1⟩ ∧
      ∃ state', s'.imageStates "img" = some state' ∧ state'.nodes.card = 1 + 1 := by
  intro cfg a b c
  exact ⟨_, _, rfl, @AddNode_summary_stale cfg c _ b _ "node-a" "img" _ _ _ rfl (by decide) rfl
    rfl rfl rfl (by decide) (by decide) rfl⟩

end Cache

end Caspr
