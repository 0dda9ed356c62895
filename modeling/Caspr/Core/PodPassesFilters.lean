import Caspr.Plugins.DefaultPreemption
import Caspr.Framework.Aggregates

/-! # Whether a pod fits a node: the filters, run twice (core/generic_scheduler.go)

`PodPassesFiltersOnNode(ctx, ph, state, pod, info)` runs the filter plugins on a node
(`RunFilterPlugins`) and merges their statuses (`PluginToStatus.Merge`).  When pods of at least
the pod's priority are nominated to the node, it runs them twice: first on clones of the cycle
state and of the node with those pods added (`addNominatedPods`, which reports each pod to the
plugins through `RunPreFilterExtensionAddPod`), and, if that pass succeeds, again on the state
and the node as they are.

Proved here, for every framework, pod, node and state:
* `Merge_eq`: the merged status has every reason, and the first of the codes `Error`,
  `UnschedulableAndUnresolvable`, `Unschedulable` that a status has, else the last status's code;
  for the maps the filters return, the order of the map does not matter (`mergedCode_perm`);
* `filterPass_success_iff`: a pass's merged status is a success exactly when every filter plugin
  returns a success;
* `addNominatedPods_eq`: the loop adds exactly the nominated pods of priority at least the pod's
  and another UID (`eligiblePods`), in the nominator's order, each reported through an `AddPod`
  extension, and says whether there was one; the node it returns holds them after its own pods
  (`foldlM_addNominatedPod_pods`);
* `PodPassesFiltersOnNode_cases`: the four ways the loop ends once the clones are built, from
  which `PodPassesFiltersOnNode_correct` follows: the pod fits exactly when the first pass
  succeeds and, when a pod was added, the second too; an error is returned exactly when an
  `AddPod` extension fails or a pass that runs ends neither a success nor unschedulable; and the
  data a clone shares with the caller's state is left as it was when no filter plugin writes it.
  `VolumeBinding`'s `Filter` writes it (`PodPassesFiltersOnNode_volumeBinding`).

*The cycle state.*  `CycleState.Clone` copies every plugin's data by the data's own `Clone`.
Those of the plugins with `AddPod` extensions (`InterPodAffinity`, `PodTopologySpread`,
`ServiceAffinity`) build new data, and `NodeInfo.Clone` copies what `NodeInfo.AddPod` writes:
that part of the state is a value here, `σ`, and so is the node.  The `Clone` of
`VolumeBinding`'s `stateData` returns its receiver, so every clone shares that data with the
caller's state, and `VolumeBinding.Filter` writes into it the volumes it finds for the node: that
part is `ρ`, threaded through every call of a `Filter` and returned.

*Modelling.*
* `ph == nil` happens only in tests and is left out; a `NodeInfo` is never nil here.
* `s.AsError()` is read by its text.  A status built with the code `Error` carries an error of
  its message; `Merge` keeps the error of the `Error` status it read, and the only map with one
  that `RunFilterPlugins` returns holds that status alone, so the merged error has the merged
  status's message.
* A Go map is an association list, iterated in the order of its entries.  The merged code does
  not depend on that order for the maps `RunFilterPlugins` returns, only the merged reasons do.
* The generation numbers `NodeInfo.AddPod` draws are one number `gen`, as in `DefaultPreemption`. -/

namespace Caspr

namespace GenericScheduler

open DefaultPreemption

/-! ### Statuses and their merge -/

/-- `s.IsSuccess()`: nil, or the code `Success`. -/
def IsSuccess (s : Option Status) : Bool := statusCode s == .Success

/-- `s.IsUnschedulable()`. -/
def IsUnschedulable (s : Option Status) : Bool :=
  statusCode s == .Unschedulable || statusCode s == .UnschedulableAndUnresolvable

/-- The test that ends the loop of `PodPassesFiltersOnNode` with an error:
`!status.IsSuccess() && !status.IsUnschedulable()`. -/
def endsInError (s : Option Status) : Bool := !IsSuccess s && !IsUnschedulable s

/-- `s.AsError()`, by its text. -/
def AsError (s : Option Status) : Option String :=
  if IsSuccess s then none else s.map Status.Message

/-- `framework.PluginToStatus`: the status of each filter plugin, by the plugin's name. -/
abbrev PluginToStatus := AList (fun _ : String => Status)

/-- What the loop of `p.Merge()` carries: the code of the status it read last, the reasons read so
far, and whether it has read an `Error` (`finalStatus.err` set), an
`UnschedulableAndUnresolvable`, an `Unschedulable`. -/
structure MergeAcc where
  code : Code
  reasons : List String
  hasError : Bool
  hasUnschedulableAndUnresolvable : Bool
  hasUnschedulable : Bool

/-- One iteration of the loop of `p.Merge()`. -/
def mergeStep (acc : MergeAcc) (s : Status) : MergeAcc where
  code := s.code
  reasons := acc.reasons ++ s.reasons
  hasError := acc.hasError || s.code == .Error
  hasUnschedulableAndUnresolvable :=
    acc.hasUnschedulableAndUnresolvable || s.code == .UnschedulableAndUnresolvable
  hasUnschedulable := acc.hasUnschedulable || s.code == .Unschedulable

/-- `p.Merge()`: nil for an empty map; else the reasons of all statuses, and the code `Error`,
`UnschedulableAndUnresolvable` or `Unschedulable` if one status has it, in that precedence, or
the code of the status read last. -/
def Merge (p : PluginToStatus) : Option Status :=
  if p.entries.length = 0 then none
  else
    let acc := p.entries.foldl (fun acc e => mergeStep acc e.2) ⟨.Success, [], false, false, false⟩
    some ⟨if acc.hasError then .Error
      else if acc.hasUnschedulableAndUnresolvable then .UnschedulableAndUnresolvable
      else if acc.hasUnschedulable then .Unschedulable
      else acc.code, acc.reasons⟩

/-! ### The framework -/

/-- A filter plugin: its name, and its `Filter`, which reads both parts of the cycle state and
may write the shared one. -/
structure FilterPlugin (σ ρ : Type) where
  Name : String
  Filter : σ → ρ → Pod → NodeInfo → Option Status × ρ

/-- What `PodPassesFiltersOnNode` calls through `ph`: the framework's filter plugins and its
`runAllFilters`, the pods the nominator holds for a node, and the `AddPod` extensions of the
`PreFilter` plugins, which write the cloned part of the state and fail with a status. -/
structure FilterHandle (σ ρ : Type) where
  filterPlugins : List (FilterPlugin σ ρ)
  runAllFilters : Bool
  NominatedPodsForNode : String → List Pod
  RunPreFilterExtensionAddPod : σ → Pod → Pod → NodeInfo → Except Status σ

section filters

variable {σ ρ : Type} (cfg : Config) (gen : ℤ) (fh : FilterHandle σ ρ)

/-- The status `RunFilterPlugins` returns alone for a plugin status that is neither a success nor
unschedulable. -/
def filterErrorStatus (name : String) (pod : Pod) (s : Status) : Status :=
  NewStatus .Error ("running " ++ Go.Quote name ++ " filter plugin for pod " ++ Go.Quote pod.name ++
    ": " ++ s.Message)

/-- The loop of `RunFilterPlugins` over the plugins still to run, with the statuses so far. -/
def runFilterLoop (state : σ) (pod : Pod) (nodeInfo : NodeInfo) :
    List (FilterPlugin σ ρ) → PluginToStatus → ρ → PluginToStatus × ρ
  | [], statuses, r => (statuses, r)
  | pl :: pls, statuses, r =>
      match pl.Filter state r pod nodeInfo with
      | (none, r) => runFilterLoop state pod nodeInfo pls statuses r
      | (some s, r) =>
          if s.code = .Success then runFilterLoop state pod nodeInfo pls statuses r
          else if !s.IsUnschedulable then
            (AList.singleton pl.Name (filterErrorStatus pl.Name pod s), r)
          else if !fh.runAllFilters then (statuses.insert pl.Name s, r)
          else runFilterLoop state pod nodeInfo pls (statuses.insert pl.Name s) r

/-- `f.RunFilterPlugins(ctx, state, pod, nodeInfo)`, and the shared part of the state after. -/
def RunFilterPlugins (state : σ) (pod : Pod) (nodeInfo : NodeInfo) (r : ρ) : PluginToStatus × ρ :=
  runFilterLoop fh state pod nodeInfo fh.filterPlugins ∅ r

/-- One pass of the loop of `PodPassesFiltersOnNode`: the filters' statuses, merged. -/
def filterPass (state : σ) (pod : Pod) (nodeInfo : NodeInfo) (r : ρ) : Option Status × ρ :=
  let (statusMap, r) := RunFilterPlugins fh state pod nodeInfo r
  (Merge statusMap, r)

/-- The loop of `addNominatedPods` over the nominated pods still to read: whether a pod was
added, and the two clones. -/
def addNominatedLoop (pod : Pod) :
    List Pod → Bool × σ × NodeInfo → Except String (Bool × σ × NodeInfo)
  | [], acc => .ok acc
  | p :: ps, (podsAdded, stateOut, nodeInfoOut) =>
      if PodPriority p ≥ PodPriority pod ∧ p.uid ≠ pod.uid then
        let nodeInfoOut := nodeInfoOut.addPod cfg p gen
        match fh.RunPreFilterExtensionAddPod stateOut pod p nodeInfoOut with
        | .error status => .error status.Message
        | .ok stateOut => addNominatedLoop pod ps (true, stateOut, nodeInfoOut)
      else addNominatedLoop pod ps (podsAdded, stateOut, nodeInfoOut)

/-- `addNominatedPods(ctx, ph, pod, state, nodeInfo)`: whether a pod was added, the state and the
node to filter on, or the error.  The clones start as the state and the node. -/
def addNominatedPods (pod : Pod) (state : σ) (nodeInfo : NodeInfo) :
    Except String (Bool × σ × NodeInfo) :=
  match nodeInfo.node with
  | none => .ok (false, state, nodeInfo)
  | some node =>
      let nominatedPods := fh.NominatedPodsForNode node.name
      if nominatedPods.length = 0 then .ok (false, state, nodeInfo)
      else addNominatedLoop cfg gen fh pod nominatedPods (false, state, nodeInfo)

/-- `PodPassesFiltersOnNode(ctx, ph, state, pod, info)`: whether the pod fits, the status and the
error it returns, and the shared part of the state after.  The loop `for i := 0; i < 2; i++` is
unrolled: the second pass, on the caller's state and node, runs only if the first added a pod
and succeeded. -/
def PodPassesFiltersOnNode (state : σ) (pod : Pod) (info : NodeInfo) (r : ρ) :
    (Bool × Option Status × Option String) × ρ :=
  match addNominatedPods cfg gen fh pod state info with
  | .error err => ((false, none, some err), r)
  | .ok (podsAdded, stateToUse, nodeInfoToUse) =>
      let (status, r) := filterPass fh stateToUse pod nodeInfoToUse r
      if endsInError status then ((false, status, AsError status), r)
      else if !podsAdded || !IsSuccess status then ((IsSuccess status, status, none), r)
      else
        let (status, r) := filterPass fh state pod info r
        if endsInError status then ((false, status, AsError status), r)
        else ((IsSuccess status, status, none), r)

end filters

/-! ### `Merge` -/

@[simp] theorem IsSuccess_none : IsSuccess none = true := rfl

@[simp] theorem IsSuccess_some (s : Status) : IsSuccess (some s) = (s.code == .Success) := rfl

@[simp] theorem IsUnschedulable_some (s : Status) : IsUnschedulable (some s) = s.IsUnschedulable :=
  rfl

theorem AsError_isSome (s : Option Status) : (AsError s).isSome = !IsSuccess s := by
  unfold AsError
  split_ifs with h
  · simp [h]
  · cases s <;> simp_all

/-- The code `Merge` gives the statuses `l`: the first of `Error`, `UnschedulableAndUnresolvable`
and `Unschedulable` that one of them has, else the code of the last. -/
def mergedCode (l : List Status) : Code :=
  if l.any (·.code == .Error) then .Error
  else if l.any (·.code == .UnschedulableAndUnresolvable) then .UnschedulableAndUnresolvable
  else if l.any (·.code == .Unschedulable) then .Unschedulable
  else (l.getLast?.map Status.code).getD .Success

theorem foldl_mergeStep (l : List Status) (acc : MergeAcc) :
    l.foldl mergeStep acc =
      { code := (l.getLast?.map Status.code).getD acc.code
        reasons := acc.reasons ++ l.flatMap Status.reasons
        hasError := acc.hasError || l.any (·.code == .Error)
        hasUnschedulableAndUnresolvable :=
          acc.hasUnschedulableAndUnresolvable || l.any (·.code == .UnschedulableAndUnresolvable)
        hasUnschedulable := acc.hasUnschedulable || l.any (·.code == .Unschedulable) } := by
  induction l generalizing acc with
  | nil => simp
  | cons s l ih =>
    rw [List.foldl_cons, ih]
    cases h : l.getLast? <;> simp [mergeStep, h, List.getLast?_cons, Bool.or_assoc]

/-- **`Merge`**: the merged code of the statuses, and all their reasons. -/
theorem Merge_eq {p : PluginToStatus} (hne : p.entries ≠ []) :
    Merge p = some ⟨mergedCode (p.entries.map Sigma.snd),
      (p.entries.map Sigma.snd).flatMap Status.reasons⟩ := by
  have hlen : p.entries.length ≠ 0 := by simpa using hne
  rw [Merge, if_neg hlen, ← List.foldl_map, foldl_mergeStep]
  simp only [Bool.false_or, List.nil_append]
  rfl

theorem Merge_eq_none_iff (p : PluginToStatus) : Merge p = none ↔ p.entries = [] := by
  by_cases h : p.entries = []
  · simp [Merge, h]
  · simp [Merge_eq h, h]

theorem mergedCode_of_unschedulable {l : List Status} (h : ∀ s ∈ l, s.IsUnschedulable = true)
    (hne : l ≠ []) :
    mergedCode l = .UnschedulableAndUnresolvable ∨ mergedCode l = .Unschedulable := by
  have hcode : ∀ s ∈ l, s.code = .Unschedulable ∨ s.code = .UnschedulableAndUnresolvable := by
    intro s hs
    simpa [Status.IsUnschedulable] using h s hs
  have hE : l.any (·.code == .Error) = false :=
    List.any_eq_false.mpr fun s hs => by rcases hcode s hs with hc | hc <;> simp [hc]
  obtain ⟨s, hs⟩ := List.exists_mem_of_ne_nil l hne
  by_cases hUAU : l.any (·.code == .UnschedulableAndUnresolvable) = true
  · simp [mergedCode, hE, hUAU]
  · have hU : l.any (·.code == .Unschedulable) = true := by
      rcases hcode s hs with hc | hc
      · exact List.any_eq_true.mpr ⟨s, hs, by simp [hc]⟩
      · exact absurd (List.any_eq_true.mpr ⟨s, hs, by simp [hc]⟩) hUAU
    simp [mergedCode, hE, hUAU, hU]

/-- The order `Merge` reads statuses in does not change the merged code when each of them is an
`Error` or unschedulable, as in every map `RunFilterPlugins` returns: Go's random map order is
harmless there. -/
theorem mergedCode_perm {l l' : List Status} (hp : l.Perm l')
    (h : ∀ s ∈ l, s.code = .Error ∨ s.IsUnschedulable = true) (hne : l ≠ []) :
    mergedCode l = mergedCode l' := by
  obtain ⟨s, hs⟩ := List.exists_mem_of_ne_nil l hne
  have hsome : (l.any (·.code == .Error) || l.any (·.code == .UnschedulableAndUnresolvable) ||
      l.any (·.code == .Unschedulable)) = true := by
    rcases h s hs with hc | hc
    · simp only [Bool.or_eq_true, List.any_eq_true, beq_iff_eq]
      exact .inl (.inl ⟨s, hs, hc⟩)
    · simp only [Status.IsUnschedulable, Bool.or_eq_true, beq_iff_eq] at hc
      simp only [Bool.or_eq_true, List.any_eq_true, beq_iff_eq]
      rcases hc with hc | hc
      · exact .inr ⟨s, hs, hc⟩
      · exact .inl (.inr ⟨s, hs, hc⟩)
  rw [hp.any_eq, hp.any_eq, hp.any_eq] at hsome
  unfold mergedCode
  rw [hp.any_eq, hp.any_eq, hp.any_eq]
  split_ifs <;> simp_all

/-- An `Error` and an unschedulable status, read in either order. -/
theorem mergedCode_perm_swap :
    let l : List Status := [⟨.Error, ["down"]⟩, ⟨.Unschedulable, ["no"]⟩]
    (∀ s ∈ l, s.code = .Error ∨ s.IsUnschedulable = true) ∧ mergedCode l = mergedCode l.reverse :=
  ⟨by decide, mergedCode_perm (List.Perm.swap _ _ []).symm (by decide) (by simp)⟩

/-- A map of unschedulable statuses merges to a success exactly when it is empty. -/
theorem IsSuccess_Merge_of_unschedulable {p : PluginToStatus}
    (h : ∀ e ∈ p.entries, e.2.IsUnschedulable = true) :
    IsSuccess (Merge p) = true ↔ p.entries = [] := by
  by_cases hne : p.entries = []
  · simp [(Merge_eq_none_iff p).mpr hne, hne]
  · have hl : ∀ s ∈ p.entries.map Sigma.snd, s.IsUnschedulable = true := by
      intro s hs
      obtain ⟨e, he, rfl⟩ := List.mem_map.mp hs
      exact h e he
    rcases mergedCode_of_unschedulable hl (by simpa using hne) with hc | hc <;>
      simp [Merge_eq hne, hc, hne]

/-- The error map of `RunFilterPlugins` merges to its one status, an `Error`. -/
theorem Merge_singleton_error (name : String) (pod : Pod) (s : Status) :
    statusCode (Merge (AList.singleton name (filterErrorStatus name pod s))) = .Error := by
  rw [Merge_eq (by simp [AList.singleton_entries])]
  simp [AList.singleton_entries, mergedCode, filterErrorStatus, NewStatus, statusCode]

section filters

variable {σ ρ : Type} (cfg : Config) (gen : ℤ) (fh : FilterHandle σ ρ)

/-! ### One pass -/

/-- Every filter plugin returns a success, run in order on `state` and `nodeInfo` with the
shared part of the state threaded through. -/
def filtersSucceed (state : σ) (pod : Pod) (nodeInfo : NodeInfo) :
    List (FilterPlugin σ ρ) → ρ → Bool
  | [], _ => true
  | pl :: pls, r => IsSuccess (pl.Filter state r pod nodeInfo).1 &&
      filtersSucceed state pod nodeInfo pls (pl.Filter state r pod nodeInfo).2

omit fh in
theorem insert_unschedulable {statuses : PluginToStatus}
    (h : ∀ e ∈ statuses.entries, e.2.IsUnschedulable = true) {name : String} {s : Status}
    (hs : s.IsUnschedulable = true) :
    ∀ e ∈ (statuses.insert name s).entries, e.2.IsUnschedulable = true := by
  intro e he
  rw [AList.entries_insert, List.mem_cons] at he
  rcases he with rfl | he
  · exact hs
  · exact h e ((List.kerase_sublist _ _).subset he)

/-- **A pass of the filters.**  From a map of unschedulable statuses, the loop ends with a map
that merges to a success exactly when the map was empty and every plugin left returns a
success. -/
theorem runFilterLoop_success (state : σ) (pod : Pod) (nodeInfo : NodeInfo) :
    ∀ (pls : List (FilterPlugin σ ρ)) (statuses : PluginToStatus) (r : ρ),
      (∀ e ∈ statuses.entries, e.2.IsUnschedulable = true) →
      (IsSuccess (Merge (runFilterLoop fh state pod nodeInfo pls statuses r).1) = true ↔
        statuses.entries = [] ∧ filtersSucceed state pod nodeInfo pls r = true)
  | [], statuses, r, h => by simp [runFilterLoop, filtersSucceed, IsSuccess_Merge_of_unschedulable h]
  | pl :: pls, statuses, r, h => by
      rcases hf : pl.Filter state r pod nodeInfo with ⟨_ | s, r'⟩
      · simpa [runFilterLoop, filtersSucceed, hf] using runFilterLoop_success state pod nodeInfo pls statuses r' h
      by_cases hs : s.code = .Success
      · simpa [runFilterLoop, filtersSucceed, hf, hs] using
          runFilterLoop_success state pod nodeInfo pls statuses r' h
      have hfalse : filtersSucceed state pod nodeInfo (pl :: pls) r = false := by
        simp [filtersSucceed, hf, hs]
      rw [hfalse]
      by_cases hu : s.IsUnschedulable = true
      · have hins := @insert_unschedulable statuses h pl.Name s hu
        have hne : (statuses.insert pl.Name s).entries ≠ [] := by simp [AList.entries_insert]
        cases hall : fh.runAllFilters
        · simp [runFilterLoop, hf, hs, hu, hall, IsSuccess_Merge_of_unschedulable hins]
        · have := runFilterLoop_success state pod nodeInfo pls (statuses.insert pl.Name s) r' hins
          simp only [runFilterLoop, hf, hs, hu, hall, Bool.not_true, Bool.false_eq_true,
            ↓reduceIte]
          simpa [hne] using this
      · have hcode := Merge_singleton_error pl.Name pod s
        simp only [runFilterLoop, hf, hs, hu, Bool.not_false, ↓reduceIte]
        simp [IsSuccess, hcode]

/-- **A pass merges to a success exactly when every filter plugin returns one.** -/
theorem filterPass_success_iff (state : σ) (pod : Pod) (nodeInfo : NodeInfo) (r : ρ) :
    IsSuccess (filterPass fh state pod nodeInfo r).1 = true ↔
      filtersSucceed state pod nodeInfo fh.filterPlugins r = true := by
  have h := runFilterLoop_success fh state pod nodeInfo fh.filterPlugins ∅ r (by simp)
  simpa [filterPass, RunFilterPlugins] using h

theorem runFilterLoop_shared (state : σ) (pod : Pod) (nodeInfo : NodeInfo) :
    ∀ (pls : List (FilterPlugin σ ρ)), (∀ pl ∈ pls, ∀ s r p n, (pl.Filter s r p n).2 = r) →
      ∀ (statuses : PluginToStatus) (r : ρ), (runFilterLoop fh state pod nodeInfo pls statuses r).2 = r
  | [], _, _, _ => rfl
  | pl :: pls, h, statuses, r => by
      have hpl := h pl List.mem_cons_self state r pod nodeInfo
      have ih := runFilterLoop_shared state pod nodeInfo pls fun pl' hpl' => h pl' (List.mem_cons_of_mem _ hpl')
      rcases hf : pl.Filter state r pod nodeInfo with ⟨_ | s, r'⟩
      all_goals
        rw [hf] at hpl
        obtain rfl : r' = r := hpl
        simp only [runFilterLoop, hf]
      · exact ih statuses r'
      · split_ifs <;> simp [ih]

theorem filterPass_shared (h : ∀ pl ∈ fh.filterPlugins, ∀ s r p n, (pl.Filter s r p n).2 = r)
    (state : σ) (pod : Pod) (nodeInfo : NodeInfo) (r : ρ) : (filterPass fh state pod nodeInfo r).2 = r :=
  runFilterLoop_shared fh state pod nodeInfo fh.filterPlugins h ∅ r

/-! ### The nominated pods -/

/-- Whether `addNominatedPods` adds the nominated pod `p` for `pod`. -/
def addsNominated (pod p : Pod) : Bool := decide (PodPriority p ≥ PodPriority pod ∧ p.uid ≠ pod.uid)

/-- The nominated pods `addNominatedPods` adds to a node: those nominated to it of priority at
least the pod's and another UID, in the nominator's order; none without a node. -/
def eligiblePods (pod : Pod) (nodeInfo : NodeInfo) : List Pod :=
  match nodeInfo.node with
  | none => []
  | some node => (fh.NominatedPodsForNode node.name).filter (addsNominated pod)

/-- One nominated pod added to the clone of the node, then reported to the plugins. -/
def addNominatedPod (pod : Pod) (x : σ × NodeInfo) (p : Pod) : Except String (σ × NodeInfo) :=
  let nodeInfoOut := x.2.addPod cfg p gen
  match fh.RunPreFilterExtensionAddPod x.1 pod p nodeInfoOut with
  | .error status => .error status.Message
  | .ok stateOut => .ok (stateOut, nodeInfoOut)

theorem addNominatedLoop_eq (pod : Pod) : ∀ (ps : List Pod) (podsAdded : Bool) (x : σ × NodeInfo),
    addNominatedLoop cfg gen fh pod ps (podsAdded, x) =
      ((ps.filter (addsNominated pod)).foldlM (addNominatedPod cfg gen fh pod) x).map
        fun x' => (podsAdded || !(ps.filter (addsNominated pod)).isEmpty, x')
  | [], podsAdded, x => by simp [addNominatedLoop, Except.map, pure, Except.pure]
  | p :: ps, podsAdded, (s, n) => by
      by_cases hp : PodPriority p ≥ PodPriority pod ∧ p.uid ≠ pod.uid
      · have hadd : addsNominated pod p = true := by simp [addsNominated, hp]
        rw [List.filter_cons_of_pos hadd, List.foldlM_cons]
        simp only [addNominatedLoop, if_pos hp, addNominatedPod]
        cases fh.RunPreFilterExtensionAddPod s pod p (n.addPod cfg p gen) with
        | error status => rfl
        | ok s' => simp [addNominatedLoop_eq pod ps true (s', n.addPod cfg p gen), bind, Except.bind]
      · have hadd : addsNominated pod p = false := by simp [addsNominated, hp]
        rw [List.filter_cons_of_neg (by simp [hadd])]
        simp only [addNominatedLoop, if_neg hp]
        exact addNominatedLoop_eq pod ps podsAdded (s, n)

/-- **`addNominatedPods`** adds the eligible pods one by one, and reports whether there was
one. -/
theorem addNominatedPods_eq (pod : Pod) (state : σ) (nodeInfo : NodeInfo) :
    addNominatedPods cfg gen fh pod state nodeInfo =
      ((eligiblePods fh pod nodeInfo).foldlM (addNominatedPod cfg gen fh pod) (state, nodeInfo)).map
        fun x => (!(eligiblePods fh pod nodeInfo).isEmpty, x) := by
  unfold addNominatedPods eligiblePods
  rcases hn : nodeInfo.node with _ | node
  · rfl
  · by_cases h : (fh.NominatedPodsForNode node.name).length = 0
    · simp [List.length_eq_zero_iff.mp h, Except.map, pure, Except.pure]
    · simp [h, addNominatedLoop_eq]

theorem foldlM_addNominatedPod_pods (pod : Pod) : ∀ (ps : List Pod) (x x' : σ × NodeInfo),
    ps.foldlM (addNominatedPod cfg gen fh pod) x = .ok x' → x'.2.pods = x.2.pods ++ ps
  | [], x, x', h => by
      obtain rfl : x = x' := Except.ok.inj h
      simp
  | p :: ps, x, x', h => by
      obtain ⟨x₁, h1, h2⟩ := (StepSystem.foldlM_cons_eq_ok _).mp h
      have hx₁ : x₁.2 = x.2.addPod cfg p gen := by
        simp only [addNominatedPod] at h1
        cases hr : fh.RunPreFilterExtensionAddPod x.1 pod p (x.2.addPod cfg p gen) <;>
          simp [hr] at h1
        rw [← h1]
      rw [foldlM_addNominatedPod_pods pod ps x₁ x' h2, hx₁, NodeInfo.addPod_pods, List.append_assoc,
        List.singleton_append]

/-! ### Both passes -/

theorem IsSuccess_of_endsInError {s : Option Status} (h : endsInError s = true) :
    IsSuccess s = false := by
  simp only [endsInError, Bool.and_eq_true, Bool.not_eq_eq_eq_not, Bool.not_true] at h
  exact h.1

theorem endsInError_of_IsSuccess {s : Option Status} (h : IsSuccess s = true) :
    endsInError s = false := by
  simp [endsInError, h]

theorem PodPassesFiltersOnNode_of_error {state : σ} {pod : Pod} {info : NodeInfo} (r : ρ)
    {err : String}
    (hx : (eligiblePods fh pod info).foldlM (addNominatedPod cfg gen fh pod) (state, info) =
      .error err) :
    PodPassesFiltersOnNode cfg gen fh state pod info r = ((false, none, some err), r) := by
  rw [PodPassesFiltersOnNode, addNominatedPods_eq, hx]
  rfl

/-- **How the loop ends** once the clones are built: the first pass ends in an error; or it is
the only one, no pod having been added or the pass not having succeeded; or the second pass
runs, and ends in an error or not. -/
theorem PodPassesFiltersOnNode_cases {state : σ} {pod : Pod} {info : NodeInfo} (r : ρ)
    {stateOut : σ} {nodeInfoOut : NodeInfo}
    (hx : (eligiblePods fh pod info).foldlM (addNominatedPod cfg gen fh pod) (state, info) =
      .ok (stateOut, nodeInfoOut)) :
    let first := filterPass fh stateOut pod nodeInfoOut r
    let second := filterPass fh state pod info first.2
    let out := PodPassesFiltersOnNode cfg gen fh state pod info r
    endsInError first.1 = true ∧ out = ((false, first.1, AsError first.1), first.2) ∨
    endsInError first.1 = false ∧ (eligiblePods fh pod info = [] ∨ IsSuccess first.1 = false) ∧
      out = ((IsSuccess first.1, first.1, none), first.2) ∨
    IsSuccess first.1 = true ∧ eligiblePods fh pod info ≠ [] ∧ endsInError second.1 = true ∧
      out = ((false, second.1, AsError second.1), second.2) ∨
    IsSuccess first.1 = true ∧ eligiblePods fh pod info ≠ [] ∧ endsInError second.1 = false ∧
      out = ((IsSuccess second.1, second.1, none), second.2) := by
  simp only [PodPassesFiltersOnNode, addNominatedPods_eq, hx, Except.map]
  rcases filterPass fh stateOut pod nodeInfoOut r with ⟨status₁, r₁⟩
  rcases filterPass fh state pod info r₁ with ⟨status₂, r₂⟩
  by_cases hfail₁ : endsInError status₁ = true
  · exact .inl ⟨hfail₁, by simp [hfail₁]⟩
  have h₁ : endsInError status₁ = false := by simpa using hfail₁
  by_cases hstop : eligiblePods fh pod info = [] ∨ IsSuccess status₁ = false
  · have hbreak : (!!(eligiblePods fh pod info).isEmpty || !IsSuccess status₁) = true := by
      rcases hstop with h | h <;> simp [h]
    exact .inr (.inl ⟨h₁, hstop, by simp only [h₁, hbreak, Bool.false_eq_true, ↓reduceIte]⟩)
  · have he : eligiblePods fh pod info ≠ [] := fun h => hstop (.inl h)
    have hs : IsSuccess status₁ = true := by simpa using fun h => hstop (.inr h)
    have hgo : (!!(eligiblePods fh pod info).isEmpty || !IsSuccess status₁) = false := by
      simp [he, hs]
    by_cases hfail₂ : endsInError status₂ = true
    · exact .inr (.inr (.inl ⟨hs, he, hfail₂, by
        simp only [h₁, hgo, hfail₂, Bool.false_eq_true, ↓reduceIte]⟩))
    · have h₂ : endsInError status₂ = false := by simpa using hfail₂
      exact .inr (.inr (.inr ⟨hs, he, h₂, by
        simp only [h₁, hgo, h₂, Bool.false_eq_true, ↓reduceIte]⟩))

/-- **Whether the pod fits**: exactly when the nominated pods are added, the pass on the clones
succeeds, and, when a pod was added, the pass on the caller's state and node succeeds too. -/
theorem PodPassesFiltersOnNode_fits (state : σ) (pod : Pod) (info : NodeInfo) (r : ρ) :
    (PodPassesFiltersOnNode cfg gen fh state pod info r).1.1 = true ↔
      ∃ stateOut nodeInfoOut,
        (eligiblePods fh pod info).foldlM (addNominatedPod cfg gen fh pod) (state, info) =
          .ok (stateOut, nodeInfoOut) ∧
        IsSuccess (filterPass fh stateOut pod nodeInfoOut r).1 = true ∧
        (eligiblePods fh pod info ≠ [] →
          IsSuccess (filterPass fh state pod info (filterPass fh stateOut pod nodeInfoOut r).2).1 =
            true) := by
  rcases hx : (eligiblePods fh pod info).foldlM (addNominatedPod cfg gen fh pod) (state, info)
    with err | ⟨stateOut, nodeInfoOut⟩
  · simp [PodPassesFiltersOnNode_of_error cfg gen fh r hx]
  simp only [Except.ok.injEq, Prod.mk.injEq, and_assoc, exists_and_left, exists_eq_left']
  rcases PodPassesFiltersOnNode_cases cfg gen fh r hx with
    ⟨hf, hout⟩ | ⟨-, hone, hout⟩ | ⟨hs, he, hf, hout⟩ | ⟨hs, he, -, hout⟩ <;> rw [hout]
  · simp [IsSuccess_of_endsInError hf]
  · rcases hone with he | hs
    · simp [he]
    · simp [hs]
  · simp [IsSuccess_of_endsInError hf, hs, he]
  · simp [hs, he]

/-- **When an error is returned**: exactly when an `AddPod` extension fails, or a pass that runs
ends with a status neither a success nor unschedulable. -/
theorem PodPassesFiltersOnNode_error (state : σ) (pod : Pod) (info : NodeInfo) (r : ρ) :
    (PodPassesFiltersOnNode cfg gen fh state pod info r).1.2.2.isSome = true ↔
      (∃ err, (eligiblePods fh pod info).foldlM (addNominatedPod cfg gen fh pod) (state, info) =
        .error err) ∨
      ∃ stateOut nodeInfoOut,
        (eligiblePods fh pod info).foldlM (addNominatedPod cfg gen fh pod) (state, info) =
          .ok (stateOut, nodeInfoOut) ∧
        (endsInError (filterPass fh stateOut pod nodeInfoOut r).1 = true ∨
          IsSuccess (filterPass fh stateOut pod nodeInfoOut r).1 = true ∧
            eligiblePods fh pod info ≠ [] ∧
            endsInError (filterPass fh state pod info (filterPass fh stateOut pod nodeInfoOut r).2).1 =
              true) := by
  rcases hx : (eligiblePods fh pod info).foldlM (addNominatedPod cfg gen fh pod) (state, info)
    with err | ⟨stateOut, nodeInfoOut⟩
  · simp [PodPassesFiltersOnNode_of_error cfg gen fh r hx]
  simp only [reduceCtorEq, exists_false, false_or, Except.ok.injEq, Prod.mk.injEq, and_assoc,
    exists_and_left, exists_eq_left']
  rcases PodPassesFiltersOnNode_cases cfg gen fh r hx with
    ⟨hf, hout⟩ | ⟨hf, hone, hout⟩ | ⟨hs, he, hf, hout⟩ | ⟨hs, he, hf, hout⟩ <;> rw [hout]
  · simp [AsError_isSome, IsSuccess_of_endsInError hf, hf]
  · rcases hone with he | hs
    · simp [hf, he]
    · simp [hf, hs]
  · simp [AsError_isSome, IsSuccess_of_endsInError hf, hf, hs, he]
  · simp [hs, he, hf, endsInError_of_IsSuccess hs]

/-- **The shared data**: when no filter plugin writes it, it is left as it was. -/
theorem PodPassesFiltersOnNode_shared
    (h : ∀ pl ∈ fh.filterPlugins, ∀ s r p n, (pl.Filter s r p n).2 = r)
    (state : σ) (pod : Pod) (info : NodeInfo) (r : ρ) :
    (PodPassesFiltersOnNode cfg gen fh state pod info r).2 = r := by
  rcases hx : (eligiblePods fh pod info).foldlM (addNominatedPod cfg gen fh pod) (state, info)
    with err | ⟨stateOut, nodeInfoOut⟩
  · rw [PodPassesFiltersOnNode_of_error cfg gen fh r hx]
  have h₁ := filterPass_shared fh h stateOut pod nodeInfoOut r
  have h₂ := filterPass_shared fh h state pod info (filterPass fh stateOut pod nodeInfoOut r).2
  rcases PodPassesFiltersOnNode_cases cfg gen fh r hx with
    ⟨-, hout⟩ | ⟨-, -, hout⟩ | ⟨-, -, -, hout⟩ | ⟨-, -, -, hout⟩ <;> rw [hout]
  · exact h₁
  · exact h₁
  · exact h₂.trans h₁
  · exact h₂.trans h₁

/-- Without an error, the pod fits exactly when the status returned is a success. -/
theorem PodPassesFiltersOnNode_fits_eq {state : σ} {pod : Pod} {info : NodeInfo} {r : ρ}
    (h : (PodPassesFiltersOnNode cfg gen fh state pod info r).1.2.2 = none) :
    (PodPassesFiltersOnNode cfg gen fh state pod info r).1.1 =
      IsSuccess (PodPassesFiltersOnNode cfg gen fh state pod info r).1.2.1 := by
  rcases hx : (eligiblePods fh pod info).foldlM (addNominatedPod cfg gen fh pod) (state, info)
    with err | ⟨stateOut, nodeInfoOut⟩
  · rw [PodPassesFiltersOnNode_of_error cfg gen fh r hx] at h
    cases h
  rcases PodPassesFiltersOnNode_cases cfg gen fh r hx with
    ⟨hf, hout⟩ | ⟨-, -, hout⟩ | ⟨-, -, hf, hout⟩ | ⟨-, -, -, hout⟩
  · rw [hout] at h
    have herr := AsError_isSome (filterPass fh stateOut pod nodeInfoOut r).1
    rw [show AsError _ = none from h, IsSuccess_of_endsInError hf] at herr
    cases herr
  · rw [hout]
  · rw [hout] at h
    have herr := AsError_isSome
      (filterPass fh state pod info (filterPass fh stateOut pod nodeInfoOut r).2).1
    rw [show AsError _ = none from h, IsSuccess_of_endsInError hf] at herr
    cases herr
  · rw [hout]

/-- **`PodPassesFiltersOnNode`**, for every framework, pod, node and cycle state: the clones
hold the node's pods and then the eligible nominated pods, each reported to the plugins; the pod
fits exactly when the pass on the clones succeeds and, when a pod was added, the pass on the
caller's state and node too; an error is returned exactly when an `AddPod` extension fails or a
pass that runs ends neither a success nor unschedulable; and the data a clone shares with the
caller's state is left as it was when no filter plugin writes it. -/
theorem PodPassesFiltersOnNode_correct (state : σ) (pod : Pod) (info : NodeInfo) (r : ρ) :
    let out := PodPassesFiltersOnNode cfg gen fh state pod info r
    let eligible := eligiblePods fh pod info
    let clones := eligible.foldlM (addNominatedPod cfg gen fh pod) (state, info)
    (∀ stateOut nodeInfoOut, clones = .ok (stateOut, nodeInfoOut) →
      nodeInfoOut.pods = info.pods ++ eligible) ∧
    (out.1.1 = true ↔ ∃ stateOut nodeInfoOut, clones = .ok (stateOut, nodeInfoOut) ∧
        IsSuccess (filterPass fh stateOut pod nodeInfoOut r).1 = true ∧
        (eligible ≠ [] →
          IsSuccess (filterPass fh state pod info (filterPass fh stateOut pod nodeInfoOut r).2).1 =
            true)) ∧
    (out.1.2.2.isSome = true ↔ (∃ err, clones = .error err) ∨
      ∃ stateOut nodeInfoOut, clones = .ok (stateOut, nodeInfoOut) ∧
        (endsInError (filterPass fh stateOut pod nodeInfoOut r).1 = true ∨
          IsSuccess (filterPass fh stateOut pod nodeInfoOut r).1 = true ∧ eligible ≠ [] ∧
            endsInError (filterPass fh state pod info (filterPass fh stateOut pod nodeInfoOut r).2).1 =
              true)) ∧
    ((∀ pl ∈ fh.filterPlugins, ∀ s r' p n, (pl.Filter s r' p n).2 = r') → out.2 = r) :=
  ⟨fun _ _ h => foldlM_addNominatedPod_pods cfg gen fh pod _ _ _ h,
    PodPassesFiltersOnNode_fits cfg gen fh state pod info r,
    PodPassesFiltersOnNode_error cfg gen fh state pod info r,
    fun h => PodPassesFiltersOnNode_shared cfg gen fh h state pod info r⟩

end filters

/-! ### Two filter plugins: one writes the shared data, one writes nothing -/

namespace VolumeBinding

/-- `volumebinding.Name`. -/
def Name : String := "VolumeBinding"

/-- `volumebinding.stateData`, without the claims, which only the binder reads: whether the pod
has no claims, and the volumes `Filter` found for each node.  Its `Clone` returns the
receiver. -/
structure stateData (PodVolumes : Type) where
  skip : Bool
  podVolumesByNode : AList (fun _ : String => PodVolumes)

/-- `pl.Filter(ctx, cs, pod, nodeInfo)` on the plugin's data in the cycle state (`none` when
`PreFilter` stored none), where `FindPodVolumes` is `pl.Binder.FindPodVolumes` on the data's
claims: the pod's volumes on the node and the reasons they do not fit it, or an error.  A success
records the volumes under the node's name. -/
def Filter {σ PodVolumes : Type}
    (FindPodVolumes : Pod → Node → Except String (PodVolumes × List String))
    (_ : σ) (cs : Option (stateData PodVolumes)) (pod : Pod) (nodeInfo : NodeInfo) :
    Option Status × Option (stateData PodVolumes) :=
  match nodeInfo.node with
  | none => (some (NewStatus .Error "node not found"), cs)
  | some node =>
      match cs with
      | none => (some ⟨.Error, ["not found"]⟩, cs)
      | some state =>
          if state.skip then (none, cs)
          else
            match FindPodVolumes pod node with
            | .error err => (some (NewStatus .Error err), cs)
            | .ok (podVolumes, reasons) =>
                if reasons.length > 0 then (some ⟨.UnschedulableAndUnresolvable, reasons⟩, cs)
                else
                  (none, some { state with
                    podVolumesByNode := state.podVolumesByNode.insert node.name podVolumes })

/-- The plugin, as a filter plugin. -/
def plugin {σ PodVolumes : Type}
    (FindPodVolumes : Pod → Node → Except String (PodVolumes × List String)) :
    FilterPlugin σ (Option (stateData PodVolumes)) :=
  ⟨Name, Filter FindPodVolumes⟩

end VolumeBinding

namespace NodeName

/-- `nodename.Name`. -/
def Name : String := "NodeName"

/-- `nodename.ErrReason`. -/
def ErrReason : String := "node(s) didn't match the requested hostname"

/-- `Fits(pod, nodeInfo)`, on the node of the `NodeInfo`. -/
def Fits (pod : Pod) (node : Node) : Bool := pod.nodeName.length = 0 || pod.nodeName == node.name

/-- `pl.Filter(ctx, _, pod, nodeInfo)`, which reads nothing of the cycle state. -/
def Filter {σ ρ : Type} (_ : σ) (r : ρ) (pod : Pod) (nodeInfo : NodeInfo) : Option Status × ρ :=
  match nodeInfo.node with
  | none => (some (NewStatus .Error "node not found"), r)
  | some node =>
      (if Fits pod node then none else some (NewStatus .UnschedulableAndUnresolvable ErrReason), r)

/-- The plugin, as a filter plugin. -/
def plugin {σ ρ : Type} : FilterPlugin σ ρ := ⟨Name, Filter⟩

theorem Filter_shared {σ ρ : Type} (s : σ) (r : ρ) (pod : Pod) (nodeInfo : NodeInfo) :
    (Filter s r pod nodeInfo).2 = r := by
  unfold Filter
  split <;> rfl

end NodeName

/-- A framework whose only filter plugin is `VolumeBinding`, which finds the volume `"pv-0"` for
the pod on every node, and no nominated pod. -/
def volumeBindingHandle : FilterHandle Unit (Option (VolumeBinding.stateData String)) where
  filterPlugins := [VolumeBinding.plugin fun _ _ => .ok ("pv-0", [])]
  runAllFilters := false
  NominatedPodsForNode := fun _ => []
  RunPreFilterExtensionAddPod := fun s _ _ _ => .ok s

/-- `VolumeBinding` writes into the caller's cycle state: the pod fits the node, and the caller's
state, whose `VolumeBinding` data every clone shares, now records the pod's volumes for the
node. -/
theorem PodPassesFiltersOnNode_volumeBinding :
    PodPassesFiltersOnNode ⟨false, false, fun _ => false⟩ 0 volumeBindingHandle () {}
        { node := some { name := "node-1" } } (some ⟨false, ∅⟩) =
      ((true, none, none), some ⟨false, (∅ : AList _).insert "node-1" "pv-0"⟩) :=
  rfl

/-- The same framework with `NodeName` in place of `VolumeBinding`. -/
def nodeNameHandle : FilterHandle Unit (Option (VolumeBinding.stateData String)) :=
  { volumeBindingHandle with filterPlugins := [NodeName.plugin] }

/-- Under `NodeName`, which writes no shared data, the same state is left as it was. -/
theorem PodPassesFiltersOnNode_correct_nodeName :
    (PodPassesFiltersOnNode ⟨false, false, fun _ => false⟩ 0 nodeNameHandle () {}
        { node := some { name := "node-1" } } (some ⟨false, ∅⟩)).2 = some ⟨false, ∅⟩ :=
  (PodPassesFiltersOnNode_correct ⟨false, false, fun _ => false⟩ 0 nodeNameHandle () {}
    { node := some { name := "node-1" } } (some ⟨false, ∅⟩)).2.2.2
    (by simp [nodeNameHandle, NodeName.plugin, NodeName.Filter_shared])

end GenericScheduler

end Caspr
