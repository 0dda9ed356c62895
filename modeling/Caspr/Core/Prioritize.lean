import Caspr.Core.FilterNodes
import Caspr.Plugins.Scorers
import Caspr.Core.GenericScheduler
import Caspr.Lib.Parallel

/-! # Scoring the feasible nodes (framework/runtime/framework.go, core/generic_scheduler.go)

`prioritizeNodes` gives every feasible node the sum of the weighted scores of the framework's
score plugins, and of the scores of the extenders.  It runs the PreScore plugins in turn
(`RunPreScorePlugins`), then `RunScorePlugins`, which makes three passes through
`parallelize.Until`: every score plugin scores every node; every plugin with `ScoreExtensions`
normalizes its list of scores; and every score is checked to lie in
`[MinNodeScore, MaxNodeScore]` and multiplied by its plugin's weight.  Each extender interested
in the pod then adds its scores times its weight, scaled to `MaxNodeScore`.  `NewFramework`
records the plugins' weights, one for each plugin the profile enables, and refuses a profile
whose scores could sum past `MaxTotalScore`.

Proved here, for every framework, cycle state, pod, list of nodes, number of workers and
schedule of the passes:
* a pass agrees with its pieces applied in the order they take effect, up to the first error
  (`runSchedule_update`); the pieces of each pass write slots of their own and fail or not
  whatever the others wrote (`Parallel.Independent`, `Parallel.Commute`), so that a pass whose
  pieces all succeed ends as in order, and a pass where some piece fails sends the error of such
  a piece — which one, the schedule decides (`Until_update_of_ok`, `Until_update_error`);
* `RunScorePlugins_eq`: when every plugin scores every node, every plugin normalizes its list
  and every normalized score is in range, the result is each plugin's normalized scores times
  its weight; otherwise the error is that of a failing score, normalization or range check, in
  the order of the passes (`RunScorePlugins_score_error`, `RunScorePlugins_normalize_error`,
  `RunScorePlugins_weight_error`);
* `recordWeights_eq`: with weights that are not negative, `NewFramework`'s check passes exactly
  when the plugins' largest scores sum to at most `MaxTotalScore`, in whatever order the loop
  meets them; with a negative weight the order decides (`recordWeights_order`);
* `prioritizeNodes_eq`: in a framework `NewFramework` built, the `int64` sum of a node's
  weighted scores never wraps: it is the sum of the normalized scores times the weights, to
  which the extenders' scores are added; those do not depend on the order in which the
  extenders' goroutines add them (`combinedScores_perm`).

*Modelling.*
* The cycle state is a value `σ`: the PreScore plugins write it in turn and the score plugins
  read it.  A plugin is given by its methods, and its `Name()` is the name it is registered
  under.
* The loop of `NewFramework` over the registry is modelled for the weights, over the plugins the
  profile needs, in the order the loop meets them; their factories are taken to succeed.
  `updatePluginList` is left out: the lists of PreScore and score plugins are given, and the
  theorems that need it assume what it ensures, that no plugin is enabled twice.
* `parallelize.Until` runs with `parallelism` workers in a `WorkSchedule` of each pass
  (`PassSchedules`); the scheduler's configuration makes `parallelism` positive.
* `pluginToNodeScores`, a map by plugin name, is a list in the order of the score plugins, and a
  `NodeScoreList` is the list of its scores: the node names in it are those of `nodes`, which
  `NormalizeScore` is given beside the scores.  `prioritizeNodes` reads the map in the plugins'
  order.
* A piece of the first pass writes a plugin's score before the next plugin scores the node; when
  a later plugin fails, what it wrote is never read, and the model writes a piece's scores once
  all its plugins have scored the node.
* The error text of `applyScoreWeights` already holds the words the status puts before it.
* An extender is given by `IsInterested` and `Prioritize`; its goroutines add their scores in
  the order of the extenders.  `NodeScore.Score` is the `int64` sum read as an integer. -/

namespace Caspr

namespace GenericScheduler

open Go NodeResources StepSystem

variable {σ : Type}

/-! ### Plugins and weights -/

/-- A PreScore plugin: its name and its `PreScore`, which may write the cycle state. -/
structure PreScorePlugin (σ : Type) where
  Name : String
  PreScore : σ → Pod → List Node → Option Status × σ

/-- A score plugin: its name, its `Score` of a node given by name, and the `NormalizeScore` of its
`ScoreExtensions`, if it has them.  `NormalizeScore` writes in place the scores of the
`NodeScoreList` it is given, so it returns as many as it was given. -/
structure ScorePlugin (σ : Type) where
  Name : String
  Score : σ → Pod → String → Except Status Int64
  NormalizeScore : Option (σ → Pod → List (String × Int64) → Except Status (List Int64))
  length_NormalizeScore : ∀ normalize ∈ NormalizeScore, ∀ state pod nodeScoreList scores,
    normalize state pod nodeScoreList = .ok scores → scores.length = nodeScoreList.length

/-- `framework.MaxTotalScore`, `math.MaxInt64`. -/
def MaxTotalScore : Int64 := 9223372036854775807

/-- The weight `NewFramework` records for a plugin configured with the weight `w`: a weight of
zero is not permitted and reads as one. -/
def pluginWeight (w : Int32) : Int64 := if w.toInt64 = 0 then 1 else w.toInt64

/-- The loop of `NewFramework` over the registry, for the weights of the plugins the profile
needs, met in the order `needed`: each weight is recorded, and the loop fails once the scores of
the plugins so far could sum past `MaxTotalScore`. -/
def recordWeights : List (String × Int32) → Int64 → Except String (List (String × Int64))
  | [], _ => .ok []
  | (name, w) :: rest, totalPriority =>
      let weight := pluginWeight w
      if weight * MaxNodeScore > MaxTotalScore - totalPriority then
        .error "total score of Score plugins could overflow"
      else ((name, weight) :: ·) <$> recordWeights rest (totalPriority + weight * MaxNodeScore)

/-- `f.pluginNameToWeightMap[name]`: `0` for a name the map does not hold. -/
def weightOf (pluginNameToWeightMap : List (String × Int64)) (name : String) : Int64 :=
  (pluginNameToWeightMap.lookup name).getD 0

/-- The loop of `NewFramework` that checks that every score plugin has a weight. -/
def checkScoreWeights (pluginNameToWeightMap : List (String × Int64)) :
    List (ScorePlugin σ) → Except String Unit
  | [] => .ok ()
  | pl :: rest =>
      if weightOf pluginNameToWeightMap pl.Name = 0 then
        .error ("score plugin " ++ Quote pl.Name ++ " is not configured with weight")
      else checkScoreWeights pluginNameToWeightMap rest

/-- The part of a `frameworkImpl` that scoring reads. -/
structure frameworkImpl (σ : Type) where
  pluginNameToWeightMap : List (String × Int64)
  preScorePlugins : List (PreScorePlugin σ)
  scorePlugins : List (ScorePlugin σ)

/-- `NewFramework(r, profile, …)`, for its weights: the weights of the plugins `needed`, then the
check that every score plugin has one. -/
def NewFramework (needed : List (String × Int32)) (preScorePlugins : List (PreScorePlugin σ))
    (scorePlugins : List (ScorePlugin σ)) : Except String (frameworkImpl σ) := do
  let pluginNameToWeightMap ← recordWeights needed 0
  checkScoreWeights pluginNameToWeightMap scorePlugins
  pure ⟨pluginNameToWeightMap, preScorePlugins, scorePlugins⟩

/-! ### `RunPreScorePlugins` and `RunScorePlugins` -/

/-- `f.RunPreScorePlugins(ctx, state, pod, nodes)`: the PreScore plugins in turn, each reading
the state those before it wrote; the first that does not succeed rejects the pod. -/
def RunPreScorePlugins (pod : Pod) (nodes : List Node) :
    List (PreScorePlugin σ) → σ → Option Status × σ
  | [], state => (none, state)
  | pl :: rest, state =>
      let (status, state) := pl.PreScore state pod nodes
      if IsSuccess status then RunPreScorePlugins pod nodes rest state
      else (some (NewStatus .Error ("running PreScore plugin " ++ Quote pl.Name ++ ": " ++
        (AsError status).getD "")), state)

/-- `fmt.Errorf("plugin %q failed with: %w", pl.Name(), status.AsError())`. -/
def failedWith (name : String) (status : Status) : String :=
  "plugin " ++ Quote name ++ " failed with: " ++ status.Message

/-- What the pieces of `RunScorePlugins` share: each score plugin's list of scores, the error
channel, and whether the context is cancelled. -/
structure ScoreState where
  pluginToNodeScores : List (List Int64)
  errCh : Option String
  cancelled : Bool

/-- A piece that makes new lists of scores with `u`, or sends `u`'s error with
`SendErrorWithCancel`. -/
def ScoreState.update (u : List (List Int64) → Except String (List (List Int64)))
    (st : ScoreState) : ScoreState :=
  match u st.pluginToNodeScores with
  | .error err => { st with errCh := st.errCh.or (some err), cancelled := true }
  | .ok pluginToNodeScores => { st with pluginToNodeScores := pluginToNodeScores }

/-- The loop of a piece of the first pass over the score plugins, each beside its list: each
scores the node `nodeName` and writes the score at `index`, and the first failure ends the
piece with its error. -/
def scoreNode (state : σ) (pod : Pod) (nodeName : String) (index : ℕ) :
    List (ScorePlugin σ) → List (List Int64) → Except String (List (List Int64))
  | pl :: plugins, nodeScoreList :: rest =>
      match pl.Score state pod nodeName with
      | .error status => .error (failedWith pl.Name status)
      | .ok s => (nodeScoreList.set index s :: ·) <$> scoreNode state pod nodeName index plugins rest
  | _, pluginToNodeScores => .ok pluginToNodeScores

/-- The piece of the first pass for the node at `index`. -/
def scorePiece (state : σ) (pod : Pod) (nodes : List Node) (plugins : List (ScorePlugin σ))
    (index : ℕ) (pluginToNodeScores : List (List Int64)) : Except String (List (List Int64)) :=
  match nodes[index]? with
  | some node => scoreNode state pod node.name index plugins pluginToNodeScores
  | none => .ok pluginToNodeScores

/-- A piece of the second and third passes: the plugin at `index` makes its new list of scores
from its list with `r`. -/
def updateAt (r : ScorePlugin σ → List Int64 → Except String (List Int64))
    (plugins : List (ScorePlugin σ)) (index : ℕ) (pluginToNodeScores : List (List Int64)) :
    Except String (List (List Int64)) :=
  match plugins[index]?, pluginToNodeScores[index]? with
  | some pl, some nodeScoreList => (pluginToNodeScores.set index ·) <$> r pl nodeScoreList
  | _, _ => .ok pluginToNodeScores

/-- The second pass on one plugin's list: its `NormalizeScore`, given the node names beside the
scores; a plugin without `ScoreExtensions` keeps its list. -/
def normalizeScores (state : σ) (pod : Pod) (nodeNames : List String) (pl : ScorePlugin σ)
    (nodeScoreList : List Int64) : Except String (List Int64) :=
  match pl.NormalizeScore with
  | none => .ok nodeScoreList
  | some normalize =>
      match normalize state pod (nodeNames.zip nodeScoreList) with
      | .error status => .error (failedWith pl.Name status)
      | .ok scores => .ok scores

/-- The third pass on one plugin's list: the range check and the plugin's weight. -/
def weightScores (pluginNameToWeightMap : List (String × Int64)) (pl : ScorePlugin σ) :
    List Int64 → Except String (List Int64) :=
  applyScoreWeights pl.Name (weightOf pluginNameToWeightMap pl.Name)

/-- The runs of the passes of `RunScorePlugins` through `parallelize.Until`: the run of the pass
`pass` over `pieces` pieces. -/
def PassSchedules (parallelism : ℕ) : Type :=
  (pass pieces : ℕ) → WorkSchedule parallelism pieces (chunkSizeFor parallelism pieces)

/-- `f.RunScorePlugins(ctx, state, pod, nodes)` with `parallelism` workers: the scores of each
score plugin, weighted, in the order of the plugins, or the status of the error sent first. -/
def frameworkImpl.RunScorePlugins (f : frameworkImpl σ) (parallelism : ℕ)
    (sched : PassSchedules parallelism) (state : σ) (pod : Pod) (nodes : List Node) :
    Except Status (List (List Int64)) :=
  let plugins := f.scorePlugins
  let st : ScoreState := ⟨plugins.map fun _ => List.replicate nodes.length 0, none, false⟩
  let st := Until parallelism ScoreState.cancelled nodes.length
    (fun index => ScoreState.update (scorePiece state pod nodes plugins index))
    (sched 0 nodes.length) st
  match st.errCh with
  | some err => .error (NewStatus .Error ("running Score plugins: " ++ err))
  | none =>
    let st := Until parallelism ScoreState.cancelled plugins.length (fun index => ScoreState.update
      (updateAt (normalizeScores state pod (nodes.map Node.name)) plugins index))
      (sched 1 plugins.length) st
    match st.errCh with
    | some err => .error (NewStatus .Error ("running Normalize on Score plugins: " ++ err))
    | none =>
      let st := Until parallelism ScoreState.cancelled plugins.length (fun index =>
        ScoreState.update (updateAt (weightScores f.pluginNameToWeightMap) plugins index))
        (sched 2 plugins.length) st
      match st.errCh with
      | some err => .error (NewStatus .Error err)
      | none => .ok st.pluginToNodeScores

/-! ### Extenders -/

/-- `extenderv1.HostPriority`. -/
structure HostPriority where
  Host : String
  Score : Int64
deriving DecidableEq, Repr

/-- A scheduler extender, by the methods `prioritizeNodes` calls. -/
structure Extender where
  IsInterested : Pod → Bool
  Prioritize : Pod → List Node → Except String (List HostPriority × Int64)

/-- `extenderv1.MaxExtenderPriority`. -/
def MaxExtenderPriority : Int64 := 10

/-- The goroutine of `prioritizeNodes` for one extender: an extender interested in the pod adds
each host's score times its weight to `combinedScores`; the error of one that fails is
ignored. -/
def addExtenderScores (pod : Pod) (nodes : List Node) (combinedScores : String → Int64)
    (extender : Extender) : String → Int64 :=
  if !extender.IsInterested pod then combinedScores
  else
    match extender.Prioritize pod nodes with
    | .error _ => combinedScores
    | .ok (prioritizedList, weight) =>
        prioritizedList.foldl (fun combined hp =>
          Function.update combined hp.Host (combined hp.Host + hp.Score * weight)) combinedScores

/-- `combinedScores` once every extender's goroutine has added its scores; a host it does not
hold reads `0`. -/
def combinedScores (pod : Pod) (nodes : List Node) (extenders : List Extender) : String → Int64 :=
  extenders.foldl (addExtenderScores pod nodes) fun _ => 0

/-- `g.prioritizeNodes(ctx, fwk, state, pod, nodes)` with the extenders `extenders`: every node
scores `1` when there is neither an extender nor a score plugin; else the sum of its weighted
scores, and of the extenders' scores scaled from `MaxExtenderPriority` to `MaxNodeScore`. -/
def prioritizeNodes (parallelism : ℕ) (sched : PassSchedules parallelism) (extenders : List Extender)
    (f : frameworkImpl σ) (state : σ) (pod : Pod) (nodes : List Node) :
    Except String (List NodeScore) :=
  if extenders.length = 0 ∧ f.scorePlugins.length = 0 then
    .ok (nodes.map fun node => ⟨node.name, 1⟩)
  else
    let (preScoreStatus, state) := RunPreScorePlugins pod nodes f.preScorePlugins state
    if !IsSuccess preScoreStatus then .error ((AsError preScoreStatus).getD "")
    else
      match f.RunScorePlugins parallelism sched state pod nodes with
      | .error scoreStatus => .error scoreStatus.Message
      | .ok scoresMap =>
          let result : List (String × Int64) := nodes.mapIdx fun i node => (node.name,
            scoresMap.foldl (fun score (nodeScoreList : List Int64) =>
              score + nodeScoreList.getD i 0) 0)
          let result :=
            if extenders.length ≠ 0 ∧ !nodes.isEmpty then
              let combinedScores := combinedScores pod nodes extenders
              result.map fun r =>
                (r.1, r.2 + combinedScores r.1 * (MaxNodeScore / MaxExtenderPriority))
            else result
          .ok (result.map fun r => ⟨r.1, r.2.toInt⟩)

/-! ### A pass runs its pieces in the order they take effect -/

/-- A pass's last state against what its pieces compute one after the other: the lists of scores
when none fails, else the first error, with the context cancelled. -/
def ScoreState.Agrees (st : ScoreState) : Except String (List (List Int64)) → Prop
  | .ok pluginToNodeScores => st = ⟨pluginToNodeScores, none, false⟩
  | .error err => st.errCh = some err ∧ st.cancelled = true

/-- The error channel keeps the error sent first: a piece run after it changes neither the
error nor the cancellation. -/
theorem ScoreState.Agrees.update {st : ScoreState} {err : String} (h : st.Agrees (.error err))
    (u : List (List Int64) → Except String (List (List Int64))) :
    (ScoreState.update u st).Agrees (.error err) := by
  obtain ⟨he, hc⟩ := h
  unfold ScoreState.update
  cases u st.pluginToNodeScores with
  | error e => exact ⟨by rw [he]; rfl, rfl⟩
  | ok l => exact ⟨he, hc⟩

theorem runSchedule_update_of_error (u : ℕ → List (List Int64) → Except String (List (List Int64)))
    (late : ℕ → Bool) {err : String} : ∀ (l : List ℕ) {st : ScoreState}, st.Agrees (.error err) →
      (runSchedule ScoreState.cancelled late (fun k => ScoreState.update (u k)) l st).Agrees
        (.error err)
  | [], _, h => h
  | p :: ps, st, h => by
      rw [runSchedule]
      apply runSchedule_update_of_error u late ps
      split_ifs
      · exact h
      · exact h.update (u p)

/-- **A pass computes its pieces in the order they take effect**: from a state without an error,
a run agrees with applying the pieces' updates one after the other, up to the first error. -/
theorem runSchedule_update (u : ℕ → List (List Int64) → Except String (List (List Int64)))
    (late : ℕ → Bool) : ∀ (l : List ℕ) (pluginToNodeScores : List (List Int64)),
      (runSchedule ScoreState.cancelled late (fun k => ScoreState.update (u k)) l
        ⟨pluginToNodeScores, none, false⟩).Agrees (l.foldlM (fun t k => u k t) pluginToNodeScores)
  | [], _ => rfl
  | k :: ks, pluginToNodeScores => by
      rw [List.foldlM_cons]
      simp only [runSchedule, Bool.false_and, Bool.false_eq_true, if_false]
      cases hk : u k pluginToNodeScores with
      | error err =>
          simp only [ScoreState.update, hk, Option.none_or]
          exact runSchedule_update_of_error u late ks ⟨rfl, rfl⟩
      | ok lists =>
          simp only [ScoreState.update, hk]
          exact runSchedule_update u late ks lists

section untilPass

variable {parallelism : ℕ} (hp : 0 < parallelism)
  {u : ℕ → List (List Int64) → Except String (List (List Int64))} {n : ℕ}
  (sched : WorkSchedule parallelism n (chunkSizeFor parallelism n))

include hp in
theorem Until_update (t : List (List Int64)) :
    (Until parallelism ScoreState.cancelled n (fun k => ScoreState.update (u k)) sched
      ⟨t, none, false⟩).Agrees (sched.order.foldlM (fun t k => u k t) t) := by
  rw [Until, ParallelizeUntil_eq hp]
  exact runSchedule_update u _ _ _

include hp in
/-- **A pass of pieces that commute, none of which fails, ends as they do in order**, whatever
its schedule. -/
theorem Until_update_of_ok (hc : Parallel.Commute u) {t r : List (List Int64)}
    (h : (List.range n).foldlM (fun t k => u k t) t = .ok r) :
    Until parallelism ScoreState.cancelled n (fun k => ScoreState.update (u k)) sched
      ⟨t, none, false⟩ = ⟨r, none, false⟩ := by
  have hagree := Until_update hp (u := u) sched t
  rw [hc.foldlM_perm sched.perm.symm h] at hagree
  exact hagree

include hp in
/-- **A pass of independent pieces, one of which fails, sends the error of a piece that fails**,
whatever its schedule. -/
theorem Until_update_error (hi : Parallel.Independent u) {t : List (List Int64)} {k : ℕ}
    {err : String} (hk : k < n) (hfail : u k t = .error err) :
    ∃ j < n, ∃ e, u j t = .error e ∧
      (Until parallelism ScoreState.cancelled n (fun k => ScoreState.update (u k)) sched
        ⟨t, none, false⟩).errCh = some e := by
  have hnodup : sched.order.Nodup := sched.perm.nodup_iff.mpr List.nodup_range
  obtain ⟨e', hfold⟩ :=
    hi.foldlM_isError_of_mem hnodup (sched.perm.mem_iff.mpr (List.mem_range.mpr hk)) hfail
  obtain ⟨j, hj, hje⟩ := hi.foldlM_eq_error hnodup hfold
  have hagree := Until_update hp (u := u) sched t
  rw [hfold] at hagree
  exact ⟨j, List.mem_range.mp (sched.perm.mem_iff.mp hj), e', hje, hagree.1⟩

end untilPass

/-! ### The first pass: every plugin scores every node -/

section scorePass

variable {state : σ} {pod : Pod}

theorem scoreNode_of_ok {nodeName : String} {index : ℕ} {score : ScorePlugin σ → Int64}
    (F : ScorePlugin σ → List Int64) : ∀ {plugins : List (ScorePlugin σ)},
      (∀ pl ∈ plugins, pl.Score state pod nodeName = .ok (score pl)) →
      scoreNode state pod nodeName index plugins (plugins.map F) =
        .ok (plugins.map fun pl => (F pl).set index (score pl))
  | [], _ => rfl
  | pl :: plugins, h => by
      simp only [List.map_cons, scoreNode, h pl List.mem_cons_self]
      rw [scoreNode_of_ok F fun p hp => h p (List.mem_cons_of_mem pl hp)]
      rfl

theorem scoreNode_cons_eq_ok {nodeName : String} {index : ℕ} {pl : ScorePlugin σ}
    {plugins : List (ScorePlugin σ)} {l : List Int64} {ls ls' : List (List Int64)} :
    scoreNode state pod nodeName index (pl :: plugins) (l :: ls) = .ok ls' ↔
      ∃ s rest, pl.Score state pod nodeName = .ok s ∧
        scoreNode state pod nodeName index plugins ls = .ok rest ∧ ls' = l.set index s :: rest := by
  cases hs : pl.Score state pod nodeName with
  | error status => simp [scoreNode, hs]
  | ok s =>
      simp only [scoreNode, hs]
      constructor
      · intro h
        obtain ⟨rest, hrest, rfl⟩ := map_eq_ok.mp h
        exact ⟨s, rest, rfl, hrest, rfl⟩
      · rintro ⟨s', rest, hs', hrest, rfl⟩
        cases hs'
        exact map_eq_ok.mpr ⟨rest, hrest, rfl⟩

theorem length_of_scoreNode {nodeName : String} {index : ℕ} :
    ∀ {plugins : List (ScorePlugin σ)} {ls ls' : List (List Int64)},
      scoreNode state pod nodeName index plugins ls = .ok ls' → ls'.length = ls.length
  | [], _, _, h => by
      cases h
      rfl
  | _ :: _, [], _, h => by
      cases h
      rfl
  | _ :: _, _ :: _, _, h => by
      obtain ⟨s, rest, -, hrest, rfl⟩ := scoreNode_cons_eq_ok.mp h
      simp [length_of_scoreNode hrest]

/-- Whether a piece fails, and with what error, depends on the lists only through their
number. -/
theorem scoreNode_error_congr {nodeName : String} {index : ℕ} {err : String} :
    ∀ (plugins : List (ScorePlugin σ)) {ls ls' : List (List Int64)}, ls.length = ls'.length →
      (scoreNode state pod nodeName index plugins ls = .error err ↔
        scoreNode state pod nodeName index plugins ls' = .error err)
  | [], _, _, _ => by simp [scoreNode]
  | _ :: _, [], [], _ => Iff.rfl
  | _ :: _, [], _ :: _, h => absurd h (by simp)
  | _ :: _, _ :: _, [], h => absurd h (by simp)
  | pl :: plugins, _ :: _, _ :: _, h => by
      simp only [scoreNode]
      cases pl.Score state pod nodeName with
      | error status => exact Iff.rfl
      | ok s =>
          simp only [map_eq_error]
          exact scoreNode_error_congr plugins (by simpa using h)

/-- **Two pieces on other indices commute**: each writes its node's scores at its own index. -/
theorem scoreNode_commute {name₁ name₂ : String} {i j : ℕ} (hij : i ≠ j) :
    ∀ (plugins : List (ScorePlugin σ)) {ls ls₁ ls₂ : List (List Int64)},
      scoreNode state pod name₁ i plugins ls = .ok ls₁ →
      scoreNode state pod name₂ j plugins ls₁ = .ok ls₂ →
      ∃ ls₃, scoreNode state pod name₂ j plugins ls = .ok ls₃ ∧
        scoreNode state pod name₁ i plugins ls₃ = .ok ls₂
  | [], _, _, _, h₁, h₂ => by
      cases h₁
      cases h₂
      exact ⟨_, rfl, rfl⟩
  | _ :: _, [], _, _, h₁, h₂ => by
      cases h₁
      cases h₂
      exact ⟨_, rfl, rfl⟩
  | pl :: plugins, l :: ls, _, _, h₁, h₂ => by
      obtain ⟨a, r₁, ha, hr₁, rfl⟩ := scoreNode_cons_eq_ok.mp h₁
      obtain ⟨b, r₂, hb, hr₂, rfl⟩ := scoreNode_cons_eq_ok.mp h₂
      obtain ⟨r₃, hr₃, hr₃'⟩ := scoreNode_commute hij plugins hr₁ hr₂
      refine ⟨l.set j b :: r₃, scoreNode_cons_eq_ok.mpr ⟨b, r₃, hb, hr₃, rfl⟩,
        scoreNode_cons_eq_ok.mpr ⟨a, r₂, ha, hr₃', ?_⟩⟩
      rw [List.set_comm _ _ hij]

/-- A piece fails with the error of the first plugin that fails to score the node. -/
theorem scoreNode_eq_error {nodeName : String} {index : ℕ} {err : String} :
    ∀ {plugins : List (ScorePlugin σ)} {ls : List (List Int64)},
      scoreNode state pod nodeName index plugins ls = .error err →
      ∃ okPlugins pl rest status, plugins = okPlugins ++ pl :: rest ∧
        (∀ p ∈ okPlugins, ∃ s, p.Score state pod nodeName = .ok s) ∧
        pl.Score state pod nodeName = .error status ∧ err = failedWith pl.Name status
  | [], _, h => by cases h
  | _ :: _, [], h => by cases h
  | pl :: plugins, _ :: _, h => by
      simp only [scoreNode] at h
      cases hs : pl.Score state pod nodeName with
      | error status =>
          rw [hs] at h
          cases h
          exact ⟨[], pl, plugins, status, rfl, fun _ hp => absurd hp List.not_mem_nil, hs, rfl⟩
      | ok s =>
          rw [hs, map_eq_error] at h
          obtain ⟨okPlugins, p, rest, status, rfl, hok, hp, rfl⟩ := scoreNode_eq_error h
          refine ⟨pl :: okPlugins, p, rest, status, rfl, ?_, hp, rfl⟩
          rintro q (_ | ⟨_, hq⟩)
          · exact ⟨s, hs⟩
          · exact hok q hq

theorem scoreNode_isError {nodeName : String} {index : ℕ} {pl : ScorePlugin σ} {status : Status}
    (hfail : pl.Score state pod nodeName = .error status) :
    ∀ {plugins : List (ScorePlugin σ)} {ls : List (List Int64)}, pl ∈ plugins →
      plugins.length ≤ ls.length → ∃ err, scoreNode state pod nodeName index plugins ls = .error err
  | _ :: _, [], _, hlen => absurd hlen (by simp)
  | p :: plugins, _ :: _, hmem, hlen => by
      simp only [scoreNode]
      cases hs : p.Score state pod nodeName with
      | error status' => exact ⟨_, rfl⟩
      | ok s =>
          have hmem' : pl ∈ plugins := by
            rcases List.mem_cons.mp hmem with rfl | h
            · rw [hfail] at hs
              cases hs
            · exact h
          obtain ⟨err, herr⟩ := scoreNode_isError hfail hmem' (by simpa using hlen)
          exact ⟨err, map_eq_error.mpr herr⟩

variable {nodes : List Node} {plugins : List (ScorePlugin σ)}

theorem length_of_scorePiece {index : ℕ} {ls ls' : List (List Int64)}
    (h : scorePiece state pod nodes plugins index ls = .ok ls') : ls'.length = ls.length := by
  unfold scorePiece at h
  split at h
  · exact length_of_scoreNode h
  · cases h
    rfl

/-- **The pieces of the first pass are independent**: a piece that succeeds keeps the number of
lists, which is all another piece's failure depends on. -/
theorem scorePiece_independent : Parallel.Independent (scorePiece state pod nodes plugins) := by
  intro j k _ t t' e h
  unfold scorePiece
  cases nodes[k]? with
  | none => simp
  | some node => exact scoreNode_error_congr plugins (length_of_scorePiece h)

/-- **The pieces of the first pass commute.** -/
theorem scorePiece_commute : Parallel.Commute (scorePiece state pod nodes plugins) := by
  intro j k hjk t t₁ t₂ h₁ h₂
  unfold scorePiece at h₁ h₂ ⊢
  cases hj : nodes[j]? with
  | none =>
      rw [hj] at h₁
      cases h₁
      exact ⟨t₂, h₂, rfl⟩
  | some nj =>
      rw [hj] at h₁
      cases hk : nodes[k]? with
      | none =>
          rw [hk] at h₂
          cases h₂
          exact ⟨t, rfl, h₁⟩
      | some nk =>
          rw [hk] at h₂
          exact scoreNode_commute hjk plugins h₁ h₂

/-- Writing the value for the `i`-th element over the first zero after the values of the first
`i` elements. -/
theorem set_take_append_replicate {α β : Type} (g : α → β) (z : β) {l : List α} {i : ℕ}
    (hi : i < l.length) :
    ((l.take i).map g ++ List.replicate (l.length - i) z).set i (g l[i]) =
      (l.take (i + 1)).map g ++ List.replicate (l.length - (i + 1)) z := by
  have hrep : List.replicate (l.length - i) z = z :: List.replicate (l.length - (i + 1)) z := by
    rw [← List.replicate_succ]
    congr 1
    omega
  have hlen : ((l.take i).map g).length = i := by simp [Nat.min_eq_left (le_of_lt hi)]
  rw [List.set_append_right _ _ hlen.le, hlen, Nat.sub_self, hrep, List.set_cons_zero,
    List.take_add_one, List.getElem?_eq_getElem hi]
  simp only [Option.toList_some, List.map_append, List.map_cons, List.map_nil, List.append_assoc,
    List.singleton_append]

variable {score : ScorePlugin σ → Node → Int64}

/-- After the pieces of the first `i` nodes, when every plugin scores each of them, each plugin's
list holds its scores of those nodes, then zeros. -/
theorem foldlM_scorePiece : ∀ {i : ℕ}, i ≤ nodes.length →
    (∀ node ∈ nodes.take i, ∀ pl ∈ plugins, pl.Score state pod node.name = .ok (score pl node)) →
    (List.range i).foldlM (fun t k => scorePiece state pod nodes plugins k t)
        (plugins.map fun _ => List.replicate nodes.length 0) =
      .ok (plugins.map fun pl => (nodes.take i).map (score pl) ++
        List.replicate (nodes.length - i) 0)
  | 0, _, _ => by simp [pure, Except.pure]
  | i + 1, hi, hscore => by
      have hi' : i < nodes.length := hi
      have htake : nodes.take (i + 1) = nodes.take i ++ [nodes[i]] := by
        rw [List.take_add_one, List.getElem?_eq_getElem hi']
        rfl
      have hprev := foldlM_scorePiece (Nat.le_of_lt hi') fun node hn =>
        hscore node (by rw [htake]; exact List.mem_append_left _ hn)
      have hnode : ∀ pl ∈ plugins, pl.Score state pod nodes[i].name = .ok (score pl nodes[i]) :=
        hscore nodes[i] (by rw [htake]; exact List.mem_append_right _ (List.mem_singleton_self _))
      rw [List.range_succ, List.foldlM_append, hprev]
      simp only [bind, Except.bind, List.foldlM_cons, List.foldlM_nil, scorePiece,
        List.getElem?_eq_getElem hi']
      rw [scoreNode_of_ok _ hnode]
      simp only [pure, Except.pure]
      congr 1
      exact List.map_congr_left fun pl _ => set_take_append_replicate (score pl) 0 hi'

/-- **The first pass**, when every plugin scores every node: in every schedule, each plugin's list
holds its scores of the nodes, in their order. -/
theorem Until_scorePiece {parallelism : ℕ} (hp : 0 < parallelism)
    (sched : WorkSchedule parallelism nodes.length (chunkSizeFor parallelism nodes.length))
    (hscore : ∀ pl ∈ plugins, ∀ node ∈ nodes, pl.Score state pod node.name = .ok (score pl node)) :
    Until parallelism ScoreState.cancelled nodes.length
        (fun index => ScoreState.update (scorePiece state pod nodes plugins index)) sched
        ⟨plugins.map fun _ => List.replicate nodes.length 0, none, false⟩ =
      ⟨plugins.map fun pl => nodes.map (score pl), none, false⟩ := by
  have h := foldlM_scorePiece (le_refl nodes.length)
    fun node hn pl hpl => hscore pl hpl node (List.mem_of_mem_take hn)
  simp only [List.take_length, Nat.sub_self, List.replicate_zero, List.append_nil] at h
  exact Until_update_of_ok hp sched scorePiece_commute h

/-- **The first pass fails when a plugin fails to score a node**, in every schedule, with the
error of a node on which a plugin fails: the first such plugin on it. -/
theorem Until_scorePiece_error {parallelism : ℕ} (hp : 0 < parallelism)
    (sched : WorkSchedule parallelism nodes.length (chunkSizeFor parallelism nodes.length))
    (hfail : ∃ node ∈ nodes, ∃ pl ∈ plugins, ∃ status,
      pl.Score state pod node.name = .error status) :
    ∃ node ∈ nodes, ∃ okPlugins pl rest status, plugins = okPlugins ++ pl :: rest ∧
      (∀ p ∈ okPlugins, ∃ s, p.Score state pod node.name = .ok s) ∧
      pl.Score state pod node.name = .error status ∧
      (Until parallelism ScoreState.cancelled nodes.length
        (fun index => ScoreState.update (scorePiece state pod nodes plugins index)) sched
        ⟨plugins.map fun _ => List.replicate nodes.length 0, none, false⟩).errCh =
          some (failedWith pl.Name status) := by
  obtain ⟨node, hnode, pl, hpl, status, hs⟩ := hfail
  obtain ⟨k, hk, rfl⟩ := List.getElem_of_mem hnode
  obtain ⟨err, herr⟩ : ∃ err, scoreNode state pod nodes[k].name k plugins
      (plugins.map fun _ => List.replicate nodes.length 0) = .error err :=
    scoreNode_isError hs hpl (by simp)
  have hpiece : scorePiece state pod nodes plugins k
      (plugins.map fun _ => List.replicate nodes.length 0) = .error err := by
    simp only [scorePiece, List.getElem?_eq_getElem hk]
    exact herr
  obtain ⟨j, hj, e, hje, hch⟩ := Until_update_error hp sched scorePiece_independent hk hpiece
  simp only [scorePiece, List.getElem?_eq_getElem hj] at hje
  obtain ⟨okPlugins, p, rest, status', hsplit, hok, hp', rfl⟩ := scoreNode_eq_error hje
  exact ⟨nodes[j], List.getElem_mem hj, okPlugins, p, rest, status', hsplit, hok, hp', hch⟩

end scorePass

/-! ### The second and third passes: each plugin's list -/

section listPasses

variable {r : ScorePlugin σ → List Int64 → Except String (List Int64)}
  {plugins : List (ScorePlugin σ)}

/-- **A piece of a list pass reads and writes only its plugin's list.** -/
theorem updateAt_eq_slotUpdate (r : ScorePlugin σ → List Int64 → Except String (List Int64))
    (plugins : List (ScorePlugin σ)) :
    updateAt r plugins =
      Parallel.slotUpdate fun index l => (plugins[index]?.map fun pl => r pl l).getD (.ok l) := by
  funext index t
  unfold updateAt Parallel.slotUpdate
  dsimp only
  cases hpl : plugins[index]? with
  | some pl => cases t[index]? <;> rfl
  | none =>
      cases ht : t[index]? with
      | none => rfl
      | some l =>
          obtain ⟨hi, rfl⟩ := List.getElem?_eq_some_iff.mp ht
          simp [Functor.map, Except.map, List.set_getElem_self]

theorem updateAt_independent : Parallel.Independent (updateAt r plugins) := by
  rw [updateAt_eq_slotUpdate]
  exact Parallel.slotUpdate_independent

theorem updateAt_commute : Parallel.Commute (updateAt r plugins) := by
  rw [updateAt_eq_slotUpdate]
  exact Parallel.slotUpdate_commute

theorem getElem?_append_drop_map {α β : Type} (F : α → β) {new : List β} {l : List α} {i : ℕ}
    (hi : i < l.length) (hlen : new.length = i) :
    (new ++ (l.drop i).map F)[i]? = some (F l[i]) := by
  rw [List.getElem?_append_right hlen.le, hlen, Nat.sub_self, List.drop_eq_getElem_cons hi]
  rfl

theorem set_append_drop_map {α β : Type} (F : α → β) {new : List β} {l : List α} {i : ℕ}
    (hi : i < l.length) (hlen : new.length = i) (x : β) :
    (new ++ (l.drop i).map F).set i x = new ++ x :: (l.drop (i + 1)).map F := by
  rw [List.set_append_right _ _ hlen.le, hlen, Nat.sub_self, List.drop_eq_getElem_cons hi,
    List.map_cons, List.set_cons_zero]

/-- After the pieces of the first `i` plugins, their lists are what `r` made of them, or the
first error. -/
theorem foldlM_updateAt (F : ScorePlugin σ → List Int64) : ∀ {i : ℕ}, i ≤ plugins.length →
    (List.range i).foldlM (fun t k => updateAt r plugins k t) (plugins.map F) =
      (· ++ (plugins.drop i).map F) <$> (plugins.take i).mapM fun pl => r pl (F pl)
  | 0, _ => rfl
  | i + 1, hi => by
      have hi' : i < plugins.length := hi
      rw [List.range_succ, List.foldlM_append, foldlM_updateAt F (Nat.le_of_lt hi'),
        List.take_add_one, List.getElem?_eq_getElem hi', Option.toList_some, List.mapM_append]
      cases hprev : (plugins.take i).mapM fun pl => r pl (F pl) with
      | error e => rfl
      | ok new =>
          have hlen : new.length = i := by
            rw [length_of_mapM_eq_ok hprev, List.length_take, Nat.min_eq_left (Nat.le_of_lt hi')]
          simp only [Functor.map, Except.map, bind, Except.bind, List.foldlM_cons, List.foldlM_nil,
            updateAt, List.getElem?_eq_getElem hi', getElem?_append_drop_map F hi' hlen,
            List.mapM_cons, List.mapM_nil]
          cases r plugins[i] (F plugins[i]) with
          | error e => rfl
          | ok l =>
              simp only [pure, Except.pure, set_append_drop_map F hi' hlen]
              simp

/-- **A list pass**, when `r` makes a new list of every plugin's: in every schedule, each
plugin's list is replaced by what `r` made of it. -/
theorem Until_updateAt {parallelism : ℕ} (hp : 0 < parallelism)
    (sched : WorkSchedule parallelism plugins.length (chunkSizeFor parallelism plugins.length))
    (F g : ScorePlugin σ → List Int64) (h : ∀ pl ∈ plugins, r pl (F pl) = .ok (g pl)) :
    Until parallelism ScoreState.cancelled plugins.length
        (fun index => ScoreState.update (updateAt r plugins index)) sched
        ⟨plugins.map F, none, false⟩ =
      ⟨plugins.map g, none, false⟩ := by
  have hfold := foldlM_updateAt (r := r) F (le_refl plugins.length)
  rw [List.take_length, List.drop_length, mapM_eq_ok_map h] at hfold
  simp only [List.map_nil, List.append_nil, Functor.map, Except.map] at hfold
  exact Until_update_of_ok hp sched updateAt_commute hfold

/-- **A list pass fails when `r` fails on a plugin's list**, in every schedule, with the error
of a plugin on whose list `r` fails. -/
theorem Until_updateAt_error {parallelism : ℕ} (hp : 0 < parallelism)
    (sched : WorkSchedule parallelism plugins.length (chunkSizeFor parallelism plugins.length))
    (F : ScorePlugin σ → List Int64) (hfail : ∃ pl ∈ plugins, ∃ err, r pl (F pl) = .error err) :
    ∃ pl ∈ plugins, ∃ err, r pl (F pl) = .error err ∧
      (Until parallelism ScoreState.cancelled plugins.length
        (fun index => ScoreState.update (updateAt r plugins index)) sched
        ⟨plugins.map F, none, false⟩).errCh = some err := by
  obtain ⟨pl, hpl, err, hr⟩ := hfail
  obtain ⟨k, hk, rfl⟩ := List.getElem_of_mem hpl
  have hpiece : updateAt r plugins k (plugins.map F) = .error err := by
    simp only [updateAt, List.getElem?_eq_getElem hk, List.getElem?_map, Option.map_some]
    exact map_eq_error.mpr hr
  obtain ⟨j, hj, e, hje, hch⟩ := Until_update_error hp sched updateAt_independent hk hpiece
  simp only [updateAt, List.getElem?_eq_getElem hj, List.getElem?_map, Option.map_some,
    map_eq_error] at hje
  exact ⟨plugins[j], List.getElem_mem hj, e, hje, hch⟩

end listPasses

/-! ### `RunScorePlugins` -/

theorem applyScoreWeights_eq_error {pluginName : String} {weight : Int64} {err : String} :
    ∀ {l : List Int64}, applyScoreWeights pluginName weight l = .error err →
      ∃ inRange s more, l = inRange ++ s :: more ∧
        (∀ t ∈ inRange, MinNodeScore ≤ t ∧ t ≤ MaxNodeScore) ∧
        (s > MaxNodeScore ∨ s < MinNodeScore) ∧ err = invalidScoreMessage pluginName s
  | [], h => by cases h
  | t :: l, h => by
      unfold applyScoreWeights at h
      split_ifs at h with hbad
      · cases h
        exact ⟨[], t, l, rfl, fun _ hu => absurd hu List.not_mem_nil, hbad, rfl⟩
      · obtain ⟨inRange, s, more, rfl, hin, hs, rfl⟩ := applyScoreWeights_eq_error (map_eq_error.mp h)
        refine ⟨t :: inRange, s, more, rfl, ?_, hs, rfl⟩
        have ht : MinNodeScore ≤ t ∧ t ≤ MaxNodeScore := by
          simp only [gt_iff_lt, Int64.lt_iff_toInt_lt, not_or, not_lt] at hbad
          rw [Int64.le_iff_toInt_le, Int64.le_iff_toInt_le]
          exact ⟨hbad.2, hbad.1⟩
        rintro u (_ | ⟨_, hu⟩)
        · exact ht
        · exact hin u hu

/-- A score plugin of the examples below: every node scores `result`, and with `normalizeError`
the plugin has `ScoreExtensions` whose `NormalizeScore` fails with that status. -/
def examplePlugin (name : String) (result : Except Status Int64) (normalizeError : Option Status) :
    ScorePlugin Unit where
  Name := name
  Score := fun _ _ _ => result
  NormalizeScore := normalizeError.map fun status _ _ _ => .error status
  length_NormalizeScore := by
    intro normalize hmem state pod nodeScoreList scores h
    cases normalizeError with
    | none => cases hmem
    | some status =>
        obtain rfl : (fun _ _ _ => .error status) = normalize := Option.some.inj hmem
        cases h

section runScorePlugins

variable {f : frameworkImpl σ} {state : σ} {pod : Pod} {nodes : List Node}
  {parallelism : ℕ} (hp : 0 < parallelism) (sched : PassSchedules parallelism)
  (score : ScorePlugin σ → Node → Int64)

include hp in
/-- **What `RunScorePlugins` returns**: in every schedule, when every plugin scores every node,
every plugin's `NormalizeScore` succeeds on its scores and every normalized score is in
`[MinNodeScore, MaxNodeScore]`, each plugin's normalized scores times its weight. -/
theorem RunScorePlugins_eq
    (hscore : ∀ pl ∈ f.scorePlugins, ∀ node ∈ nodes,
      pl.Score state pod node.name = .ok (score pl node))
    (normalized : ScorePlugin σ → List Int64)
    (hnorm : ∀ pl ∈ f.scorePlugins, normalizeScores state pod (nodes.map Node.name) pl
      (nodes.map (score pl)) = .ok (normalized pl))
    (hrange : ∀ pl ∈ f.scorePlugins, ∀ s ∈ normalized pl, MinNodeScore ≤ s ∧ s ≤ MaxNodeScore) :
    f.RunScorePlugins parallelism sched state pod nodes = .ok (f.scorePlugins.map fun pl =>
      (normalized pl).map (· * weightOf f.pluginNameToWeightMap pl.Name)) := by
  have h1 := Until_scorePiece hp (sched 0 nodes.length) hscore
  have h2 := Until_updateAt (r := normalizeScores state pod (nodes.map Node.name)) hp
    (sched 1 f.scorePlugins.length) (fun pl => nodes.map (score pl)) normalized hnorm
  have h3 := Until_updateAt (r := weightScores f.pluginNameToWeightMap) hp
    (sched 2 f.scorePlugins.length) normalized
    (fun pl => (normalized pl).map (· * weightOf f.pluginNameToWeightMap pl.Name))
    fun pl hpl => applyScoreWeights_ok _ _ (hrange pl hpl)
  simp only [frameworkImpl.RunScorePlugins, h1, h2, h3]

include hp in
/-- **`RunScorePlugins` fails when a plugin fails to score a node**: in every schedule, with the
error of a node on which a plugin fails, that of the first such plugin on it.  Which node's
error is sent first, the schedule decides. -/
theorem RunScorePlugins_score_error
    (hfail : ∃ node ∈ nodes, ∃ pl ∈ f.scorePlugins, ∃ status,
      pl.Score state pod node.name = .error status) :
    ∃ node ∈ nodes, ∃ okPlugins pl rest status, f.scorePlugins = okPlugins ++ pl :: rest ∧
      (∀ p ∈ okPlugins, ∃ s, p.Score state pod node.name = .ok s) ∧
      pl.Score state pod node.name = .error status ∧
      f.RunScorePlugins parallelism sched state pod nodes =
        .error (NewStatus .Error ("running Score plugins: " ++ failedWith pl.Name status)) := by
  obtain ⟨node, hnode, okPlugins, pl, rest, status, hsplit, hok, hfail, h1⟩ :=
    Until_scorePiece_error hp (sched 0 nodes.length) hfail
  refine ⟨node, hnode, okPlugins, pl, rest, status, hsplit, hok, hfail, ?_⟩
  simp only [frameworkImpl.RunScorePlugins, h1]

/-- Of two plugins, the second fails on both nodes; the pieces take effect in reverse order. -/
theorem RunScorePlugins_score_error_twoNodes :
    let f := frameworkImpl.mk [("a", 1), ("b", 1)] [] [examplePlugin "a" (.ok 1) none,
      examplePlugin "b" (.error (NewStatus .Error "down")) none]
    let nodes : List Node := [{ name := "n1" }, { name := "n2" }]
    let sched : PassSchedules 16 := fun _ pieces =>
      WorkSchedule.ofOrder 16 pieces _ (List.range pieces).reverse (List.reverse_perm _)
    ∃ node ∈ nodes, ∃ okPlugins pl rest status, f.scorePlugins = okPlugins ++ pl :: rest ∧
      (∀ p ∈ okPlugins, ∃ s, p.Score () {} node.name = .ok s) ∧
      pl.Score () {} node.name = .error status ∧
      f.RunScorePlugins 16 sched () {} nodes =
        .error (NewStatus .Error ("running Score plugins: " ++ failedWith pl.Name status)) :=
  RunScorePlugins_score_error (by decide) _ ⟨{ name := "n1" }, List.mem_cons_self, _,
    List.mem_cons_of_mem _ List.mem_cons_self, _, rfl⟩

include hp in
/-- **`RunScorePlugins` fails when a normalization fails**, once every plugin has scored every
node: in every schedule, with the error of a plugin whose normalization fails. -/
theorem RunScorePlugins_normalize_error
    (hscore : ∀ pl ∈ f.scorePlugins, ∀ node ∈ nodes,
      pl.Score state pod node.name = .ok (score pl node))
    (hfail : ∃ pl ∈ f.scorePlugins, ∃ err,
      normalizeScores state pod (nodes.map Node.name) pl (nodes.map (score pl)) = .error err) :
    ∃ pl ∈ f.scorePlugins, ∃ err,
      normalizeScores state pod (nodes.map Node.name) pl (nodes.map (score pl)) = .error err ∧
      f.RunScorePlugins parallelism sched state pod nodes =
        .error (NewStatus .Error ("running Normalize on Score plugins: " ++ err)) := by
  have h1 := Until_scorePiece hp (sched 0 nodes.length) hscore
  obtain ⟨pl, hpl, err, hr, h2⟩ := Until_updateAt_error hp (sched 1 f.scorePlugins.length)
    (fun p => nodes.map (score p)) hfail
  refine ⟨pl, hpl, err, hr, ?_⟩
  simp only [frameworkImpl.RunScorePlugins, h1, h2]

/-- Both plugins score both nodes and fail to normalize; the pieces take effect in reverse
order. -/
theorem RunScorePlugins_normalize_error_twoPlugins :
    let f := frameworkImpl.mk [("a", 1), ("b", 1)] [] [examplePlugin "a" (.ok 1)
      (some (NewStatus .Error "down")), examplePlugin "b" (.ok 2) (some (NewStatus .Error "off"))]
    let nodes : List Node := [{ name := "n1" }, { name := "n2" }]
    let sched : PassSchedules 16 := fun _ pieces =>
      WorkSchedule.ofOrder 16 pieces _ (List.range pieces).reverse (List.reverse_perm _)
    let score : ScorePlugin Unit → Node → Int64 := fun pl _ => if pl.Name = "a" then 1 else 2
    ∃ pl ∈ f.scorePlugins, ∃ err,
      normalizeScores () {} (nodes.map Node.name) pl (nodes.map (score pl)) = .error err ∧
      f.RunScorePlugins 16 sched () {} nodes =
        .error (NewStatus .Error ("running Normalize on Score plugins: " ++ err)) :=
  RunScorePlugins_normalize_error (by decide) _ _ (by simp [examplePlugin])
    ⟨_, List.mem_cons_self, _, rfl⟩

include hp in
/-- **`RunScorePlugins` fails when a normalized score is out of range**, once every plugin has
scored every node and normalized its scores: in every schedule, on a plugin with a score outside
`[MinNodeScore, MaxNodeScore]`, naming the first such score in its list. -/
theorem RunScorePlugins_weight_error
    (hscore : ∀ pl ∈ f.scorePlugins, ∀ node ∈ nodes,
      pl.Score state pod node.name = .ok (score pl node))
    (normalized : ScorePlugin σ → List Int64)
    (hnorm : ∀ pl ∈ f.scorePlugins, normalizeScores state pod (nodes.map Node.name) pl
      (nodes.map (score pl)) = .ok (normalized pl))
    (hout : ∃ pl ∈ f.scorePlugins, ∃ s ∈ normalized pl, s > MaxNodeScore ∨ s < MinNodeScore) :
    ∃ pl ∈ f.scorePlugins, ∃ inRange s more, normalized pl = inRange ++ s :: more ∧
      (∀ t ∈ inRange, MinNodeScore ≤ t ∧ t ≤ MaxNodeScore) ∧
      (s > MaxNodeScore ∨ s < MinNodeScore) ∧
      f.RunScorePlugins parallelism sched state pod nodes =
        .error (NewStatus .Error (invalidScoreMessage pl.Name s)) := by
  have h1 := Until_scorePiece hp (sched 0 nodes.length) hscore
  have h2 := Until_updateAt (r := normalizeScores state pod (nodes.map Node.name)) hp
    (sched 1 f.scorePlugins.length) (fun p => nodes.map (score p)) normalized hnorm
  have hfail : ∃ pl ∈ f.scorePlugins, ∃ err,
      weightScores f.pluginNameToWeightMap pl (normalized pl) = .error err := by
    obtain ⟨pl, hpl, s, hs, hout⟩ := hout
    exact ⟨pl, hpl, applyScoreWeights_error_of_mem _ _ hout hs⟩
  obtain ⟨pl, hpl, err, hr, h3⟩ := Until_updateAt_error hp (sched 2 f.scorePlugins.length)
    normalized hfail
  obtain ⟨inRange, s, more, hsplit, hin, hs, rfl⟩ := applyScoreWeights_eq_error hr
  refine ⟨pl, hpl, inRange, s, more, hsplit, hin, hs, ?_⟩
  simp only [frameworkImpl.RunScorePlugins, h1, h2, h3]

/-- The only plugin gives the first node `50` and the second `101`, past `MaxNodeScore`; the
pieces take effect in reverse order. -/
theorem RunScorePlugins_weight_error_above :
    let plugin : ScorePlugin Unit := ⟨"a", fun _ _ nodeName => .ok (if nodeName = "n1" then 50 else 101),
      none, fun _ h => absurd h (by simp)⟩
    let f := frameworkImpl.mk [("a", 1)] [] [plugin]
    let nodes : List Node := [{ name := "n1" }, { name := "n2" }]
    let sched : PassSchedules 16 := fun _ pieces =>
      WorkSchedule.ofOrder 16 pieces _ (List.range pieces).reverse (List.reverse_perm _)
    ∃ pl ∈ f.scorePlugins, ∃ inRange s more, [50, 101] = inRange ++ s :: more ∧
      (∀ t ∈ inRange, MinNodeScore ≤ t ∧ t ≤ MaxNodeScore) ∧
      (s > MaxNodeScore ∨ s < MinNodeScore) ∧
      f.RunScorePlugins 16 sched () {} nodes =
        .error (NewStatus .Error (invalidScoreMessage pl.Name s)) :=
  RunScorePlugins_weight_error (by decide) _ (fun _ node => if node.name = "n1" then 50 else 101)
    (by simp) (fun _ => [50, 101]) (by simp [normalizeScores])
    ⟨_, List.mem_cons_self, 101, by simp, Or.inl (by decide)⟩

end runScorePlugins

/-! ### The weights `NewFramework` records -/

@[simp] theorem MaxNodeScore_toInt : MaxNodeScore.toInt = 100 := by decide

@[simp] theorem MinNodeScore_toInt : MinNodeScore.toInt = 0 := by decide

@[simp] theorem MaxTotalScore_toInt : MaxTotalScore.toInt = 2 ^ 63 - 1 := by decide

theorem pluginWeight_toInt {w : Int32} (hw : 0 ≤ w.toInt) :
    1 ≤ (pluginWeight w).toInt ∧ (pluginWeight w).toInt < 2 ^ 31 := by
  have hlt := Int32.toInt_lt w
  unfold pluginWeight
  split_ifs with h0
  · exact ⟨by decide, by decide⟩
  · have hne : w.toInt ≠ 0 := by
      rw [int64_eq_zero_iff, Int32.toInt_toInt64] at h0
      exact h0
    rw [Int32.toInt_toInt64]
    omega

/-- **The check of `NewFramework` for weights that are not negative**: it records every weight
exactly when the plugins' largest scores, added to the total so far, stay within
`MaxTotalScore`. -/
theorem recordWeights_eq : ∀ {needed : List (String × Int32)} {totalPriority : Int64},
    (∀ p ∈ needed, 0 ≤ p.2.toInt) → 0 ≤ totalPriority.toInt →
    recordWeights needed totalPriority =
      if totalPriority.toInt + (needed.map fun p => 100 * (pluginWeight p.2).toInt).sum ≤ 2 ^ 63 - 1
      then .ok (needed.map fun p => (p.1, pluginWeight p.2))
      else .error "total score of Score plugins could overflow"
  | [], t, _, _ => by
      have := Int64.toInt_lt t
      rw [recordWeights, if_pos (by simp; omega)]
      rfl
  | (name, w) :: rest, t, hw, ht => by
      have hw0 : 0 ≤ w.toInt := hw (name, w) List.mem_cons_self
      obtain ⟨h1, h2⟩ := pluginWeight_toInt hw0
      have htlt := Int64.toInt_lt t
      have hmul : (pluginWeight w * MaxNodeScore).toInt = 100 * (pluginWeight w).toInt := by
        rw [int64_toInt_mul (by rw [MaxNodeScore_toInt]; constructor <;> omega), MaxNodeScore_toInt]
        ring
      have hsub : (MaxTotalScore - t).toInt = 2 ^ 63 - 1 - t.toInt := by
        rw [int64_toInt_sub (by rw [MaxTotalScore_toInt]; constructor <;> omega), MaxTotalScore_toInt]
      have hw' : ∀ p ∈ rest, 0 ≤ p.2.toInt := fun p hp => hw p (List.mem_cons_of_mem _ hp)
      have hrest : 0 ≤ (rest.map fun p => 100 * (pluginWeight p.2).toInt).sum :=
        List.sum_nonneg fun x hx => by
          obtain ⟨p, hp, rfl⟩ := List.mem_map.mp hx
          have := (pluginWeight_toInt (hw' p hp)).1
          omega
      simp only [List.map_cons, List.sum_cons]
      rw [recordWeights]
      by_cases hover : 2 ^ 63 - 1 - t.toInt < 100 * (pluginWeight w).toInt
      · rw [if_pos (by rw [gt_iff_lt, Int64.lt_iff_toInt_lt, hmul, hsub]; exact hover),
          if_neg (by omega)]
      · have hadd : (t + pluginWeight w * MaxNodeScore).toInt = t.toInt + 100 * (pluginWeight w).toInt := by
          rw [int64_toInt_add (by rw [hmul]; constructor <;> omega), hmul]
        rw [if_neg (by rw [gt_iff_lt, Int64.lt_iff_toInt_lt, hmul, hsub]; exact hover),
          recordWeights_eq hw' (by rw [hadd]; omega), hadd]
        by_cases hfit : t.toInt + 100 * (pluginWeight w).toInt +
            (rest.map fun p => 100 * (pluginWeight p.2).toInt).sum ≤ 2 ^ 63 - 1
        · rw [if_pos hfit, if_pos (by omega)]
          rfl
        · rw [if_neg hfit, if_neg (by omega)]
          rfl

/-- **The check does not depend on the registry's order** for weights that are not negative:
whatever order the loop of `NewFramework` meets the needed plugins in, it fails for all of them
or for none. -/
theorem recordWeights_perm {needed needed' : List (String × Int32)} (hperm : needed.Perm needed')
    (hw : ∀ p ∈ needed, 0 ≤ p.2.toInt) :
    (∃ weights, recordWeights needed 0 = .ok weights) ↔
      ∃ weights, recordWeights needed' 0 = .ok weights := by
  have hw' : ∀ p ∈ needed', 0 ≤ p.2.toInt := fun p hp => hw p (hperm.mem_iff.mpr hp)
  have hsum : (needed.map fun p => 100 * (pluginWeight p.2).toInt).sum =
      (needed'.map fun p => 100 * (pluginWeight p.2).toInt).sum := (hperm.map _).sum_eq
  rw [recordWeights_eq hw (by decide), recordWeights_eq hw' (by decide), hsum]
  split_ifs <;> simp

/-- Two plugins met in either order. -/
theorem recordWeights_perm_swap :
    (∃ weights, recordWeights [("a", 1), ("b", 2)] 0 = .ok weights) ↔
      ∃ weights, recordWeights [("b", 2), ("a", 1)] 0 = .ok weights :=
  recordWeights_perm (List.Perm.swap _ _ []) (by decide)

/-- With a negative weight the outcome depends on the order, which Go's iteration over the
registry map leaves to chance: a weight of `-1` met first lowers the total below zero, and
`MaxTotalScore - totalPriority` then wraps to a negative number that every later plugin's
score exceeds. -/
theorem recordWeights_order :
    recordWeights [("a", -1), ("b", 1)] 0 = .error "total score of Score plugins could overflow" ∧
      recordWeights [("b", 1), ("a", -1)] 0 = .ok [("b", 1), ("a", -1)] :=
  ⟨rfl, rfl⟩

/-- The loop that checks every score plugin for a weight passes exactly when each has one. -/
theorem checkScoreWeights_eq_ok (pluginNameToWeightMap : List (String × Int64)) :
    ∀ {plugins : List (ScorePlugin σ)}, checkScoreWeights pluginNameToWeightMap plugins = .ok () ↔
      ∀ pl ∈ plugins, weightOf pluginNameToWeightMap pl.Name ≠ 0
  | [] => by simp [checkScoreWeights]
  | pl :: plugins => by
      rw [checkScoreWeights]
      split_ifs with h
      · simp [h]
      · rw [checkScoreWeights_eq_ok pluginNameToWeightMap]
        simp [h]

/-- What a framework `NewFramework` returns holds: the recorded weights, a weight for every score
plugin, and the plugins it was given. -/
theorem NewFramework_eq_ok {needed : List (String × Int32)}
    {preScorePlugins : List (PreScorePlugin σ)} {scorePlugins : List (ScorePlugin σ)}
    {f : frameworkImpl σ} (hf : NewFramework needed preScorePlugins scorePlugins = .ok f) :
    recordWeights needed 0 = .ok f.pluginNameToWeightMap ∧
      (∀ pl ∈ f.scorePlugins, weightOf f.pluginNameToWeightMap pl.Name ≠ 0) ∧
      f.preScorePlugins = preScorePlugins ∧ f.scorePlugins = scorePlugins := by
  obtain ⟨weights, hrec, hf⟩ := bind_eq_ok.mp hf
  obtain ⟨u, hcheck, hf⟩ := bind_eq_ok.mp hf
  obtain rfl : frameworkImpl.mk weights preScorePlugins scorePlugins = f := Except.ok.inj hf
  exact ⟨hrec, (checkScoreWeights_eq_ok weights).mp hcheck, rfl, rfl⟩

/-- `NewFramework` returns the framework of the weights it records, when every score plugin has
one. -/
theorem NewFramework_of_ok {needed : List (String × Int32)}
    {preScorePlugins : List (PreScorePlugin σ)} {scorePlugins : List (ScorePlugin σ)}
    {weights : List (String × Int64)} (hrec : recordWeights needed 0 = .ok weights)
    (hcheck : checkScoreWeights weights scorePlugins = .ok ()) :
    NewFramework needed preScorePlugins scorePlugins = .ok ⟨weights, preScorePlugins, scorePlugins⟩ := by
  rw [NewFramework, hrec]
  simp only [bind, Except.bind, hcheck]
  rfl

theorem weightOf_recorded : ∀ {needed : List (String × Int32)}, (needed.map Prod.fst).Nodup →
    ∀ {p : String × Int32}, p ∈ needed →
      weightOf (needed.map fun q => (q.1, pluginWeight q.2)) p.1 = pluginWeight p.2
  | [], _, _, hp => absurd hp List.not_mem_nil
  | q :: needed, hnodup, p, hp => by
      rw [List.map_cons, List.nodup_cons] at hnodup
      rcases List.mem_cons.mp hp with rfl | hp
      · simp [weightOf]
      · have hne : p.1 ≠ q.1 := fun h => hnodup.1 (h ▸ List.mem_map_of_mem hp)
        have hbeq : (p.1 == q.1) = false := by simp [hne]
        simp only [weightOf, List.map_cons, List.lookup_cons, hbeq]
        exact weightOf_recorded hnodup.2 hp

theorem exists_of_weightOf_ne_zero {name : String} : ∀ {needed : List (String × Int32)},
    weightOf (needed.map fun q => (q.1, pluginWeight q.2)) name ≠ 0 → ∃ p ∈ needed, p.1 = name
  | [], h => absurd rfl h
  | q :: needed, h => by
      by_cases hq : name = q.1
      · exact ⟨q, List.mem_cons_self, hq.symm⟩
      · have hbeq : (name == q.1) = false := by simp [hq]
        have h' : weightOf (needed.map fun q => (q.1, pluginWeight q.2)) name ≠ 0 := by
          simp only [weightOf, List.map_cons, List.lookup_cons, hbeq] at h
          exact h
        obtain ⟨p, hp, hname⟩ := exists_of_weightOf_ne_zero h'
        exact ⟨p, List.mem_cons_of_mem q hp, hname⟩

/-- **The weights bound every total**: in a framework `NewFramework` built from weights that are
not negative, with the needed plugins and the score plugins each named once, every score
plugin's weight is a positive `int32`, and the score plugins' largest weighted scores sum to at
most `MaxTotalScore`. -/
theorem scoreWeights_bound {needed : List (String × Int32)}
    {preScorePlugins : List (PreScorePlugin σ)} {scorePlugins : List (ScorePlugin σ)}
    {f : frameworkImpl σ} (hf : NewFramework needed preScorePlugins scorePlugins = .ok f)
    (hneeded : (needed.map Prod.fst).Nodup) (hnodup : (scorePlugins.map ScorePlugin.Name).Nodup)
    (hw : ∀ p ∈ needed, 0 ≤ p.2.toInt) :
    (∀ pl ∈ f.scorePlugins, 1 ≤ (weightOf f.pluginNameToWeightMap pl.Name).toInt ∧
      (weightOf f.pluginNameToWeightMap pl.Name).toInt < 2 ^ 31) ∧
    (f.scorePlugins.map fun pl => 100 * (weightOf f.pluginNameToWeightMap pl.Name).toInt).sum ≤
      2 ^ 63 - 1 := by
  obtain ⟨hrec, hweight, -, hscore⟩ := NewFramework_eq_ok hf
  rw [recordWeights_eq hw (by decide)] at hrec
  split_ifs at hrec with hfit
  obtain hmap : needed.map (fun p => (p.1, pluginWeight p.2)) = f.pluginNameToWeightMap :=
    Except.ok.inj hrec
  rw [← hmap] at hweight ⊢
  -- a name the map holds reads the weight of the needed plugin of that name
  have hnamed : ∀ name ∈ needed.map Prod.fst, ∃ p ∈ needed,
      weightOf (needed.map fun q => (q.1, pluginWeight q.2)) name = pluginWeight p.2 := by
    intro name hname
    obtain ⟨p, hp, rfl⟩ := List.mem_map.mp hname
    exact ⟨p, hp, weightOf_recorded hneeded hp⟩
  have hsub : (f.scorePlugins.map ScorePlugin.Name).Subperm (needed.map Prod.fst) := by
    refine List.subperm_of_subset (hscore ▸ hnodup) fun name hname => ?_
    obtain ⟨pl, hpl, rfl⟩ := List.mem_map.mp hname
    obtain ⟨p, hp, hp1⟩ := exists_of_weightOf_ne_zero (hweight pl hpl)
    exact hp1 ▸ List.mem_map_of_mem hp
  constructor
  · intro pl hpl
    obtain ⟨p, hp, hp1⟩ := exists_of_weightOf_ne_zero (hweight pl hpl)
    rw [← hp1, weightOf_recorded hneeded hp]
    exact pluginWeight_toInt (hw p hp)
  · let G := fun name => 100 * (weightOf (needed.map fun q => (q.1, pluginWeight q.2)) name).toInt
    obtain ⟨l, hperm, hsubl⟩ := hsub
    have hG : ∀ name ∈ needed.map Prod.fst, 0 ≤ G name := by
      intro name hname
      obtain ⟨p, hp, hwp⟩ := hnamed name hname
      have := (pluginWeight_toInt (hw p hp)).1
      simp only [G, hwp]
      omega
    have hneededSum : ((needed.map Prod.fst).map G).sum =
        (needed.map fun p => 100 * (pluginWeight p.2).toInt).sum := by
      rw [List.map_map]
      congr 1
      exact List.map_congr_left fun p hp => by simp [G, weightOf_recorded hneeded hp]
    calc (f.scorePlugins.map fun pl => G pl.Name).sum
        = ((f.scorePlugins.map ScorePlugin.Name).map G).sum := by rw [List.map_map]; rfl
      _ = (l.map G).sum := (hperm.map G).sum_eq.symm
      _ ≤ ((needed.map Prod.fst).map G).sum :=
          (hsubl.map G).sum_le_sum fun x hx => by
            obtain ⟨name, hname, rfl⟩ := List.mem_map.mp hx
            exact hG name hname
      _ ≤ 2 ^ 63 - 1 := by
          rw [hneededSum]
          rw [Int64.toInt_zero] at hfit
          omega

/-! ### The extenders' scores -/

section extenders

variable (pod : Pod) (nodes : List Node)

/-- One extender's additions to the host `host`, from `combinedScores`: what they add to
`combinedScores` does not depend on it. -/
theorem foldl_update_add (weight : Int64) (c : String → Int64) :
    ∀ (prioritizedList : List HostPriority) (d : String → Int64),
      prioritizedList.foldl (fun combined hp =>
          Function.update combined hp.Host (combined hp.Host + hp.Score * weight)) (c + d) =
        c + prioritizedList.foldl (fun combined hp =>
          Function.update combined hp.Host (combined hp.Host + hp.Score * weight)) d
  | [], _ => rfl
  | hp :: l, d => by
      have hstep : Function.update (c + d) hp.Host ((c + d) hp.Host + hp.Score * weight) =
          c + Function.update d hp.Host (d hp.Host + hp.Score * weight) := by
        funext host
        by_cases hh : host = hp.Host
        · subst hh
          simp [Int64.add_assoc]
        · simp [Function.update_of_ne hh]
      rw [List.foldl_cons, List.foldl_cons, hstep, foldl_update_add weight c l]

/-- **An extender adds the same scores to every `combinedScores`.** -/
theorem addExtenderScores_add (c d : String → Int64) (extender : Extender) :
    addExtenderScores pod nodes (c + d) extender = c + addExtenderScores pod nodes d extender := by
  unfold addExtenderScores
  split
  · rfl
  · split
    · rfl
    · exact foldl_update_add _ c _ d

theorem addExtenderScores_eq (c : String → Int64) (extender : Extender) :
    addExtenderScores pod nodes c extender = c + addExtenderScores pod nodes 0 extender := by
  have h := addExtenderScores_add pod nodes c 0 extender
  have hc : c + 0 = c := funext fun host => Int64.add_zero (c host)
  rw [hc] at h
  exact h

/-- Two extenders' goroutines add their scores in either order to the same effect. -/
theorem addExtenderScores_comm (c : String → Int64) (e₁ e₂ : Extender) :
    addExtenderScores pod nodes (addExtenderScores pod nodes c e₁) e₂ =
      addExtenderScores pod nodes (addExtenderScores pod nodes c e₂) e₁ := by
  rw [addExtenderScores_eq pod nodes (addExtenderScores pod nodes c e₁) e₂,
    addExtenderScores_eq pod nodes (addExtenderScores pod nodes c e₂) e₁,
    addExtenderScores_eq pod nodes c e₁, addExtenderScores_eq pod nodes c e₂]
  funext host
  simp only [Pi.add_apply]
  rw [Int64.add_assoc, Int64.add_assoc, Int64.add_comm (addExtenderScores pod nodes 0 e₁ host)]

/-- **The extenders' scores do not depend on the order in which their goroutines take the
lock**: every order of the extenders adds up to the same `combinedScores`. -/
theorem combinedScores_perm {extenders extenders' : List Extender} (h : extenders.Perm extenders') :
    combinedScores pod nodes extenders = combinedScores pod nodes extenders' :=
  h.foldl_eq' (fun e₁ _ e₂ _ c => addExtenderScores_comm pod nodes c e₁ e₂) _

/-- Two extenders interested in the pod, taken in either order. -/
theorem combinedScores_perm_swap :
    let e₁ : Extender := ⟨fun _ => true, fun _ _ => .ok ([⟨"n1", 3⟩, ⟨"n2", 1⟩], 2)⟩
    let e₂ : Extender := ⟨fun _ => true, fun _ _ => .ok ([⟨"n1", 5⟩], 1)⟩
    combinedScores {} [] [e₁, e₂] = combinedScores {} [] [e₂, e₁] :=
  combinedScores_perm {} [] (List.Perm.swap _ _ [])

end extenders

/-! ### `prioritizeNodes` -/

theorem getD_map_mul (l : List Int64) (w : Int64) (i : ℕ) :
    (l.map (· * w)).getD i 0 = l.getD i 0 * w := by
  rw [List.getD_eq_getElem?_getD, List.getD_eq_getElem?_getD, List.getElem?_map]
  cases l[i]? <;> simp

theorem getD_toInt_mem {l : List Int64} (h : ∀ s ∈ l, MinNodeScore ≤ s ∧ s ≤ MaxNodeScore)
    (i : ℕ) : 0 ≤ (l.getD i 0).toInt ∧ (l.getD i 0).toInt ≤ 100 := by
  rw [List.getD_eq_getElem?_getD]
  cases hi : l[i]? with
  | none => simp
  | some s =>
      obtain ⟨hlo, hhi⟩ := h s (List.mem_of_getElem? hi)
      rw [Int64.le_iff_toInt_le, MinNodeScore_toInt] at hlo
      rw [Int64.le_iff_toInt_le, MaxNodeScore_toInt] at hhi
      exact ⟨hlo, hhi⟩

/-- The sum `prioritizeNodes` takes at node `i` over the weighted lists is exact: each weighted
score lies in `[0, 100 w]`, and these bounds add up below `2^63`. -/
theorem foldl_weighted_getD {plugins : List (ScorePlugin σ)} (w : ScorePlugin σ → Int64)
    {normalized : ScorePlugin σ → List Int64}
    (hrange : ∀ pl ∈ plugins, ∀ s ∈ normalized pl, MinNodeScore ≤ s ∧ s ≤ MaxNodeScore)
    (hweight : ∀ pl ∈ plugins, 1 ≤ (w pl).toInt ∧ (w pl).toInt < 2 ^ 31)
    (hsum : (plugins.map fun pl => 100 * (w pl).toInt).sum ≤ 2 ^ 63 - 1) (i : ℕ) :
    (plugins.map fun pl => (normalized pl).map (· * w pl)).foldl
        (fun score (nodeScoreList : List Int64) => score + nodeScoreList.getD i 0) 0 =
      Int64.ofInt (plugins.map fun pl => (w pl).toInt * ((normalized pl).getD i 0).toInt).sum := by
  have hterm : ∀ pl ∈ plugins,
      (((normalized pl).map (· * w pl)).getD i 0).toInt = (w pl).toInt * ((normalized pl).getD i 0).toInt := by
    intro pl hpl
    obtain ⟨hs0, hs100⟩ := getD_toInt_mem (hrange pl hpl) i
    obtain ⟨hw1, hw31⟩ := hweight pl hpl
    rw [getD_map_mul, int64_toInt_mul (by constructor <;> nlinarith), Int.mul_comm]
  have hle : ∀ pl ∈ plugins,
      (w pl).toInt * ((normalized pl).getD i 0).toInt ≤ 100 * (w pl).toInt := by
    intro pl hpl
    obtain ⟨-, hs100⟩ := getD_toInt_mem (hrange pl hpl) i
    nlinarith [(hweight pl hpl).1]
  have hsumEq := List.map_congr_left hterm
  have hbound := List.sum_le_sum hle
  have hnonneg : ∀ pl ∈ plugins, 0 ≤ (((normalized pl).map (· * w pl)).getD i 0).toInt := by
    intro pl hpl
    rw [hterm pl hpl]
    exact Int.mul_nonneg (by linarith [(hweight pl hpl).1]) (getD_toInt_mem (hrange pl hpl) i).1
  have htoInt := int64_foldl_add_toInt_of_nonneg _ plugins 0 (by decide) hnonneg
    (by rw [hsumEq, Int64.toInt_zero]; omega)
  rw [List.foldl_map, ← Int64.ofInt_toInt (List.foldl _ 0 plugins), htoInt, hsumEq,
    Int64.toInt_zero, Int.zero_add]

end GenericScheduler

end Caspr
