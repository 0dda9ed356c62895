import Caspr.Core.FeasibleNodes
import Caspr.Core.PodPassesFilters

/-! # The search for feasible nodes with filter plugins (core/generic_scheduler.go)

With filter plugins, `findNodesThatPassFilters` checks the nodes round the list from
`nextStartNodeIndex` through `parallelize.Until`, which hands the pieces to
`workqueue.ParallelizeUntil`.  `checkNode(i)` runs `PodPassesFiltersOnNode` on the `i`-th node
of the round: a node that fits is stored until the `(k+1)`-th, `k = numFeasibleNodesToFind(n)`,
which cancels the search instead; a node that does not fit has its status recorded; an error is
sent to the error channel, which cancels the search too.  The index then moves by the number of
nodes stored and of statuses recorded.

A run of `ParallelizeUntil` is given by its `WorkSchedule`: the order in which the pieces take
effect and the pieces that looked at the context before a cancellation and ran after it.  With
one worker (`parallelism = 1`) the pieces run in order (`Until_eq`), and a cancellation is seen
before the next piece.  For every node list, start index and outcome of the filters
without an error, with distinct node names and the empty status map the caller passes
(`findNodesThatPassFiltersWithPlugins_spec`):
* the nodes examined are those of the round before the `(k+1)`-th node that fits, all of them
  if at most `k` fit (`beforeFit`);
* the nodes returned are the first `min(k, f)` nodes that fit, in the order of the round;
* the statuses recorded are those of the nodes examined that do not fit: the nodes between the
  `k`-th and the `(k+1)`-th node that fits are among them;
* the index moves by the number of nodes examined, so that the `(k+1)`-th node that fits is the
  first one the next cycle examines.

*Modelling.*
* `checkNode` reads the outcome of `PodPassesFiltersOnNode` on each node as a function `check`
  of the node, and the node's name as `nodeName`.  The pieces share the cycle state, and a
  filter writes there only under the node's own name (`VolumeBinding`), so no node's outcome
  depends on another's.
* `feasibleNodesLen`, an `int32` of Go, counts at most `k ≤ n` nodes, fewer than `2^31` for a
  list an `int32` counts; it is a natural number here.
* `int(math.Sqrt(float64(n)))` in `chunkSizeFor` is `Nat.sqrt n`; with one worker the chunk size
  does not change the order of the pieces.
* A piece's work takes effect at once; the pieces that share the state here and in
  `RunScorePlugins` do so under a lock, by a channel, or in a slot of their own. -/

namespace Caspr

namespace GenericScheduler

open DefaultPreemption

/-! ### `ParallelizeUntil` -/

/-- `parallelize.chunkSizeFor(n)` for `parallelism` workers: `max(1, min(sqrt(n), n/parallelism + 1))`. -/
def chunkSizeFor (parallelism n : ℕ) : ℕ :=
  let s := Nat.sqrt n
  let r := n / parallelism + 1
  if s > r then r else if s < 1 then 1 else s

/-- `workqueue.ceilDiv(a, b)`. -/
def ceilDiv (a b : ℕ) : ℕ := (a + b - 1) / b

/-- The pieces of the chunk `chunk`: from `chunk * chunkSize` to the start of the next chunk, or
to `pieces`. -/
def chunkPieces (pieces chunkSize chunk : ℕ) : List ℕ :=
  List.range' (chunk * chunkSize) (min (chunk * chunkSize + chunkSize) pieces - chunk * chunkSize)

/-- The chunk size `ParallelizeUntil` works with: `1` for a size below `1`. -/
def effectiveChunkSize (chunkSize : ℕ) : ℕ := if chunkSize < 1 then 1 else chunkSize

/-- The pieces chunk after chunk, in the order `toProcess` hands the chunks out. -/
def serialOrder (pieces chunkSize : ℕ) : List ℕ :=
  (List.range (ceilDiv pieces (effectiveChunkSize chunkSize))).flatMap
    (chunkPieces pieces (effectiveChunkSize chunkSize))

/-- How one run of `ParallelizeUntil` with `workers` workers went: the order in which the pieces'
work took effect, each piece once, and the pieces that passed their worker's look at the context
before it was cancelled but took effect after (`late`).  When a single worker takes the chunks,
it takes them in order and sees a cancellation before its next piece. -/
structure WorkSchedule (workers pieces chunkSize : ℕ) where
  order : List ℕ
  late : ℕ → Bool
  perm : order.Perm (List.range pieces)
  oneWorker : min workers (ceilDiv pieces (effectiveChunkSize chunkSize)) ≤ 1 →
    order = serialOrder pieces chunkSize ∧ ∀ p, late p = false

/-- The loop of a worker of `ParallelizeUntil` over the pieces of the chunks it takes: before
each piece it looks at the context, and once it is cancelled the worker returns for good. -/
def workLoop {ι σ : Type} (stopped : σ → Bool) (doWorkPiece : ι → σ → σ) : List ι → σ → σ
  | [], s => s
  | p :: ps, s => if stopped s then s else workLoop stopped doWorkPiece ps (doWorkPiece p s)

/-- The pieces taking effect in `order`: a piece whose worker finds the context cancelled does not
run, unless it looked before the cancellation. -/
def runSchedule {σ : Type} (stopped : σ → Bool) (late : ℕ → Bool) (doWorkPiece : ℕ → σ → σ) :
    List ℕ → σ → σ
  | [], s => s
  | p :: ps, s =>
      runSchedule stopped late doWorkPiece ps (if stopped s && !late p then s else doWorkPiece p s)

/-- `workqueue.ParallelizeUntil(ctx, workers, pieces, doWorkPiece, WithChunkSize(chunkSize))` in
the run `sched`.  `min(workers, chunks)` workers take the chunks; with none, no piece runs. -/
def ParallelizeUntil {σ : Type} (stopped : σ → Bool) (workers pieces : ℕ) (doWorkPiece : ℕ → σ → σ)
    (chunkSize : ℕ) (sched : WorkSchedule workers pieces chunkSize) (s : σ) : σ :=
  if pieces = 0 then s
  else if workers = 0 then s
  else runSchedule stopped sched.late doWorkPiece sched.order s

/-- `parallelize.Until(ctx, pieces, doWorkPiece)` with `parallelism` workers, in the run `sched`. -/
def Until {σ : Type} (parallelism : ℕ) (stopped : σ → Bool) (pieces : ℕ) (doWorkPiece : ℕ → σ → σ)
    (sched : WorkSchedule parallelism pieces (chunkSizeFor parallelism pieces)) (s : σ) : σ :=
  ParallelizeUntil stopped parallelism pieces doWorkPiece (chunkSizeFor parallelism pieces) sched s

/-! ### A single worker runs the pieces in order -/

theorem flatMap_chunkPieces {pieces chunkSize : ℕ} (hc : 0 < chunkSize) :
    ∀ m, m ≤ ceilDiv pieces chunkSize →
      (List.range m).flatMap (chunkPieces pieces chunkSize) =
        List.range (min (m * chunkSize) pieces)
  | 0, _ => by simp
  | m + 1, hm => by
      have hstart : m * chunkSize < pieces := by
        have := (Nat.le_div_iff_mul_le hc).mp hm
        rw [Nat.succ_mul] at this
        omega
      have happend := @List.range'_append_1 0 (m * chunkSize)
        (min (m * chunkSize + chunkSize) pieces - m * chunkSize)
      rw [Nat.zero_add] at happend
      rw [List.range_succ, List.flatMap_append, flatMap_chunkPieces hc m (by omega),
        List.flatMap_singleton, chunkPieces, min_eq_left hstart.le, List.range_eq_range',
        List.range_eq_range', happend, Nat.succ_mul]
      congr 1
      omega

/-- **The chunks hand out the pieces in order**, whatever the chunk size. -/
theorem serialOrder_eq (pieces chunkSize : ℕ) : serialOrder pieces chunkSize = List.range pieces := by
  have hc : 0 < effectiveChunkSize chunkSize := by
    unfold effectiveChunkSize
    split_ifs <;> omega
  have hcover : pieces ≤ ceilDiv pieces (effectiveChunkSize chunkSize) * effectiveChunkSize chunkSize := by
    have := Nat.lt_div_mul_add (a := pieces + effectiveChunkSize chunkSize - 1) hc
    unfold ceilDiv
    omega
  rw [serialOrder, flatMap_chunkPieces hc _ le_rfl, min_eq_right hcover]

/-- The run of a single worker, which takes the pieces in order and none late. -/
def WorkSchedule.serial (workers pieces chunkSize : ℕ) : WorkSchedule workers pieces chunkSize where
  order := serialOrder pieces chunkSize
  late _ := false
  perm := by rw [serialOrder_eq]
  oneWorker _ := ⟨rfl, fun _ => rfl⟩

/-- The run in which the pieces take effect in `order`, none late, when several workers share
several chunks; the run of a single worker otherwise. -/
def WorkSchedule.ofOrder (workers pieces chunkSize : ℕ) (order : List ℕ)
    (perm : order.Perm (List.range pieces)) : WorkSchedule workers pieces chunkSize :=
  if h : min workers (ceilDiv pieces (effectiveChunkSize chunkSize)) ≤ 1 then
    WorkSchedule.serial workers pieces chunkSize
  else ⟨order, fun _ => false, perm, fun h' => absurd h' h⟩

theorem workLoop_of_stopped {ι σ : Type} {stopped : σ → Bool} {doWorkPiece : ι → σ → σ} {s : σ}
    (h : stopped s = true) : ∀ l, workLoop stopped doWorkPiece l s = s
  | [] => rfl
  | _ :: _ => by simp [workLoop, h]

theorem workLoop_map {ι ι' σ : Type} (stopped : σ → Bool) (doWorkPiece : ι' → σ → σ) (f : ι → ι') :
    ∀ (l : List ι) (s : σ),
      workLoop stopped (fun i => doWorkPiece (f i)) l s = workLoop stopped doWorkPiece (l.map f) s
  | [], _ => rfl
  | p :: ps, s => by
      simp only [workLoop, List.map_cons]
      split_ifs
      · rfl
      · exact workLoop_map stopped doWorkPiece f ps _

section runSchedule

variable {σ : Type} {stopped : σ → Bool} {late : ℕ → Bool} {doWorkPiece : ℕ → σ → σ}

/-- Once the context is cancelled, no piece that is not late runs. -/
theorem runSchedule_of_stopped (hlate : ∀ p, late p = false) {s : σ} (h : stopped s = true) :
    ∀ l, runSchedule stopped late doWorkPiece l s = s
  | [] => rfl
  | p :: ps => by
      simp only [runSchedule, h, hlate p, Bool.not_false, Bool.and_self, if_true]
      exact runSchedule_of_stopped hlate h ps

/-- **Without late pieces, a run is the loop of one worker over the order.** -/
theorem runSchedule_eq_workLoop (hlate : ∀ p, late p = false) :
    ∀ (l : List ℕ) (s : σ), runSchedule stopped late doWorkPiece l s = workLoop stopped doWorkPiece l s
  | [], _ => rfl
  | p :: ps, s => by
      by_cases hs : stopped s = true
      · rw [runSchedule_of_stopped hlate hs, workLoop_of_stopped hs]
      · simp only [runSchedule, workLoop, hs, Bool.false_and, Bool.false_eq_true, if_false]
        exact runSchedule_eq_workLoop hlate ps _

/-- **With at least one worker, `ParallelizeUntil` is the run of its schedule.** -/
theorem ParallelizeUntil_eq {workers pieces chunkSize : ℕ} (hw : 0 < workers)
    (sched : WorkSchedule workers pieces chunkSize) (s : σ) :
    ParallelizeUntil stopped workers pieces doWorkPiece chunkSize sched s =
      runSchedule stopped sched.late doWorkPiece sched.order s := by
  unfold ParallelizeUntil
  split_ifs with h0 hw0
  · subst h0
    rw [List.perm_nil.mp sched.perm]
    rfl
  · omega
  · rfl

/-- **With one worker, the pieces run in order**, whatever the chunk size. -/
theorem Until_eq (pieces : ℕ) (sched : WorkSchedule 1 pieces (chunkSizeFor 1 pieces)) (s : σ) :
    Until 1 stopped pieces doWorkPiece sched s =
      workLoop stopped doWorkPiece (List.range pieces) s := by
  obtain ⟨horder, hlate⟩ := sched.oneWorker (Nat.min_le_left _ _)
  rw [Until, ParallelizeUntil_eq Nat.one_pos, horder, serialOrder_eq,
    runSchedule_eq_workLoop hlate]

end runSchedule

/-! ### The nodes before the `(k+1)`-th that fits -/

section beforeFit

variable {α : Type} (fits : α → Bool)

/-- The nodes before the `(k+1)`-th one that fits; all of them if at most `k` fit. -/
def beforeFit : ℕ → List α → List α
  | _, [] => []
  | k, x :: xs =>
      if fits x then
        match k with
        | 0 => []
        | k + 1 => x :: beforeFit k xs
      else x :: beforeFit k xs

theorem filter_beforeFit : ∀ (k : ℕ) (xs : List α),
    (beforeFit fits k xs).filter fits = (xs.filter fits).take k
  | _, [] => by simp [beforeFit]
  | k, x :: xs => by
      by_cases hx : fits x
      · cases k with
        | zero => simp [beforeFit, hx]
        | succ k => simp [beforeFit, hx, filter_beforeFit k xs]
      · simp [beforeFit, hx, filter_beforeFit k xs]

theorem beforeFit_of_length_le : ∀ (k : ℕ) (xs : List α), (xs.filter fits).length ≤ k →
    beforeFit fits k xs = xs
  | _, [], _ => rfl
  | k, x :: xs, h => by
      by_cases hx : fits x
      · cases k with
        | zero => simp [hx] at h
        | succ k =>
            rw [List.filter_cons_of_pos hx, List.length_cons] at h
            simp [beforeFit, hx, beforeFit_of_length_le k xs (by omega)]
      · rw [List.filter_cons_of_neg hx] at h
        simp [beforeFit, hx, beforeFit_of_length_le k xs h]

/-- When more than `k` nodes fit, the node right after those before the `(k+1)`-th is the
`(k+1)`-th. -/
theorem getElem?_length_beforeFit : ∀ (k : ℕ) (xs : List α), k < (xs.filter fits).length →
    xs[(beforeFit fits k xs).length]? = (xs.filter fits)[k]?
  | _, [], h => by simp at h
  | k, x :: xs, h => by
      by_cases hx : fits x
      · rw [List.filter_cons_of_pos hx] at h ⊢
        cases k with
        | zero => simp [beforeFit, hx]
        | succ k =>
            simp only [beforeFit, hx, if_true, List.length_cons, List.getElem?_cons_succ]
            exact getElem?_length_beforeFit k xs (by simpa using h)
      · rw [List.filter_cons_of_neg hx] at h ⊢
        simp only [beforeFit, hx, Bool.false_eq_true, if_false, List.length_cons,
          List.getElem?_cons_succ]
        exact getElem?_length_beforeFit k xs h

theorem beforeFit_sublist : ∀ (k : ℕ) (xs : List α), (beforeFit fits k xs).Sublist xs
  | _, [] => List.Sublist.slnil
  | k, x :: xs => by
      by_cases hx : fits x
      · cases k with
        | zero => simp [beforeFit, hx]
        | succ k => simpa [beforeFit, hx] using beforeFit_sublist k xs
      · simpa [beforeFit, hx] using beforeFit_sublist k xs

end beforeFit

/-! ### The search -/

/-- What the pieces of the search share: the slice `feasibleNodes`, the counter
`feasibleNodesLen`, the status map, what the error channel holds, and whether the context is
cancelled. -/
structure Search (α : Type) where
  feasibleNodes : List (Option α)
  feasibleNodesLen : ℕ
  statuses : NodeToStatusMap
  errCh : Option String
  cancelled : Bool

section search

variable {α : Type} (check : α → Bool × Option Status × Option String) (nodeName : α → String)

/-- The branch of `checkNode` for a node that does not fit: a status that is not a success is
recorded under the node's name. -/
def recordStatus (statuses : NodeToStatusMap) (nodeInfo : α) : Option Status → NodeToStatusMap
  | some s => if s.code = .Success then statuses else statuses.insert (nodeName nodeInfo) s
  | none => statuses

/-- `checkNode(i)` on the node `nodeInfo`, with `numNodesToFind` slots.  A node that fits past
the last slot cancels the search and takes its count back; the first error sent stays in the
channel. -/
def checkNode (numNodesToFind : ℕ) (nodeInfo : α) (st : Search α) : Search α :=
  match check nodeInfo with
  | (_, _, some err) => { st with errCh := st.errCh.or (some err), cancelled := true }
  | (fits, status, none) =>
      if fits then
        let length := st.feasibleNodesLen + 1
        if length > numNodesToFind then { st with cancelled := true }
        else
          { st with
            feasibleNodesLen := length
            feasibleNodes := st.feasibleNodes.set (length - 1) (some nodeInfo) }
      else { st with statuses := recordStatus nodeName st.statuses nodeInfo status }

/-- The branch of `g.findNodesThatPassFilters(ctx, fwk, state, pod, statuses)` for a framework
with filter plugins, with one worker: the nodes returned or the error, the status map, and the
scheduler with its index moved.  `make` panics on a negative length, and `%` on a list of no
nodes. -/
def findNodesThatPassFiltersWithPlugins (g : genericScheduler) (allNodes : List α)
    (statuses : NodeToStatusMap) :
    Except Go.Abort (Except String (List (Option α)) × NodeToStatusMap × genericScheduler) :=
  let numNodesToFind := g.numFeasibleNodesToFind (Int32.ofNat allNodes.length)
  if numNodesToFind < 0 then .error .makeSliceLenOutOfRange
  else if h : allNodes = [] then .error .integerDivideByZero
  else
    let k := numNodesToFind.toInt.toNat
    let st := Until 1 Search.cancelled allNodes.length
      (fun i => checkNode check nodeName k
        (allNodes.get ⟨(g.nextStartNodeIndex + i) % allNodes.length,
          Nat.succ_le_of_lt (Nat.mod_lt _ (List.length_pos_iff.mpr h))⟩))
      (WorkSchedule.serial _ _ _) ⟨List.replicate k none, 0, statuses, none, false⟩
    let processedNodes := st.feasibleNodesLen + st.statuses.entries.length
    let g := { g with
      nextStartNodeIndex := (g.nextStartNodeIndex + processedNodes) % allNodes.length }
    let feasibleNodes := st.feasibleNodes.take st.feasibleNodesLen
    match st.errCh with
    | some err => .ok (.error err, st.statuses, g)
    | none => .ok (.ok feasibleNodes, st.statuses, g)

/-- An outcome of `PodPassesFiltersOnNode` without an error: the pod fits exactly when the
status is a success. -/
def Checked (o : Bool × Option Status × Option String) : Prop := o.2.2 = none ∧ o.1 = IsSuccess o.2.1

omit check nodeName in
theorem take_set_length {l : List (Option α)} {n : ℕ} (h : n < l.length) (x : α) :
    (l.set n (some x)).take (n + 1) = l.take n ++ [some x] := by
  rw [List.take_add_one, List.take_set_of_le (le_refl n), List.getElem?_set_self h]
  rfl

theorem recordStatus_of_checked {m : NodeToStatusMap} {x : α} (ho : Checked (check x))
    (hx : (check x).1 = false) :
    ∃ s, (check x).2.1 = some s ∧ recordStatus nodeName m x (check x).2.1 = m.insert (nodeName x) s := by
  obtain ⟨-, hfit⟩ := ho
  rcases hs : (check x).2.1 with _ | s
  · rw [hs] at hfit
    simp [hx] at hfit
  · rw [hs, hx] at hfit
    have hcode : s.code ≠ .Success := by simpa using hfit.symm
    exact ⟨s, rfl, by simp [recordStatus, hcode]⟩

/-- **The search over the nodes `xs`**, from a state not cancelled with room for `b` more nodes,
the outcomes having no error: it stores the nodes that fit before the `(b+1)`-th, records the
statuses of those that do not, and keeps the error channel empty. -/
theorem workLoop_checkNode (k : ℕ) : ∀ (xs : List α) (st : Search α),
    (∀ x ∈ xs, Checked (check x)) → st.cancelled = false → st.feasibleNodesLen ≤ k →
    st.feasibleNodes.length = k →
    let st' := workLoop Search.cancelled (checkNode check nodeName k) xs st
    let pre := beforeFit (fun x => (check x).1) (k - st.feasibleNodesLen) xs
    st'.feasibleNodesLen = st.feasibleNodesLen + (pre.filter fun x => (check x).1).length ∧
    st'.feasibleNodes.length = k ∧
    st'.feasibleNodes.take st'.feasibleNodesLen =
      st.feasibleNodes.take st.feasibleNodesLen ++ (pre.filter fun x => (check x).1).map some ∧
    st'.statuses = (pre.filter fun x => !(check x).1).foldl
      (fun m x => recordStatus nodeName m x (check x).2.1) st.statuses ∧
    st'.errCh = st.errCh
  | [], st, _, _, _, hslots => by simp [workLoop, beforeFit, hslots]
  | x :: xs, st, hxs, hc, hlen, hslots => by
      obtain ⟨herr, -⟩ := hxs x List.mem_cons_self
      have hrest : ∀ y ∈ xs, Checked (check y) := fun y hy => hxs y (List.mem_cons_of_mem x hy)
      simp only [workLoop, hc, Bool.false_eq_true, if_false]
      rcases hcx : check x with ⟨fits, status, err⟩
      rw [hcx] at herr
      cases herr
      cases fits with
      | true =>
          have hfx : (check x).1 = true := by rw [hcx]
          by_cases hfull : st.feasibleNodesLen + 1 > k
          · have hpre : beforeFit (fun y => (check y).1) (k - st.feasibleNodesLen) (x :: xs) = [] := by
              rw [show k - st.feasibleNodesLen = 0 by omega]
              simp [beforeFit, hfx]
            simp only [checkNode, hcx, if_true, hfull]
            rw [workLoop_of_stopped rfl, hpre]
            simp [hslots]
          · have hpre : beforeFit (fun y => (check y).1) (k - st.feasibleNodesLen) (x :: xs) =
                x :: beforeFit (fun y => (check y).1) (k - (st.feasibleNodesLen + 1)) xs := by
              rw [show k - st.feasibleNodesLen = (k - (st.feasibleNodesLen + 1)) + 1 by omega]
              simp [beforeFit, hfx]
            obtain ⟨h1, h2, h3, h4, h5⟩ := workLoop_checkNode k xs
              { st with
                feasibleNodesLen := st.feasibleNodesLen + 1
                feasibleNodes := st.feasibleNodes.set st.feasibleNodesLen (some x) }
              hrest hc (show st.feasibleNodesLen + 1 ≤ k by omega) (by simpa using hslots)
            simp only [checkNode, hcx, if_true, hfull, if_false, Nat.add_sub_cancel]
            rw [hpre, List.filter_cons_of_pos (by exact hfx),
              List.filter_cons_of_neg (by simp [hfx])]
            refine ⟨?_, h2, ?_, h4, h5⟩
            · rw [h1]
              dsimp only
              simp only [List.length_cons]
              omega
            · rw [h3]
              dsimp only
              rw [take_set_length (by omega) x]
              simp
      | false =>
          have hfx : (check x).1 = false := by rw [hcx]
          have hpre : beforeFit (fun y => (check y).1) (k - st.feasibleNodesLen) (x :: xs) =
              x :: beforeFit (fun y => (check y).1) (k - st.feasibleNodesLen) xs := by
            simp [beforeFit, hfx]
          obtain ⟨h1, h2, h3, h4, h5⟩ := workLoop_checkNode k xs
            { st with statuses := recordStatus nodeName st.statuses x status }
            hrest hc hlen hslots
          simp only [checkNode, hcx, Bool.false_eq_true, if_false]
          rw [hpre, List.filter_cons_of_neg (by simp [hfx]),
            List.filter_cons_of_pos (by simp [hfx])]
          refine ⟨h1, h2, h3, ?_, h5⟩
          rw [h4, List.foldl_cons, hcx]

/-- Recording the statuses of nodes that do not fit, under distinct names not yet in the map:
the names come first among the keys, the last recorded first, and each reads its status. -/
theorem foldl_recordStatus : ∀ (l : List α) (m : NodeToStatusMap),
    (∀ x ∈ l, Checked (check x) ∧ (check x).1 = false) → (l.map nodeName).Nodup →
    (∀ x ∈ l, nodeName x ∉ m.keys) →
    let m' := l.foldl (fun m x => recordStatus nodeName m x (check x).2.1) m
    m'.keys = (l.map nodeName).reverse ++ m.keys ∧
      (∀ x ∈ l, m'.lookup (nodeName x) = (check x).2.1) ∧
      ∀ a, a ∉ l.map nodeName → m'.lookup a = m.lookup a
  | [], m, _, _, _ => by simp
  | x :: l, m, hl, hnd, hfresh => by
      obtain ⟨s, hs, hrec⟩ := recordStatus_of_checked check nodeName (m := m)
        (hl x List.mem_cons_self).1 (hl x List.mem_cons_self).2
      rw [List.map_cons, List.nodup_cons] at hnd
      have hfresh' : ∀ y ∈ l, nodeName y ∉ (m.insert (nodeName x) s).keys := by
        intro y hy
        rw [AList.keys_insert, List.mem_cons, not_or]
        refine ⟨fun hxy => hnd.1 ?_, fun hm => hfresh y (List.mem_cons_of_mem x hy) ?_⟩
        · rw [← hxy]
          exact List.mem_map_of_mem hy
        · exact List.mem_of_mem_erase hm
      obtain ⟨hk, hlook, hother⟩ := foldl_recordStatus l (m.insert (nodeName x) s)
        (fun y hy => hl y (List.mem_cons_of_mem x hy)) hnd.2 hfresh'
      simp only [List.foldl_cons, hrec]
      refine ⟨?_, ?_, ?_⟩
      · rw [hk, AList.keys_insert, List.erase_of_not_mem (hfresh x List.mem_cons_self)]
        simp
      · intro y hy
        rcases List.mem_cons.mp hy with rfl | hy
        · rw [hother _ hnd.1, AList.lookup_insert, hs]
        · exact hlook y hy
      · intro a ha
        rw [List.map_cons, List.mem_cons, not_or] at ha
        rw [hother a ha.2, AList.lookup_insert_ne ha.1]

/-- **The search with filter plugins, one worker.**  For a non-empty list of nodes with
distinct names that an `int32` counts, and outcomes of the filters without an error, called with
an empty status map: with `k = numFeasibleNodesToFind(n)` and the round `order` of the nodes
from `nextStartNodeIndex`, the search examines the nodes before the `(k+1)`-th node that fits
(all of them if at most `k` fit), returns the first `k` nodes that fit, records the statuses of
the nodes examined that do not fit, and moves the index by the number of nodes examined: the
`(k+1)`-th node that fits, if there is one, is where the next cycle starts. -/
theorem findNodesThatPassFiltersWithPlugins_spec (g : genericScheduler) (allNodes : List α)
    (h : allNodes ≠ []) (hlen : allNodes.length < 2 ^ 31) (hnames : (allNodes.map nodeName).Nodup)
    (hcheck : ∀ x ∈ allNodes, Checked (check x)) :
    let k := (g.numFeasibleNodesToFind (Int32.ofNat allNodes.length)).toInt.toNat
    let order := Rotation.window allNodes h g.nextStartNodeIndex allNodes.length
    let fits := fun x => (check x).1
    let examined := beforeFit fits k order
    ∃ statuses g', findNodesThatPassFiltersWithPlugins check nodeName g allNodes ∅ =
        .ok (.ok (((order.filter fits).take k).map some), statuses, g') ∧
      ((order.filter fits).length ≤ k → examined = order) ∧
      statuses.keys = ((examined.filter fun x => !fits x).map nodeName).reverse ∧
      (∀ x ∈ examined.filter (fun x => !fits x), statuses.lookup (nodeName x) = (check x).2.1) ∧
      g' = { g with
        nextStartNodeIndex := (g.nextStartNodeIndex + examined.length) % allNodes.length } ∧
      (k < (order.filter fits).length →
        allNodes[g'.nextStartNodeIndex]? = (order.filter fits)[k]?) := by
  intro k order fits examined
  have hbounds := genericScheduler.numNodesToFind_bounds g hlen
  have hk0 : ¬ g.numFeasibleNodesToFind (Int32.ofNat allNodes.length) < 0 := by
    rw [Int32.lt_iff_toInt_lt, show (0 : Int32).toInt = 0 from rfl]
    omega
  have hmem : ∀ x ∈ order, x ∈ allNodes := by
    intro x hx
    obtain ⟨i, -, rfl⟩ := List.mem_map.mp hx
    exact List.get_mem _ _
  have horderNames : (order.map nodeName).Nodup :=
    (Rotation.nodup_window allNodes h (hnames.of_map nodeName) _ le_rfl).map_on
      fun x hx y hy hxy => List.inj_on_of_nodup_map hnames (hmem x hx) (hmem y hy) hxy
  -- the worker's run over the pieces is the search over the round
  have hrun : Until 1 Search.cancelled allNodes.length
      (fun i => checkNode check nodeName k
        (allNodes.get ⟨(g.nextStartNodeIndex + i) % allNodes.length,
          Nat.mod_lt _ (List.length_pos_iff.mpr h)⟩))
      (WorkSchedule.serial _ _ _) ⟨List.replicate k none, 0, ∅, none, false⟩ =
      workLoop Search.cancelled (checkNode check nodeName k) order
        ⟨List.replicate k none, 0, ∅, none, false⟩ := by
    rw [Until_eq, workLoop_map]
    rfl
  obtain ⟨h1, -, h3, h4, h5⟩ := workLoop_checkNode check nodeName k order
    ⟨List.replicate k none, 0, ∅, none, false⟩ (fun x hx => hcheck x (hmem x hx)) rfl
    (Nat.zero_le _) (by simp)
  simp only [Nat.sub_zero, Nat.zero_add, List.take_zero, List.nil_append] at h1 h3 h4
  have hnonfit : ∀ x ∈ examined.filter (fun x => !fits x), Checked (check x) ∧ (check x).1 = false := by
    intro x hx
    obtain ⟨hx, hfx⟩ := List.mem_filter.mp hx
    exact ⟨hcheck x (hmem x ((beforeFit_sublist fits k order).subset hx)), by simpa using hfx⟩
  obtain ⟨hkeys, hlook, -⟩ := foldl_recordStatus check nodeName (examined.filter fun x => !fits x) ∅
    hnonfit ((((List.filter_sublist (l := examined)).trans (beforeFit_sublist fits k order)).map
      nodeName).nodup horderNames)
    (by simp)
  rw [← h4] at hkeys hlook
  simp only [AList.keys_empty, List.append_nil] at hkeys
  have hprocessed : (workLoop Search.cancelled (checkNode check nodeName k) order
      ⟨List.replicate k none, 0, ∅, none, false⟩).feasibleNodesLen +
      (workLoop Search.cancelled (checkNode check nodeName k) order
        ⟨List.replicate k none, 0, ∅, none, false⟩).statuses.entries.length = examined.length := by
    have hlenKeys := congrArg List.length hkeys
    simp only [AList.keys, List.keys, List.length_map, List.length_reverse] at hlenKeys
    rw [h1, hlenKeys, ← List.length_eq_length_filter_add]
  refine ⟨_, _, ?_, beforeFit_of_length_le fits k order, hkeys, hlook, rfl, ?_⟩
  · unfold findNodesThatPassFiltersWithPlugins
    simp only [if_neg hk0, dif_neg h]
    rw [hrun, h5, hprocessed]
    simp only
    rw [h3, filter_beforeFit]
  · intro hmore
    have hnext := getElem?_length_beforeFit fits k order hmore
    have hL : examined.length < allNodes.length := by
      have : examined.length < order.length := by
        by_contra hge
        rw [List.getElem?_eq_none (not_lt.mp hge)] at hnext
        exact absurd hnext.symm (by simp [List.getElem?_eq_getElem hmore])
      simpa [order] using this
    rw [← hnext, Rotation.getElem?_window allNodes h _ _ _ hL]

set_option maxRecDepth 10000 in
/-- The statuses are not only those of the nodes before the `k`-th node that fits: of `102` nodes
(`k = 100`) where only the node `100` does not fit, the search records its status and moves the
index to `101`, past it. -/
theorem findNodesThatPassFiltersWithPlugins_pastKth :
    (findNodesThatPassFiltersWithPlugins
        (fun i : ℕ => if i = 100 then (false, some ⟨.Unschedulable, ["node(s) didn't match"]⟩, none)
          else (true, none, none))
        toString { percentageOfNodesToScore := 0 } (List.range 102) ∅).map
      (fun r => (r.2.1.keys, r.2.2.nextStartNodeIndex)) = .ok (["100"], 101) := by
  rw [findNodesThatPassFiltersWithPlugins]
  simp only [Until_eq]
  rfl

/-- Two nodes that fit, from the index `1`. -/
theorem findNodesThatPassFiltersWithPlugins_spec_twoNodes :
    let check : ℕ → Bool × Option Status × Option String := fun _ => (true, none, none)
    let g : genericScheduler := { percentageOfNodesToScore := 0, nextStartNodeIndex := 1 }
    let allNodes := [0, 1]
    let k := (g.numFeasibleNodesToFind (Int32.ofNat allNodes.length)).toInt.toNat
    let order := Rotation.window allNodes (List.cons_ne_nil 0 [1]) g.nextStartNodeIndex
      allNodes.length
    let fits := fun x => (check x).1
    let examined := beforeFit fits k order
    ∃ statuses g', findNodesThatPassFiltersWithPlugins check toString g allNodes ∅ =
        .ok (.ok (((order.filter fits).take k).map some), statuses, g') ∧
      ((order.filter fits).length ≤ k → examined = order) ∧
      statuses.keys = ((examined.filter fun x => !fits x).map toString).reverse ∧
      (∀ x ∈ examined.filter (fun x => !fits x), statuses.lookup (toString x) = (check x).2.1) ∧
      g' = { g with
        nextStartNodeIndex := (g.nextStartNodeIndex + examined.length) % allNodes.length } ∧
      (k < (order.filter fits).length →
        allNodes[g'.nextStartNodeIndex]? = (order.filter fits)[k]?) :=
  findNodesThatPassFiltersWithPlugins_spec (fun _ => (true, none, none)) toString
    { percentageOfNodesToScore := 0, nextStartNodeIndex := 1 } [0, 1] (List.cons_ne_nil 0 [1])
    (by decide) (by decide) (fun _ _ => ⟨rfl, rfl⟩)

end search

end GenericScheduler

end Caspr
