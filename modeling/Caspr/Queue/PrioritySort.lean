import Caspr.Queue.HeapRefinement
import Caspr.Queue.Invariant
import Caspr.Plugins.DefaultPreemption

/-! # The order of `activeQ` (queuesort/priority_sort.go)

`PrioritySort.Less`, the scheduler's default `lessFn`, puts a pod of higher priority first and,
between pods of equal priority, the one queued earlier.  It is the strict order of the key
(priority, reversed, then timestamp), hence a strict weak order on every set of pods (`Less_iff`,
and the instance below).

Every call on the queue changes `activeQ` only through `Heap.Add`, `Heap.Delete` and `Heap.Pop`:
whatever those keep, every call keeps (`HeapCallsKeep.step`).  They keep that `activeQ` is stored
by a heap of `internal/heap` reached from `New` (`heapCallsKeep_simulated`), so in every reachable
queue `Pop` is the `Pop` of such a heap, and returns a pod of `activeQ` that no pod of it is less
than: under `PrioritySort`, a pod of the highest priority and, among those, of the earliest
timestamp. -/

namespace Caspr

namespace Queue

open DefaultPreemption

namespace PrioritySort

/-- `pl.Less(pInfo1, pInfo2)`: higher priority first, then the earlier timestamp
(`Timestamp.Before` is strict). -/
def Less (pInfo1 pInfo2 : QueuedPodInfo) : Bool :=
  let p1 := PodPriority pInfo1.pod
  let p2 := PodPriority pInfo2.pod
  decide (p1 > p2) || (decide (p1 = p2) && decide (pInfo1.timestamp < pInfo2.timestamp))

/-- `Less` compares (priority, reversed, then timestamp) lexicographically. -/
theorem Less_iff (pInfo1 pInfo2 : QueuedPodInfo) :
    Less pInfo1 pInfo2 = true ↔
      (PodPriority pInfo2.pod).toInt < (PodPriority pInfo1.pod).toInt ∨
        (PodPriority pInfo1.pod).toInt = (PodPriority pInfo2.pod).toInt ∧
          pInfo1.timestamp < pInfo2.timestamp := by
  simp [Less, Int32.lt_iff_toInt_lt, ← Int32.toInt_inj]

instance (S : Set QueuedPodInfo) : IsStrictWeakOrder S fun a b => Less a.1 b.1 = true where
  irrefl a := by
    rw [Less_iff]
    omega
  trans a b c := by
    simp only [Less_iff]
    omega
  incomp_trans a b c := by
    simp only [Less_iff]
    omega

/-- A pod that no other is less than has at least its priority and, at equal priority, is not
later. -/
theorem Less_eq_false_iff (pInfo1 pInfo2 : QueuedPodInfo) :
    Less pInfo1 pInfo2 = false ↔
      PodPriority pInfo1.pod ≤ PodPriority pInfo2.pod ∧
        (PodPriority pInfo1.pod = PodPriority pInfo2.pod → pInfo2.timestamp ≤ pInfo1.timestamp) := by
  rw [← Bool.not_eq_true, Less_iff, Int32.le_iff_toInt_le, ← Int32.toInt_inj]
  omega

end PrioritySort

/-! ### What a call does to `activeQ` -/

namespace PriorityQueue

/-- A property of a keyed heap that `Heap.Add`, a `Heap.Delete` that succeeds and `Heap.Pop`
keep. -/
structure HeapCallsKeep (lessFn : QueuedPodInfo → QueuedPodInfo → Bool)
    (A : KeyedHeap podInfoKeyFunc → Prop) : Prop where
  Add : ∀ {kh} (obj : QueuedPodInfo), A kh → A (kh.Add lessFn obj)
  Delete : ∀ {kh kh'} {obj : QueuedPodInfo}, A kh → kh.Delete lessFn obj = .ok kh' → A kh'
  Pop : ∀ {kh kh'} {x : QueuedPodInfo}, A kh → kh.Pop lessFn = some (x, kh') → A kh'

/-- `AddUnschedulableIfNotPresent` never writes `activeQ`. -/
theorem AddUnschedulableIfNotPresent_activeQ {q : PriorityQueue} (pInfo : QueuedPodInfo)
    (podSchedulingCycle now : ℤ) :
    (q.AddUnschedulableIfNotPresent pInfo podSchedulingCycle now).1.activeQ = q.activeQ := by
  simp only [AddUnschedulableIfNotPresent]
  split_ifs <;> rfl

section activeQ

variable {lessFn : QueuedPodInfo → QueuedPodInfo → Bool} {A : KeyedHeap podInfoKeyFunc → Prop}
  {q q' : PriorityQueue}

theorem Pop_activeQ {r : Except String QueuedPodInfo} (hq : q.Pop lessFn = some (r, q')) :
    q'.activeQ = q.activeQ ∨ ∃ x, q.activeQ.Pop lessFn = some (x, q'.activeQ) := by
  unfold PriorityQueue.Pop at hq
  split_ifs at hq
  · simp only [Option.some.injEq, Prod.mk.injEq] at hq
    exact .inl (by rw [← hq.2])
  · split at hq
    · rename_i x A' hpop
      simp only [Option.some.injEq, Prod.mk.injEq] at hq
      obtain ⟨-, rfl⟩ := hq
      exact .inr ⟨x, hpop⟩
    · simp only [Option.some.injEq, Prod.mk.injEq] at hq
      exact .inl (by rw [← hq.2])

/-- **`Pop` returns the head of `activeQ`**, with one more attempt. -/
theorem Pop_eq_ok {r : QueuedPodInfo} (hq : q.Pop lessFn = some (.ok r, q')) :
    ∃ x, q.activeQ.Pop lessFn = some (x, q'.activeQ) ∧ r = { x with attempts := x.attempts + 1 } := by
  unfold PriorityQueue.Pop at hq
  split_ifs at hq
  · simp at hq
  split at hq
  · rename_i x A' hpop
    simp only [Option.some.injEq, Prod.mk.injEq, Except.ok.injEq] at hq
    obtain ⟨rfl, rfl⟩ := hq
    exact ⟨x, hpop, rfl⟩
  · simp at hq

variable (hA : HeapCallsKeep lessFn A)
include hA

theorem HeapCallsKeep.movePodToActiveOrBackoffQueue (h : A q.activeQ) (now : ℤ)
    (pInfo : QueuedPodInfo) : A (movePodToActiveOrBackoffQueue lessFn now q pInfo).activeQ := by
  unfold PriorityQueue.movePodToActiveOrBackoffQueue
  split_ifs
  · exact h
  · exact hA.Add pInfo h

theorem HeapCallsKeep.movePodsToActiveOrBackoffQueue (h : A q.activeQ)
    (podInfoList : List QueuedPodInfo) (now : ℤ) :
    A (q.movePodsToActiveOrBackoffQueue lessFn podInfoList now).activeQ :=
  StepSystem.foldl_invariant (PriorityQueue.movePodToActiveOrBackoffQueue lessFn now)
    (P := fun _ s => A s.activeQ) (fun _ i _ hs => hA.movePodToActiveOrBackoffQueue hs now i)
    podInfoList q h

theorem HeapCallsKeep.flushUnschedulableQLeftover (h : A q.activeQ) (now : ℤ) :
    A (q.flushUnschedulableQLeftover lessFn now).activeQ := by
  dsimp only [PriorityQueue.flushUnschedulableQLeftover]
  split_ifs
  · exact hA.movePodsToActiveOrBackoffQueue h _ now
  · exact h

/-- Each iteration of the flush adds the head of `podBackoffQ` to `activeQ`.  By induction on
the loop's fuel. -/
theorem HeapCallsKeep.flushBackoffQCompletedLoop (now : ℤ) :
    ∀ (fuel : ℕ) {q : PriorityQueue}, A q.activeQ →
      A (flushBackoffQCompletedLoop lessFn now fuel q).activeQ
  | 0, _, h => h
  | fuel + 1, q, h => by
      simp only [PriorityQueue.flushBackoffQCompletedLoop]
      split
      · exact h
      · split_ifs
        · exact h
        · split
          · exact h
          · exact HeapCallsKeep.flushBackoffQCompletedLoop now fuel (hA.Add _ h)

theorem HeapCallsKeep.Pop' (h : A q.activeQ) {r : Except String QueuedPodInfo}
    (hq : q.Pop lessFn = some (r, q')) : A q'.activeQ := by
  rcases Pop_activeQ hq with hq' | ⟨x, hpop⟩
  · exact hq' ▸ h
  · exact hA.Pop h hpop

theorem HeapCallsKeep.updateUnschedulableOrAdd (h : A q.activeQ) {oldPod : Option Pod}
    {newPod : Pod} {now : ℤ} (hq : q.updateUnschedulableOrAdd lessFn oldPod newPod now = .ok q') :
    A q'.activeQ := by
  unfold PriorityQueue.updateUnschedulableOrAdd at hq
  split at hq
  · rename_i usPodInfo hget
    cases hup : isPodUpdated oldPod newPod with
    | error e =>
        rw [hup] at hq
        cases hq
    | ok updated =>
        rw [hup] at hq
        simp only [bind, Except.bind, pure, Except.pure] at hq
        cases updated
        · simp only [Bool.false_eq_true, if_false, Except.ok.injEq] at hq
          subst hq
          exact h
        · simp only [if_true, Except.ok.injEq] at hq
          subst hq
          exact hA.Add _ h
  · simp only [pure, Except.pure, Except.ok.injEq] at hq
    subst hq
    exact hA.Add _ h

theorem HeapCallsKeep.Update (h : A q.activeQ) {oldPod : Option Pod} {newPod : Pod} {now : ℤ}
    (hq : q.Update lessFn oldPod newPod now = .ok q') : A q'.activeQ := by
  dsimp only [PriorityQueue.Update] at hq
  split at hq
  · split at hq
    · cases hq
      exact hA.Add _ h
    · split at hq
      · cases hq
        exact hA.Add _ h
      · exact hA.updateUnschedulableOrAdd h hq
  · exact hA.updateUnschedulableOrAdd h hq

theorem HeapCallsKeep.Delete' (h : A q.activeQ) (pod : Pod) : A (q.Delete lessFn pod).activeQ := by
  unfold PriorityQueue.Delete
  split
  · rename_i A' hd
    exact hA.Delete h hd
  · exact h

/-- **Step lemma.** Every call that returns changes `activeQ` only through `Heap.Add`,
`Heap.Delete` and `Heap.Pop`, so it keeps what they keep. -/
theorem HeapCallsKeep.step (h : A q.activeQ) {op : QueueOp} (hs : q.Step lessFn op q') :
    A q'.activeQ := by
  unfold PriorityQueue.Step at hs
  cases op with
  | Add pod now =>
      cases Option.some.inj hs
      exact hA.Add _ h
  | AddUnschedulableIfNotPresent pInfo podSchedulingCycle now =>
      cases Option.some.inj hs
      rw [AddUnschedulableIfNotPresent_activeQ pInfo podSchedulingCycle now]
      exact h
  | Pop =>
      obtain ⟨⟨r, q''⟩, hpop, hr⟩ := Option.map_eq_some_iff.mp hs
      cases hr
      exact hA.Pop' h hpop
  | Update oldPod newPod now => exact hA.Update h (Option.some.inj hs)
  | Delete pod =>
      cases Option.some.inj hs
      exact hA.Delete' h pod
  | MoveAllToActiveOrBackoffQueue now =>
      cases Option.some.inj hs
      exact hA.movePodsToActiveOrBackoffQueue h _ now
  | AssignedPodAdded pod now =>
      cases Option.some.inj hs
      exact hA.movePodsToActiveOrBackoffQueue h _ now
  | AssignedPodUpdated pod now =>
      cases Option.some.inj hs
      exact hA.movePodsToActiveOrBackoffQueue h _ now
  | flushBackoffQCompleted now =>
      cases Option.some.inj hs
      exact hA.flushBackoffQCompletedLoop now _ h
  | flushUnschedulableQLeftover now =>
      cases Option.some.inj hs
      exact hA.flushUnschedulableQLeftover h now
  | Close =>
      have hc : q.Close = .ok q' := Option.some.inj hs
      unfold PriorityQueue.Close at hc
      split_ifs at hc
      cases hc
      exact h

/-- **Run lemma.** What the empty heap has and the heap calls keep, `activeQ` has in every queue
reached from `NewPriorityQueue`, whatever the calls. -/
theorem HeapCallsKeep.reachable (h0 : A KeyedHeap.empty) {options : priorityQueueOptions}
    (hr : StepSystem.Reachable (Step lessFn) (fun _ _ => True) (NewPriorityQueue options) q) :
    A q.activeQ :=
  hr.invariant (P := fun q => A q.activeQ) h0 fun _ _ _ h _ hs => hA.step h hs

end activeQ

/-- The heaps of `internal/heap` that store `activeQ` are kept by the heap calls. -/
theorem heapCallsKeep_simulated (lessFn : QueuedPodInfo → QueuedPodInfo → Bool) :
    HeapCallsKeep lessFn (Heap.Simulated lessFn) where
  Add obj h := h.Add obj
  Delete h hd := h.Delete hd
  Pop h hp := h.Pop hp

end PriorityQueue

/-! ### The heap and the queue over every run -/

/-- Every heap reached by calls whose objects are in a set `S` on which `lessFunc` is a strict
weak order, popping only a heap that is not empty, keeps its items and queue in agreement, its
queue in heap order, and returns from `Peek` and `Pop` an object no stored one is less than; and
in every queue reached from `NewPriorityQueue` ordered by `PrioritySort`, a `Pop` that returns a
pod is the `Pop` of a heap reached from `New` that stores `activeQ`, and the pod has the highest
priority in `activeQ` and, among those, the earliest timestamp. -/
theorem heap_and_activeQ_pop_highest_priority {α : Type} (keyFunc : α → Except String String)
    (lessFunc : α → α → Bool) (S : Set α) [IsStrictWeakOrder S fun a b => lessFunc a.1 b.1 = true]
    {h : Heap.data α} (hr : Heap.Reachable keyFunc lessFunc S h)
    {options : priorityQueueOptions} {q : PriorityQueue}
    (hq : StepSystem.Reachable (PriorityQueue.Step PrioritySort.Less) (fun _ _ => True)
      (NewPriorityQueue options) q) :
    (Heap.data.Inv h ∧
      (∀ k < h.queue.length, 0 < k → Heap.data.Less lessFunc h k (GoHeap.parent k) = false) ∧
      (∀ x, Heap.Heap.Peek h = some x → ∀ key item, h.items key = some item →
        lessFunc item.obj x = false) ∧
      (0 < Heap.Heap.Len h → ∃ x h', Heap.Heap.Pop lessFunc h = some (.ok x, h') ∧
        ∀ key item, h.items key = some item → lessFunc item.obj x = false)) ∧
    ∀ r q', q.Pop PrioritySort.Less = some (.ok r, q') →
      ∃ x hd hd', Heap.Reachable (fun p => .ok (podInfoKeyFunc p)) PrioritySort.Less Set.univ hd ∧
        Heap.Refines podInfoKeyFunc hd q.activeQ ∧
        Heap.Heap.Pop PrioritySort.Less hd = some (.ok x, hd') ∧
        Heap.Refines podInfoKeyFunc hd' q'.activeQ ∧
        x ∈ q.activeQ.queue ∧ r = { x with attempts := x.attempts + 1 } ∧
        ∀ y ∈ q.activeQ.queue, PodPriority y.pod ≤ PodPriority r.pod ∧
          (PodPriority y.pod = PodPriority r.pod → r.timestamp ≤ y.timestamp) := by
  refine ⟨Heap.reachable_spec keyFunc hr, fun r q' hpop => ?_⟩
  obtain ⟨x, hpopA, rfl⟩ := PriorityQueue.Pop_eq_ok hpop
  -- `activeQ` is stored by a heap of `internal/heap` reached from `New`
  obtain ⟨hd, hrd, hR⟩ := (PriorityQueue.heapCallsKeep_simulated PrioritySort.Less).reachable
    (Heap.simulated_empty PrioritySort.Less) hq
  obtain ⟨hd', hpopd, hR'⟩ := hR.Pop PrioritySort.Less hpopA
  refine ⟨x, hd, hd', hrd, hR, hpopd, hR', (KeyedHeap.Pop_eq_some _ hpopA).2.subset List.mem_cons_self,
    rfl, fun y hy => ?_⟩
  exact (PrioritySort.Less_eq_false_iff y x).mp (hR.Pop_min PrioritySort.Less hrd hpopA y hy)

/-- A heap of numbers after adding `2` and then `1`, which sifts up to the root; and a queue to
which a pod of priority `1` and then one of priority `5` were added, whose `Pop` returns the
second. -/
theorem heap_and_activeQ_pop_highest_priority_two :
    let keyFunc : ℕ → Except String String := fun n => .ok (toString n)
    let lessFunc : ℕ → ℕ → Bool := fun a b => decide (a < b)
    let h₁ := Heap.afterCall Heap.Heap.New (Heap.Heap.Add keyFunc lessFunc Heap.Heap.New 2)
    let h := Heap.afterCall h₁ (Heap.Heap.Add keyFunc lessFunc h₁ 1)
    let p₁ : Pod := { name := "low", priority := some 1 }
    let p₂ : Pod := { name := "high", priority := some 5 }
    let q := ((NewPriorityQueue {}).Add PrioritySort.Less p₁ 0).Add PrioritySort.Less p₂ 1
    ((Heap.data.Inv h ∧
      (∀ k < h.queue.length, 0 < k → Heap.data.Less lessFunc h k (GoHeap.parent k) = false) ∧
      (∀ x, Heap.Heap.Peek h = some x → ∀ key item, h.items key = some item →
        lessFunc item.obj x = false) ∧
      (0 < Heap.Heap.Len h → ∃ x h', Heap.Heap.Pop lessFunc h = some (.ok x, h') ∧
        ∀ key item, h.items key = some item → lessFunc item.obj x = false)) ∧
    ∀ r q', q.Pop PrioritySort.Less = some (.ok r, q') →
      ∃ x hd hd', Heap.Reachable (fun p => .ok (podInfoKeyFunc p)) PrioritySort.Less Set.univ hd ∧
        Heap.Refines podInfoKeyFunc hd q.activeQ ∧
        Heap.Heap.Pop PrioritySort.Less hd = some (.ok x, hd') ∧
        Heap.Refines podInfoKeyFunc hd' q'.activeQ ∧
        x ∈ q.activeQ.queue ∧ r = { x with attempts := x.attempts + 1 } ∧
        ∀ y ∈ q.activeQ.queue, PodPriority y.pod ≤ PodPriority r.pod ∧
          (PodPriority y.pod = PodPriority r.pod → r.timestamp ≤ y.timestamp)) ∧
    h.queue = ["1", "2"] ∧ ∃ r q', q.Pop PrioritySort.Less = some (.ok r, q') ∧ r.pod = p₂ := by
  intro keyFunc lessFunc h₁ h p₁ p₂ q
  dsimp only [q, p₁, p₂]
  have : IsStrictWeakOrder (Set.univ : Set ℕ) fun a b => lessFunc a.1 b.1 = true :=
    { irrefl := fun a => by simp [lessFunc]
      trans := fun a b c hab hbc => by simp only [lessFunc, decide_eq_true_eq] at *; omega
      incomp_trans := fun a b c hab hbc => by simp only [lessFunc, decide_eq_true_eq] at *; omega }
  refine ⟨heap_and_activeQ_pop_highest_priority keyFunc lessFunc Set.univ
    (.step (.Add 1) (.step (.Add 2) .init trivial rfl) trivial rfl)
    (.step (.Add _ 1) (.step (.Add _ 0) .init trivial rfl) trivial rfl), by decide,
    _, _, rfl, rfl⟩

end Queue

end Caspr
