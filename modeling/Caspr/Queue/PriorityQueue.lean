import Caspr.Lib.Heap
import Caspr.Framework.Types

/-! # The scheduling queue (internal/queue/scheduling_queue.go)

`PriorityQueue` holds the pods waiting to be scheduled in three sub-queues:

* `activeQ`, a heap ordered by the scheduler's `lessFn`, from which `Pop` takes the next pod;
* `podBackoffQ`, a heap ordered by the time each pod's backoff ends, which
  `flushBackoffQCompleted` drains into `activeQ`;
* `unschedulableQ`, a map of the pods found unschedulable, which the move requests
  (`MoveAllToActiveOrBackoffQueue`, `AssignedPodAdded`, `AssignedPodUpdated`) and
  `flushUnschedulableQLeftover` send to one of the heaps.

The heaps are keyed by `MetaNamespaceKeyFunc` (`namespace/name`) and the map by
`GetPodFullName` (`name_namespace`).

*Modelling.*
* The heaps are `KeyedHeap`s over Go's `container/heap`.  `lessFn` is a parameter.
* `Heap.List()` and Go's ranges over the map visit entries in an unspecified order.  The model
  lists them in the order the heap or map holds them.
* Every call takes the time `now` the Go code reads from its clock.  Times and durations are
  integers of nanoseconds; the backoff durations, whose doubling can wrap, are the `int64` of
  `time.Duration`.
* `Pop` on an empty, open queue waits for another call to add a pod; the model says it blocks
  (`none`).
* Heap errors come only from a failing key function, and `MetaNamespaceKeyFunc` does not fail
  on a pod.  The model therefore drops the branches that handle them.
* The nominator, the metrics, the logs and the event names passed for metrics are left out.
* `QueuedPodInfo` is handled through pointers in Go.  A pointer is stored in at most one
  sub-queue, and the scheduler drops the one `Pop` returned once it has handed it back.  So a
  value models it. -/

namespace Caspr

namespace Queue

/-- `framework.QueuedPodInfo`. -/
structure QueuedPodInfo where
  pod : Pod
  timestamp : ℤ := 0
  attempts : ℕ := 0
  initialAttemptTimestamp : ℤ := 0

/-! ### Keys -/

/-- `cache.MetaNamespaceKeyFunc` on a pod: `namespace/name`, or the name for the empty
namespace. -/
def MetaNamespaceKeyFunc (pod : Pod) : String :=
  if 0 < pod.podNamespace.length then pod.podNamespace ++ "/" ++ pod.name else pod.name

/-- `podInfoKeyFunc`: the key of both heaps. -/
def podInfoKeyFunc (pInfo : QueuedPodInfo) : String := MetaNamespaceKeyFunc pInfo.pod

/-- `util.GetPodFullName`: the key of the unschedulable map. -/
def GetPodFullName (pod : Pod) : String := pod.name ++ "_" ++ pod.podNamespace

/-- `nsNameForPod(pod)` as `%v` prints it (`NamespacedName.String()`). -/
def nsNameForPod (pod : Pod) : String := pod.podNamespace ++ "/" ++ pod.name

/-! ### Time -/

/-- `time.Second`, in nanoseconds. -/
def second : ℤ := 1000000000

def unschedulableQTimeInterval : ℤ := 60 * second

def queueClosed : String := "scheduling queue is closed"

def DefaultPodInitialBackoffDuration : Int64 := .ofInt (1 * second)

def DefaultPodMaxBackoffDuration : Int64 := .ofInt (10 * second)

/-! ### The unschedulable map -/

/-- `UnschedulablePodsMap`, whose key function is `GetPodFullName`. -/
structure UnschedulablePodsMap where
  podInfoMap : AList (fun _ : String => QueuedPodInfo) := ∅

namespace UnschedulablePodsMap

def addOrUpdate (u : UnschedulablePodsMap) (pInfo : QueuedPodInfo) : UnschedulablePodsMap :=
  ⟨u.podInfoMap.insert (GetPodFullName pInfo.pod) pInfo⟩

def delete (u : UnschedulablePodsMap) (pod : Pod) : UnschedulablePodsMap :=
  ⟨u.podInfoMap.erase (GetPodFullName pod)⟩

def get (u : UnschedulablePodsMap) (pod : Pod) : Option QueuedPodInfo :=
  u.podInfoMap.lookup (GetPodFullName pod)

/-- The values of the map, in the order a Go range over it is taken to visit them. -/
def values (u : UnschedulablePodsMap) : List QueuedPodInfo := u.podInfoMap.entries.map (·.2)

end UnschedulablePodsMap

/-! ### The queue -/

/-- `priorityQueueOptions`, without the clock and the nominator. -/
structure priorityQueueOptions where
  podInitialBackoffDuration : Int64 := DefaultPodInitialBackoffDuration
  podMaxBackoffDuration : Int64 := DefaultPodMaxBackoffDuration

/-- `PriorityQueue`; `closed` also stands for the closed `stop` channel. -/
structure PriorityQueue where
  podInitialBackoffDuration : Int64
  podMaxBackoffDuration : Int64
  activeQ : KeyedHeap podInfoKeyFunc
  podBackoffQ : KeyedHeap podInfoKeyFunc
  unschedulableQ : UnschedulablePodsMap
  schedulingCycle : ℤ
  moveRequestCycle : ℤ
  closed : Bool

/-- `NewPriorityQueue(lessFn, opts...)`. -/
def NewPriorityQueue (options : priorityQueueOptions) : PriorityQueue where
  podInitialBackoffDuration := options.podInitialBackoffDuration
  podMaxBackoffDuration := options.podMaxBackoffDuration
  activeQ := .empty
  podBackoffQ := .empty
  unschedulableQ := {}
  schedulingCycle := 0
  moveRequestCycle := -1
  closed := false

/-- `newQueuedPodInfoNoTimestamp(pod)`. -/
def newQueuedPodInfoNoTimestamp (pod : Pod) : QueuedPodInfo := { pod := pod }

/-- `updatePod(oldPodInfo, newPod)`. -/
def updatePod (oldPodInfo : QueuedPodInfo) (newPod : Pod) : QueuedPodInfo :=
  { oldPodInfo with pod := newPod }

/-- `isPodUpdated(oldPod, newPod)`: whether the pods differ outside the resource version, the
generation and the status.  `strip` deep-copies the pod and sets fields of the copy; the copy
of a nil pod is nil, so a nil old pod is dereferenced. -/
def isPodUpdated (oldPod : Option Pod) (newPod : Pod) : Except Go.Abort Bool :=
  let strip (pod : Pod) : Pod := { pod with resourceVersion := "", generation := 0, status := {} }
  match oldPod with
  | none => .error .nilPointerDereference
  | some oldPod => .ok (strip oldPod != strip newPod)

namespace PriorityQueue

variable (lessFn : QueuedPodInfo → QueuedPodInfo → Bool)

/-- `p.newQueuedPodInfo(pod)` at time `now`. -/
def newQueuedPodInfo (pod : Pod) (now : ℤ) : QueuedPodInfo :=
  { pod := pod, timestamp := now, initialAttemptTimestamp := now }

/-- The loop of `calculateBackoffDuration`: `k` more doublings, capped at `max`. -/
def backoffLoop (max : Int64) : ℕ → Int64 → Int64
  | 0, duration => duration
  | k + 1, duration =>
      let duration := duration * 2
      if duration > max then max else backoffLoop max k duration

/-- `p.calculateBackoffDuration(podInfo)`: the initial duration, doubled for every attempt
after the first, capped at the maximum. -/
def calculateBackoffDuration (q : PriorityQueue) (podInfo : QueuedPodInfo) : Int64 :=
  backoffLoop q.podMaxBackoffDuration (podInfo.attempts - 1) q.podInitialBackoffDuration

/-- `p.getBackoffTime(podInfo)`. -/
def getBackoffTime (q : PriorityQueue) (podInfo : QueuedPodInfo) : ℤ :=
  podInfo.timestamp + (q.calculateBackoffDuration podInfo).toInt

/-- `p.isPodBackingoff(podInfo)` at time `now`. -/
def isPodBackingoff (q : PriorityQueue) (podInfo : QueuedPodInfo) (now : ℤ) : Bool :=
  decide (q.getBackoffTime podInfo > now)

/-- `p.podsCompareBackoffCompleted`: the order of `podBackoffQ`. -/
def podsCompareBackoffCompleted (q : PriorityQueue) (podInfo1 podInfo2 : QueuedPodInfo) : Bool :=
  decide (q.getBackoffTime podInfo1 < q.getBackoffTime podInfo2)

/-- `p.Add(pod)`: into `activeQ`, and out of the two other sub-queues. -/
def Add (q : PriorityQueue) (pod : Pod) (now : ℤ) : PriorityQueue :=
  let pInfo := newQueuedPodInfo pod now
  let activeQ := q.activeQ.Add lessFn pInfo
  let unschedulableQ :=
    if (q.unschedulableQ.get pod).isSome then q.unschedulableQ.delete pod else q.unschedulableQ
  -- the error of deleting a pod that is not backing off is ignored
  let podBackoffQ := q.podBackoffQ.dropKey q.podsCompareBackoffCompleted pInfo
  { q with activeQ := activeQ, unschedulableQ := unschedulableQ, podBackoffQ := podBackoffQ }

/-- `p.AddUnschedulableIfNotPresent(pInfo, podSchedulingCycle)` at time `now`: unless a
sub-queue holds the pod, into `podBackoffQ` if a move request came in the pod's cycle or
later, into `unschedulableQ` otherwise. -/
def AddUnschedulableIfNotPresent (q : PriorityQueue) (pInfo : QueuedPodInfo)
    (podSchedulingCycle : ℤ) (now : ℤ) : PriorityQueue × Option String :=
  let pod := pInfo.pod
  if (q.unschedulableQ.get pod).isSome then
    (q, some ("pod: " ++ nsNameForPod pod ++ " is already present in unschedulable queue"))
  else
    -- the timestamp is refreshed before the heaps are asked
    let pInfo := { pInfo with timestamp := now }
    if (q.activeQ.Get pInfo).isSome then
      (q, some ("pod: " ++ nsNameForPod pod ++ " is already present in the active queue"))
    else if (q.podBackoffQ.Get pInfo).isSome then
      (q, some ("pod " ++ nsNameForPod pod ++ " is already present in the backoff queue"))
    else if q.moveRequestCycle ≥ podSchedulingCycle then
      ({ q with podBackoffQ := q.podBackoffQ.Add q.podsCompareBackoffCompleted pInfo }, none)
    else ({ q with unschedulableQ := q.unschedulableQ.addOrUpdate pInfo }, none)

/-- The loop of `flushBackoffQCompleted`: while the head of `podBackoffQ` has completed its
backoff, pop it and add the head to `activeQ`.  Each iteration pops one pod, so as many
iterations as `podBackoffQ` holds suffice. -/
def flushBackoffQCompletedLoop (now : ℤ) : ℕ → PriorityQueue → PriorityQueue
  | 0, q => q
  | fuel + 1, q =>
      match q.podBackoffQ.Peek with
      | none => q
      | some rawPodInfo =>
          if q.getBackoffTime rawPodInfo > now then q
          else
            match q.podBackoffQ.Pop q.podsCompareBackoffCompleted with
            -- "Unable to pop pod from backoff queue despite backoff completion"
            | none => q
            | some (_, podBackoffQ) =>
                flushBackoffQCompletedLoop now fuel
                  { q with podBackoffQ := podBackoffQ, activeQ := q.activeQ.Add lessFn rawPodInfo }

/-- `p.flushBackoffQCompleted()` at time `now`. -/
def flushBackoffQCompleted (q : PriorityQueue) (now : ℤ) : PriorityQueue :=
  flushBackoffQCompletedLoop lessFn now q.podBackoffQ.Len q

/-- One iteration of `movePodsToActiveOrBackoffQueue`: a pod still backing off goes to
`podBackoffQ`, another to `activeQ`, and out of `unschedulableQ`. -/
def movePodToActiveOrBackoffQueue (now : ℤ) (q : PriorityQueue) (pInfo : QueuedPodInfo) :
    PriorityQueue :=
  if q.isPodBackingoff pInfo now then
    { q with
      podBackoffQ := q.podBackoffQ.Add q.podsCompareBackoffCompleted pInfo
      unschedulableQ := q.unschedulableQ.delete pInfo.pod }
  else
    { q with
      activeQ := q.activeQ.Add lessFn pInfo
      unschedulableQ := q.unschedulableQ.delete pInfo.pod }

/-- `p.movePodsToActiveOrBackoffQueue(podInfoList, event)` at time `now`; it records the move
request's cycle. -/
def movePodsToActiveOrBackoffQueue (q : PriorityQueue) (podInfoList : List QueuedPodInfo)
    (now : ℤ) : PriorityQueue :=
  let q := podInfoList.foldl (movePodToActiveOrBackoffQueue lessFn now) q
  { q with moveRequestCycle := q.schedulingCycle }

/-- `p.flushUnschedulableQLeftover()` at time `now`: the pods unschedulable for longer than
`unschedulableQTimeInterval` are moved, if there are any. -/
def flushUnschedulableQLeftover (q : PriorityQueue) (now : ℤ) : PriorityQueue :=
  let podsToMove := q.unschedulableQ.values.filter fun pInfo =>
    now - pInfo.timestamp > unschedulableQTimeInterval
  if podsToMove.length > 0 then q.movePodsToActiveOrBackoffQueue lessFn podsToMove now else q

/-- `p.Pop()`: the head of `activeQ`, with one more attempt, and the next scheduling cycle.
An empty queue blocks (`none`) until a pod is added, or fails once it is closed. -/
def Pop (q : PriorityQueue) : Option (Except String QueuedPodInfo × PriorityQueue) :=
  if q.activeQ.Len = 0 then
    if q.closed then some (.error queueClosed, q) else none
  else
    match q.activeQ.Pop lessFn with
    | some (pInfo, activeQ) =>
        some (.ok { pInfo with attempts := pInfo.attempts + 1 },
          { q with activeQ := activeQ, schedulingCycle := q.schedulingCycle + 1 })
    | none => some (.error "object was removed from heap data", q)

/-- The part of `p.Update(oldPod, newPod)` after the two heaps: a pod in `unschedulableQ`
goes to `activeQ` if it changed, else is replaced in place; any other pod is added to
`activeQ`. -/
def updateUnschedulableOrAdd (q : PriorityQueue) (oldPod : Option Pod) (newPod : Pod)
    (now : ℤ) : Except Go.Abort PriorityQueue :=
  match q.unschedulableQ.get newPod with
  | some usPodInfo => do
      if ← isPodUpdated oldPod newPod then
        pure { q with
          unschedulableQ := q.unschedulableQ.delete usPodInfo.pod
          activeQ := q.activeQ.Add lessFn (updatePod usPodInfo newPod) }
      else
        pure { q with unschedulableQ := q.unschedulableQ.addOrUpdate (updatePod usPodInfo newPod) }
  | none => pure { q with activeQ := q.activeQ.Add lessFn (newQueuedPodInfo newPod now) }

/-- `p.Update(oldPod, newPod)` at time `now`: a pod found in `activeQ` by its old version is
updated there, one found in `podBackoffQ` is moved to `activeQ`; the rest is
`updateUnschedulableOrAdd`. -/
def Update (q : PriorityQueue) (oldPod : Option Pod) (newPod : Pod) (now : ℤ) :
    Except Go.Abort PriorityQueue :=
  match oldPod with
  | some old =>
      let oldPodInfo := newQueuedPodInfoNoTimestamp old
      match q.activeQ.Get oldPodInfo with
      | some oldPodInfo => pure { q with activeQ := q.activeQ.Update lessFn (updatePod oldPodInfo newPod) }
      | none =>
          match q.podBackoffQ.Get oldPodInfo with
          | some oldPodInfo =>
              pure { q with
                podBackoffQ := q.podBackoffQ.dropKey q.podsCompareBackoffCompleted oldPodInfo
                activeQ := q.activeQ.Add lessFn (updatePod oldPodInfo newPod) }
          | none => q.updateUnschedulableOrAdd lessFn oldPod newPod now
  | none => q.updateUnschedulableOrAdd lessFn oldPod newPod now

/-- `p.Delete(pod)`: from `activeQ`, or else from both other sub-queues. -/
def Delete (q : PriorityQueue) (pod : Pod) : PriorityQueue :=
  match q.activeQ.Delete lessFn (newQueuedPodInfoNoTimestamp pod) with
  | .ok activeQ => { q with activeQ := activeQ }
  | .error _ =>
      { q with
        podBackoffQ := q.podBackoffQ.dropKey q.podsCompareBackoffCompleted
          (newQueuedPodInfoNoTimestamp pod)
        unschedulableQ := q.unschedulableQ.delete pod }

/-- `p.getUnschedulablePodsWithMatchingAffinityTerm(pod)`: the unschedulable pods with a
required affinity term that `pod` matches. -/
def getUnschedulablePodsWithMatchingAffinityTerm (q : PriorityQueue) (pod : Pod) :
    List QueuedPodInfo :=
  q.unschedulableQ.values.filter fun pInfo =>
    (GetPodAffinityTerms pInfo.pod.affinity).any fun term =>
      PodMatchesTermsNamespaceAndSelector pod (GetNamespacesFromPodAffinityTerm pInfo.pod term)
        (LabelSelectorAsSelector term.labelSelector)

/-- `p.AssignedPodAdded(pod)` at time `now`. -/
def AssignedPodAdded (q : PriorityQueue) (pod : Pod) (now : ℤ) : PriorityQueue :=
  q.movePodsToActiveOrBackoffQueue lessFn (q.getUnschedulablePodsWithMatchingAffinityTerm pod) now

/-- `p.AssignedPodUpdated(pod)` at time `now`. -/
def AssignedPodUpdated (q : PriorityQueue) (pod : Pod) (now : ℤ) : PriorityQueue :=
  q.movePodsToActiveOrBackoffQueue lessFn (q.getUnschedulablePodsWithMatchingAffinityTerm pod) now

/-- `p.MoveAllToActiveOrBackoffQueue(event)` at time `now`. -/
def MoveAllToActiveOrBackoffQueue (q : PriorityQueue) (now : ℤ) : PriorityQueue :=
  q.movePodsToActiveOrBackoffQueue lessFn q.unschedulableQ.values now

/-- `p.PendingPods()`: the pods of `activeQ`; the loops over `podBackoffQ` and
`unschedulableQ` are commented out in this version. -/
def PendingPods (q : PriorityQueue) : List Pod := q.activeQ.queue.map (·.pod)

/-- `p.Close()`; closing the `stop` channel a second time panics. -/
def Close (q : PriorityQueue) : Except Go.Abort PriorityQueue :=
  if q.closed then .error .closeOfClosedChannel else .ok { q with closed := true }

/-- `p.NumUnschedulablePods()`. -/
def NumUnschedulablePods (q : PriorityQueue) : ℕ := q.unschedulableQ.podInfoMap.entries.length

end PriorityQueue

/-! ### Calls -/

/-- The calls on the queue, with the time of those that read the clock. -/
inductive QueueOp where
  | Add (pod : Pod) (now : ℤ)
  | AddUnschedulableIfNotPresent (pInfo : QueuedPodInfo) (podSchedulingCycle : ℤ) (now : ℤ)
  | Pop
  | Update (oldPod : Option Pod) (newPod : Pod) (now : ℤ)
  | Delete (pod : Pod)
  | MoveAllToActiveOrBackoffQueue (now : ℤ)
  | AssignedPodAdded (pod : Pod) (now : ℤ)
  | AssignedPodUpdated (pod : Pod) (now : ℤ)
  | flushBackoffQCompleted (now : ℤ)
  | flushUnschedulableQLeftover (now : ℤ)
  | Close

namespace PriorityQueue

variable (lessFn : QueuedPodInfo → QueuedPodInfo → Bool)

/-- A call: it blocks (`none`), aborts, or leaves a queue. -/
def apply (q : PriorityQueue) : QueueOp → Option (Except Go.Abort PriorityQueue)
  | .Add pod now => some (.ok (q.Add lessFn pod now))
  | .AddUnschedulableIfNotPresent pInfo podSchedulingCycle now =>
      some (.ok (q.AddUnschedulableIfNotPresent pInfo podSchedulingCycle now).1)
  | .Pop => (q.Pop lessFn).map fun r => .ok r.2
  | .Update oldPod newPod now => some (q.Update lessFn oldPod newPod now)
  | .Delete pod => some (.ok (q.Delete lessFn pod))
  | .MoveAllToActiveOrBackoffQueue now => some (.ok (q.MoveAllToActiveOrBackoffQueue lessFn now))
  | .AssignedPodAdded pod now => some (.ok (q.AssignedPodAdded lessFn pod now))
  | .AssignedPodUpdated pod now => some (.ok (q.AssignedPodUpdated lessFn pod now))
  | .flushBackoffQCompleted now => some (.ok (q.flushBackoffQCompleted lessFn now))
  | .flushUnschedulableQLeftover now => some (.ok (q.flushUnschedulableQLeftover lessFn now))
  | .Close => some q.Close

/-- A call that returns. -/
def Step (q : PriorityQueue) (op : QueueOp) (q' : PriorityQueue) : Prop :=
  q.apply lessFn op = some (.ok q')

/-- The queue after calls that all return, or `none` if one blocks or aborts. -/
def run (q : PriorityQueue) : List QueueOp → Option PriorityQueue
  | [] => some q
  | op :: ops =>
      match q.apply lessFn op with
      | some (.ok q') => run q' ops
      | _ => none

end PriorityQueue

end Queue

end Caspr
