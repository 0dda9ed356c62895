import Caspr.Core.GenericScheduler
import Caspr.Cache.Cache

/-! # The scheduling cycle (scheduler.go)

`Scheduler.scheduleOne` takes the next pod, asks `Schedule` for a host, and then, before
anything can fail, records the pod in `AppMap["Spark"]` under that host; a pod whose name
contains `driver` first replaces `AppMap["Spark"]` by an empty map.  Then it assumes the pod in
the cache, runs the Reserve and Permit plugins, and starts a goroutine that waits for the
permit, runs the PreBind plugins and binds.  Every failure after the host is chosen forgets
the assumed pod; none of them touches `AppMap`.

`Run` creates `AppMap` empty, without its inner map, so the first pod whose cycle gets a host
must be a driver: any other assigns into the nil map `AppMap["Spark"]`.

*Modelling.*
* The scheduler is the application map, the cache and the binding goroutines started and not
  finished.  A goroutine runs when the event `bindingCycle` says, so its effects on the cache
  interleave with later cycles and with the cache's informer events (`SchedulerEvent.cache`).
* What a cycle reads besides the scheduler is its input (`CycleInput`): the pod `NextPod`
  returns, whether the cycle skips it, the feasible nodes with their scores, the random stream,
  and the outcomes of the Reserve and Permit plugins; the goroutine's outcome is that of its
  event.
* `recordSchedulingFailure` hands the pod back to the queue (`Queue.PriorityQueue`) and writes
  its status through the API server; neither reaches the scheduler's state here, and it is left
  out.  So are the metrics, the events and the logs. -/

namespace Caspr

open GenericScheduler Cache

/-- A binding goroutine started by `scheduleOne`: the assumed pod and its host. -/
structure BindingCycle where
  assumedPod : Pod
  host : String

/-- `Scheduler`: the fields that `scheduleOne` and its goroutine change. -/
structure Scheduler where
  SchedulerCache : SchedulerCache
  AppMap : AppNodePods
  bindingCycles : List BindingCycle := []

/-- What one scheduling cycle reads besides the scheduler.  `pod` is what `NextPod` returns,
`none` once the queue is closed; `skip` is a pod without a framework for its scheduler name or
one `skipPodSchedule` skips; `permit` is whether the Permit plugins return Success or Wait. -/
structure CycleInput where
  pod : Option Pod
  skip : Bool := false
  feasibleNodes : List NodeScore
  draws : ℕ → ℕ := fun _ => 0
  reserve : Bool := true
  permit : Bool := true

/-- How a binding goroutine ends: rejected while waiting on permit, failed PreBind, failed
Bind, or bound. -/
inductive BindingOutcome where
  | waitOnPermitRejected
  | preBindFailed
  | bindFailed
  | bound
deriving DecidableEq, Repr

namespace Scheduler

variable (cfg : Config) (hello : String)

/-- `Run`: `AppMap` is created empty; the cache is the one the scheduler was built with. -/
def Run (cache : Cache.SchedulerCache) : Scheduler := { SchedulerCache := cache, AppMap := ∅ }

/-- `sched.AppMap["Spark"][host] = append(sched.AppMap["Spark"][host], podName)`, after
`sched.AppMap["Spark"] = make(…)` for a driver pod.  Assigning into the nil inner map panics. -/
def recordHost (AppMap : AppNodePods) (podName host : String) : Except Go.Abort AppNodePods :=
  let AppMap := if Go.Contains podName "driver" then AppMap.insert "Spark" ∅ else AppMap
  match AppMap.lookup "Spark" with
  | none => .error .assignmentToEntryInNilMap
  | some nodes => .ok (AppMap.insert "Spark" (nodes.insert host ((nodes.lookup host).getD [] ++ [podName])))

/-- `sched.SchedulerCache.ForgetPod(assumedPod)`, whose error is only logged. -/
def forget (sched : Scheduler) (assumedPod : Pod) : Except Go.Abort Scheduler :=
  match sched.SchedulerCache.ForgetPod cfg assumedPod with
  | .error a => .error a
  | .ok (cache, _) => .ok { sched with SchedulerCache := cache }

/-- The part of `scheduleOne` after `Schedule` returned `host`: record it in `AppMap`, assume the
pod on it, run Reserve and Permit, and start the binding goroutine. -/
def assumeAndReserve (sched : Scheduler) (c : CycleInput) (pod : Pod) (host : String) :
    Except Go.Abort Scheduler :=
  match recordHost sched.AppMap pod.name host with
  | .error a => .error a
  | .ok AppMap =>
      let sched := { sched with AppMap := AppMap }
      -- `assume` sets the node name of the copy before it is assumed
      let assumedPod := { pod with nodeName := host }
      match sched.SchedulerCache.AssumePod cfg assumedPod with
      | .error a => .error a
      | .ok (cache, err) =>
          let sched := { sched with SchedulerCache := cache }
          if err.isSome then .ok sched
          else if !c.reserve then forget cfg sched assumedPod
          else if !c.permit then forget cfg sched assumedPod
          else .ok { sched with bindingCycles := sched.bindingCycles ++ [⟨assumedPod, host⟩] }

/-- The part of `scheduleOne` up to `Schedule`: the pod and the host chosen for it, or `none`
when the cycle ends before (no pod, a skipped pod, a scheduling failure). -/
def scheduleHost (sched : Scheduler) (c : CycleInput) : Except Go.Abort (Option (Pod × String)) :=
  match c.pod with
  | none => .ok none
  | some pod =>
      if c.skip then .ok none
      else
        -- `state.SetRecordPluginMetrics(rand.Intn(100) < pluginMetricsSamplePercent)`
        let draws := (Go.Intn 100 c.draws).2
        match Schedule hello pod sched.AppMap c.feasibleNodes draws with
        | .error a => .error a
        | .ok (.error _, _) => .ok none
        | .ok (.ok host, _) => .ok (some (pod, host))

/-- `sched.scheduleOne(ctx)` on the cycle's input, with the adjacency file `hello`. -/
def scheduleOne (sched : Scheduler) (c : CycleInput) : Except Go.Abort Scheduler :=
  match scheduleHost hello sched c with
  | .error a => .error a
  | .ok none => .ok sched
  | .ok (some (pod, host)) => assumeAndReserve cfg sched c pod host

/-- The binding goroutine of `b`, ending as `outcome` at time `now`.  `bind` finishes the
binding in the cache whether or not it binds; every failure then forgets the pod. -/
def bindingCycle (sched : Scheduler) (b : BindingCycle) (outcome : BindingOutcome) (now : ℤ) :
    Except Go.Abort Scheduler :=
  match outcome with
  | .waitOnPermitRejected | .preBindFailed => forget cfg sched b.assumedPod
  | .bindFailed =>
      match sched.SchedulerCache.finishBinding b.assumedPod now with
      | .error a => .error a
      | .ok (cache, _) => forget cfg { sched with SchedulerCache := cache } b.assumedPod
  | .bound =>
      match sched.SchedulerCache.finishBinding b.assumedPod now with
      | .error a => .error a
      | .ok (cache, _) => .ok { sched with SchedulerCache := cache }

end Scheduler

/-- What happens to the scheduler: a scheduling cycle, the end of the `i`-th running binding
goroutine, or a call on the cache by the informers or its cleanup loop. -/
inductive SchedulerEvent where
  | scheduleOne (c : CycleInput)
  | bindingCycle (i : ℕ) (outcome : BindingOutcome) (now : ℤ)
  | cache (op : CacheOp)

namespace Scheduler

variable (cfg : Config) (hello : String)

/-- An event: `none` for a goroutine that is not running, else the scheduler it leaves or the
panic it ends in. -/
def apply (sched : Scheduler) : SchedulerEvent → Option (Except Go.Abort Scheduler)
  | .scheduleOne c => some (sched.scheduleOne cfg hello c)
  | .bindingCycle i outcome now =>
      sched.bindingCycles[i]?.map fun b =>
        bindingCycle cfg { sched with bindingCycles := sched.bindingCycles.eraseIdx i } b outcome now
  | .cache op =>
      some (match sched.SchedulerCache.apply cfg op with
        | .error a => .error a
        | .ok (cache, _) => .ok { sched with SchedulerCache := cache })

/-- An event that does not panic. -/
def Step (sched : Scheduler) (ev : SchedulerEvent) (sched' : Scheduler) : Prop :=
  sched.apply cfg hello ev = some (.ok sched')

/-- A run of events: the scheduler it leaves, the panic it ends in, or `none` if an event names
a goroutine that is not running. -/
def run (sched : Scheduler) : List SchedulerEvent → Option (Except Go.Abort Scheduler)
  | [] => some (.ok sched)
  | ev :: evs =>
      match sched.apply cfg hello ev with
      | some (.ok sched') => run sched' evs
      | r => r

end Scheduler

end Caspr
