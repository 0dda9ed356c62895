import Caspr.Framework.Types

/-! # The request a scoring plugin predicts (noderesources/resource_allocation.go)

The resource-allocation scorers (`LeastAllocated`, `MostAllocated`, `BalancedAllocation`) score
a node by the request it would have after the pod is placed on it, which
`calculateResourceAllocatableRequest` computes as the node's `NonZeroRequested` plus
`calculatePodResourceRequest(pod, r)`.  After the pod is placed, the cache's `NodeInfo.addPod`
adds the non-zero terms of `calculateResource` instead.

The two computations share their loops: `calculatePodResourceRequest_eq_of_loops` shows that
before the overhead they agree on CPU and memory for every pod.  They part at the overhead:
`calculateResource` adds the CPU overhead in millicores (`MilliValue`), while
`calculatePodResourceRequest` adds `quantity.Value()` for every resource, which for CPU is a
number of whole cores rounded up.  So the prediction is exact for memory
(`calculatePodResourceRequest_memory`) and for CPU exactly when the pod has no CPU overhead
(`calculatePodResourceRequest_cpu`), and otherwise off by `MilliValue - Value` of the overhead
(`calculatePodResourceRequest_cpu_overhead`). -/

namespace Caspr

namespace NodeResources

variable (cfg : Config)

/-- `calculatePodResourceRequest(pod, resource)`: the pod's non-zero request of one resource,
`max(Σ containers, initContainers) + overhead`, the overhead in `Value()`. -/
def calculatePodResourceRequest (pod : Pod) (resource : String) : ℤ :=
  let afterContainers := pod.containers.foldl
    (fun podRequest c => podRequest + GetNonzeroRequestForResource cfg resource c.requests) 0
  let afterInit := pod.initContainers.foldl
    (fun podRequest ic =>
      let value := GetNonzeroRequestForResource cfg resource ic.requests
      if podRequest < value then value else podRequest)
    afterContainers
  match pod.overhead with
  | some overhead =>
      if cfg.podOverhead then
        match overhead.lookup resource with
        | some quantity => afterInit + quantity.value
        | none => afterInit
      else afterInit
  | none => afterInit

/-- `calculateResourceAllocatableRequest(nodeInfo, pod, resource)`: the node's allocatable
amount of the resource and its predicted request once the pod is placed. -/
def calculateResourceAllocatableRequest (nodeInfo : NodeInfo) (pod : Pod) (resource : String) :
    ℤ × ℤ :=
  let podRequest := calculatePodResourceRequest cfg pod resource
  if resource = ResourceCPU then
    (nodeInfo.allocatable.milliCPU, nodeInfo.nonZeroRequested.milliCPU + podRequest)
  else if resource = ResourceMemory then
    (nodeInfo.allocatable.memory, nodeInfo.nonZeroRequested.memory + podRequest)
  else if resource = ResourceEphemeralStorage then
    (nodeInfo.allocatable.ephemeralStorage, nodeInfo.requested.ephemeralStorage + podRequest)
  else if cfg.isScalarResourceName resource then
    (nodeInfo.allocatable.scalarResources resource,
      nodeInfo.requested.scalarResources resource + podRequest)
  else (0, 0)

/-! ### The two loops agree -/

section loops

variable (pod : Pod)

/-- The non-zero request of one resource before the overhead, as `calculatePodResourceRequest`
computes it. -/
def requestOfLoops (resource : String) : ℤ :=
  pod.initContainers.foldl
    (fun podRequest ic =>
      let value := GetNonzeroRequestForResource cfg resource ic.requests
      if podRequest < value then value else podRequest)
    (pod.containers.foldl
      (fun podRequest c => podRequest + GetNonzeroRequestForResource cfg resource c.requests) 0)

theorem calculatePodResourceRequest_eq (resource : String) :
    calculatePodResourceRequest cfg pod resource =
      match pod.overhead with
      | some overhead =>
          if cfg.podOverhead then
            match overhead.lookup resource with
            | some quantity => requestOfLoops cfg pod resource + quantity.value
            | none => requestOfLoops cfg pod resource
          else requestOfLoops cfg pod resource
      | none => requestOfLoops cfg pod resource := rfl

theorem foldl_addContainer_cpu (cs : List Container) (acc : Resource × ℤ × ℤ) :
    (cs.foldl (addContainer cfg) acc).2.1 =
      cs.foldl (fun r c => r + GetNonzeroRequestForResource cfg ResourceCPU c.requests) acc.2.1 := by
  induction cs generalizing acc with
  | nil => rfl
  | cons c cs ih => simp only [List.foldl_cons, ih]; rfl

theorem foldl_addContainer_memory (cs : List Container) (acc : Resource × ℤ × ℤ) :
    (cs.foldl (addContainer cfg) acc).2.2 =
      cs.foldl (fun r c => r + GetNonzeroRequestForResource cfg ResourceMemory c.requests)
        acc.2.2 := by
  induction cs generalizing acc with
  | nil => rfl
  | cons c cs ih => simp only [List.foldl_cons, ih]; rfl

theorem foldl_maxInitContainer_cpu (cs : List Container) (acc : Resource × ℤ × ℤ) :
    (cs.foldl (maxInitContainer cfg) acc).2.1 =
      cs.foldl (fun r ic =>
        let value := GetNonzeroRequestForResource cfg ResourceCPU ic.requests
        if r < value then value else r) acc.2.1 := by
  induction cs generalizing acc with
  | nil => rfl
  | cons c cs ih => simp only [List.foldl_cons, ih]; rfl

theorem foldl_maxInitContainer_memory (cs : List Container) (acc : Resource × ℤ × ℤ) :
    (cs.foldl (maxInitContainer cfg) acc).2.2 =
      cs.foldl (fun r ic =>
        let value := GetNonzeroRequestForResource cfg ResourceMemory ic.requests
        if r < value then value else r) acc.2.2 := by
  induction cs generalizing acc with
  | nil => rfl
  | cons c cs ih => simp only [List.foldl_cons, ih]; rfl

/-- Before the overhead, the non-zero CPU and memory terms of `calculateResource` are the ones
`calculatePodResourceRequest` computes. -/
theorem calculatePodResourceRequest_eq_of_loops :
    (pod.initContainers.foldl (maxInitContainer cfg)
        (pod.containers.foldl (addContainer cfg) ({}, 0, 0))).2.1 =
      requestOfLoops cfg pod ResourceCPU ∧
    (pod.initContainers.foldl (maxInitContainer cfg)
        (pod.containers.foldl (addContainer cfg) ({}, 0, 0))).2.2 =
      requestOfLoops cfg pod ResourceMemory := by
  constructor
  · rw [foldl_maxInitContainer_cpu, foldl_addContainer_cpu]; rfl
  · rw [foldl_maxInitContainer_memory, foldl_addContainer_memory]; rfl

end loops

/-! ### Where the overhead parts them -/

section overhead

variable (pod : Pod)

/-- The memory request predicted for a pod is the one the cache records, for every pod. -/
theorem calculatePodResourceRequest_memory :
    calculatePodResourceRequest cfg pod ResourceMemory = (calculateResource cfg pod).2.2 := by
  have hloops := (calculatePodResourceRequest_eq_of_loops cfg pod).2
  rw [calculatePodResourceRequest_eq, calculateResource]
  cases hoh : pod.overhead with
  | none => exact hloops.symm
  | some overhead =>
      by_cases hgate : cfg.podOverhead = true
      · simp only [addOverhead, hgate, if_true, hloops]
        cases overhead.lookup ResourceMemory <;> simp
      · simp only [addOverhead, hgate]
        exact hloops.symm

/-- The CPU request predicted for a pod, plus the `MilliValue` of its CPU overhead, is the one
the cache records plus the `Value` of that overhead. -/
theorem calculatePodResourceRequest_cpu_overhead :
    calculatePodResourceRequest cfg pod ResourceCPU +
        (match pod.overhead with
          | some overhead =>
              if cfg.podOverhead then
                match overhead.lookup ResourceCPU with
                | some q => q.milliValue
                | none => 0
              else 0
          | none => 0) =
      (calculateResource cfg pod).2.1 +
        (match pod.overhead with
          | some overhead =>
              if cfg.podOverhead then
                match overhead.lookup ResourceCPU with
                | some q => q.value
                | none => 0
              else 0
          | none => 0) := by
  have hloops := (calculatePodResourceRequest_eq_of_loops cfg pod).1
  rw [calculatePodResourceRequest_eq, calculateResource]
  cases hoh : pod.overhead with
  | none => simp [addOverhead, hloops]
  | some overhead =>
      by_cases hgate : cfg.podOverhead = true
      · simp only [addOverhead, hgate, if_true, hloops]
        cases overhead.lookup ResourceCPU <;> simp only <;> omega
      · simp [addOverhead, hgate, hloops]

/-- Without a CPU overhead, the CPU request predicted for a pod is the one the cache records. -/
theorem calculatePodResourceRequest_cpu
    (h : ∀ overhead, pod.overhead = some overhead → cfg.podOverhead = true →
      overhead.lookup ResourceCPU = none) :
    calculatePodResourceRequest cfg pod ResourceCPU = (calculateResource cfg pod).2.1 := by
  have hsplit := calculatePodResourceRequest_cpu_overhead cfg pod
  cases hoh : pod.overhead with
  | none => simpa [hoh] using hsplit
  | some overhead =>
      by_cases hgate : cfg.podOverhead = true
      · simpa [hoh, hgate, h overhead hoh hgate] using hsplit
      · simpa [hoh, hgate] using hsplit

/-- A pod requesting `100m` of CPU with a CPU overhead of `250m`, under the default feature
gates: the scorers predict that an empty node's non-zero CPU request becomes `100 + ⌈0.25⌉ =
101` millicores, while `NodeInfo.addPod` records `100 + 250 = 350`. -/
theorem calculatePodResourceRequest_overhead_mismatch :
    let cfg : Config := ⟨true, true, fun _ => false⟩
    let pod : Pod :=
      { containers := [{ requests := AList.singleton ResourceCPU (Quantity.milli 100) }]
        overhead := some (AList.singleton ResourceCPU (Quantity.milli 250)) }
    (calculateResourceAllocatableRequest cfg {} pod ResourceCPU).2 = 101 ∧
      (({} : NodeInfo).addPod cfg pod 1).nonZeroRequested.milliCPU = 350 := by
  decide

end overhead

end NodeResources

end Caspr
