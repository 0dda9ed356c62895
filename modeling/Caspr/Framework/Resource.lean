import Mathlib.Data.List.AList
import Mathlib.Algebra.Order.Group.Int

/-! # Quantities, resource lists and the request of a pod (packages `framework`, `util`)

A pod's request is computed twice in the scheduler, and the two computations are meant to agree:

* `calculateResource` (framework/types.go) folds every resource of the pod into one `Resource`
  record and computes the two *non-zero* requests (CPU and memory, with defaults for containers
  that request nothing), which `NodeInfo.addPod` adds to `NodeInfo.NonZeroRequested`;
* `calculatePodResourceRequest` (noderesources/resource_allocation.go) computes the non-zero
  request of one resource at a time, which the scoring plugins add to `NonZeroRequested` to
  predict the node's request after placing the pod.

Both are `max(Σ containers, maxᵢ initContainerᵢ) + overhead`, with `resource.Quantity` rounded
into `int64` by `Value` (whole units) or `MilliValue` (thousandths).

*Quantities.*  `ParseQuantity` rounds every amount up to nano precision, and API validation
keeps requests and overheads non-negative, so a `Quantity` is a number of nano-units and
`ScaledValue(s) = ⌈q / 10^s⌉` is a ceiling division.  `int64` arithmetic is modelled by `ℤ`:
every statement below is an equation between sums, which reduction modulo `2^64` preserves.

*Configuration.*  Two feature gates and the classification of extended resource names
(`IsScalarResourceName`, a regular-expression check in `pkg/apis/core/v1/helper`) are read
through `Config`; nothing proved depends on the classification. -/

namespace Caspr

/-- `resource.Quantity`, as a non-negative number of nano-units. -/
structure Quantity where
  nanos : ℕ
deriving DecidableEq, Repr

namespace Quantity

/-- `q.Value()`: `⌈q⌉`. -/
def value (q : Quantity) : ℤ := ((q.nanos + 999999999) / 1000000000 : ℕ)

/-- `q.MilliValue()`: `⌈q * 1000⌉`. -/
def milliValue (q : Quantity) : ℤ := ((q.nanos + 999999) / 1000000 : ℕ)

/-- The quantity written `<m>m`. -/
def milli (m : ℕ) : Quantity := ⟨m * 1000000⟩

/-- The quantity written `<n>`. -/
def units (n : ℕ) : Quantity := ⟨n * 1000000000⟩

/-- The zero quantity, what `requests.Cpu()` returns for a missing entry. -/
def zero : Quantity := ⟨0⟩

end Quantity

/-- `v1.ResourceList`: a Go map from resource name to quantity. -/
abbrev ResourceList := AList (fun _ : String => Quantity)

/-- `v1.ResourceCPU`. -/
def ResourceCPU : String := "cpu"
/-- `v1.ResourceMemory`. -/
def ResourceMemory : String := "memory"
/-- `v1.ResourcePods`. -/
def ResourcePods : String := "pods"
/-- `v1.ResourceEphemeralStorage`. -/
def ResourceEphemeralStorage : String := "ephemeral-storage"

/-- `util.DefaultMilliCPURequest`: 0.1 core. -/
def DefaultMilliCPURequest : ℤ := 100
/-- `util.DefaultMemoryRequest`: 200 MB. -/
def DefaultMemoryRequest : ℤ := 200 * 1024 * 1024

/-- What the modelled functions read of the scheduler's configuration. -/
structure Config where
  /-- Feature gate `LocalStorageCapacityIsolation`. -/
  localStorageCapacityIsolation : Bool
  /-- Feature gate `PodOverhead`. -/
  podOverhead : Bool
  /-- `schedutil.IsScalarResourceName`. -/
  isScalarResourceName : String → Bool

/-- `framework.Resource`.  The lazily allocated `ScalarResources` map is a function that is `0`
off its keys, which is how every reader of it (`r.ScalarResources[name]`) sees it. -/
structure Resource where
  milliCPU : ℤ := 0
  memory : ℤ := 0
  ephemeralStorage : ℤ := 0
  allowedPodNumber : ℤ := 0
  scalarResources : String → ℤ := fun _ => 0

namespace Resource

variable (cfg : Config)

/-- `r.SetScalar(name, quantity)`. -/
def setScalar (r : Resource) (name : String) (quantity : ℤ) : Resource :=
  { r with scalarResources := Function.update r.scalarResources name quantity }

/-- `r.AddScalar(name, quantity)`. -/
def addScalar (r : Resource) (name : String) (quantity : ℤ) : Resource :=
  r.setScalar name (r.scalarResources name + quantity)

/-- One iteration of `r.Add(rl)`: the entry `rName ↦ rQuant`. -/
def addEntry (r : Resource) (rName : String) (rQuant : Quantity) : Resource :=
  if rName = ResourceCPU then { r with milliCPU := r.milliCPU + rQuant.milliValue }
  else if rName = ResourceMemory then { r with memory := r.memory + rQuant.value }
  else if rName = ResourcePods then
    { r with allowedPodNumber := r.allowedPodNumber + rQuant.value }
  else if rName = ResourceEphemeralStorage then
    if cfg.localStorageCapacityIsolation then
      { r with ephemeralStorage := r.ephemeralStorage + rQuant.value }
    else r
  else if cfg.isScalarResourceName rName then r.addScalar rName rQuant.value
  else r

/-- `r.Add(rl)`.  Every entry updates its own field by an addition, so the order in which the Go
map is ranged over does not matter; the model ranges over the entries as listed. -/
def add (r : Resource) (rl : ResourceList) : Resource :=
  rl.entries.foldl (fun r e => addEntry cfg r e.1 e.2) r

/-- One iteration of `r.SetMaxResource(rl)`. -/
def setMaxEntry (r : Resource) (rName : String) (rQuant : Quantity) : Resource :=
  if rName = ResourceMemory then
    if rQuant.value > r.memory then { r with memory := rQuant.value } else r
  else if rName = ResourceCPU then
    if rQuant.milliValue > r.milliCPU then { r with milliCPU := rQuant.milliValue } else r
  else if rName = ResourceEphemeralStorage then
    if cfg.localStorageCapacityIsolation ∧ rQuant.value > r.ephemeralStorage then
      { r with ephemeralStorage := rQuant.value }
    else r
  else if cfg.isScalarResourceName rName ∧ rQuant.value > r.scalarResources rName then
    r.setScalar rName rQuant.value
  else r

/-- `r.SetMaxResource(rl)`: the maximum of each resource with the list's. -/
def setMaxResource (r : Resource) (rl : ResourceList) : Resource :=
  rl.entries.foldl (fun r e => setMaxEntry cfg r e.1 e.2) r

end Resource

/-- `schedutil.GetNonzeroRequestForResource`: the request of one resource, with the defaults of
`DefaultMilliCPURequest` and `DefaultMemoryRequest` when CPU or memory is not requested at all
(but not when it is requested as zero). -/
def GetNonzeroRequestForResource (cfg : Config) (resource : String) (requests : ResourceList) : ℤ :=
  if resource = ResourceCPU then
    match requests.lookup ResourceCPU with
    | none => DefaultMilliCPURequest
    | some q => q.milliValue
  else if resource = ResourceMemory then
    match requests.lookup ResourceMemory with
    | none => DefaultMemoryRequest
    | some q => q.value
  else if resource = ResourceEphemeralStorage then
    if cfg.localStorageCapacityIsolation then
      match requests.lookup ResourceEphemeralStorage with
      | none => 0
      | some q => q.value
    else 0
  else if cfg.isScalarResourceName resource then
    match requests.lookup resource with
    | none => 0
    | some q => q.value
  else 0

/-- `schedutil.GetNonzeroRequests`: the non-zero CPU and memory requests. -/
def GetNonzeroRequests (cfg : Config) (requests : ResourceList) : ℤ × ℤ :=
  (GetNonzeroRequestForResource cfg ResourceCPU requests,
    GetNonzeroRequestForResource cfg ResourceMemory requests)

end Caspr
