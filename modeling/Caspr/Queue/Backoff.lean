import Mathlib.Tactic.Linarith
import Caspr.Queue.PriorityQueue

/-! # The backoff of a pod (scheduling_queue.go, factory.go, validation.go)

The configuration gives the backoff in seconds, as `int64`.  Validation asks only that the
initial one be positive and at most the maximum (`validateBackoffSeconds`), and
`Configurator.create` turns each into a `time.Duration` by `time.Duration(s) * time.Second`
(`backoffOptions`), an `int64` product that wraps.

`calculateBackoffDuration` doubles the initial duration once per attempt after the first and
returns the maximum as soon as the double exceeds it.  While the maximum is under `2^62`
nanoseconds nothing wraps: the duration is `min(initial · 2^(attempts-1), max)`
(`calculateBackoffDuration_of_valid`), so the backoff ends between `initial` and `max` after
the pod's timestamp (`getBackoffTime_of_valid`).  A maximum of `2^63` nanoseconds or more
(about 292 years) is accepted too: its product with `time.Second` wraps to a negative duration,
which every doubled positive duration exceeds, so from the second attempt on the backoff ends
before the pod's timestamp (`getBackoffTime_wraps`). -/

namespace Caspr

namespace Queue

open PriorityQueue

/-- The backoff checks of `ValidateKubeSchedulerConfiguration`: the field path, the value and
the detail of each error, in order. -/
def validateBackoffSeconds (PodInitialBackoffSeconds PodMaxBackoffSeconds : Int64) :
    List (String × Int64 × String) :=
  (if PodInitialBackoffSeconds ≤ 0 then
    [("podInitialBackoffSeconds", PodInitialBackoffSeconds, "must be greater than 0")]
  else []) ++
  (if PodMaxBackoffSeconds < PodInitialBackoffSeconds then
    [("podMaxBackoffSeconds", PodMaxBackoffSeconds,
      "must be greater than or equal to PodInitialBackoffSeconds")]
  else [])

/-- The backoff options `Configurator.create` passes to `NewPriorityQueue`:
`time.Duration(s) * time.Second` for each of the two. -/
def backoffOptions (podInitialBackoffSeconds podMaxBackoffSeconds : Int64) :
    priorityQueueOptions where
  podInitialBackoffDuration := podInitialBackoffSeconds * .ofInt second
  podMaxBackoffDuration := podMaxBackoffSeconds * .ofInt second

theorem validateBackoffSeconds_eq_nil {initial max : Int64} :
    validateBackoffSeconds initial max = [] ↔ 0 < initial.toInt ∧ initial.toInt ≤ max.toInt := by
  simp only [validateBackoffSeconds, List.append_eq_nil_iff, ite_eq_right_iff,
    List.cons_ne_nil, imp_false, Int64.lt_iff_toInt_lt, Int64.le_iff_toInt_le, Int64.toInt_zero,
    not_le, not_lt]

/-! ### The `int64` products -/

theorem bmod_of_mem_range {x : ℤ} (hlo : -2 ^ 63 ≤ x) (hhi : x < 2 ^ 63) : x.bmod (2 ^ 64) = x :=
  Int.bmod_eq_of_le (by omega) (by omega)

theorem bmod_of_mem_upper {x : ℤ} (hlo : 2 ^ 63 ≤ x) (hhi : x < 2 ^ 64) :
    x.bmod (2 ^ 64) = x - 2 ^ 64 := by
  rw [Int.bmod_def]
  split_ifs <;> omega

theorem second_eq : second = 1000000000 := rfl

theorem toInt_ofInt_second : (Int64.ofInt second).toInt = second := by
  rw [Int64.toInt_ofInt_of_le] <;> decide

/-- `time.Duration(s) * time.Second` in nanoseconds: the product, wrapped. -/
theorem toInt_mul_second (s : Int64) :
    (s * .ofInt second).toInt = (s.toInt * second).bmod (2 ^ 64) := by
  rw [Int64.toInt_mul, toInt_ofInt_second]

theorem toInt_mul_second_of_mem_range {s : Int64} (hlo : -2 ^ 63 ≤ s.toInt * second)
    (hhi : s.toInt * second < 2 ^ 63) : (s * .ofInt second).toInt = s.toInt * second := by
  rw [toInt_mul_second]
  exact bmod_of_mem_range hlo hhi

theorem toInt_mul_two {d : Int64} (hlo : -2 ^ 62 ≤ d.toInt) (hhi : d.toInt < 2 ^ 62) :
    (d * 2).toInt = d.toInt * 2 := by
  rw [Int64.toInt_mul, show (2 : Int64).toInt = 2 from rfl]
  exact bmod_of_mem_range (by omega) (by omega)

/-! ### The doubling loop -/

/-- Below a maximum under `2^62`, the loop doubles a positive duration at most up to the maximum
and never wraps: `k` more doublings give `min(duration · 2^k, max)`. -/
theorem backoffLoop_toInt {max : Int64} (hmax : max.toInt < 2 ^ 62) :
    ∀ (k : ℕ) {d : Int64}, 0 < d.toInt → d.toInt ≤ max.toInt →
      (backoffLoop max k d).toInt = min (d.toInt * 2 ^ k) max.toInt
  | 0, d, _, hle => by simp [backoffLoop, hle]
  | k + 1, d, hpos, hle => by
      have h2 : (d * 2).toInt = d.toInt * 2 := toInt_mul_two (by omega) (by omega)
      have hpow : 1 ≤ (2 : ℤ) ^ k := one_le_pow₀ (by decide)
      rw [backoffLoop]
      by_cases hgt : d * 2 > max
      · rw [if_pos hgt]
        have hgt' : max.toInt < d.toInt * 2 := by rwa [gt_iff_lt, Int64.lt_iff_toInt_lt, h2] at hgt
        have : d.toInt * 2 ≤ d.toInt * 2 ^ (k + 1) := by
          rw [pow_succ', ← mul_assoc]
          exact le_mul_of_one_le_right (by omega) hpow
        omega
      · rw [if_neg hgt]
        have hle' : d.toInt * 2 ≤ max.toInt := by
          rwa [gt_iff_lt, Int64.lt_iff_toInt_lt, h2, not_lt] at hgt
        rw [backoffLoop_toInt hmax k (by rw [h2]; omega) (by rw [h2]; exact hle'), h2, pow_succ',
          mul_assoc]

/-- The durations of the queue built from a validated configuration whose maximum is under
`2^62` nanoseconds: no product wraps. -/
theorem backoffOptions_toInt {initial max : Int64}
    (hvalid : validateBackoffSeconds initial max = []) (hbound : max.toInt * second < 2 ^ 62) :
    ((backoffOptions initial max).podInitialBackoffDuration.toInt = initial.toInt * second ∧
      (backoffOptions initial max).podMaxBackoffDuration.toInt = max.toInt * second) := by
  obtain ⟨hpos, hle⟩ := validateBackoffSeconds_eq_nil.mp hvalid
  rw [second_eq] at hbound
  constructor
  · exact toInt_mul_second_of_mem_range (by rw [second_eq]; omega) (by rw [second_eq]; omega)
  · exact toInt_mul_second_of_mem_range (by rw [second_eq]; omega) (by rw [second_eq]; omega)

/-- **Below a maximum of `2^62` nanoseconds, the backoff is the capped double**: for a validated
configuration, the duration after `attempts` attempts is
`min(initial · 2^(attempts-1), max)`. -/
theorem calculateBackoffDuration_of_valid (initial max : Int64) (podInfo : QueuedPodInfo)
    (hvalid : validateBackoffSeconds initial max = []) (hbound : max.toInt * second < 2 ^ 62) :
    ((NewPriorityQueue (backoffOptions initial max)).calculateBackoffDuration podInfo).toInt =
      min (initial.toInt * second * 2 ^ (podInfo.attempts - 1)) (max.toInt * second) := by
  obtain ⟨hpos, hle⟩ := validateBackoffSeconds_eq_nil.mp hvalid
  obtain ⟨hinit, hmax⟩ := backoffOptions_toInt hvalid hbound
  have hsec : (0 : ℤ) < second := by decide
  rw [PriorityQueue.calculateBackoffDuration, NewPriorityQueue]
  dsimp only
  rw [backoffLoop_toInt (by rwa [hmax]) _ (by rw [hinit]; exact Int.mul_pos hpos hsec)
    (by rw [hinit, hmax]; exact Int.mul_le_mul_of_nonneg_right hle hsec.le), hinit, hmax]

/-- **Below a maximum of `2^62` nanoseconds, the backoff ends between `initial` and `max` after
the pod's timestamp**, for every validated configuration and every number of attempts. -/
theorem getBackoffTime_of_valid (initial max : Int64) (podInfo : QueuedPodInfo)
    (hvalid : validateBackoffSeconds initial max = []) (hbound : max.toInt * second < 2 ^ 62) :
    podInfo.timestamp + initial.toInt * second ≤
        (NewPriorityQueue (backoffOptions initial max)).getBackoffTime podInfo ∧
      (NewPriorityQueue (backoffOptions initial max)).getBackoffTime podInfo ≤
        podInfo.timestamp + max.toInt * second := by
  obtain ⟨hpos, hle⟩ := validateBackoffSeconds_eq_nil.mp hvalid
  have hsec : (0 : ℤ) < second := by decide
  have hpow : 1 ≤ (2 : ℤ) ^ (podInfo.attempts - 1) := one_le_pow₀ (by decide)
  have hinit : initial.toInt * second ≤ initial.toInt * second * 2 ^ (podInfo.attempts - 1) :=
    le_mul_of_one_le_right (Int.mul_pos hpos hsec).le hpow
  have hmax : initial.toInt * second ≤ max.toInt * second :=
    Int.mul_le_mul_of_nonneg_right hle hsec.le
  rw [PriorityQueue.getBackoffTime, calculateBackoffDuration_of_valid initial max podInfo hvalid hbound]
  constructor
  · exact Int.add_le_add_left (le_min hinit hmax) _
  · exact Int.add_le_add_left (min_le_right _ _) _

theorem getBackoffTime_of_valid_default :
    validateBackoffSeconds 1 10 = [] ∧ (10 : Int64).toInt * second < 2 ^ 62 ∧
      ((0 : ℤ) + (1 : Int64).toInt * second ≤
          (NewPriorityQueue (backoffOptions 1 10)).getBackoffTime { pod := {}, attempts := 5 } ∧
        (NewPriorityQueue (backoffOptions 1 10)).getBackoffTime { pod := {}, attempts := 5 } ≤
          0 + (10 : Int64).toInt * second) :=
  ⟨by decide, by decide, getBackoffTime_of_valid 1 10 { pod := {}, attempts := 5 } (by decide)
    (by decide)⟩

/-- **A validated maximum of `2^63` nanoseconds or more makes the backoff end before the pod's
timestamp**: its conversion wraps to a negative duration, which the first doubling of any
positive initial duration exceeds, so from the second attempt on `calculateBackoffDuration`
returns that negative duration. -/
theorem getBackoffTime_wraps (initial max : Int64) (podInfo : QueuedPodInfo)
    (hvalid : validateBackoffSeconds initial max = []) (hinit : initial.toInt * second < 2 ^ 62)
    (hlo : 2 ^ 63 ≤ max.toInt * second) (hhi : max.toInt * second < 2 ^ 64)
    (hattempts : 2 ≤ podInfo.attempts) :
    (NewPriorityQueue (backoffOptions initial max)).getBackoffTime podInfo < podInfo.timestamp := by
  obtain ⟨hpos, -⟩ := validateBackoffSeconds_eq_nil.mp hvalid
  rw [second_eq] at hinit hlo hhi
  have hi : (backoffOptions initial max).podInitialBackoffDuration.toInt =
      initial.toInt * 1000000000 := by
    rw [backoffOptions, toInt_mul_second_of_mem_range (by rw [second_eq]; omega)
      (by rw [second_eq]; omega), second_eq]
  have hm : (backoffOptions initial max).podMaxBackoffDuration.toInt =
      max.toInt * 1000000000 - 2 ^ 64 := by
    rw [backoffOptions, toInt_mul_second, second_eq]
    exact bmod_of_mem_upper hlo hhi
  have hi2 : ((backoffOptions initial max).podInitialBackoffDuration * 2).toInt =
      initial.toInt * 1000000000 * 2 := by
    rw [toInt_mul_two (by omega) (by omega), hi]
  -- the first doubling already exceeds the wrapped maximum
  have hgt : (backoffOptions initial max).podInitialBackoffDuration * 2 >
      (backoffOptions initial max).podMaxBackoffDuration := by
    rw [gt_iff_lt, Int64.lt_iff_toInt_lt, hi2, hm]
    omega
  obtain ⟨k, hk⟩ : ∃ k, podInfo.attempts - 1 = k + 1 := ⟨podInfo.attempts - 2, by omega⟩
  rw [PriorityQueue.getBackoffTime, PriorityQueue.calculateBackoffDuration, NewPriorityQueue]
  dsimp only
  rw [hk, backoffLoop, if_pos hgt, hm]
  omega

theorem getBackoffTime_wraps_ten_billion :
    validateBackoffSeconds 1 10000000000 = [] ∧
      (NewPriorityQueue (backoffOptions 1 10000000000)).getBackoffTime
        { pod := {}, timestamp := 0, attempts := 2 } < 0 :=
  ⟨by decide, getBackoffTime_wraps 1 10000000000 { pod := {}, timestamp := 0, attempts := 2 }
    (by decide) (by decide) (by decide) (by decide) (by decide)⟩

end Queue

end Caspr
