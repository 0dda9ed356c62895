import Caspr.Plugins.DefaultPreemption

/-! # The grouping of victims by disruption budget (`filterPodsWithPDBViolation`)

`filterPodsWithPDBViolation` is a stable partition: the violating and the non-violating pods are
sublists of its input, and together a permutation of it (`filterPodsWithPDBViolation_partition`).
A pod is violating when one of the budgets that count it is negative once decremented for it.

A pod without labels is never checked: it is non-violating whatever the budgets
(`filterPodsWithPDBViolation_unlabelled`), although a budget whose only requirement is that a
label be absent selects it, and counts every labelled pod without that label. -/

namespace Caspr

namespace DefaultPreemption

/-- The flag and the budgets the pass over the budgets leaves for one pod. -/
def podPass (pod : Pod) (budgets : List (PodDisruptionBudget × Int32)) :
    Bool × List (PodDisruptionBudget × Int32) :=
  if pod.labels.entries.length ≠ 0 then budgetsPass pod budgets else (false, budgets)

theorem filterPodsLoop_cons (pod : Pod) (pods : List Pod)
    (budgets : List (PodDisruptionBudget × Int32)) :
    filterPodsLoop (pod :: pods) budgets =
      if (podPass pod budgets).1 then
        (pod :: (filterPodsLoop pods (podPass pod budgets).2).1,
          (filterPodsLoop pods (podPass pod budgets).2).2)
      else ((filterPodsLoop pods (podPass pod budgets).2).1,
        pod :: (filterPodsLoop pods (podPass pod budgets).2).2) := by
  rw [filterPodsLoop, podPass]

theorem filterPodsLoop_partition (pods : List Pod) (budgets : List (PodDisruptionBudget × Int32)) :
    (filterPodsLoop pods budgets).1.Sublist pods ∧ (filterPodsLoop pods budgets).2.Sublist pods ∧
      ((filterPodsLoop pods budgets).1 ++ (filterPodsLoop pods budgets).2).Perm pods := by
  induction pods generalizing budgets with
  | nil => simp [filterPodsLoop]
  | cons pod pods ih =>
      obtain ⟨h1, h2, h3⟩ := ih (podPass pod budgets).2
      rw [filterPodsLoop_cons]
      split_ifs
      · exact ⟨h1.cons_cons pod, h2.cons pod, h3.cons pod⟩
      · refine ⟨h1.cons pod, h2.cons_cons pod, ?_⟩
        exact List.perm_middle.trans (h3.cons pod)

/-- **`filterPodsWithPDBViolation` is a stable partition** of the pods it is given. -/
theorem filterPodsWithPDBViolation_partition (pods : List Pod) (pdbs : List PodDisruptionBudget) :
    (filterPodsWithPDBViolation pods pdbs).1.Sublist pods ∧
      (filterPodsWithPDBViolation pods pdbs).2.Sublist pods ∧
      ((filterPodsWithPDBViolation pods pdbs).1 ++ (filterPodsWithPDBViolation pods pdbs).2).Perm
        pods :=
  filterPodsLoop_partition pods _

/-- A pod without labels leaves the budgets as they are and is not flagged. -/
theorem podPass_unlabelled {pod : Pod} (h : pod.labels.entries = [])
    (budgets : List (PodDisruptionBudget × Int32)) : podPass pod budgets = (false, budgets) := by
  simp [podPass, h]

/-- **A pod without labels is never violating**, whatever the budgets and the other pods. -/
theorem filterPodsWithPDBViolation_unlabelled (pods : List Pod) (pdbs : List PodDisruptionBudget)
    (pod : Pod) (hlabels : pod.labels.entries = []) :
    pod ∉ (filterPodsWithPDBViolation pods pdbs).1 := by
  unfold filterPodsWithPDBViolation
  generalize pdbs.map (fun pdb => (pdb, pdb.DisruptionsAllowed)) = budgets
  induction pods generalizing budgets with
  | nil => simp [filterPodsLoop]
  | cons q pods ih =>
      rw [filterPodsLoop_cons]
      split_ifs with hq
      · have hne : q ≠ pod := by
          rintro rfl
          rw [podPass_unlabelled hlabels] at hq
          simp at hq
        simpa [Ne.symm hne] using ih _
      · exact ih _

theorem filterPodsWithPDBViolation_unlabelled_does_not_exist :
    let pdb : PodDisruptionBudget :=
      { pdbNamespace := "default",
        Selector := some { matchExpressions := [{ key := "app", operator := .DoesNotExist }] } }
    let pod : Pod := { name := "p", podNamespace := "default" }
    let labelled : Pod :=
      { name := "q", podNamespace := "default", labels := AList.singleton "tier" "web" }
    pdbCountsPod pdb pod = true ∧ pod ∉ (filterPodsWithPDBViolation [pod] [pdb]).1 ∧
      filterPodsWithPDBViolation [labelled] [pdb] = ([labelled], []) :=
  ⟨rfl, filterPodsWithPDBViolation_unlabelled [_] [_] _ rfl, rfl⟩

end DefaultPreemption

end Caspr
