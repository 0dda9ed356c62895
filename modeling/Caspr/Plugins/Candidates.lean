import Caspr.Plugins.DefaultPreemption
import Caspr.Lib.Run

/-! # How many candidates are kept, and how one is picked

`calculateNumCandidates` is `numNodes · MinCandidateNodesPercentage / 100`, raised to
`MinCandidateNodesAbsolute` and capped at `numNodes`.  Validation allows either bound to be `0`
as long as the other is not; with an absolute bound of `0`, a small number of nodes gives `0`
candidates (`calculateNumCandidates_zero`), and `dryRunPreemption` then returns none, since its
lists have no slot (`dryRunPreemption_no_slots`).

`pickOneNodeForPreemption` starts the search for the fewest budget violations from
`math.MaxInt32`, while the victims an extender returns carry any `int64`; when every node has
more violations, the first pass keeps no node and the last one reads the first name of an empty
array (`pickOneNodeForPreemption_violations_over_max`).  Its second pass reads the first victim
of every node it compares, so candidates without victims, which `selectVictimsOnNode` returns on
a node where the pod already fits, make `SelectCandidate` index an empty list
(`SelectCandidate_no_victims`). -/

namespace Caspr

namespace DefaultPreemption

open StepSystem

/-! ### The number of candidates -/

theorem ValidateDefaultPreemptionArgs_percentage {args : DefaultPreemptionArgs}
    (h : ValidateDefaultPreemptionArgs args = none) :
    0 ≤ args.MinCandidateNodesPercentage.toInt ∧ args.MinCandidateNodesPercentage.toInt ≤ 100 := by
  unfold ValidateDefaultPreemptionArgs validateMinCandidateNodesPercentage at h
  by_cases hp : args.MinCandidateNodesPercentage < 0 || args.MinCandidateNodesPercentage > 100
  · rw [if_pos hp] at h
    cases h
  · simp only [Bool.or_eq_true, decide_eq_true_eq, not_or, gt_iff_lt, Int32.lt_iff_toInt_lt,
      Int32.toInt_zero] at hp
    have h100 : (100 : Int32).toInt = 100 := rfl
    omega

/-- With a product under `100`, the percentage gives no candidate, and an absolute bound of `0`
does not raise it. -/
theorem calculateNumCandidates_of_small (args : DefaultPreemptionArgs) (numNodes : Int32)
    (hpct : 0 ≤ args.MinCandidateNodesPercentage.toInt)
    (habs : args.MinCandidateNodesAbsolute = 0) (hnodes : 0 < numNodes.toInt)
    (hsmall : numNodes.toInt * args.MinCandidateNodesPercentage.toInt < 100) :
    calculateNumCandidates args numNodes = 0 := by
  have hprod : (numNodes * args.MinCandidateNodesPercentage).toInt =
      numNodes.toInt * args.MinCandidateNodesPercentage.toInt := by
    have hnn := Int.mul_nonneg hnodes.le hpct
    rw [Int32.toInt_mul]
    exact Int.bmod_eq_of_le (by omega) (by omega)
  have hdiv : (numNodes * args.MinCandidateNodesPercentage / 100) = 0 := by
    apply Int32.toInt_inj.mp
    rw [Int32.toInt_div, hprod, show (100 : Int32).toInt = 100 from rfl,
      Int.tdiv_eq_zero_of_lt (Int.mul_nonneg hnodes.le hpct) hsmall]
    rfl
  have hle : ¬ (0 : Int32) > numNodes := by
    rw [gt_iff_lt, Int32.lt_iff_toInt_lt, Int32.toInt_zero]
    omega
  unfold calculateNumCandidates
  simp only [hdiv, habs, ite_self]
  rw [if_neg hle]

theorem candidateList.get_of_slots_zero {cl : candidateList} (h : cl.slots = 0) : cl.get = [] := by
  dsimp only [candidateList.get, candidateList.size]
  split_ifs with hn
  · rw [h]
    rfl
  · rw [h, ge_iff_le, Int32.le_iff_toInt_le, Int32.toInt_zero, not_le] at hn
    rw [Int32.toNatClampNeg_eq_zero_iff.mpr (Int32.le_iff_toInt_le.mpr (by simpa using hn.le))]
    rfl

@[simp] theorem candidateList.add_slots (cl : candidateList) (c : Candidate) :
    (cl.add c).slots = cl.slots := by
  dsimp only [candidateList.add]
  split_ifs <;> rfl

section victims

variable {σ : Type} (cfg : Config) (ph : PreemptHandle σ) (gen : ℤ)

theorem checkNode_slots {now : ℤ} {state : σ} {pod : Pod} {pdbs : List PodDisruptionBudget}
    {numCandidates : Int32} {acc acc' : candidateList × candidateList × Bool} {nodeInfo : NodeInfo}
    (h : checkNode cfg ph gen now state pod pdbs numCandidates acc nodeInfo = .ok acc') :
    acc'.1.slots = acc.1.slots ∧ acc'.2.1.slots = acc.2.1.slots := by
  obtain ⟨nv, v, cancelled⟩ := acc
  unfold checkNode at h
  dsimp only at h
  split_ifs at h with hc
  · cases h
    exact ⟨rfl, rfl⟩
  · obtain ⟨⟨pods, num, fits⟩, -, h⟩ := bind_eq_ok.mp h
    dsimp only at h
    split_ifs at h with hf hn
    · cases h
      exact ⟨rfl, rfl⟩
    all_goals
      split at h
      · cases h
      · obtain rfl := Except.ok.inj h
        simp

/-- **With no slot, `dryRunPreemption` returns no candidate**, whatever the nodes and the
handle. -/
theorem dryRunPreemption_no_slots (now : ℤ) (state : σ) (pod : Pod) (potentialNodes : List NodeInfo)
    (pdbs : List PodDisruptionBudget) (offset : ℕ) {cands : List Candidate}
    (h : dryRunPreemption cfg ph gen now state pod potentialNodes pdbs offset 0 = .ok cands) :
    cands = [] := by
  unfold dryRunPreemption newCandidateList at h
  rw [if_neg Int32.lt_irrefl] at h
  obtain ⟨nv, hnv, h⟩ := bind_eq_ok.mp h
  obtain rfl := Except.ok.inj hnv
  obtain ⟨v, hv, h⟩ := bind_eq_ok.mp h
  obtain rfl := Except.ok.inj hv
  obtain ⟨⟨nv, v, cancelled⟩, hfold, h⟩ := bind_eq_ok.mp h
  have hslots := foldlM_invariant (checkNode cfg ph gen now state pod pdbs 0)
    (P := fun acc => acc.1.slots = 0 ∧ acc.2.1.slots = 0)
    (fun acc _ acc' hacc hstep => by
      obtain ⟨h1, h2⟩ := checkNode_slots cfg ph gen hstep
      exact ⟨h1.trans hacc.1, h2.trans hacc.2⟩) _ _ _ ⟨rfl, rfl⟩ hfold
  obtain rfl := Except.ok.inj h
  rw [candidateList.get_of_slots_zero hslots.1, candidateList.get_of_slots_zero hslots.2]
  rfl

end victims

/-- **Valid arguments can ask for no candidate**: with `MinCandidateNodesAbsolute = 0`, which
validation accepts for any positive percentage, every number of nodes whose product with the
percentage is under `100` gives `0` candidates, and then `dryRunPreemption` returns none, even
where some node admits victims. -/
theorem calculateNumCandidates_zero (args : DefaultPreemptionArgs) (numNodes : Int32)
    (hvalid : ValidateDefaultPreemptionArgs args = none)
    (habs : args.MinCandidateNodesAbsolute = 0) (hnodes : 0 < numNodes.toInt)
    (hsmall : numNodes.toInt * args.MinCandidateNodesPercentage.toInt < 100) :
    calculateNumCandidates args numNodes = 0 ∧
      ∀ {σ : Type} (cfg : Config) (ph : PreemptHandle σ) (gen now : ℤ) (state : σ) (pod : Pod)
        (potentialNodes : List NodeInfo) (pdbs : List PodDisruptionBudget) (offset : ℕ)
        (cands : List Candidate),
        dryRunPreemption cfg ph gen now state pod potentialNodes pdbs offset
          (calculateNumCandidates args numNodes) = .ok cands → cands = [] := by
  have hzero := calculateNumCandidates_of_small args numNodes
    (ValidateDefaultPreemptionArgs_percentage hvalid).1 habs hnodes hsmall
  refine ⟨hzero, fun cfg ph gen now state pod potentialNodes pdbs offset cands h => ?_⟩
  rw [hzero] at h
  exact dryRunPreemption_no_slots cfg ph gen now state pod potentialNodes pdbs offset h

theorem calculateNumCandidates_zero_fifty_nodes :
    ValidateDefaultPreemptionArgs
        { MinCandidateNodesPercentage := 1, MinCandidateNodesAbsolute := 0 } = none ∧
      calculateNumCandidates { MinCandidateNodesPercentage := 1, MinCandidateNodesAbsolute := 0 }
        50 = 0 :=
  ⟨rfl, (calculateNumCandidates_zero
    { MinCandidateNodesPercentage := 1, MinCandidateNodesAbsolute := 0 } 50 rfl rfl (by decide)
    (by decide)).1⟩

/-! ### The passes of `pickOneNodeForPreemption` -/

/-- A middle pass over no name writes nothing. -/
@[simp] theorem minPass_zero {κ : Type} [LT κ] [DecidableLT κ] [DecidableEq κ]
    (score : String → Except Go.Abort κ) (init : κ) (src dst : List String) :
    minPass score init src 0 dst = .ok (dst, 0) := by
  simp [minPass]
  rfl

theorem minPass_first_error {κ : Type} [LT κ] [DecidableLT κ] [DecidableEq κ]
    {score : String → Except Go.Abort κ} {e : Go.Abort} (init : κ) {node : String}
    (rest : List String) (len : ℕ) (dst : List String) (he : score node = .error e) :
    minPass score init (node :: rest) (len + 1) dst = .error e := by
  simp [minPass, List.foldlM_cons, minStep, he, bind, Except.bind]

/-- Over entries none of which has fewer violations than the least so far, the first pass keeps
the least and adds the names of those that have it. -/
theorem foldl_pdbViolationsStep_of_eq (l : List (Sigma fun _ : String => Victims))
    (acc : Int64 × List String) (h : ∀ e ∈ l, e.2.NumPDBViolations = acc.1) :
    l.foldl pdbViolationsStep acc = (acc.1, acc.2 ++ l.map (·.1)) := by
  induction l generalizing acc with
  | nil => simp
  | cons e l ih =>
      have he : e.2.NumPDBViolations = acc.1 := h e (by simp)
      have hstep : pdbViolationsStep acc e = (acc.1, acc.2 ++ [e.1]) := by
        simp [pdbViolationsStep, he]
      rw [List.foldl_cons, hstep,
        ih (acc.1, acc.2 ++ [e.1]) (fun x hx => h x (List.mem_cons_of_mem _ hx))]
      simp

/-- Over entries that all have more violations than the least so far, the first pass changes
nothing. -/
theorem foldl_pdbViolationsStep_of_gt (l : List (Sigma fun _ : String => Victims))
    (acc : Int64 × List String) (h : ∀ e ∈ l, acc.1 < e.2.NumPDBViolations) :
    l.foldl pdbViolationsStep acc = acc := by
  induction l with
  | nil => rfl
  | cons e l ih =>
      have he := h e (by simp)
      have hstep : pdbViolationsStep acc e = acc := by
        have hne : e.2.NumPDBViolations ≠ acc.1 := fun heq => by
          rw [heq] at he
          exact Int64.lt_irrefl he
        simp [pdbViolationsStep, Int64.not_lt.mpr (Int64.le_of_lt he), hne]
      rw [List.foldl_cons, hstep, ih (fun x hx => h x (List.mem_cons_of_mem _ hx))]

/-- **Nodes with more than `MaxInt32` violations each make `pickOneNodeForPreemption` index an
empty array**: the first pass keeps none of them, and every later pass reads none, so the last
reads `minNodes2[0]` of an array of length `0`. -/
theorem pickOneNodeForPreemption_violations_over_max (now : ℤ) (nodesToVictims : VictimsMap)
    (hne : nodesToVictims.entries ≠ [])
    (hover : ∀ e ∈ nodesToVictims.entries, MaxInt32 < e.2.NumPDBViolations) :
    pickOneNodeForPreemption now nodesToVictims = .error .indexOutOfRange := by
  have hfirst := foldl_pdbViolationsStep_of_gt nodesToVictims.entries (MaxInt32, []) hover
  have hlen : nodesToVictims.entries.length ≠ 0 := fun h => hne (List.length_eq_zero_iff.mp h)
  unfold pickOneNodeForPreemption
  simp only [hlen, if_false, hfirst, List.length_nil, List.replicate_zero, minPass_zero]
  rfl

theorem pickOneNodeForPreemption_violations_over_max_one_node :
    pickOneNodeForPreemption 0
        (AList.singleton "n1"
          { Pods := [{ name := "p", priority := some 0 }], NumPDBViolations := 2147483648 }) =
      .error .indexOutOfRange :=
  pickOneNodeForPreemption_violations_over_max 0 _ (by simp [AList.singleton])
    (by simp [AList.singleton, MaxInt32])

/-! ### Candidates without victims -/

theorem mem_candidatesToVictimsMap (candidates : List Candidate) :
    ∀ e ∈ (candidatesToVictimsMap candidates).entries, ∃ c ∈ candidates, e.2 = c.victims := by
  -- the fold's invariant: the candidates still to insert are among `candidates`, and every entry
  -- holds the victims of one of them
  have hrun := foldl_invariant (fun (m : VictimsMap) (c : Candidate) => m.insert c.name c.victims)
    (P := fun rest m => (∀ c ∈ rest, c ∈ candidates) ∧
      ∀ e ∈ m.entries, ∃ c ∈ candidates, e.2 = c.victims)
    (fun m c rest ⟨hrest, hm⟩ => by
      refine ⟨fun x hx => hrest x (List.mem_cons_of_mem _ hx), fun e he => ?_⟩
      rw [AList.entries_insert, List.mem_cons] at he
      rcases he with rfl | he
      · exact ⟨c, hrest c List.mem_cons_self, rfl⟩
      · exact hm e ((List.kerase_sublist _ _).subset he))
    candidates ∅ ⟨fun _ h => h, by simp⟩
  exact hrun.2

theorem length_candidatesToVictimsMap (candidates : List Candidate)
    (hnames : (candidates.map (·.name)).Nodup) :
    (candidatesToVictimsMap candidates).entries.length = candidates.length := by
  -- the fold's invariant: the names still to insert are distinct and fresh, and each inserted
  -- name added one entry
  have hrun := foldl_invariant (fun (m : VictimsMap) (c : Candidate) => m.insert c.name c.victims)
    (P := fun rest m => (rest.map (·.name)).Nodup ∧ (∀ c ∈ rest, c.name ∉ m) ∧
      m.entries.length + rest.length = candidates.length)
    (fun m c rest ⟨hnd, hfresh, hlen⟩ => by
      rw [List.map_cons, List.nodup_cons] at hnd
      have hc : c.name ∉ m := hfresh c List.mem_cons_self
      refine ⟨hnd.2, fun x hx hxm => ?_, ?_⟩
      · rw [AList.mem_insert] at hxm
        rcases hxm with heq | hxm
        · exact hnd.1 (heq ▸ List.mem_map_of_mem hx)
        · exact hfresh x (List.mem_cons_of_mem _ hx) hxm
      · rw [AList.entries_insert, List.length_cons, List.kerase_of_notMem_keys hc]
        rw [List.length_cons] at hlen
        omega)
    candidates ∅ ⟨hnames, by simp, by simp⟩
  simpa [candidatesToVictimsMap] using hrun.2.2

/-- On at least two nodes whose victims are all empty and violate no budget, the second pass of
`pickOneNodeForPreemption` reads the first victim of an empty list. -/
theorem pickOneNodeForPreemption_no_victims (now : ℤ) (nodesToVictims : VictimsMap)
    (htwo : 2 ≤ nodesToVictims.entries.length)
    (hempty : ∀ e ∈ nodesToVictims.entries, e.2.Pods = [] ∧ e.2.NumPDBViolations = 0) :
    pickOneNodeForPreemption now nodesToVictims = .error .indexOutOfRange := by
  obtain ⟨e, es, hes⟩ : ∃ e es, nodesToVictims.entries = e :: es :=
    List.exists_cons_of_length_pos (by omega)
  have he := hempty e (by simp [hes])
  have hfirst : nodesToVictims.entries.foldl pdbViolationsStep (MaxInt32, []) =
      (0, nodesToVictims.entries.map (·.1)) := by
    have hstep : pdbViolationsStep (MaxInt32, []) e = (0, [e.1]) := by
      simp [pdbViolationsStep, he.2, MaxInt32]
    rw [hes, List.foldl_cons, hstep, foldl_pdbViolationsStep_of_eq es (0, [e.1])
      (fun x hx => (hempty x (by simp [hes, hx])).2)]
    rfl
  have hlen : nodesToVictims.entries.length ≠ 0 := by omega
  have hlen1 : (nodesToVictims.entries.map (·.1)).length ≠ 1 := by rw [List.length_map]; omega
  have hvictims : victimsOf nodesToVictims e.1 = .ok e.2 := by
    unfold victimsOf
    rw [AList.lookup, hes, List.dlookup_cons_eq]
  have hprio : highestPodPriority nodesToVictims e.1 = .error .indexOutOfRange := by
    simp [highestPodPriority, hvictims, he.1, index0, bind, Except.bind]
  have hsecond : minPass (highestPodPriority nodesToVictims) 2147483647
      (nodesToVictims.entries.map (·.1)) (nodesToVictims.entries.map (·.1)).length
      (List.replicate (nodesToVictims.entries.map (·.1)).length "") = .error .indexOutOfRange := by
    rw [hes, List.map_cons, List.length_cons]
    exact minPass_first_error _ _ _ _ hprio
  unfold pickOneNodeForPreemption
  simp only [hlen, if_false, hfirst, hlen1]
  rw [hsecond]
  rfl

/-- **Candidates without victims make `SelectCandidate` index an empty list**: on two or more
candidates of distinct names whose victims are empty and violate no budget. -/
theorem SelectCandidate_no_victims (now : ℤ) (c₁ c₂ : Candidate) (cs : List Candidate)
    (hnames : ((c₁ :: c₂ :: cs).map (·.name)).Nodup)
    (hempty : ∀ c ∈ c₁ :: c₂ :: cs, c.victims.Pods = [] ∧ c.victims.NumPDBViolations = 0) :
    SelectCandidate now (c₁ :: c₂ :: cs) = .error .indexOutOfRange := by
  have hpick : pickOneNodeForPreemption now (candidatesToVictimsMap (c₁ :: c₂ :: cs)) =
      .error .indexOutOfRange := by
    apply pickOneNodeForPreemption_no_victims
    · rw [length_candidatesToVictimsMap _ hnames]
      simp
    · intro e he
      obtain ⟨c, hc, hce⟩ := mem_candidatesToVictimsMap _ e he
      rw [hce]
      exact hempty c hc
  simp [SelectCandidate, hpick, bind, Except.bind]

/-- The filter plugins accept both nodes, as when an extender dropped them without a failure
message, which leaves them out of the status map; each holds one pod of lower priority, which
is removed and put back without a victim. -/
theorem SelectCandidate_no_victims_two_nodes :
    let cfg : Config :=
      { localStorageCapacityIsolation := false, podOverhead := false,
        isScalarResourceName := fun _ => false }
    let ph : PreemptHandle Unit := ⟨fun _ _ _ => true, fun s _ _ _ => .ok s, fun s _ _ _ => .ok s⟩
    let pod : Pod := { name := "p", uid := "p", priority := some 10 }
    let nodes : List NodeInfo :=
      [{ node := some { name := "n1" }, pods := [{ name := "a", uid := "a", priority := some 0 }] },
        { node := some { name := "n2" }, pods := [{ name := "b", uid := "b", priority := some 0 }] }]
    ∃ c₁ c₂, FindCandidates cfg ph 0 {} 0 () pod nodes ∅ [] 0 = .ok (.ok [c₁, c₂]) ∧
      SelectCandidate 0 [c₁, c₂] = .error .indexOutOfRange :=
  ⟨_, _, rfl, SelectCandidate_no_victims 0 _ _ [] (by decide) (by decide)⟩

end DefaultPreemption

end Caspr
