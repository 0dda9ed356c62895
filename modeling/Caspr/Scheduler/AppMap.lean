import Caspr.Scheduler.ScheduleOne
import Caspr.Lib.Run

/-! # What `AppMap` records

CASPR keeps in `AppMap["Spark"]` where the pods of the running application are.  What it
records is every host choice since the last driver pod, whatever happens to the pod after:

* the abstract application (`placeAfter`) is the list of host choices (pod name, host) from the
  last driver on, `none` before the first driver;
* `Holds` says that `AppMap["Spark"]` lists, for every node, the names of the choices of that
  node in order, and has no entry for a node without one;
* every event keeps `Holds`, the cycles by `recordHost_holds` and the rest because they leave
  `AppMap` alone (`Step_holds`), so every run does (`holds_placements`).

Three consequences are failures of what CASPR intends `AppMap` to be:

* a cycle that fails after its host is chosen, and its retry, stay recorded, though the cache
  forgot the pod (`scheduleOne_reserve_failure_keeps_record`);
* before the first driver there is no inner map, and a cycle that gets a host for another pod
  panics (`scheduleOne_before_driver`);
* the nodes of the application need not be pairwise adjacent
  (`selectConnectedHost_start_disconnected`). -/

namespace Caspr

open GenericScheduler Cache

namespace Scheduler

/-! ### The placements of the application -/

/-- The names that the placements `l` put on `node`, in order. -/
def records (l : List (String × String)) (node : String) : List String :=
  (l.filter fun e => e.2 = node).map (·.1)

theorem records_append (l : List (String × String)) (x h node : String) :
    records (l ++ [(x, h)]) node = if h = node then records l node ++ [x] else records l node := by
  unfold records
  rw [List.filter_append, List.map_append]
  by_cases hn : h = node <;> simp [hn]

theorem records_singleton (x h node : String) :
    records [(x, h)] node = if h = node then [x] else [] := by
  unfold records
  by_cases hn : h = node <;> simp [hn]

/-- The abstract application after a host choice: a driver starts a new one, another pod is
added to the current one, if there is one. -/
def placeAfter (P : Option (List (String × String))) (e : String × String) :
    Option (List (String × String)) :=
  if Go.Contains e.1 "driver" then some [e] else P.map (· ++ [e])

/-- The map of one node's names, as `AppMap["Spark"]` holds them for the placements `l`. -/
def NodesHold (nodes : AList (fun _ : String => List String)) (l : List (String × String)) :
    Prop :=
  ∀ node, nodes.lookup node = if records l node = [] then none else some (records l node)

/-- `AppMap["Spark"]` holds the application `P`: no inner map before the first driver, and the
names of the placements on every node after. -/
def Holds (AppMap : AppNodePods) : Option (List (String × String)) → Prop
  | none => AppMap.lookup "Spark" = none
  | some l => ∃ nodes, AppMap.lookup "Spark" = some nodes ∧ NodesHold nodes l

theorem NodesHold.getD {nodes : AList (fun _ : String => List String)}
    {l : List (String × String)} (hn : NodesHold nodes l) (node : String) :
    (nodes.lookup node).getD [] = records l node := by
  rw [hn node]
  split_ifs with h
  · exact h.symm
  · rfl

theorem NodesHold.insert {nodes : AList (fun _ : String => List String)}
    {l : List (String × String)} (hn : NodesHold nodes l) (x h : String) :
    NodesHold (nodes.insert h ((nodes.lookup h).getD [] ++ [x])) (l ++ [(x, h)]) := by
  intro node
  rw [records_append]
  by_cases hh : h = node
  · subst hh
    simp [AList.lookup_insert, hn.getD]
  · rw [AList.lookup_insert_ne (Ne.symm hh), if_neg hh, hn node]

theorem NodesHold.empty_insert (x h : String) :
    NodesHold ((∅ : AList (fun _ : String => List String)).insert h [x]) [(x, h)] := by
  intro node
  rw [records_singleton]
  by_cases hh : h = node
  · subst hh
    rw [AList.lookup_insert]
    simp
  · rw [AList.lookup_insert_ne (Ne.symm hh), if_neg hh]
    simp

/-! ### Recording a host -/

section record

variable {AppMap AppMap' : AppNodePods} {P : Option (List (String × String))} {x h : String}

/-- **Record step.** The update of `AppMap` by a cycle keeps `Holds`. -/
theorem recordHost_holds (hH : Holds AppMap P) (hr : recordHost AppMap x h = .ok AppMap') :
    Holds AppMap' (placeAfter P (x, h)) := by
  unfold recordHost at hr
  by_cases hd : Go.Contains x "driver" = true
  · simp only [hd, if_true, AList.lookup_insert, AList.insert_insert, Option.getD_none,
      AList.lookup_empty, List.nil_append, Except.ok.injEq] at hr
    subst hr
    rw [placeAfter, if_pos hd]
    exact ⟨_, AList.lookup_insert _, NodesHold.empty_insert x h⟩
  · simp only [hd, Bool.false_eq_true, if_false] at hr
    rw [placeAfter, if_neg hd]
    cases P with
    | none =>
        -- no inner map: the assignment panics
        rw [show AppMap.lookup "Spark" = none from hH] at hr
        cases hr
    | some l =>
        obtain ⟨nodes, hl, hn⟩ := hH
        rw [hl, Except.ok.injEq] at hr
        subst hr
        exact ⟨_, AList.lookup_insert _, hn.insert x h⟩

end record

/-! ### The events and `AppMap` -/

variable (cfg : Config) (hello : String)

section frame

variable {sched sched' : Scheduler}

theorem forget_AppMap {p : Pod} (h : forget cfg sched p = .ok sched') :
    sched'.AppMap = sched.AppMap := by
  unfold forget at h
  split at h
  · cases h
  · cases h
    rfl

theorem bindingCycle_AppMap {b : BindingCycle} {outcome : BindingOutcome} {now : ℤ}
    (h : bindingCycle cfg sched b outcome now = .ok sched') : sched'.AppMap = sched.AppMap := by
  cases outcome with
  | waitOnPermitRejected => exact forget_AppMap cfg h
  | preBindFailed => exact forget_AppMap cfg h
  | bindFailed =>
      simp only [bindingCycle] at h
      split at h
      · cases h
      · rw [forget_AppMap cfg h]
  | bound =>
      simp only [bindingCycle] at h
      split at h
      · cases h
      · cases h
        rfl

/-- Whatever Reserve, Permit and the cache do, the cycle has recorded its host. -/
theorem assumeAndReserve_AppMap {c : CycleInput} {pod : Pod} {host : String}
    (h : assumeAndReserve cfg sched c pod host = .ok sched') :
    recordHost sched.AppMap pod.name host = .ok sched'.AppMap := by
  simp only [assumeAndReserve] at h
  split at h
  · cases h
  · rename_i AppMap hr
    rw [hr]
    split at h
    · cases h
    · split_ifs at h
      · cases h
        rfl
      · rw [forget_AppMap cfg h]
      · rw [forget_AppMap cfg h]
      · cases h
        rfl

end frame

/-- The host choice an event records: the pod's name and its host, for a cycle that gets past
`Schedule`. -/
def selection (sched : Scheduler) : SchedulerEvent → Option (String × String)
  | .scheduleOne c =>
      match scheduleHost hello sched c with
      | .ok (some (pod, host)) => some (pod.name, host)
      | _ => none
  | .bindingCycle _ _ _ | .cache _ => none

/-- The abstract application after an event. -/
def placementsAfter (P : Option (List (String × String))) : Option (String × String) →
    Option (List (String × String))
  | none => P
  | some e => placeAfter P e

/-- **Step lemma.** Every event that does not panic keeps `Holds`, with the application moved
by the host choice the event records. -/
theorem Step_holds {sched sched' : Scheduler} {ev : SchedulerEvent}
    {P : Option (List (String × String))} (hH : Holds sched.AppMap P)
    (hs : sched.Step cfg hello ev sched') :
    Holds sched'.AppMap (placementsAfter P (selection hello sched ev)) := by
  cases ev with
  | scheduleOne c =>
      have hs : sched.scheduleOne cfg hello c = .ok sched' := Option.some.inj hs
      unfold scheduleOne at hs
      simp only [selection]
      split at hs
      · cases hs
      · rename_i hc
        cases hs
        rw [hc]
        exact hH
      · rename_i pod host hc
        rw [hc]
        exact recordHost_holds hH (assumeAndReserve_AppMap cfg hs)
  | bindingCycle i outcome now =>
      obtain ⟨b, -, hb⟩ := Option.map_eq_some_iff.mp hs
      rw [bindingCycle_AppMap cfg hb]
      exact hH
  | cache op =>
      have hs := Option.some.inj hs
      split at hs
      · cases hs
      · cases hs
        exact hH

/-- The scheduler with the application it is taken to run. -/
def TrackedStep (s : Scheduler × Option (List (String × String))) (ev : SchedulerEvent)
    (s' : Scheduler × Option (List (String × String))) : Prop :=
  s.1.Step cfg hello ev s'.1 ∧ s'.2 = placementsAfter s.2 (selection hello s.1 ev)

/-- The runs from `Run` that do not panic. -/
abbrev Reachable (cache : Cache.SchedulerCache) :
    Scheduler × Option (List (String × String)) → Prop :=
  StepSystem.Reachable (TrackedStep cfg hello) (fun _ _ => True) (Run cache, none)

/-- **Refinement.** In every run, `AppMap["Spark"]` holds the host choices since the last driver
pod. -/
theorem holds_placements {cache : Cache.SchedulerCache}
    {s : Scheduler × Option (List (String × String))} (hr : Reachable cfg hello cache s) :
    Holds s.1.AppMap s.2 := by
  refine hr.invariant (P := fun s => Holds s.1.AppMap s.2)
    (show Holds (Run cache).AppMap none from AList.lookup_empty _) ?_
  rintro ⟨sched, P⟩ ev ⟨sched', P'⟩ hH - ⟨hs, hP'⟩
  simp only at hP' ⊢
  rw [hP']
  exact Step_holds cfg hello hH hs

/-! ### The nil inner map -/

/-- Before any driver pod got a host, a cycle that gets a host for another pod panics on the
nil inner map. -/
theorem scheduleOne_before_driver {cache : Cache.SchedulerCache} {sched : Scheduler}
    (hr : Reachable cfg hello cache (sched, none)) {c : CycleInput} {pod : Pod} {host : String}
    (hc : scheduleHost hello sched c = .ok (some (pod, host)))
    (hd : Go.Contains pod.name "driver" = false) :
    sched.scheduleOne cfg hello c = .error .assignmentToEntryInNilMap := by
  have hH : Holds sched.AppMap none := holds_placements cfg hello hr
  unfold scheduleOne assumeAndReserve recordHost
  rw [hc]
  simp only [hd, Bool.false_eq_true, if_false, show sched.AppMap.lookup "Spark" = none from hH]

theorem scheduleOne_before_driver_first :
    let cfg : Config := ⟨true, true, fun _ => false⟩
    let c : CycleInput :=
      { pod := some { name := "app-exec-1", uid := "e" }, feasibleNodes := [⟨"node-1", 0⟩] }
    scheduleHost "" (Run (newSchedulerCache 0)) c = .ok (some ({ name := "app-exec-1", uid := "e" }, "node-1")) ∧
      (Run (newSchedulerCache 0)).scheduleOne cfg "" c = .error .assignmentToEntryInNilMap :=
  ⟨rfl, scheduleOne_before_driver ⟨true, true, fun _ => false⟩ "" .init rfl rfl⟩

/-! ### Failed cycles -/

/-- A driver pod whose Reserve plugins fail is forgotten by the cache, and stays in `AppMap`. -/
theorem scheduleOne_reserve_failure_keeps_record :
    let cfg : Config := ⟨true, true, fun _ => false⟩
    let c : CycleInput :=
      { pod := some { name := "app-driver", uid := "d" },
        feasibleNodes := [⟨"node-1", 0⟩], reserve := false }
    ((Run (newSchedulerCache 0)).scheduleOne cfg "" c).toOption.map
        (fun s => ((s.AppMap.lookup "Spark").bind (·.lookup "node-1"),
          (s.SchedulerCache.podStates "d").isSome, s.bindingCycles.length)) =
      some (some ["app-driver"], false, 0) := by
  decide

/-! ### Connectivity -/

/-- The adjacency matrix the connectivity guarantee assumes: symmetric, `0` or `1`, with `1`s
on the diagonal. -/
def AdjacencyMatrixOk (adj : Matrix5) : Prop :=
  ∀ i j : Fin 5, adj i j = adj j i ∧ (adj i j = 0 ∨ adj i j = 1) ∧ adj i i = 1

instance (adj : Matrix5) : Decidable (AdjacencyMatrixOk adj) :=
  inferInstanceAs (Decidable (∀ _i _j : Fin 5, _))

/-- The premise of the guarantee for a cycle: a feasible node is adjacent to every node of the
application. -/
def FeasibleConnected (adj : Matrix5) (AppMap : AppNodePods) (c : CycleInput) : Prop :=
  ∃ ns ∈ c.feasibleNodes, ∀ i : Fin 5, prevNodes AppMap i = 1 → adj i (nodeIndex ns.Name) = 1

instance (adj : Matrix5) (AppMap : AppNodePods) (c : CycleInput) :
    Decidable (FeasibleConnected adj AppMap c) :=
  inferInstanceAs (Decidable (∃ ns ∈ c.feasibleNodes, _))

/-- The guarantee: the nodes of the application are pairwise adjacent. -/
def PairwiseConnected (adj : Matrix5) (AppMap : AppNodePods) : Prop :=
  ∀ i j : Fin 5, prevNodes AppMap i = 1 → prevNodes AppMap j = 1 → adj i j = 1

instance (adj : Matrix5) (AppMap : AppNodePods) : Decidable (PairwiseConnected adj AppMap) :=
  inferInstanceAs (Decidable (∀ _i _j : Fin 5, _))

/-- A driver is placed on `node-1`; for the next pod, `node-1` is not feasible, and the loop
starts from the first feasible node, `node-2`, which no node of higher score replaces, though
only `node-3` is adjacent to `node-1`. -/
theorem selectConnectedHost_start_disconnected :
    let cfg : Config := ⟨true, true, fun _ => false⟩
    let hello := "1 0 0 0 0 0 1 0 1 0 0 0 1 0 0 0 1 0 1 0 0 0 0 0 1"
    let driver : CycleInput :=
      { pod := some { name := "app-driver", uid := "d" }, feasibleNodes := [⟨"node-1", 0⟩] }
    let exec : CycleInput :=
      { pod := some { name := "app-exec-1", uid := "e" },
        feasibleNodes := [⟨"node-2", 5⟩, ⟨"node-3", 1⟩] }
    ∃ adj s₁ s₂, fillAdjacencyMatrix (strToIntArr hello) = .ok adj ∧ AdjacencyMatrixOk adj ∧
      (Run (newSchedulerCache 0)).scheduleOne cfg hello driver = .ok s₁ ∧
      s₁.scheduleOne cfg hello exec = .ok s₂ ∧
      FeasibleConnected adj (Run (newSchedulerCache 0)).AppMap driver ∧
      FeasibleConnected adj s₁.AppMap exec ∧ PairwiseConnected adj s₁.AppMap ∧
      ¬ PairwiseConnected adj s₂.AppMap := by
  refine ⟨_, _, _, rfl, ?_, rfl, rfl, ?_, ?_, ?_, ?_⟩ <;> decide

end Scheduler

end Caspr
