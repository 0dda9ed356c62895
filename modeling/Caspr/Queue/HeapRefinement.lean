import Caspr.Queue.Heap

/-! # The heap of `internal/heap` refines a keyed heap

The scheduling queue keeps `activeQ` as a `KeyedHeap`: a list of objects with distinct keys,
changed by the functions of `container/heap` on the list.  The `Heap` of `internal/heap` keeps
the same objects in a map from keys to items and a queue of keys (`data`).  `Refines key h kh`
says that `h` stores the objects of `kh`: the items and the queue agree (`Inv`), read through its
items the queue is the list of `kh`, and every item is stored under the key of its object.

When `keyFunc` is `key` and never fails, `Heap.Add`, `Heap.Delete` and `Heap.Pop` on data that
refines `kh` return what the keyed heap's methods return on `kh` and leave data that refines what
they leave (`Refines.Add`, `Refines.Delete_ok`, `Refines.Delete_error`, `Refines.Pop`).  So every
keyed heap built by these methods from the empty one is stored by a heap reached from `New` by
the same calls (`Simulated`), and what `reachable_spec` says of every reachable heap holds of it. -/

namespace Caspr

namespace Heap

open List data

variable {α : Type} (key : α → String)

/-- Every item is stored under the key of its object. -/
def KeyedItems (h : data α) : Prop :=
  ∀ k obj, (h.items k).map (·.obj) = some obj → key obj = k

/-- The data stores the objects of the keyed heap, in the order of its list. -/
structure Refines (h : data α) (kh : KeyedHeap key) : Prop where
  inv : Inv h
  objs : objs h = kh.queue.map some
  keyed : KeyedItems key h

/-! ### Items stay under their keys -/

section keyed

variable {key}

theorem obj_Swap (h : data α) (i j : ℕ) (k : String) :
    ((Swap h i j).items k).map (·.obj) = (h.items k).map (·.obj) := by
  by_cases hr : i < h.queue.length ∧ j < h.queue.length
  · rw [Swap_of_lt hr.1 hr.2]
    simp only [map_obj_setIndex]
  · rw [Swap_of_not_lt hr]

theorem KeyedItems.swap {h : data α} (hK : KeyedItems key h) (i j : ℕ) :
    KeyedItems key (Swap h i j) :=
  fun k obj hk => hK k obj (by rwa [obj_Swap] at hk)

theorem KeyedItems.push {h : data α} (hK : KeyedItems key h) {kv : itemKeyValue α}
    (hkv : key kv.obj = kv.key) : KeyedItems key (Push h kv) := by
  intro k obj hk
  simp only [Push, Function.update_apply] at hk
  split_ifs at hk with hkk
  · simp only [Option.map_some, Option.some.injEq] at hk
    rw [← hk, hkv, hkk]
  · exact hK k obj hk

theorem KeyedItems.pop {h h' : data α} (hK : KeyedItems key h) {o : Option α}
    (hp : data.Pop h = some (o, h')) : KeyedItems key h' := by
  unfold data.Pop at hp
  split at hp
  · cases hp
  · rename_i last _
    split at hp <;> simp only [Option.some.injEq, Prod.mk.injEq] at hp <;> obtain ⟨-, rfl⟩ := hp
    · exact hK
    · intro k obj hk
      simp only [Function.update_apply] at hk
      split_ifs at hk
      · simp at hk
      · exact hK k obj hk

theorem KeyedItems.setObj {h : data α} (hK : KeyedItems key h) {k : String} {item : heapItem α}
    {obj : α} (hobj : key obj = k) :
    KeyedItems key { h with items := Function.update h.items k (some { item with obj := obj }) } := by
  intro k' obj' hk
  simp only [Function.update_apply] at hk
  split_ifs at hk with hkk
  · simp only [Option.map_some, Option.some.injEq] at hk
    rw [← hk, hobj, hkk]
  · exact hK k' obj' hk

variable (lessFunc : α → α → Bool)

theorem KeyedItems.Fix {h : data α} (hK : KeyedItems key h) (i : ℕ) :
    KeyedItems key (ContainerHeap.Fix (heapInterface lessFunc) h i) :=
  ContainerHeap.Fix_invariant (fun _ i j hs => hs.swap i j) hK i

theorem KeyedItems.Push {h : data α} (hK : KeyedItems key h) {kv : itemKeyValue α}
    (hkv : key kv.obj = kv.key) : KeyedItems key (ContainerHeap.Push (heapInterface lessFunc) h kv) :=
  ContainerHeap.Push_invariant (fun _ i j hs => hs.swap i j) (hK.push hkv)

theorem KeyedItems.Remove {h h' : data α} (hK : KeyedItems key h) {i : ℕ} {o : Option α}
    (hr : ContainerHeap.Remove (heapInterface lessFunc) h i = some (o, h')) : KeyedItems key h' :=
  (ContainerHeap.removeSift_invariant (fun _ i j hs => hs.swap i j) hK i).pop hr

theorem KeyedItems.Pop {h h' : data α} (hK : KeyedItems key h) {o : Option α}
    (hp : ContainerHeap.Pop (heapInterface lessFunc) h = some (o, h')) : KeyedItems key h' :=
  (ContainerHeap.popSift_invariant (fun _ i j hs => hs.swap i j) hK).pop hp

end keyed

/-! ### The methods on refining data -/

section refines

variable {key} (lessFunc : α → α → Bool) {h : data α} {kh : KeyedHeap key}

theorem refines_New : Refines key Heap.New (KeyedHeap.empty : KeyedHeap key) where
  inv := (show Valid (fun _ _ => false) Set.univ (Heap.New : data α) from valid_New).inv
  objs := rfl
  keyed _ _ hk := by cases hk

theorem Refines.queue_eq (hR : Refines key h kh) : h.queue = kh.queue.map key := by
  apply ext_getElem?
  intro p
  have hp := congrArg (·[p]?) hR.objs
  simp only [data.objs, getElem?_map] at hp
  rw [getElem?_map]
  cases hq : h.queue[p]? with
  | none =>
      rw [hq, Option.map_none, eq_comm, Option.map_eq_none_iff] at hp
      rw [hp, Option.map_none]
  | some k =>
      rw [hq, Option.map_some, eq_comm, Option.map_eq_some_iff] at hp
      obtain ⟨x, hx, hxk⟩ := hp
      rw [hx, Option.map_some, hR.keyed k x hxk.symm]

theorem Refines.mem_iff (hR : Refines key h kh) (obj : α) :
    (h.items (key obj)).isSome ↔ key obj ∈ kh.queue.map key := by
  rw [hR.inv.mem, hR.queue_eq]

theorem Refines.index (hR : Refines key h kh) (obj : α) :
    kh.index obj = (h.items (key obj)).map (·.index) := by
  cases hk : h.items (key obj) with
  | none =>
      have hnot : key obj ∉ kh.queue.map key := by
        rw [← hR.mem_iff, hk]
        exact Bool.false_ne_true
      refine findIdx?_eq_none_iff.mpr fun x hx => decide_eq_false fun hkx => hnot ?_
      rw [← hkx]
      exact mem_map_of_mem hx
  | some item =>
      have hq : (kh.queue.map key)[item.index]? = some (key obj) := by
        rw [← hR.queue_eq]
        exact hR.inv.getElem?_index hk
      rw [getElem?_map, Option.map_eq_some_iff] at hq
      obtain ⟨x, hx, hxk⟩ := hq
      obtain ⟨hlt, hxe⟩ := List.getElem?_eq_some_iff.mp hx
      refine findIdx?_eq_some_iff_getElem.mpr ⟨hlt, by simp [hxe, hxk], fun j hj hkj => ?_⟩
      have hjlt : j < kh.queue.length := Nat.lt_trans hj hlt
      have heq : kh.queue[j] = kh.queue[item.index] :=
        inj_on_of_nodup_map kh.nodup (getElem_mem hjlt) (getElem_mem hlt) (by simp_all)
      exact Nat.ne_of_lt hj ((kh.nodup.of_map key).getElem_inj_iff.mp heq)

/-- **`Heap.Add` simulates the keyed heap's `Add`.** -/
theorem Refines.Add (hR : Refines key h kh) (obj : α) :
    ∃ h', Heap.Add (fun x => .ok (key x)) lessFunc h obj = .ok h' ∧
      Refines key h' (kh.Add lessFunc obj) := by
  have hi := hR.index obj
  cases hk : h.items (key obj) with
  | some item =>
      rw [hk, Option.map_some] at hi
      refine ⟨ContainerHeap.Fix (heapInterface lessFunc)
          { h with items := Function.update h.items (key obj) (some { item with obj := obj }) }
          item.index, by simp only [Heap.Add, hk], ContainerHeap.Fix_invariant (inv_swap lessFunc)
        (hR.inv.setObj hk obj) _, ?_, (hR.keyed.setObj rfl).Fix lessFunc _⟩
      rw [objs_Fix_setObj lessFunc hR.inv hR.objs hk obj,
        KeyedHeap.Add_queue_of_index_some lessFunc hi]
  | none =>
      rw [hk, Option.map_none] at hi
      have hkq : key obj ∉ h.queue := fun hmem => by simpa [hk] using (hR.inv.mem _).mpr hmem
      refine ⟨ContainerHeap.Push (heapInterface lessFunc) h ⟨key obj, obj⟩,
        by simp only [Heap.Add, hk], ContainerHeap.Push_invariant (inv_swap lessFunc)
        (hR.inv.push hkq), ?_, hR.keyed.Push lessFunc rfl⟩
      rw [objs_Push_new lessFunc hR.inv hR.objs hk obj,
        KeyedHeap.Add_queue_of_index_none lessFunc hi]

/-- **`Heap.Delete` simulates the keyed heap's `Delete` that succeeds.** -/
theorem Refines.Delete_ok (hR : Refines key h kh) {obj : α} {kh' : KeyedHeap key}
    (hd : kh.Delete lessFunc obj = .ok kh') :
    ∃ h', Heap.Delete (fun x => .ok (key x)) lessFunc h obj = some (.ok h') ∧
      Refines key h' kh' := by
  obtain ⟨i, x, hi, hrem⟩ := KeyedHeap.Delete_eq_ok lessFunc hd
  rw [hR.index obj, Option.map_eq_some_iff] at hi
  obtain ⟨item, hk, rfl⟩ := hi
  have hlt : item.index < kh.queue.length :=
    (KeyedHeap.index_eq_some (by rw [hR.index obj, hk]; rfl)).1
  obtain ⟨x', l', h', hr, hrl, hinv, hobjs⟩ := hR.inv.Remove_objs lessFunc hR.objs hlt
  rw [hrl, Option.some.injEq, Prod.mk.injEq] at hrem
  obtain ⟨-, rfl⟩ := hrem
  refine ⟨h', ?_, hinv, hobjs, hR.keyed.Remove lessFunc hr⟩
  simp only [Heap.Delete, hk, hr, Option.map_some]

/-- `Heap.Delete` fails where the keyed heap's `Delete` fails, with the same message. -/
theorem Refines.Delete_error (hR : Refines key h kh) {obj : α} {e : String}
    (hd : kh.Delete lessFunc obj = .error e) :
    Heap.Delete (fun x => .ok (key x)) lessFunc h obj = some (.error (.errorf e)) := by
  cases hk : h.items (key obj) with
  | none =>
      have hnot : key obj ∉ kh.queue.map key := by
        rw [← hR.mem_iff, hk]
        exact Bool.false_ne_true
      rw [KeyedHeap.Delete_of_not_mem lessFunc hnot] at hd
      cases hd
      simp only [Heap.Delete, hk]
  | some item =>
      have hmem : key obj ∈ kh.queue.map key := by rw [← hR.mem_iff, hk]; rfl
      obtain ⟨kh', hd', -⟩ := KeyedHeap.Delete_of_mem lessFunc hmem
      rw [hd] at hd'
      cases hd'

/-- **`Heap.Pop` simulates the keyed heap's `Pop`.** -/
theorem Refines.Pop (hR : Refines key h kh) {x : α} {kh' : KeyedHeap key}
    (hp : kh.Pop lessFunc = some (x, kh')) :
    ∃ h', Heap.Pop lessFunc h = some (.ok x, h') ∧ Refines key h' kh' := by
  have hpop := KeyedHeap.Pop_eq_some_pop lessFunc hp
  have hne : kh.queue ≠ [] := fun he => by simp [he, GoHeap.pop] at hpop
  obtain ⟨x', l', h', hcp, hpl, hinv, hobjs⟩ := hR.inv.Pop_objs lessFunc hR.objs hne
  rw [hpl, Option.some.injEq, Prod.mk.injEq] at hpop
  obtain ⟨rfl, rfl⟩ := hpop
  exact ⟨h', Pop_of_container hcp, hinv, hobjs, hR.keyed.Pop lessFunc hcp⟩

theorem Refines.len_pos (hR : Refines key h kh) {x : α} {kh' : KeyedHeap key}
    (hp : kh.Pop lessFunc = some (x, kh')) : 0 < Heap.Len h := by
  rw [Heap.Len, length_of_objs hR.objs, ← (KeyedHeap.Pop_eq_some lessFunc hp).2.length_eq]
  exact Nat.succ_pos _

theorem Refines.exists_item (hR : Refines key h kh) {y : α} (hy : y ∈ kh.queue) :
    ∃ k item, h.items k = some item ∧ item.obj = y := by
  have hmem : some y ∈ data.objs h := by
    rw [hR.objs]
    exact mem_map_of_mem hy
  obtain ⟨k, -, hk⟩ := mem_map.mp hmem
  obtain ⟨item, hitem, hobj⟩ := Option.map_eq_some_iff.mp hk
  exact ⟨k, item, hitem, hobj⟩

/-- **The keyed heap's `Pop` returns a minimal object**, since the `Heap.Pop` of a reachable heap
that stores it does. -/
theorem Refines.Pop_min [IsStrictWeakOrder (Set.univ : Set α) fun a b => lessFunc a.1 b.1 = true]
    (hr : Reachable (fun x => .ok (key x)) lessFunc Set.univ h) (hR : Refines key h kh) {x : α}
    {kh' : KeyedHeap key} (hp : kh.Pop lessFunc = some (x, kh')) :
    ∀ y ∈ kh.queue, lessFunc y x = false := by
  obtain ⟨h', hpop, -⟩ := hR.Pop lessFunc hp
  obtain ⟨-, -, -, hmin⟩ := reachable_spec _ hr
  obtain ⟨x', h'', hpop', hle⟩ := hmin (hR.len_pos lessFunc hp)
  rw [hpop, Option.some.injEq, Prod.mk.injEq, Except.ok.injEq] at hpop'
  obtain ⟨rfl, -⟩ := hpop'
  intro y hy
  obtain ⟨k, item, hk, rfl⟩ := hR.exists_item hy
  exact hle k item hk

end refines

/-! ### Runs of the keyed heap -/

section simulated

variable {key} (lessFunc : α → α → Bool)

/-- The keyed heap is stored by a heap reached from `New` by calls with keys computed by `key`. -/
def Simulated (kh : KeyedHeap key) : Prop :=
  ∃ h, Reachable (fun x => .ok (key x)) lessFunc Set.univ h ∧ Refines key h kh

theorem simulated_empty : Simulated lessFunc (KeyedHeap.empty : KeyedHeap key) :=
  ⟨_, .init, refines_New⟩

variable {lessFunc} {kh : KeyedHeap key}

theorem Simulated.Add (hs : Simulated lessFunc kh) (obj : α) :
    Simulated lessFunc (kh.Add lessFunc obj) := by
  obtain ⟨h, hr, hR⟩ := hs
  obtain ⟨h', hadd, hR'⟩ := hR.Add lessFunc obj
  refine ⟨h', .step (.Add obj) hr trivial ?_, hR'⟩
  simp only [step, hadd, afterCall]

theorem Simulated.Delete (hs : Simulated lessFunc kh) {obj : α} {kh' : KeyedHeap key}
    (hd : kh.Delete lessFunc obj = .ok kh') : Simulated lessFunc kh' := by
  obtain ⟨h, hr, hR⟩ := hs
  obtain ⟨h', hdel, hR'⟩ := hR.Delete_ok lessFunc hd
  refine ⟨h', .step (.Delete obj) hr trivial ?_, hR'⟩
  simp only [step, hdel, Option.map_some, afterCall]

theorem Simulated.Pop (hs : Simulated lessFunc kh) {x : α} {kh' : KeyedHeap key}
    (hp : kh.Pop lessFunc = some (x, kh')) : Simulated lessFunc kh' := by
  obtain ⟨h, hr, hR⟩ := hs
  obtain ⟨h', hpop, hR'⟩ := hR.Pop lessFunc hp
  refine ⟨h', .step .Pop hr (hR.len_pos lessFunc hp) ?_, hR'⟩
  simp only [step, hpop, Option.map_some]

end simulated

end Heap

end Caspr
