import Mathlib.Data.List.Nodup
import Caspr.Lib.ContainerHeap
import Caspr.Lib.HeapOrder
import Caspr.Lib.Run

set_option linter.dupNamespace false

/-! # The scheduler's heap (`internal/heap`)

`data` stores the objects in a map `items` from keys to items, each item with the index of its
key in `queue`, the slice that `container/heap` keeps in heap order.  `data` implements
`heap.Interface` (`heapInterface`): its `Swap` swaps two keys of the queue and writes each one's
new index into its item, its `Push` and `Pop` add and drop the last key with its item.  `Heap`'s
methods compute the key of an object with `keyFunc` and call `container/heap` on the data: `Add`
replaces the object of a key already present in place and fixes its position, or pushes it;
`Delete` removes the key at the index its item records; `Pop` pops the root.

`Inv` is the agreement of the two: the keys of the queue are distinct, they are the keys of
`items`, and the item of the key at index `i` records `i`.  Every `Swap` keeps it (`Inv.Swap`),
and so do `Push` of a new key and `Pop` (`Inv.Push`, `Inv.Pop`); so every sift keeps it, through
the invariant rule of `container/heap`.

Read through its items, the queue is the slice of objects `objs`; `objs` maps the data's `Len`,
`Less` and `Swap` to those of the slice (`simulation`), so every call of `container/heap` on the
data is the call of `GoHeap` on the objects.  When `lessFunc` is a strict weak order on a set
`S` of objects and every object added is in `S`, every reachable heap satisfies `Inv`, its objects
are in heap order, and `Peek` and `Pop` return an object that no stored object is less than
(`reachable_spec`).

`keyFunc` and `lessFunc`, set once by `New`, are parameters; `Heap`'s metric recorder is left
out, so `Heap` is its data here and its methods take the data. -/

namespace Caspr

namespace Heap

open List

variable {α : Type}

/-- `heapItem`: a stored object and the index of its key in the queue. -/
structure heapItem (α : Type) where
  obj : α
  index : ℕ

/-- `itemKeyValue`: what `data.Push` takes. -/
structure itemKeyValue (α : Type) where
  key : String
  obj : α

/-- `data`: the items by key, and the queue of their keys. -/
structure data (α : Type) where
  items : String → Option (heapItem α)
  queue : List String

namespace data

variable (lessFunc : α → α → Bool)

/-- `h.Less(i, j)`: the objects of the keys at `i` and `j`.  Go indexes the queue at `i = len`
and panics; `container/heap` never passes an index outside the queue. -/
def Less (h : data α) (i j : ℕ) : Bool :=
  if i > h.queue.length ∨ j > h.queue.length then false
  else
    match h.queue[i]?.bind h.items, h.queue[j]?.bind h.items with
    | some itemi, some itemj => lessFunc itemi.obj itemj.obj
    | _, _ => false

/-- `h.Len()`. -/
def Len (h : data α) : ℕ := h.queue.length

/-- `item.index = i` on the item of `key`, through the pointer `items` holds. -/
def setIndex (items : String → Option (heapItem α)) (key : String) (i : ℕ) :
    String → Option (heapItem α) :=
  Function.update items key ((items key).map fun item => { item with index := i })

/-- `h.Swap(i, j)`: swap two keys of the queue, and record in each one's item its new index.
Outside the queue Go panics; `container/heap` only swaps inside it. -/
def Swap (h : data α) (i j : ℕ) : data α :=
  let queue := GoHeap.swap h.queue i j
  match queue[i]?, queue[j]? with
  | some ki, some kj => { items := setIndex (setIndex h.items ki i) kj j, queue := queue }
  | _, _ => h

/-- `h.Push(kv)`: the item of the key, at the index past the queue, and the key at the end. -/
def Push (h : data α) (kv : itemKeyValue α) : data α :=
  let n := h.queue.length
  { items := Function.update h.items kv.key (some ⟨kv.obj, n⟩), queue := h.queue ++ [kv.key] }

/-- `h.Pop()`: drop the last key and its item, and return the item's object (`none` for nil, when
the key has no item).  On an empty queue Go panics (`none`). -/
def Pop (h : data α) : Option (Option α × data α) :=
  match h.queue.getLast? with
  | none => none
  | some key =>
      let queue := h.queue.dropLast
      match h.items key with
      | none => some (none, { h with queue := queue })
      | some item => some (some item.obj, { items := Function.update h.items key none, queue := queue })

/-- `h.Peek()`: the object of the first key. -/
def Peek (h : data α) : Option α := (h.queue[0]?.bind h.items).map (·.obj)

end data

/-- `data` as the `heap.Interface` that `container/heap` works on. -/
def heapInterface (lessFunc : α → α → Bool) :
    ContainerHeap.Interface (data α) (itemKeyValue α) (Option α) where
  Len := data.Len
  Less := data.Less lessFunc
  Swap := data.Swap
  Push := data.Push
  Pop := data.Pop

/-- The errors `Heap`'s methods return: `cache.KeyError` of a failed key, and `fmt.Errorf`. -/
inductive Error where
  | KeyError (err : String)
  | errorf (msg : String)
deriving DecidableEq, Repr

namespace Heap

variable (keyFunc : α → Except String String) (lessFunc : α → α → Bool)

/-- `New(keyFn, lessFn)`: no items, and an empty queue. -/
def New : data α := ⟨fun _ => none, []⟩

/-- `h.Add(obj)`: an object whose key is present replaces the stored one in place, whose position
is then fixed; another is pushed. -/
def Add (h : data α) (obj : α) : Except Error (data α) :=
  match keyFunc obj with
  | .error err => .error (.KeyError err)
  | .ok key =>
      match h.items key with
      | some item =>
          .ok (ContainerHeap.Fix (heapInterface lessFunc)
            { h with items := Function.update h.items key (some { item with obj := obj }) } item.index)
      | none => .ok (ContainerHeap.Push (heapInterface lessFunc) h ⟨key, obj⟩)

/-- `h.AddIfNotPresent(obj)`: push the object unless its key is present. -/
def AddIfNotPresent (h : data α) (obj : α) : Except Error (data α) :=
  match keyFunc obj with
  | .error err => .error (.KeyError err)
  | .ok key =>
      match h.items key with
      | some _ => .ok h
      | none => .ok (ContainerHeap.Push (heapInterface lessFunc) h ⟨key, obj⟩)

/-- `h.Update(obj)` is `h.Add(obj)`. -/
def Update (h : data α) (obj : α) : Except Error (data α) := Add keyFunc lessFunc h obj

/-- `h.Delete(obj)`: remove the key at the index its item records.  `none` where Go panics. -/
def Delete (h : data α) (obj : α) : Option (Except Error (data α)) :=
  match keyFunc obj with
  | .error err => some (.error (.KeyError err))
  | .ok key =>
      match h.items key with
      | some item => (ContainerHeap.Remove (heapInterface lessFunc) h item.index).map fun r => .ok r.2
      | none => some (.error (.errorf "object not found"))

/-- `h.Peek()`. -/
def Peek (h : data α) : Option α := h.Peek

/-- `h.Pop()`: the root's object, or an error when the popped key had no item; `none` where Go
panics, on an empty heap. -/
def Pop (h : data α) : Option (Except Error α × data α) :=
  (ContainerHeap.Pop (heapInterface lessFunc) h).map fun r =>
    match r.1 with
    | some obj => (.ok obj, r.2)
    | none => (.error (.errorf "object was removed from heap data"), r.2)

/-- `h.GetByKey(key)`. -/
def GetByKey (h : data α) (key : String) : Option α := (h.items key).map (·.obj)

/-- `h.Get(obj)`. -/
def Get (h : data α) (obj : α) : Except Error (Option α) :=
  match keyFunc obj with
  | .error err => .error (.KeyError err)
  | .ok key => .ok (GetByKey h key)

/-- `h.Len()`. -/
def Len (h : data α) : ℕ := h.queue.length

end Heap

/-! ### Calls and runs -/

/-- The calls on a heap. -/
inductive Op (α : Type) where
  | Add (obj : α)
  | AddIfNotPresent (obj : α)
  | Update (obj : α)
  | Delete (obj : α)
  | Pop

/-- The heap a call leaves: the new one, or the old one when the call returns an error, which it
does before it changes anything. -/
def afterCall (h : data α) : Except Error (data α) → data α
  | .ok h' => h'
  | .error _ => h

section runs

variable (keyFunc : α → Except String String) (lessFunc : α → α → Bool)

/-- One call; `none` where Go panics. -/
def step (h : data α) : Op α → Option (data α)
  | .Add obj => some (afterCall h (Heap.Add keyFunc lessFunc h obj))
  | .AddIfNotPresent obj => some (afterCall h (Heap.AddIfNotPresent keyFunc lessFunc h obj))
  | .Update obj => some (afterCall h (Heap.Update keyFunc lessFunc h obj))
  | .Delete obj => (Heap.Delete keyFunc lessFunc h obj).map (afterCall h)
  | .Pop => (Heap.Pop lessFunc h).map (·.2)

/-- What the callers keep to: the objects they add are in `S`, and they pop only a heap that is not
empty. -/
def OpOk (S : Set α) (h : data α) : Op α → Prop
  | .Add obj | .AddIfNotPresent obj | .Update obj => obj ∈ S
  | .Delete _ => True
  | .Pop => 0 < Heap.Len h

/-- The heaps of the runs from `New` whose calls keep to `OpOk`. -/
def Reachable (S : Set α) : data α → Prop :=
  StepSystem.Reachable (fun h op h' => step keyFunc lessFunc h op = some h') (OpOk S) Heap.New

end runs


/-! ### The items and the queue agree -/

namespace data

@[simp] theorem setIndex_self (items : String → Option (heapItem α)) (key : String) (i : ℕ) :
    setIndex items key i key = (items key).map fun item => { item with index := i } :=
  Function.update_self ..

theorem setIndex_of_ne (items : String → Option (heapItem α)) {key key' : String} (h : key' ≠ key)
    (i : ℕ) : setIndex items key i key' = items key' :=
  Function.update_of_ne h ..

/-- Recording an index changes no object. -/
@[simp] theorem map_obj_setIndex (items : String → Option (heapItem α)) (key : String) (i : ℕ)
    (key' : String) : (setIndex items key i key').map (·.obj) = (items key').map (·.obj) := by
  by_cases h : key' = key
  · subst h
    rw [setIndex_self, Option.map_map]
    rfl
  · rw [setIndex_of_ne items h]

@[simp] theorem isSome_setIndex (items : String → Option (heapItem α)) (key : String) (i : ℕ)
    (key' : String) : (setIndex items key i key').isSome = (items key').isSome := by
  by_cases h : key' = key
  · subst h
    rw [setIndex_self, Option.isSome_map]
  · rw [setIndex_of_ne items h]

theorem map_index_setIndex_self (items : String → Option (heapItem α)) (key : String) (i : ℕ) :
    (setIndex items key i key).map (·.index) = (items key).map fun _ => i := by
  rw [setIndex_self, Option.map_map]
  rfl

theorem Swap_of_lt {h : data α} {i j : ℕ} (hi : i < h.queue.length) (hj : j < h.queue.length) :
    Swap h i j =
      { items := setIndex (setIndex h.items h.queue[j] i) h.queue[i] j,
        queue := GoHeap.swap h.queue i j } := by
  have hqi : (GoHeap.swap h.queue i j)[i]? = some h.queue[j] := by
    rw [GoHeap.getElem?_swap hi hj, Equiv.swap_apply_left, getElem?_eq_getElem hj]
  have hqj : (GoHeap.swap h.queue i j)[j]? = some h.queue[i] := by
    rw [GoHeap.getElem?_swap hi hj, Equiv.swap_apply_right, getElem?_eq_getElem hi]
  unfold Swap
  simp only [hqi, hqj]

theorem Swap_of_not_lt {h : data α} {i j : ℕ} (hr : ¬(i < h.queue.length ∧ j < h.queue.length)) :
    Swap h i j = h := by
  have hq : GoHeap.swap h.queue i j = h.queue := by
    unfold GoHeap.swap
    rw [dif_neg hr]
  unfold Swap
  simp only [hq]
  rcases not_and_or.mp hr with hi | hj
  · rw [getElem?_eq_none (Nat.le_of_not_lt hi)]
  · rw [getElem?_eq_none (Nat.le_of_not_lt hj)]
    cases h.queue[i]? <;> rfl

/-- The agreement of the items and the queue: the queue's keys are distinct and are the keys of
`items`, and the item of the key at index `i` records `i`. -/
structure Inv (h : data α) : Prop where
  nodup : h.queue.Nodup
  mem : ∀ key, (h.items key).isSome ↔ key ∈ h.queue
  index : ∀ i key, h.queue[i]? = some key → (h.items key).map (·.index) = some i

theorem Inv.eq_of_getElem? {h : data α} (hv : Inv h) {a b : ℕ} {key : String}
    (ha : h.queue[a]? = some key) (hb : h.queue[b]? = some key) : a = b :=
  (getElem?_inj (List.getElem?_eq_some_iff.mp ha).1 hv.nodup).mp (ha.trans hb.symm)

theorem Inv.getElem?_index {h : data α} (hv : Inv h) {key : String} {item : heapItem α}
    (hk : h.items key = some item) : h.queue[item.index]? = some key := by
  obtain ⟨p, hp, hpk⟩ := mem_iff_getElem.mp ((hv.mem key).mp (by rw [hk]; rfl))
  have hq : h.queue[p]? = some key := by rw [getElem?_eq_getElem hp, hpk]
  have hidx := hv.index p key hq
  rw [hk, Option.map_some, Option.some_inj] at hidx
  rwa [hidx]

/-- **`Swap` keeps the agreement.**  The two keys swapped have their items record their new
indices; every other key stays where it was. -/
theorem Inv.swap {h : data α} (hv : Inv h) (i j : ℕ) : Inv (Swap h i j) := by
  by_cases hr : i < h.queue.length ∧ j < h.queue.length
  · have hperm := GoHeap.swap_perm h.queue i j
    have hsome : ∀ key ∈ h.queue, ∃ item, h.items key = some item := fun key hk =>
      Option.isSome_iff_exists.mp ((hv.mem key).mpr hk)
    rw [Swap_of_lt hr.1 hr.2]
    constructor
    · exact hperm.nodup_iff.mpr hv.nodup
    · intro key
      rw [isSome_setIndex, isSome_setIndex, hv.mem, hperm.mem_iff]
    · intro k key hk
      dsimp only at hk ⊢
      rw [GoHeap.getElem?_swap hr.1 hr.2] at hk
      have hmem := mem_of_getElem? hk
      by_cases hki : key = h.queue[i]
      · have hσ : Equiv.swap i j k = i :=
          hv.eq_of_getElem? hk (by rw [hki, getElem?_eq_getElem hr.1])
        have hkj : k = j := (Equiv.swap i j).injective (hσ.trans (Equiv.swap_apply_right i j).symm)
        subst hki
        obtain ⟨item, hitem⟩ := Option.isSome_iff_exists.mp
          (show (setIndex h.items h.queue[j] i h.queue[i]).isSome by rw [isSome_setIndex, hv.mem]; exact hmem)
        rw [map_index_setIndex_self, hitem, hkj]
        rfl
      · by_cases hkj : key = h.queue[j]
        · have hσ : Equiv.swap i j k = j :=
            hv.eq_of_getElem? hk (by rw [hkj, getElem?_eq_getElem hr.2])
          have hki' : k = i := (Equiv.swap i j).injective (hσ.trans (Equiv.swap_apply_left i j).symm)
          obtain ⟨item, hitem⟩ := hsome key hmem
          subst hkj
          rw [setIndex_of_ne _ hki, map_index_setIndex_self, hitem, hki']
          rfl
        · have hσi : Equiv.swap i j k ≠ i := fun hσ => hki (by
            rw [hσ, getElem?_eq_getElem hr.1, Option.some_inj] at hk
            exact hk.symm)
          have hσj : Equiv.swap i j k ≠ j := fun hσ => hkj (by
            rw [hσ, getElem?_eq_getElem hr.2, Option.some_inj] at hk
            exact hk.symm)
          have hk' : k ≠ i := fun he => hσj (by rw [he, Equiv.swap_apply_left])
          have hk'' : k ≠ j := fun he => hσi (by rw [he, Equiv.swap_apply_right])
          rw [Equiv.swap_apply_of_ne_of_ne hk' hk''] at hk
          rw [setIndex_of_ne _ hki, setIndex_of_ne _ hkj]
          exact hv.index k key hk
  · rw [Swap_of_not_lt hr]
    exact hv

/-- **`Push` of a new key keeps the agreement.** -/
theorem Inv.push {h : data α} (hv : Inv h) {kv : itemKeyValue α} (hk : kv.key ∉ h.queue) :
    Inv (Push h kv) where
  nodup := nodup_append.mpr ⟨hv.nodup, nodup_singleton _, fun a ha b hb he => by
    rw [mem_singleton] at hb
    exact hk (hb ▸ he ▸ ha)⟩
  mem key := by
    by_cases hkey : key = kv.key
    · subst hkey
      simp [Push]
    · simp [Push, hv.mem, hkey]
  index i key hq := by
    simp only [Push] at hq ⊢
    by_cases hi : i < h.queue.length
    · rw [getElem?_append_left hi] at hq
      have hne : key ≠ kv.key := fun he => hk (he ▸ mem_of_getElem? hq)
      rw [Function.update_of_ne hne]
      exact hv.index i key hq
    · rw [getElem?_append_right (Nat.le_of_not_lt hi), getElem?_singleton] at hq
      split_ifs at hq with h0
      rw [Option.some_inj] at hq
      subst hq
      rw [Function.update_self, Option.map_some, Option.some_inj]
      dsimp only
      omega

theorem getLast_not_mem_dropLast {l : List String} (hnd : l.Nodup) (hne : l ≠ []) :
    l.getLast hne ∉ l.dropLast := by
  have hsplit := dropLast_append_getLast hne
  rw [← hsplit, nodup_append] at hnd
  exact fun hmem => hnd.2.2 _ hmem _ (mem_singleton_self _) rfl

/-- **`Pop` of a queue that is not empty keeps the agreement**: it drops the last key, with its
item. -/
theorem Inv.pop {h : data α} (hv : Inv h) (hne : h.queue ≠ []) :
    ∃ item, h.items (h.queue.getLast hne) = some item ∧
      Pop h = some (some item.obj,
        { items := Function.update h.items (h.queue.getLast hne) none, queue := h.queue.dropLast }) ∧
      Inv { items := Function.update h.items (h.queue.getLast hne) none, queue := h.queue.dropLast } := by
  have hlast := getLast_not_mem_dropLast hv.nodup hne
  have hsplit := dropLast_append_getLast hne
  obtain ⟨item, hitem⟩ := Option.isSome_iff_exists.mp ((hv.mem _).mpr (getLast_mem hne))
  refine ⟨item, hitem, ?_, ?_⟩
  · simp only [Pop, getLast?_eq_some_getLast hne, hitem]
  · constructor
    · exact hv.nodup.sublist (dropLast_sublist _)
    · intro key
      dsimp only
      by_cases hkey : key = h.queue.getLast hne
      · subst hkey
        simp [hlast]
      · rw [Function.update_of_ne hkey, hv.mem]
        conv_lhs => rw [← hsplit]
        simp [hkey]
    · intro i key hq
      dsimp only at hq ⊢
      have hmem := mem_of_getElem? hq
      have hne' : key ≠ h.queue.getLast hne := fun he => hlast (he ▸ hmem)
      rw [getElem?_dropLast] at hq
      split_ifs at hq
      rw [Function.update_of_ne hne']
      exact hv.index i key hq

theorem Inv.setObj {h : data α} (hv : Inv h) {key : String} {item : heapItem α}
    (hk : h.items key = some item) (obj : α) :
    Inv { h with items := Function.update h.items key (some { item with obj := obj }) } where
  nodup := hv.nodup
  mem key' := by
    dsimp only
    by_cases hkey : key' = key
    · subst hkey
      rw [Function.update_self, ← hv.mem, hk]
      rfl
    · rw [Function.update_of_ne hkey, hv.mem]
  index i key' hq := by
    dsimp only at hq ⊢
    by_cases hkey : key' = key
    · subst hkey
      rw [Function.update_self]
      have := hv.index i key' hq
      rwa [hk] at this
    · rw [Function.update_of_ne hkey]
      exact hv.index i key' hq

/-! ### The queue read through the items -/

/-- The objects of the queue's keys, in the queue's order; `none` for a key without an item. -/
def objs (h : data α) : List (Option α) := h.queue.map fun key => (h.items key).map (·.obj)

theorem lessAt_objs (lessFunc : α → α → Bool) (h : data α) (i j : ℕ) :
    GoHeap.lessAt (GoHeap.optionLess lessFunc) (objs h) i j = Less lessFunc h i j := by
  unfold Less GoHeap.lessAt objs
  rw [getElem?_map, getElem?_map]
  split_ifs with hout
  · rcases hout with hi | hj
    · rw [getElem?_eq_none (l := h.queue) (i := i) (by omega)]
      rfl
    · rw [getElem?_eq_none (l := h.queue) (i := j) (by omega)]
      cases h.queue[i]? <;> rfl
  · cases h.queue[i]? with
    | none => rfl
    | some ki =>
      cases h.queue[j]? with
      | none =>
        simp only [Option.map_some, Option.map_none, Option.bind_some, Option.bind_none]
        cases h.items ki <;> rfl
      | some kj =>
        simp only [Option.map_some, Option.bind_some]
        cases h.items ki <;> cases h.items kj <;> rfl

theorem objs_Swap (h : data α) (i j : ℕ) : objs (Swap h i j) = GoHeap.swap (objs h) i j := by
  by_cases hr : i < h.queue.length ∧ j < h.queue.length
  · rw [Swap_of_lt hr.1 hr.2, objs, objs, GoHeap.swap_map]
    simp only [map_obj_setIndex]
  · rw [Swap_of_not_lt hr, objs, GoHeap.swap_map, show GoHeap.swap h.queue i j = h.queue by
      unfold GoHeap.swap
      rw [dif_neg hr]]

/-- **The data simulates the slice of its objects**: `objs` maps its `Len`, `Less` and `Swap` to
those of the slice, compared by `lessFunc` (a missing object compares as not less). -/
theorem simulation (lessFunc : α → α → Bool) :
    ContainerHeap.Simulation (heapInterface lessFunc)
      (ContainerHeap.listInterface (GoHeap.optionLess lessFunc)) objs where
  len _ := length_map ..
  less h i j := lessAt_objs lessFunc h i j
  swap h i j := objs_Swap h i j

theorem objs_Push {h : data α} {kv : itemKeyValue α} (hk : kv.key ∉ h.queue) :
    objs (Push h kv) = objs h ++ [some kv.obj] := by
  simp only [objs, Push, map_append, map_singleton, Function.update_self, Option.map_some]
  congr 1
  refine map_congr_left fun key hkey => ?_
  rw [Function.update_of_ne (show key ≠ kv.key from fun he => hk (he ▸ hkey))]

theorem objs_setObj {h : data α} (hv : Inv h) {key : String} {item : heapItem α}
    (hk : h.items key = some item) (obj : α) :
    objs { h with items := Function.update h.items key (some { item with obj := obj }) } =
      (objs h).set item.index (some obj) := by
  have hidx := hv.getElem?_index hk
  apply ext_getElem?
  intro p
  simp only [objs, getElem?_map, getElem?_set, length_map]
  by_cases hp : item.index = p
  · subst hp
    rw [if_pos rfl, if_pos (List.getElem?_eq_some_iff.mp hidx).1, hidx]
    simp
  · rw [if_neg hp]
    cases hq : h.queue[p]? with
    | none => rfl
    | some key' =>
      have hne : key' ≠ key := fun he => hp (hv.eq_of_getElem? hidx (he ▸ hq))
      simp only [Option.map_some, Function.update_of_ne hne]

theorem objs_pop {h : data α} (hv : Inv h) (hne : h.queue ≠ []) :
    objs { items := Function.update h.items (h.queue.getLast hne) none, queue := h.queue.dropLast } =
      (objs h).dropLast := by
  have hlast := getLast_not_mem_dropLast hv.nodup hne
  simp only [objs, ← map_dropLast]
  refine map_congr_left fun key hkey => ?_
  rw [Function.update_of_ne (show key ≠ h.queue.getLast hne from fun he => hlast (he ▸ hkey))]

theorem Peek_eq (h : data α) : Peek h = (objs h)[0]?.bind id := by
  simp only [Peek, objs, getElem?_map]
  cases h.queue[0]? <;> rfl

end data

/-! ### Reachable heaps -/

section valid

open data

variable (lessFunc : α → α → Bool) (S : Set α)

/-- What every reachable heap satisfies: the items and the queue agree, and the objects of the
queue are objects of `S`, in heap order. -/
structure Valid (h : data α) : Prop where
  inv : Inv h
  heap : ∃ l : List α, objs h = l.map some ∧ (∀ x ∈ l, x ∈ S) ∧ GoHeap.Ordered lessFunc l

variable {lessFunc S}

theorem valid_New : Valid lessFunc S (Heap.New : data α) where
  inv := ⟨nodup_nil, fun _ => by simp [Heap.New], fun _ _ hq => by simp [Heap.New] at hq⟩
  heap := ⟨[], rfl, fun _ hx => absurd hx (not_mem_nil), fun _ hk => absurd hk (Nat.not_lt_zero _)⟩

theorem mem_of_items {h : data α} (hv : Inv h) {l : List α} (hl : objs h = l.map some) {key : String}
    {item : heapItem α} (hk : h.items key = some item) : item.obj ∈ l := by
  have hobj : (objs h)[item.index]? = some (some item.obj) := by
    simp [objs, getElem?_map, hv.getElem?_index hk, hk]
  rw [hl, getElem?_map] at hobj
  obtain ⟨x, hx, hxe⟩ := Option.map_eq_some_iff.mp hobj
  rw [Option.some_inj] at hxe
  exact hxe ▸ mem_of_getElem? hx

theorem length_of_objs {h : data α} {l : List α} (hl : objs h = l.map some) :
    h.queue.length = l.length := by
  have := congrArg List.length hl
  simpa [objs] using this

theorem data.Inv.pop_objs {h : data α} (hv : Inv h) {l : List α} (hl : objs h = l.map some) (hne : l ≠ []) :
    ∃ x h', Pop h = some (some x, h') ∧ l.getLast? = some x ∧ Inv h' ∧ objs h' = l.dropLast.map some := by
  have hq : h.queue ≠ [] := by
    rw [← length_pos_iff, length_of_objs hl]
    exact length_pos_iff.mpr hne
  obtain ⟨item, hitem, hpop, hinv⟩ := hv.pop hq
  refine ⟨item.obj, _, hpop, ?_, hinv, by rw [objs_pop hv hq, hl, map_dropLast]⟩
  have hlast : (objs h).getLast? = some (some item.obj) := by
    rw [objs, getLast?_map, getLast?_eq_some_getLast hq, Option.map_some, hitem, Option.map_some]
  rw [hl, getLast?_map] at hlast
  obtain ⟨x, hx, hxe⟩ := Option.map_eq_some_iff.mp hlast
  rw [Option.some_inj] at hxe
  rw [hx, hxe]

theorem inv_swap (lessFunc : α → α → Bool) (s : data α) (i j : ℕ) (hs : Inv s) :
    Inv ((heapInterface lessFunc).Swap s i j) :=
  hs.swap i j

/-! The calls of `container/heap` on the data are the calls of `GoHeap` on its objects. -/

theorem objs_Fix_setObj (lessFunc : α → α → Bool) {h : data α} (hv : Inv h) {l : List α}
    (hl : objs h = l.map some) {key : String} {item : heapItem α} (hk : h.items key = some item)
    (obj : α) :
    objs (ContainerHeap.Fix (heapInterface lessFunc)
      { h with items := Function.update h.items key (some { item with obj := obj }) } item.index) =
      (GoHeap.fix lessFunc (l.set item.index obj) item.index).map some := by
  rw [(simulation lessFunc).obs_Fix, objs_setObj hv hk, hl, ← map_set,
    ContainerHeap.Fix_listInterface, GoHeap.fix_map some (GoHeap.optionLess_some lessFunc)]

theorem objs_Push_new (lessFunc : α → α → Bool) {h : data α} (hv : Inv h) {l : List α}
    (hl : objs h = l.map some) {key : String} (hk : h.items key = none) (obj : α) :
    objs (ContainerHeap.Push (heapInterface lessFunc) h ⟨key, obj⟩) =
      (GoHeap.push lessFunc l obj).map some := by
  have hkq : key ∉ h.queue := fun hmem => by simpa [hk] using (hv.mem key).mpr hmem
  rw [(simulation lessFunc).obs_Push (y := some obj) (@objs_Push _ h ⟨key, obj⟩ hkq), hl,
    ContainerHeap.Push_listInterface, GoHeap.push_map some (GoHeap.optionLess_some lessFunc)]

/-- `heap.Remove` at an index of the queue returns the object `remove` returns from the objects,
and leaves the objects it leaves. -/
theorem data.Inv.Remove_objs (lessFunc : α → α → Bool) {h : data α} (hv : Inv h) {l : List α}
    (hl : objs h = l.map some) {i : ℕ} (hi : i < l.length) :
    ∃ x l' h', ContainerHeap.Remove (heapInterface lessFunc) h i = some (some x, h') ∧
      GoHeap.remove lessFunc l i = some (x, l') ∧ Inv h' ∧ objs h' = l'.map some := by
  have hinv := ContainerHeap.removeSift_invariant (inv_swap lessFunc) hv i
  have hobjs : objs (ContainerHeap.removeSift (heapInterface lessFunc) h i) =
      (GoHeap.removeSift lessFunc l i).map some := by
    rw [(simulation lessFunc).obs_removeSift, hl, ContainerHeap.removeSift_listInterface,
      GoHeap.removeSift_map some (GoHeap.optionLess_some lessFunc)]
  have hne : GoHeap.removeSift lessFunc l i ≠ [] := by
    rw [← length_pos_iff, (GoHeap.removeSift_perm lessFunc l _).length_eq]
    omega
  obtain ⟨x, h', hpop, hlast, hinv', hobjs'⟩ := hinv.pop_objs hobjs hne
  refine ⟨x, _, h', hpop, ?_, hinv', hobjs'⟩
  rw [GoHeap.remove, hlast]
  rfl

/-- `heap.Pop` of data that is not empty returns the object `pop` returns from the objects, and
leaves the objects it leaves. -/
theorem data.Inv.Pop_objs (lessFunc : α → α → Bool) {h : data α} (hv : Inv h) {l : List α}
    (hl : objs h = l.map some) (hl0 : l ≠ []) :
    ∃ x l' h', ContainerHeap.Pop (heapInterface lessFunc) h = some (some x, h') ∧
      GoHeap.pop lessFunc l = some (x, l') ∧ Inv h' ∧ objs h' = l'.map some := by
  have hinv := ContainerHeap.popSift_invariant (inv_swap lessFunc) hv
  set l₂ := (GoHeap.down lessFunc (GoHeap.swap l 0 (l.length - 1)) 0 (l.length - 1)).1 with hl₂
  have hobjs : objs (ContainerHeap.popSift (heapInterface lessFunc) h) = l₂.map some := by
    rw [(simulation lessFunc).obs_popSift, hl, ContainerHeap.popSift_listInterface, length_map,
      GoHeap.swap_map, GoHeap.down_map some (GoHeap.optionLess_some lessFunc)]
  have hne₂ : l₂ ≠ [] := by
    rw [← length_pos_iff, hl₂, (GoHeap.down_perm lessFunc _ 0 _).length_eq, GoHeap.length_swap]
    exact length_pos_iff.mpr hl0
  obtain ⟨x, h', hpop, hlast, hinv', hobjs'⟩ := hinv.pop_objs hobjs hne₂
  refine ⟨x, _, h', hpop, ?_, hinv', hobjs'⟩
  rw [GoHeap.pop, if_neg hl0]
  simp only [← hl₂, hlast, Option.map_some]

/-- `Heap.Pop` returns the object `heap.Pop` returns. -/
theorem Pop_of_container {lessFunc : α → α → Bool} {h h' : data α} {x : α}
    (hp : ContainerHeap.Pop (heapInterface lessFunc) h = some (some x, h')) :
    Heap.Pop lessFunc h = some (.ok x, h') := by
  simp only [Heap.Pop, hp, Option.map_some]

variable [IsStrictWeakOrder S fun a b => lessFunc a.1 b.1 = true]

/-- **`Add` of a present key keeps `Valid`**: the object replaced in place, `heap.Fix` at the
index its item records. -/
theorem Valid.fix {h : data α} (hv : Valid lessFunc S h) {key : String} {item : heapItem α}
    (hk : h.items key = some item) {obj : α} (hobj : obj ∈ S) :
    Valid lessFunc S (ContainerHeap.Fix (heapInterface lessFunc)
      { h with items := Function.update h.items key (some { item with obj := obj }) } item.index) := by
  obtain ⟨l, hl, hS, ho⟩ := hv.heap
  have hi : item.index < l.length := by
    rw [← length_of_objs hl]
    exact (List.getElem?_eq_some_iff.mp (hv.inv.getElem?_index hk)).1
  refine ⟨ContainerHeap.Fix_invariant (inv_swap lessFunc) (hv.inv.setObj hk obj) _,
    GoHeap.fix lessFunc (l.set item.index obj) item.index, objs_Fix_setObj lessFunc hv.inv hl hk obj,
    fun x hx => ?_, GoHeap.fix_ordered_on hS ho hi hobj⟩
  rcases mem_or_eq_of_mem_set ((GoHeap.fix_perm lessFunc _ _).mem_iff.mp hx) with hx | rfl
  · exact hS x hx
  · exact hobj

/-- **`Add` of a new key keeps `Valid`**: `heap.Push`. -/
theorem Valid.push {h : data α} (hv : Valid lessFunc S h) {key : String} (hk : h.items key = none)
    {obj : α} (hobj : obj ∈ S) :
    Valid lessFunc S (ContainerHeap.Push (heapInterface lessFunc) h ⟨key, obj⟩) := by
  obtain ⟨l, hl, hS, ho⟩ := hv.heap
  have hkq : key ∉ h.queue := fun hmem => by simpa [hk] using (hv.inv.mem key).mpr hmem
  refine ⟨ContainerHeap.Push_invariant (inv_swap lessFunc) (hv.inv.push hkq), GoHeap.push lessFunc l obj,
    objs_Push_new lessFunc hv.inv hl hk obj, fun x hx => ?_, GoHeap.push_ordered_on hS ho hobj⟩
  rcases mem_cons.mp ((GoHeap.push_perm lessFunc l obj).mem_iff.mp hx) with rfl | hx
  · exact hobj
  · exact hS x hx

/-- **`Delete` of a present key keeps `Valid`**: `heap.Remove` at the index its item records
returns its object. -/
theorem Valid.remove {h : data α} (hv : Valid lessFunc S h) {key : String} {item : heapItem α}
    (hk : h.items key = some item) :
    ∃ x h', ContainerHeap.Remove (heapInterface lessFunc) h item.index = some (some x, h') ∧
      Valid lessFunc S h' := by
  obtain ⟨l, hl, hS, ho⟩ := hv.heap
  have hi : item.index < l.length := by
    rw [← length_of_objs hl]
    exact (List.getElem?_eq_some_iff.mp (hv.inv.getElem?_index hk)).1
  obtain ⟨x, l', h', hrem, hreml, hinv', hobjs'⟩ := hv.inv.Remove_objs lessFunc hl hi
  have hperm := (GoHeap.remove_perm lessFunc hreml hi).2
  exact ⟨x, h', hrem, hinv', l', hobjs', fun y hy => hS y (hperm.mem_iff.mp (mem_cons_of_mem x hy)),
    GoHeap.remove_ordered_on hS ho hi hreml⟩

/-- **`Pop` of a heap that is not empty returns a minimal object and keeps `Valid`.** -/
theorem Valid.pop {h : data α} (hv : Valid lessFunc S h) (hne : 0 < h.queue.length) :
    ∃ x h', Heap.Pop lessFunc h = some (.ok x, h') ∧
      (∀ key item, h.items key = some item → lessFunc item.obj x = false) ∧ Valid lessFunc S h' := by
  obtain ⟨l, hl, hS, ho⟩ := hv.heap
  have hl0 : l ≠ [] := by
    rw [← length_pos_iff, ← length_of_objs hl]
    exact hne
  obtain ⟨x, l', h', hpop, hpopl, hinv', hobjs'⟩ := hv.inv.Pop_objs lessFunc hl hl0
  obtain ⟨hhead, hperm⟩ := GoHeap.pop_perm lessFunc hpopl
  exact ⟨x, h', Pop_of_container hpop, fun key item hk => GoHeap.head_min_on hS ho hhead _ (mem_of_items hv.inv hl hk),
    hinv', l', hobjs', fun y hy => hS y (hperm.mem_iff.mp (mem_cons_of_mem x hy)),
    GoHeap.pop_ordered_on hS ho hpopl⟩

/-- **`Peek` returns a minimal object.** -/
theorem Valid.peek {h : data α} (hv : Valid lessFunc S h) {x : α} (hx : Heap.Peek h = some x) :
    ∀ key item, h.items key = some item → lessFunc item.obj x = false := by
  obtain ⟨l, hl, hS, ho⟩ := hv.heap
  have hhead : l.head? = some x := by
    rw [Heap.Peek, Peek_eq, hl, getElem?_map] at hx
    rw [head?_eq_getElem?]
    cases hl0 : l[0]? with
    | none => rw [hl0] at hx; cases hx
    | some y => rw [hl0] at hx; exact hx
  exact fun key item hk => GoHeap.head_min_on hS ho hhead _ (mem_of_items hv.inv hl hk)

omit [IsStrictWeakOrder S fun a b => lessFunc a.1 b.1 = true] in
/-- The queue of a valid heap is in heap order, read through the data's own `Less`. -/
theorem Valid.less_parent {h : data α} (hv : Valid lessFunc S h) :
    ∀ k < h.queue.length, 0 < k → Less lessFunc h k (GoHeap.parent k) = false := by
  obtain ⟨l, hl, -, ho⟩ := hv.heap
  intro k hk hk0
  rw [← lessAt_objs, hl, GoHeap.lessAt_map some (GoHeap.optionLess_some lessFunc)]
  exact ho k (by rwa [← length_of_objs hl]) hk0

variable (keyFunc : α → Except String String)

theorem Valid.add {h : data α} (hv : Valid lessFunc S h) {obj : α} (hobj : obj ∈ S) :
    Valid lessFunc S (afterCall h (Heap.Add keyFunc lessFunc h obj)) := by
  rcases hkey : keyFunc obj with err | key
  · simp only [Heap.Add, hkey, afterCall]
    exact hv
  · rcases hitem : h.items key with _ | item
    · simp only [Heap.Add, hkey, hitem, afterCall]
      exact hv.push hitem hobj
    · simp only [Heap.Add, hkey, hitem, afterCall]
      exact hv.fix hitem hobj

theorem Valid.addIfNotPresent {h : data α} (hv : Valid lessFunc S h) {obj : α} (hobj : obj ∈ S) :
    Valid lessFunc S (afterCall h (Heap.AddIfNotPresent keyFunc lessFunc h obj)) := by
  rcases hkey : keyFunc obj with err | key
  · simp only [Heap.AddIfNotPresent, hkey, afterCall]
    exact hv
  · rcases hitem : h.items key with _ | item
    · simp only [Heap.AddIfNotPresent, hkey, hitem, afterCall]
      exact hv.push hitem hobj
    · simp only [Heap.AddIfNotPresent, hkey, hitem, afterCall]
      exact hv

theorem Valid.delete {h : data α} (hv : Valid lessFunc S h) (obj : α) {r : Except Error (data α)}
    (hd : Heap.Delete keyFunc lessFunc h obj = some r) : Valid lessFunc S (afterCall h r) := by
  rcases hkey : keyFunc obj with err | key
  · simp only [Heap.Delete, hkey, Option.some.injEq] at hd
    subst hd
    exact hv
  · rcases hitem : h.items key with _ | item
    · simp only [Heap.Delete, hkey, hitem, Option.some.injEq] at hd
      subst hd
      exact hv
    · obtain ⟨x, h', hrem, hv'⟩ := hv.remove hitem
      simp only [Heap.Delete, hkey, hitem, hrem, Option.map_some, Option.some.injEq] at hd
      subst hd
      exact hv'

/-- **Step lemma.** A call that keeps to `OpOk` keeps `Valid`. -/
theorem Valid.of_step {h h' : data α} (hv : Valid lessFunc S h) {op : Op α} (hop : OpOk S h op)
    (hs : step keyFunc lessFunc h op = some h') : Valid lessFunc S h' := by
  cases op with
  | Add obj =>
    cases hs
    exact hv.add keyFunc hop
  | AddIfNotPresent obj =>
    cases hs
    exact hv.addIfNotPresent keyFunc hop
  | Update obj =>
    cases hs
    exact hv.add keyFunc hop
  | Delete obj =>
    obtain ⟨r, hd, rfl⟩ := Option.map_eq_some_iff.mp hs
    exact hv.delete keyFunc obj hd
  | Pop =>
    obtain ⟨x, h'', hpop, -, hv'⟩ := hv.pop hop
    rw [show step keyFunc lessFunc h .Pop = (Heap.Pop lessFunc h).map (·.2) from rfl, hpop] at hs
    cases hs
    exact hv'

/-- **Run lemma.** Every reachable heap is valid. -/
theorem Reachable.valid {h : data α} (hr : Reachable keyFunc lessFunc S h) : Valid lessFunc S h :=
  StepSystem.Reachable.invariant valid_New (fun _ _ _ hv hop hs => Valid.of_step keyFunc hv hop hs) hr

/-- **The heap's guarantees over every run.**  On every heap reached by calls whose objects are in
a set `S` on which `lessFunc` is a strict weak order, and that pop only a heap that is not empty:
the keys of `items` and of the queue agree, with `items[queue[i]].index = i`; the queue is in heap
order; `Peek` returns an object no stored object is less than; and `Pop` of a heap that is not empty
returns such an object. -/
theorem reachable_spec {h : data α} (hr : Reachable keyFunc lessFunc S h) :
    Inv h ∧ (∀ k < h.queue.length, 0 < k → Less lessFunc h k (GoHeap.parent k) = false) ∧
      (∀ x, Heap.Peek h = some x → ∀ key item, h.items key = some item → lessFunc item.obj x = false) ∧
      (0 < Heap.Len h → ∃ x h', Heap.Pop lessFunc h = some (.ok x, h') ∧
        ∀ key item, h.items key = some item → lessFunc item.obj x = false) := by
  have hv := hr.valid keyFunc
  refine ⟨hv.inv, hv.less_parent, fun x hx => hv.peek hx, fun hne => ?_⟩
  obtain ⟨x, h', hpop, hmin, -⟩ := hv.pop hne
  exact ⟨x, h', hpop, hmin⟩

end valid

end Heap

end Caspr
