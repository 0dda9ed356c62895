import Caspr.Lib.Heap

/-! # Go's container/heap over `heap.Interface`

`container/heap` works on any value that implements `heap.Interface`: `Len`, `Less(i, j)` and
`Swap(i, j)` of `sort.Interface`, and `Push(x)` and `Pop()`.  `Interface σ ι ο` is such an
implementation on states `σ`, whose `Push` takes an `ι` and whose `Pop` returns an `ο`, or fails
(a Go panic).  `up`, `down`, `Push`, `Pop`, `Remove` and `Fix` follow the Go code over it; `Pop`
and `Remove` hand to the implementation's `Pop` the state their sift leaves (`popSift`,
`removeSift`).

A slice is its own implementation (`listInterface`), on which these are the functions of
`GoHeap` (`Fix_listInterface`, ...).  Another implementation is read through an observation
`obs` of its states: when `obs` maps `Len`, `Less` and `Swap` to those of a second
implementation (`Simulation`), it maps the sifts, `Push` and `Fix` to the second one's, and the
states `Pop` and `Remove` hand on (`Simulation.obs_Fix`, ...).  Whatever every `Swap` keeps,
every sift keeps (`Fix_invariant`, ...). -/

namespace ContainerHeap

/-- `heap.Interface`: `sort.Interface`, and `Push` and `Pop`. -/
structure Interface (σ ι ο : Type) where
  Len : σ → ℕ
  Less : σ → ℕ → ℕ → Bool
  Swap : σ → ℕ → ℕ → σ
  Push : σ → ι → σ
  Pop : σ → Option (ο × σ)

variable {σ ι ο : Type} (h : Interface σ ι ο)

/-- The loop of `up(h, j)`: while the element at `j` is less than its parent, swap them. -/
def upLoop : ℕ → σ → ℕ → σ
  | 0, s, _ => s
  | fuel + 1, s, j =>
      let i := (j - 1) / 2
      if i = j ∨ !h.Less s j i then s else upLoop fuel (h.Swap s i j) i

/-- `up(h, j)`; the parent of `j > 0` is below `j`, so `j` iterations suffice. -/
def up (s : σ) (j : ℕ) : σ := upLoop h j s j

/-- The child of `i` that `down` compares with it: the right one if it is inside the prefix of
length `n` and less than the left one, else the left one. -/
def lesserChild (s : σ) (n i : ℕ) : ℕ :=
  if 2 * i + 1 + 1 < n ∧ h.Less s (2 * i + 1 + 1) (2 * i + 1) then 2 * i + 1 + 1 else 2 * i + 1

/-- The loop of `down(h, i0, n)`: while a child inside the prefix of length `n` is less than the
element at `i`, swap it with the lesser child; the state and the final `i`. -/
def downLoop (n : ℕ) : ℕ → σ → ℕ → σ × ℕ
  | 0, s, i => (s, i)
  | fuel + 1, s, i =>
      if n ≤ 2 * i + 1 then (s, i)
      else
        let j := lesserChild h s n i
        if !h.Less s j i then (s, i) else downLoop n fuel (h.Swap s i j) j

/-- `down(h, i0, n)`, with whether the element moved. -/
def down (s : σ) (i0 n : ℕ) : σ × Bool :=
  let (s', i) := downLoop h n n s i0
  (s', decide (i > i0))

/-- `heap.Push(h, x)`: `h.Push(x)`, then sift the last element up. -/
def Push (s : σ) (x : ι) : σ :=
  let s := h.Push s x
  up h s (h.Len s - 1)

/-- The state `heap.Pop(h)` calls `h.Pop()` on: the root swapped with the last element and sifted
down inside the prefix without it. -/
def popSift (s : σ) : σ :=
  let n := h.Len s - 1
  (down h (h.Swap s 0 n) 0 n).1

/-- `heap.Pop(h)`. -/
def Pop (s : σ) : Option (ο × σ) := h.Pop (popSift h s)

/-- The state `heap.Remove(h, i)` calls `h.Pop()` on: the element at `i` swapped with the last one,
and the element put in its place sifted down, or else up. -/
def removeSift (s : σ) (i : ℕ) : σ :=
  let n := h.Len s - 1
  if n ≠ i then
    let s := h.Swap s i n
    let r := down h s i n
    if r.2 then r.1 else up h r.1 i
  else s

/-- `heap.Remove(h, i)`. -/
def Remove (s : σ) (i : ℕ) : Option (ο × σ) := h.Pop (removeSift h s i)

/-- `heap.Fix(h, i)`: sift the element at `i` down, or else up. -/
def Fix (s : σ) (i : ℕ) : σ :=
  let r := down h s i (h.Len s)
  if r.2 then r.1 else up h r.1 i

/-! ### A slice as its own implementation -/

section list

variable {α : Type} (less : α → α → Bool)

/-- A slice with `less` on its elements, as a `heap.Interface`. -/
def listInterface : Interface (List α) α α where
  Len := List.length
  Less := GoHeap.lessAt less
  Swap := GoHeap.swap
  Push l x := l ++ [x]
  Pop l := l.getLast?.map fun x => (x, l.dropLast)

theorem upLoop_listInterface :
    ∀ (fuel : ℕ) (l : List α) (j : ℕ), upLoop (listInterface less) fuel l j = GoHeap.upLoop less fuel l j
  | 0, _, _ => rfl
  | fuel + 1, l, j => by
      unfold upLoop GoHeap.upLoop
      simp only [upLoop_listInterface fuel]
      rfl

theorem up_listInterface (l : List α) (j : ℕ) : up (listInterface less) l j = GoHeap.up less l j :=
  upLoop_listInterface less j l j

theorem downLoop_listInterface (n : ℕ) :
    ∀ (fuel : ℕ) (l : List α) (i : ℕ),
      downLoop (listInterface less) n fuel l i = GoHeap.downLoop less n fuel l i
  | 0, _, _ => rfl
  | fuel + 1, l, i => by
      unfold downLoop GoHeap.downLoop
      simp only [downLoop_listInterface n fuel]
      rfl

theorem down_listInterface (l : List α) (i0 n : ℕ) :
    down (listInterface less) l i0 n = GoHeap.down less l i0 n := by
  simp only [down, GoHeap.down, downLoop_listInterface]

theorem Fix_listInterface (l : List α) (i : ℕ) : Fix (listInterface less) l i = GoHeap.fix less l i := by
  simp only [Fix, GoHeap.fix, down_listInterface, up_listInterface]
  rfl

theorem Push_listInterface (l : List α) (x : α) :
    Push (listInterface less) l x = GoHeap.push less l x := by
  simp only [Push, GoHeap.push, up_listInterface]
  congr 1
  simp [listInterface]

theorem popSift_listInterface (l : List α) :
    popSift (listInterface less) l = (GoHeap.down less (GoHeap.swap l 0 (l.length - 1)) 0 (l.length - 1)).1 := by
  simp only [popSift, down_listInterface]
  rfl

theorem removeSift_listInterface (l : List α) (i : ℕ) :
    removeSift (listInterface less) l i = GoHeap.removeSift less l i := by
  simp only [removeSift, GoHeap.removeSift, down_listInterface, up_listInterface]
  rfl

end list

/-! ### Simulation -/

section simulation

variable {τ ι' ο' : Type} {h} {g : Interface τ ι' ο'} {obs : σ → τ}

/-- `obs` maps the states of `h` to those of `g`, and `h`'s `Len`, `Less` and `Swap` to `g`'s. -/
structure Simulation (h : Interface σ ι ο) (g : Interface τ ι' ο') (obs : σ → τ) : Prop where
  len : ∀ s, g.Len (obs s) = h.Len s
  less : ∀ s i j, g.Less (obs s) i j = h.Less s i j
  swap : ∀ s i j, obs (h.Swap s i j) = g.Swap (obs s) i j

theorem Simulation.obs_upLoop (hs : Simulation h g obs) :
    ∀ (fuel : ℕ) (s : σ) (j : ℕ), obs (upLoop h fuel s j) = upLoop g fuel (obs s) j
  | 0, _, _ => rfl
  | fuel + 1, s, j => by
      simp only [ContainerHeap.upLoop, hs.less]
      split_ifs
      · rfl
      · rw [hs.obs_upLoop fuel, hs.swap]

theorem Simulation.obs_up (hs : Simulation h g obs) (s : σ) (j : ℕ) :
    obs (up h s j) = up g (obs s) j :=
  hs.obs_upLoop j s j

theorem Simulation.lesserChild (hs : Simulation h g obs) (s : σ) (n i : ℕ) :
    ContainerHeap.lesserChild g (obs s) n i = ContainerHeap.lesserChild h s n i := by
  simp only [ContainerHeap.lesserChild, hs.less]

theorem Simulation.obs_downLoop (hs : Simulation h g obs) (n : ℕ) :
    ∀ (fuel : ℕ) (s : σ) (i : ℕ),
      downLoop g n fuel (obs s) i = (obs (downLoop h n fuel s i).1, (downLoop h n fuel s i).2)
  | 0, _, _ => rfl
  | fuel + 1, s, i => by
      simp only [ContainerHeap.downLoop, hs.lesserChild, hs.less]
      split_ifs
      · rfl
      · rfl
      · rw [← hs.swap, hs.obs_downLoop n fuel]

theorem Simulation.obs_down (hs : Simulation h g obs) (s : σ) (i0 n : ℕ) :
    down g (obs s) i0 n = (obs (down h s i0 n).1, (down h s i0 n).2) := by
  simp only [down, hs.obs_downLoop]

theorem Simulation.obs_Fix (hs : Simulation h g obs) (s : σ) (i : ℕ) :
    obs (Fix h s i) = Fix g (obs s) i := by
  simp only [Fix, hs.len, hs.obs_down]
  split_ifs
  · rfl
  · exact hs.obs_up _ i

theorem Simulation.obs_Push (hs : Simulation h g obs) {s : σ} {x : ι} {y : ι'}
    (hpush : obs (h.Push s x) = g.Push (obs s) y) : obs (Push h s x) = Push g (obs s) y := by
  simp only [Push, hs.obs_up, hpush, ← hs.len]

theorem Simulation.obs_popSift (hs : Simulation h g obs) (s : σ) :
    obs (popSift h s) = popSift g (obs s) := by
  simp only [popSift, hs.len, ← hs.swap, hs.obs_down]

theorem Simulation.obs_removeSift (hs : Simulation h g obs) (s : σ) (i : ℕ) :
    obs (removeSift h s i) = removeSift g (obs s) i := by
  simp only [removeSift, hs.len, ← hs.swap, hs.obs_down]
  split_ifs
  · rfl
  · exact hs.obs_up _ i
  · rfl

end simulation

/-! ### What every swap keeps -/

section invariant

variable {h} {P : σ → Prop}

theorem upLoop_invariant (hP : ∀ s i j, P s → P (h.Swap s i j)) :
    ∀ (fuel : ℕ) (s : σ) (j : ℕ), P s → P (upLoop h fuel s j)
  | 0, _, _, hs => hs
  | fuel + 1, s, j, hs => by
      simp only [upLoop]
      split_ifs
      · exact hs
      · exact upLoop_invariant hP fuel _ _ (hP s _ j hs)

theorem downLoop_invariant (hP : ∀ s i j, P s → P (h.Swap s i j)) (n : ℕ) :
    ∀ (fuel : ℕ) (s : σ) (i : ℕ), P s → P (downLoop h n fuel s i).1
  | 0, _, _, hs => hs
  | fuel + 1, s, i, hs => by
      simp only [downLoop]
      split_ifs
      · exact hs
      · exact hs
      · exact downLoop_invariant hP n fuel _ _ (hP s i _ hs)

theorem Fix_invariant (hP : ∀ s i j, P s → P (h.Swap s i j)) {s : σ} (hs : P s) (i : ℕ) :
    P (Fix h s i) := by
  simp only [Fix]
  split_ifs
  · exact downLoop_invariant hP _ _ s i hs
  · exact upLoop_invariant hP _ _ _ (downLoop_invariant hP _ _ s i hs)

theorem Push_invariant (hP : ∀ s i j, P s → P (h.Swap s i j)) {s : σ} {x : ι} (hs : P (h.Push s x)) :
    P (Push h s x) :=
  upLoop_invariant hP _ _ _ hs

theorem popSift_invariant (hP : ∀ s i j, P s → P (h.Swap s i j)) {s : σ} (hs : P s) :
    P (popSift h s) :=
  downLoop_invariant hP _ _ _ 0 (hP s 0 _ hs)

theorem removeSift_invariant (hP : ∀ s i j, P s → P (h.Swap s i j)) {s : σ} (hs : P s) (i : ℕ) :
    P (removeSift h s i) := by
  simp only [removeSift]
  split_ifs
  · exact downLoop_invariant hP _ _ _ i (hP s i _ hs)
  · exact upLoop_invariant hP _ _ _ (downLoop_invariant hP _ _ _ i (hP s i _ hs))
  · exact hs

end invariant

end ContainerHeap
