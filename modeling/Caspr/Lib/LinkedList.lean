import Mathlib.Data.List.Nodup
import Mathlib.Logic.Function.Basic

/-! # Doubly linked lists threaded through keyed items

A doubly linked list whose items are named by keys is a head and, for each key, the key of the
next item and of the previous one (`Links`).  It *represents* a list `l` of distinct keys when
its head is the first key of `l` and, for every key of `l`, its next key is the one after it in
`l` and its previous key the one before it (`Represents`); the links of keys outside `l` are
whatever an item once held and are never read.

* Following `next` from the head visits `l` and stops (`Represents.walk`); `prev` is the
  inverse of `next` on the keys of `l` and the head has no previous item
  (`Represents.next_eq_some_iff`, `Represents.prev_head`).
* The two rewirings of a list operation, unlinking an item (`unlink`: its previous item's next
  and its next item's previous skip it) and linking an item in front of the head (`pushFront`),
  move a key to the front of the list it represents, or delete it (`Represents.moveToFront`,
  `Represents.removeFrom`).

The element after a key in a list is `succ`; the element before it is the one after it in the
reversed list.  Every proof goes through the decomposition `l = l₁ ++ k :: l₂` of a list around
one of its keys. -/

namespace DList

open List

variable {κ : Type} [DecidableEq κ]

/-! ### The key after a key -/

/-- The key after the first occurrence of `k` in a list. -/
def succ : List κ → κ → Option κ
  | [], _ => none
  | a :: l, k => if a = k then l.head? else succ l k

@[simp] theorem succ_nil (k : κ) : succ [] k = none := rfl

@[simp] theorem succ_cons_self (a : κ) (l : List κ) : succ (a :: l) a = l.head? := by
  simp [succ]

theorem succ_cons_of_ne {a k : κ} (h : a ≠ k) (l : List κ) : succ (a :: l) k = succ l k := by
  simp [succ, h]

theorem succ_append_right {l₁ : List κ} {k : κ} (hk : k ∉ l₁) (l₂ : List κ) :
    succ (l₁ ++ l₂) k = succ l₂ k := by
  induction l₁ with
  | nil => rfl
  | cons a l₁ ih =>
      rw [mem_cons, not_or] at hk
      rw [cons_append, succ_cons_of_ne (Ne.symm hk.1), ih hk.2]

theorem succ_append_left {l₁ : List κ} (hnd : l₁.Nodup) {k : κ} (hk : k ∈ l₁) (l₂ : List κ) :
    succ (l₁ ++ l₂) k = if l₁.getLast? = some k then l₂.head? else succ l₁ k := by
  induction l₁ with
  | nil => simp at hk
  | cons a l₁ ih =>
      rw [nodup_cons] at hnd
      by_cases hak : a = k
      · subst hak
        cases l₁ with
        | nil => simp
        | cons b l₁ =>
            have hlast : (a :: b :: l₁).getLast? ≠ some a := by
              rw [getLast?_cons_cons]
              exact fun h => hnd.1 (mem_of_getLast? h)
            rw [if_neg hlast, cons_append, succ_cons_self, succ_cons_self]
            rfl
      · have hk' : k ∈ l₁ := (mem_cons.mp hk).resolve_left (Ne.symm hak)
        have hne : l₁ ≠ [] := ne_nil_of_mem hk'
        rw [cons_append, succ_cons_of_ne hak, ih hnd.2 hk', succ_cons_of_ne hak,
          getLast?_cons_of_ne_nil hne]

theorem succ_eq_some_iff {l : List κ} (hnd : l.Nodup) {a b : κ} :
    succ l a = some b ↔ ∃ l₁ l₂, l = l₁ ++ a :: b :: l₂ := by
  constructor
  · intro h
    induction l with
    | nil => simp at h
    | cons c l ih =>
        by_cases hca : c = a
        · subst hca
          rw [succ_cons_self] at h
          obtain ⟨l₂, rfl⟩ : ∃ l₂, l = b :: l₂ := by
            cases l with
            | nil => simp at h
            | cons d l₂ => exact ⟨l₂, by simpa using h⟩
          exact ⟨[], l₂, rfl⟩
        · rw [succ_cons_of_ne hca] at h
          obtain ⟨l₁, l₂, rfl⟩ := ih (nodup_cons.mp hnd).2 h
          exact ⟨c :: l₁, l₂, rfl⟩
  · rintro ⟨l₁, l₂, rfl⟩
    have ha : a ∉ l₁ := fun h => (nodup_append.mp hnd).2.2 a h a mem_cons_self rfl
    rw [succ_append_right ha, succ_cons_self]
    rfl

theorem succ_reverse_eq_some_iff {l : List κ} (hnd : l.Nodup) {a b : κ} :
    succ l.reverse b = some a ↔ succ l a = some b := by
  rw [succ_eq_some_iff (nodup_reverse.mpr hnd), succ_eq_some_iff hnd]
  constructor
  · rintro ⟨l₁, l₂, h⟩
    refine ⟨l₂.reverse, l₁.reverse, ?_⟩
    rw [← reverse_reverse l, h]
    simp
  · rintro ⟨l₁, l₂, rfl⟩
    exact ⟨l₂.reverse, l₁.reverse, by simp⟩

/-- Deleting `k` from the middle of a list: the key before it is now followed by the key after
it, and every other key keeps its successor. -/
theorem succ_delete {l₁ l₂ : List κ} {k a : κ} (hnd : (l₁ ++ k :: l₂).Nodup) (ha : a ∈ l₁ ++ l₂) :
    succ (l₁ ++ l₂) a = if l₁.getLast? = some a then l₂.head? else succ (l₁ ++ k :: l₂) a := by
  have hnd₁ : l₁.Nodup := (nodup_append.mp hnd).1
  rcases mem_append.mp ha with ha₁ | ha₂
  · rw [succ_append_left hnd₁ ha₁, succ_append_left hnd₁ ha₁]
    split_ifs <;> rfl
  · have ha₁ : a ∉ l₁ := fun h => (nodup_append.mp hnd).2.2 a h a (mem_cons_of_mem k ha₂) rfl
    have hak : k ≠ a := fun h => (nodup_cons.mp (nodup_append.mp hnd).2.1).1 (h ▸ ha₂)
    rw [if_neg fun h => ha₁ (mem_of_getLast? h), succ_append_right ha₁, succ_append_right ha₁,
      succ_cons_of_ne hak]

theorem succ_eq_none_of_getLast? {l : List κ} (hnd : l.Nodup) {k : κ}
    (hk : l.getLast? = some k) : succ l k = none := by
  obtain ⟨l₁, rfl⟩ := getLast?_eq_some_iff.mp hk
  have hk₁ : k ∉ l₁ := fun h => (nodup_append.mp hnd).2.2 k h k mem_cons_self rfl
  rw [succ_append_right hk₁, succ_cons_self]
  rfl

/-! ### Links -/

/-- The head of a doubly linked list, and the next and previous item of each item, by key. -/
structure Links (κ : Type) where
  head : Option κ
  next : κ → Option κ
  prev : κ → Option κ

namespace Links

/-- The next and previous items of the keys of `l` are their neighbours in `l`. -/
structure Chain (L : Links κ) (l : List κ) : Prop where
  next : ∀ a ∈ l, L.next a = succ l a
  prev : ∀ a ∈ l, L.prev a = succ l.reverse a

/-- `L` links the keys of `l`, in order, from its head. -/
structure Represents (L : Links κ) (l : List κ) : Prop extends Chain L l where
  head : L.head = l.head?

/-- An item linked to nothing: one just allocated. -/
def Detached (L : Links κ) (k : κ) : Prop := L.next k = none ∧ L.prev k = none

/-- Take item `k` out: its previous item's next and its next item's previous skip it
(`if ni.prev != nil { ni.prev.next = ni.next }; if ni.next != nil { ni.next.prev = ni.prev }`). -/
def unlink (L : Links κ) (k : κ) : Links κ :=
  let L := match L.prev k with
    | some p => { L with next := Function.update L.next p (L.next k) }
    | none => L
  match L.next k with
  | some n => { L with prev := Function.update L.prev n (L.prev k) }
  | none => L

/-- Link item `k` in front of the head (`if head != nil { head.prev = ni }; ni.next = head;
ni.prev = nil; head = ni`). -/
def pushFront (L : Links κ) (k : κ) : Links κ :=
  let L := (match L.head with
    | some h => { L with prev := Function.update L.prev h (some k) }
    | none => L)
  { head := some k
    next := Function.update L.next k L.head
    prev := Function.update L.prev k none }

/-- Unlink item `k`, and make its next item the head if it was the head. -/
def removeFrom (L : Links κ) (k : κ) : Links κ :=
  let L := L.unlink k
  if L.head = some k then { L with head := L.next k } else L

/-- A new item `k`, linked to nothing. -/
def fresh (L : Links κ) (k : κ) : Links κ :=
  { L with next := Function.update L.next k none, prev := Function.update L.prev k none }

/-- Move item `k` to the front: nothing when it is the head, else unlink it and link it in front
of the head. -/
def moveToHead (L : Links κ) (k : κ) : Links κ :=
  if L.head = some k then L else (L.unlink k).pushFront k

/-- The keys met following `next` from `start`, for at most `fuel` items. -/
def walk (L : Links κ) : ℕ → Option κ → List κ
  | 0, _ => []
  | _ + 1, none => []
  | fuel + 1, some a => a :: walk L fuel (L.next a)

@[simp] theorem unlink_head (L : Links κ) (k : κ) : (L.unlink k).head = L.head := by
  simp only [unlink]
  split <;> split <;> rfl

theorem unlink_of_detached {L : Links κ} {k : κ} (hk : L.Detached k) : L.unlink k = L := by
  simp [unlink, hk.1, hk.2]

/-! ### Reading a represented list -/

section reading

variable {L : Links κ} {l : List κ}

/-- **Following `next` from the head visits the list, and nothing else.** -/
theorem Represents.walk (hL : L.Represents l) (hnd : l.Nodup) {fuel : ℕ} (hfuel : l.length ≤ fuel) :
    L.walk fuel L.head = l := by
  rw [hL.head]
  -- every suffix `l₂` of `l` is walked from its first key, whose successor starts the rest
  suffices h : ∀ l₁ l₂ fuel, l = l₁ ++ l₂ → l₂.length ≤ fuel → L.walk fuel l₂.head? = l₂ from
    h [] l fuel rfl hfuel
  intro l₁ l₂
  induction l₂ generalizing l₁ with
  | nil =>
      intro fuel _ _
      cases fuel <;> rfl
  | cons a l₂ ih =>
      intro fuel hl hlen
      obtain ⟨fuel, rfl⟩ : ∃ f, fuel = f + 1 := ⟨fuel - 1, by simp at hlen; omega⟩
      have ha : a ∈ l := hl ▸ mem_append_right l₁ mem_cons_self
      have hnext : L.next a = l₂.head? := by
        rw [hL.next a ha, hl, succ_append_right ?_, succ_cons_self]
        exact fun h => (nodup_append.mp (hl ▸ hnd)).2.2 a h a mem_cons_self rfl
      simp only [head?_cons, Links.walk, hnext]
      rw [ih (l₁ ++ [a]) fuel (by simp [hl]) (by simpa using hlen)]

/-- **`prev` is the inverse of `next`** on the keys of the list. -/
theorem Represents.next_eq_some_iff (hL : L.Represents l) (hnd : l.Nodup) {a b : κ} (ha : a ∈ l) :
    L.next a = some b ↔ b ∈ l ∧ L.prev b = some a := by
  rw [hL.next a ha]
  constructor
  · intro h
    obtain ⟨l₁, l₂, rfl⟩ := (succ_eq_some_iff hnd).mp h
    have hb : b ∈ l₁ ++ a :: b :: l₂ := by simp
    exact ⟨hb, by rw [hL.prev b hb, succ_reverse_eq_some_iff hnd, h]⟩
  · rintro ⟨hb, hp⟩
    rw [hL.prev b hb, succ_reverse_eq_some_iff hnd] at hp
    exact hp

theorem Represents.prev_head (hL : L.Represents l) (hnd : l.Nodup) {h : κ}
    (hh : L.head = some h) : L.prev h = none := by
  rw [hL.head] at hh
  obtain ⟨l', rfl⟩ := head?_eq_some_iff.mp hh
  rw [hL.prev h mem_cons_self]
  exact succ_eq_none_of_getLast? (nodup_reverse.mpr hnd) (by simp)

end reading

/-! ### Rewiring -/

section rewiring

variable (L : Links κ) (k : κ)

theorem unlink_next (a : κ) :
    (L.unlink k).next a = if L.prev k = some a then L.next k else L.next a := by
  simp only [unlink]
  cases hp : L.prev k <;> cases hn : L.next k <;> simp [Function.update_apply, hn, eq_comm]

theorem unlink_next_self : (L.unlink k).next k = L.next k := by
  rw [unlink_next]
  split_ifs with h
  · rfl
  · rfl

theorem unlink_prev (a : κ) :
    (L.unlink k).prev a = if L.next k = some a then L.prev k else L.prev a := by
  simp only [unlink]
  cases hp : L.prev k <;> cases hn : L.next k <;> simp [Function.update_apply, hp, hn, eq_comm]

@[simp] theorem pushFront_head : (L.pushFront k).head = some k := rfl

theorem pushFront_next (a : κ) : (L.pushFront k).next a = if a = k then L.head else L.next a := by
  simp only [pushFront]
  cases hh : L.head <;> simp [Function.update_apply, hh]

theorem pushFront_prev (a : κ) :
    (L.pushFront k).prev a = if a = k then none else if L.head = some a then some k else L.prev a := by
  simp only [pushFront]
  cases hh : L.head <;> simp [Function.update_apply, eq_comm]

theorem removeFrom_head :
    (L.removeFrom k).head = if L.head = some k then L.next k else L.head := by
  simp only [removeFrom, unlink_head]
  split_ifs
  · exact unlink_next_self L k
  · exact unlink_head L k

@[simp] theorem removeFrom_next : (L.removeFrom k).next = (L.unlink k).next := by
  simp only [removeFrom]
  split_ifs <;> rfl

@[simp] theorem removeFrom_prev : (L.removeFrom k).prev = (L.unlink k).prev := by
  simp only [removeFrom]
  split_ifs <;> rfl

variable {L k}

/-- **Unlinking `k` links the list without it.** -/
theorem Chain.unlink {l₁ l₂ : List κ} (hC : L.Chain (l₁ ++ k :: l₂)) (hnd : (l₁ ++ k :: l₂).Nodup) :
    (L.unlink k).Chain (l₁ ++ l₂) := by
  have hk : k ∈ l₁ ++ k :: l₂ := by simp
  have hk₂ : k ∉ l₂ := (nodup_cons.mp (nodup_append.mp hnd).2.1).1
  have hnext : L.next k = l₂.head? := by
    rw [hC.next k hk, succ_append_right fun h => (nodup_append.mp hnd).2.2 k h k mem_cons_self rfl,
      succ_cons_self]
  have hrev : (l₁ ++ k :: l₂).reverse = l₂.reverse ++ k :: l₁.reverse := by simp
  have hndr : (l₂.reverse ++ k :: l₁.reverse).Nodup := hrev ▸ nodup_reverse.mpr hnd
  have hprev : L.prev k = l₁.getLast? := by
    rw [hC.prev k hk, hrev,
      succ_append_right fun h => (nodup_append.mp hndr).2.2 k h k mem_cons_self rfl,
      succ_cons_self, head?_reverse]
  constructor
  · intro a ha
    rw [unlink_next, hprev, hnext, hC.next a (by simp at ha ⊢; tauto), succ_delete hnd ha]
  · intro a ha
    have ha' : a ∈ l₂.reverse ++ l₁.reverse := by simp at ha ⊢; tauto
    rw [unlink_prev, hprev, hnext, hC.prev a (by simp at ha ⊢; tauto), @reverse_append _ l₁ l₂,
      succ_delete hndr ha', getLast?_reverse, head?_reverse, hrev]

/-- **Linking `k` in front of the head links `k` and then the list.** -/
theorem Chain.pushFront {m : List κ} (hC : L.Chain m) (hnd : m.Nodup) (hk : k ∉ m)
    (hh : L.head = m.head?) : (L.pushFront k).Represents (k :: m) where
  head := rfl
  next a ha := by
    rw [pushFront_next]
    split_ifs with hak
    · rw [hak, hh, succ_cons_self]
    · rw [succ_cons_of_ne (Ne.symm hak), hC.next a ((mem_cons.mp ha).resolve_left hak)]
  prev a ha := by
    rw [pushFront_prev, reverse_cons]
    split_ifs with hak hha
    · rw [hak, succ_append_right (by simpa using hk), succ_cons_self]
      rfl
    · have ham : a ∈ m.reverse := by simpa using (mem_cons.mp ha).resolve_left hak
      rw [succ_append_left (nodup_reverse.mpr hnd) ham, getLast?_reverse, ← hh, if_pos hha]
      rfl
    · have ham : a ∈ m.reverse := by simpa using (mem_cons.mp ha).resolve_left hak
      rw [succ_append_left (nodup_reverse.mpr hnd) ham, getLast?_reverse, ← hh, if_neg hha,
        hC.prev a (by simpa using ham)]

/-- **Moving `k` to the front**: unlinking it and linking it in front of the head represents the
list with `k` first, whether `k` was linked or detached. -/
theorem Represents.moveToFront {l : List κ} (hL : L.Represents l) (hnd : l.Nodup)
    (hk : k ∈ l ∨ L.Detached k) (hhead : l.head? ≠ some k) :
    ((L.unlink k).pushFront k).Represents (k :: l.erase k) := by
  by_cases hkl : k ∈ l
  · obtain ⟨l₁, l₂, rfl⟩ := append_of_mem hkl
    have hl₁ : l₁ ≠ [] := by
      rintro rfl
      exact hhead rfl
    have hk₁ : k ∉ l₁ := fun h => (nodup_append.mp hnd).2.2 k h k mem_cons_self rfl
    rw [erase_append_right _ hk₁, erase_cons_head]
    have hnd' : (l₁ ++ l₂).Nodup := hnd.sublist ((Sublist.refl l₁).append (sublist_cons_self k l₂))
    refine (hL.toChain.unlink hnd).pushFront hnd' ?_ ?_
    · simp [hk₁, (nodup_cons.mp (nodup_append.mp hnd).2.1).1]
    · rw [unlink_head, hL.head, head?_append_of_ne_nil _ hl₁, head?_append_of_ne_nil _ hl₁]
  · rw [unlink_of_detached (hk.resolve_left hkl), erase_of_not_mem hkl]
    exact hL.toChain.pushFront hnd hkl hL.head

/-- **Moving `k` to the head** represents the list with `k` first, whether `k` was in it or a
new item. -/
theorem Represents.moveToHead {l : List κ} (hL : L.Represents l) (hnd : l.Nodup)
    (hk : k ∈ l ∨ L.Detached k) : (L.moveToHead k).Represents (k :: l.erase k) := by
  unfold Links.moveToHead
  split_ifs with hh
  · rw [hL.head] at hh
    obtain ⟨l', rfl⟩ := head?_eq_some_iff.mp hh
    rw [erase_cons_head]
    exact hL
  · exact hL.moveToFront hnd hk (by rwa [← hL.head])

@[simp] theorem fresh_head : (L.fresh k).head = L.head := rfl

theorem fresh_detached : (L.fresh k).Detached k := by
  simp [fresh, Detached]

theorem Represents.fresh {l : List κ} (hL : L.Represents l) (hk : k ∉ l) : (L.fresh k).Represents l where
  next a ha := by
    simp only [Links.fresh, Function.update_of_ne (fun e : a = k => hk (e ▸ ha))]
    exact hL.next a ha
  prev a ha := by
    simp only [Links.fresh, Function.update_of_ne (fun e : a = k => hk (e ▸ ha))]
    exact hL.prev a ha
  head := hL.head

/-- **Removing `k`** represents the list without it. -/
theorem Represents.removeFrom {l : List κ} (hL : L.Represents l) (hnd : l.Nodup) (hk : k ∈ l) :
    (L.removeFrom k).Represents (l.erase k) := by
  obtain ⟨l₁, l₂, rfl⟩ := append_of_mem hk
  have hk₁ : k ∉ l₁ := fun h => (nodup_append.mp hnd).2.2 k h k mem_cons_self rfl
  rw [erase_append_right _ hk₁, erase_cons_head]
  have hC := hL.toChain.unlink hnd
  refine ⟨⟨fun a ha => by rw [removeFrom_next]; exact hC.next a ha,
    fun a ha => by rw [removeFrom_prev]; exact hC.prev a ha⟩, ?_⟩
  rw [removeFrom_head, hL.head]
  cases l₁ with
  | nil =>
      rw [nil_append, head?_cons, if_pos rfl, hL.next k (by simp), nil_append, succ_cons_self,
        nil_append]
  | cons a l₁ =>
      have hak : a ≠ k := fun h => hk₁ (h ▸ mem_cons_self)
      simp [hak]

end rewiring

end Links

end DList
