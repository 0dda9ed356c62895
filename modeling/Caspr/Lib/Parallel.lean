import Mathlib.Data.List.Perm.Basic
import Mathlib.Data.List.Nodup

/-! # Pieces of work that may run in any order

A run of pieces of work over a shared state, each of which may fail, is `List.foldlM` of the
pieces over the order they run in.  When the pieces are *independent* — a piece that succeeds
changes neither whether another piece fails nor the error it fails with — then in every order
in which each piece runs once:

* the run fails exactly when some piece fails on the first state (`foldlM_isError_of_mem`), and
  then with the error of such a piece (`foldlM_eq_error`);
* when, besides, two pieces that succeed one after the other also succeed in the other order and
  end in the same state (`Commute`), a run that succeeds ends in the same state in every order
  (`foldlM_perm`).

Which piece's error a failing run returns depends on the order; these results are what holds
for every order.  Pieces that each read and write only a slot of their own of a list
(`slotUpdate`) are independent and commute. -/

namespace Parallel

open List

variable {ι τ ε : Type} (u : ι → τ → Except ε τ)

/-- A piece that succeeds changes neither whether another piece fails nor its error. -/
def Independent : Prop :=
  ∀ j k, j ≠ k → ∀ t t' e, u j t = .ok t' → (u k t' = .error e ↔ u k t = .error e)

/-- Two pieces that succeed one after the other succeed in the other order too, and end in the
same state. -/
def Commute : Prop :=
  ∀ j k, j ≠ k → ∀ t t₁ t₂, u j t = .ok t₁ → u k t₁ = .ok t₂ → ∃ t₃, u k t = .ok t₃ ∧ u j t₃ = .ok t₂

variable {u}

theorem foldlM_cons_of_ok {k : ι} {l : List ι} {t t' : τ} (h : u k t = .ok t') :
    (k :: l).foldlM (fun t k => u k t) t = l.foldlM (fun t k => u k t) t' := by
  simp only [foldlM_cons, h]
  rfl

theorem foldlM_cons_of_error {k : ι} {l : List ι} {t : τ} {e : ε} (h : u k t = .error e) :
    (k :: l).foldlM (fun t k => u k t) t = .error e := by
  simp only [foldlM_cons, h]
  rfl

/-- **A run fails only with the error of a piece that fails on the first state.**  By induction
on the order: a piece that succeeds before the failing one does not change its error. -/
theorem Independent.foldlM_eq_error (hu : Independent u) :
    ∀ {l : List ι} {t : τ} {e : ε}, l.Nodup → l.foldlM (fun t k => u k t) t = .error e →
      ∃ k ∈ l, u k t = .error e
  | [], _, _, _, h => by cases h
  | k :: l, t, e, hnd, h => by
      rw [nodup_cons] at hnd
      cases hk : u k t with
      | error e' =>
          rw [foldlM_cons_of_error hk] at h
          cases h
          exact ⟨k, mem_cons_self, hk⟩
      | ok t' =>
          rw [foldlM_cons_of_ok hk] at h
          obtain ⟨j, hj, hje⟩ := hu.foldlM_eq_error hnd.2 h
          have hjk : k ≠ j := fun he => hnd.1 (he ▸ hj)
          exact ⟨j, mem_cons_of_mem k hj, (hu k j hjk t t' e hk).mp hje⟩

/-- **A run fails when some piece fails on the first state**: the pieces before it that succeed
leave it failing. -/
theorem Independent.foldlM_isError_of_mem (hu : Independent u) :
    ∀ {l : List ι} {t : τ} {k : ι} {e : ε}, l.Nodup → k ∈ l → u k t = .error e →
      ∃ e', l.foldlM (fun t k => u k t) t = .error e'
  | [], _, _, _, _, hk, _ => absurd hk not_mem_nil
  | j :: l, t, k, e, hnd, hk, he => by
      rw [nodup_cons] at hnd
      cases hj : u j t with
      | error e' => exact ⟨e', foldlM_cons_of_error hj⟩
      | ok t' =>
          rw [foldlM_cons_of_ok hj]
          have hjk : j ≠ k := fun h => by rw [h, he] at hj; cases hj
          have hkl : k ∈ l := (mem_cons.mp hk).resolve_left (Ne.symm hjk)
          exact hu.foldlM_isError_of_mem hnd.2 hkl ((hu j k hjk t t' e hj).mpr he)

/-- **A run that succeeds ends in the same state in every order** of its pieces.  By induction
on the permutation: two adjacent pieces swap by `Commute`. -/
theorem Commute.foldlM_perm (hc : Commute u) {l l' : List ι} (hp : l.Perm l') :
    ∀ {t r : τ}, l.foldlM (fun t k => u k t) t = .ok r → l'.foldlM (fun t k => u k t) t = .ok r := by
  induction hp with
  | nil => exact id
  | cons x _ ih =>
      intro t r h
      cases hx : u x t with
      | error e => rw [foldlM_cons_of_error hx] at h; cases h
      | ok t' =>
          rw [foldlM_cons_of_ok hx] at h ⊢
          exact ih h
  | swap x y l =>
      intro t r h
      by_cases hxy : x = y
      · rw [hxy] at h ⊢
        exact h
      cases hy : u y t with
      | error e => rw [foldlM_cons_of_error hy] at h; cases h
      | ok t₁ =>
          rw [foldlM_cons_of_ok hy] at h
          cases hx : u x t₁ with
          | error e => rw [foldlM_cons_of_error hx] at h; cases h
          | ok t₂ =>
              rw [foldlM_cons_of_ok hx] at h
              obtain ⟨t₃, hx', hy'⟩ := hc y x (Ne.symm hxy) t t₁ t₂ hy hx
              rw [foldlM_cons_of_ok hx', foldlM_cons_of_ok hy']
              exact h
  | trans _ _ ih₁ ih₂ => exact fun h => ih₂ (ih₁ h)

/-! ### Pieces that each own a slot -/

section slotUpdate

variable {α : Type} (g : ℕ → α → Except ε α)

/-- The piece `k` that makes a new value of the slot `k` of a list, or fails; past the end of the
list it does nothing. -/
def slotUpdate (k : ℕ) (t : List α) : Except ε (List α) :=
  match t[k]? with
  | some a => (t.set k ·) <$> g k a
  | none => .ok t

variable {g}

theorem slotUpdate_eq_error {k : ℕ} {t : List α} {e : ε} :
    slotUpdate g k t = .error e ↔ ∃ a, t[k]? = some a ∧ g k a = .error e := by
  unfold slotUpdate
  cases t[k]? with
  | none => simp
  | some a => cases hg : g k a <;> simp [Functor.map, Except.map, hg]

theorem slotUpdate_eq_ok {k : ℕ} {t t' : List α} :
    slotUpdate g k t = .ok t' ↔
      (t[k]? = none ∧ t' = t) ∨ ∃ a b, t[k]? = some a ∧ g k a = .ok b ∧ t' = t.set k b := by
  unfold slotUpdate
  cases t[k]? with
  | none => simp [eq_comm]
  | some a => cases hg : g k a <;> simp [Functor.map, Except.map, hg, eq_comm]

theorem getElem?_of_slotUpdate {j k : ℕ} {t t' : List α} (h : slotUpdate g j t = .ok t')
    (hjk : j ≠ k) : t'[k]? = t[k]? := by
  rcases slotUpdate_eq_ok.mp h with ⟨-, rfl⟩ | ⟨a, b, -, -, rfl⟩
  · rfl
  · exact List.getElem?_set_ne hjk

theorem slotUpdate_independent : Independent (slotUpdate g) := by
  intro j k hjk t t' e h
  rw [slotUpdate_eq_error, slotUpdate_eq_error, getElem?_of_slotUpdate h hjk]

theorem slotUpdate_commute : Commute (slotUpdate g) := by
  intro j k hjk t t₁ t₂ h₁ h₂
  have hk := getElem?_of_slotUpdate h₁ hjk
  rcases slotUpdate_eq_ok.mp h₂ with ⟨hk₁, rfl⟩ | ⟨a, b, hk₁, hg, rfl⟩
  · refine ⟨t, ?_, h₁⟩
    rw [slotUpdate_eq_ok]
    exact Or.inl ⟨hk ▸ hk₁, rfl⟩
  · refine ⟨t.set k b, slotUpdate_eq_ok.mpr (Or.inr ⟨a, b, hk ▸ hk₁, hg, rfl⟩), ?_⟩
    rcases slotUpdate_eq_ok.mp h₁ with ⟨hj, rfl⟩ | ⟨c, d, hj, hg', rfl⟩
    · exact slotUpdate_eq_ok.mpr (Or.inl ⟨by rw [List.getElem?_set_ne hjk.symm, hj], rfl⟩)
    · refine slotUpdate_eq_ok.mpr (Or.inr ⟨c, d, ?_, hg', List.set_comm _ _ hjk⟩)
      rw [List.getElem?_set_ne hjk.symm, hj]

end slotUpdate

end Parallel
