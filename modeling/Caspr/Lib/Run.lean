import Mathlib.Logic.Basic
import Mathlib.Data.List.Basic

/-! # Runs of a step system and their invariants

A component that reacts to a stream of inputs (API events, calls, scheduling cycles) is a
step relation `next : σ → ι → σ → Prop`: `next s i s'` when input `i` in state `s` can leave
`s'`.  A step that aborts (a Go panic, a `klog.Fatal`) leaves no state, and a step whose outcome
depends on something the model does not fix (a random draw, a scheduling decision) may leave
several.  What the callers promise about an input in a given state (a well-formed event, a
key that is present) is a predicate `ok : σ → ι → Prop`.

* `Reachable next ok init` is the set of states of runs from `init` whose every input
  satisfies `ok` in the state it is fed in.
* `Preserves next ok P` says that one such step keeps `P`; `Reachable.invariant` is the
  induction over runs that every safety result of the development goes through.
* Inside one step, a loop is a `List.foldl`, whose invariant rules are `foldl_invariant`, for an
  invariant that may read the inputs still to come, and `foldl_history_invariant`, for one that
  reads those already taken; or a `List.foldlM` in `Except` when it can abort: `foldlM_ok` says
  that a loop whose every iteration, from a state satisfying an invariant, returns a state
  satisfying it does not abort, and ends in a state satisfying it, and `foldlM_invariant` that
  what every iteration that does not abort keeps holds after a loop that does not.
* A run of steps that can block (a receive from an empty channel) is a `List.foldlM` in
  `Option`; `foldlM_history_invariant` is its invariant rule, for an invariant that may read the
  inputs taken so far.

Nothing here names the program; the modules that model it instantiate `σ`, `ι`, `next` and
`ok`. -/

namespace StepSystem

variable {σ ι ε : Type}

/-! ### Reachable states -/

section relational

variable (next : σ → ι → σ → Prop) (ok : σ → ι → Prop)

/-- States reached from `init` by steps whose inputs satisfy `ok`. -/
inductive Reachable (init : σ) : σ → Prop
  | init : Reachable init init
  | step {s s' : σ} (i : ι) : Reachable init s → ok s i → next s i s' → Reachable init s'

/-- `P` is kept by every step whose input satisfies `ok`. -/
def Preserves (P : σ → Prop) : Prop :=
  ∀ s i s', P s → ok s i → next s i s' → P s'

variable {next ok}

/-- **Invariant rule.** What holds initially and is kept by every admissible step holds in every
reachable state. -/
theorem Reachable.invariant {P : σ → Prop} {init s : σ} (h0 : P init)
    (hstep : Preserves next ok P) (hr : Reachable next ok init s) : P s := by
  induction hr with
  | init => exact h0
  | step i _ hi hn ih => exact hstep _ i _ ih hi hn

end relational

/-! ### Loops -/

section loops

variable (f : σ → ι → σ)

/-- **Invariant rule for loops**: a `List.foldl` whose every iteration keeps `P`, which may
depend on the inputs still to come, ends in a state satisfying it. -/
theorem foldl_invariant {P : List ι → σ → Prop} (hstep : ∀ s i is, P (i :: is) s → P is (f s i)) :
    ∀ (is : List ι) (s : σ), P is s → P [] (is.foldl f s)
  | [], _, hs => hs
  | i :: is, s, hs => foldl_invariant hstep is (f s i) (hstep s i is hs)

/-- **Invariant rule for loops, over the inputs taken so far**: what holds of the inputs seen and
the state, and is kept by every iteration, holds after the loop. -/
theorem foldl_history_invariant {I : List ι → σ → Prop}
    (hstep : ∀ is s i, I is s → I (is ++ [i]) (f s i)) :
    ∀ (is pre : List ι) (s : σ), I pre s → I (pre ++ is) (is.foldl f s)
  | [], pre, s, hs => by rwa [List.append_nil]
  | i :: is, pre, s, hs => by
      have hrest := foldl_history_invariant hstep is (pre ++ [i]) (f s i) (hstep pre s i hs)
      rwa [List.append_assoc, List.singleton_append] at hrest

end loops

/-! ### Loops that can abort -/

section aborting

variable (step : σ → ι → Except ε σ)

/-- A computation that can abort, followed by another, returns `b` when the first returns an `a`
from which the second returns `b`. -/
theorem bind_eq_ok {α β : Type} {x : Except ε α} {f : α → Except ε β} {b : β} :
    x >>= f = .ok b ↔ ∃ a, x = .ok a ∧ f a = .ok b := by
  cases x with
  | error e => simp [bind, Except.bind]
  | ok a => simp [bind, Except.bind]

theorem map_eq_ok {α β : Type} {f : α → β} {x : Except ε α} {b : β} :
    f <$> x = .ok b ↔ ∃ a, x = .ok a ∧ f a = b := by
  cases x <;> simp [Functor.map, Except.map]

theorem map_eq_error {α β : Type} {f : α → β} {x : Except ε α} {e : ε} :
    f <$> x = .error e ↔ x = .error e := by
  cases x <;> simp [Functor.map, Except.map]

theorem mapM_eq_ok_map {α β : Type} {f : α → Except ε β} {g : α → β} :
    ∀ {l : List α}, (∀ a ∈ l, f a = .ok (g a)) → l.mapM f = .ok (l.map g)
  | [], _ => rfl
  | a :: l, h => by
      rw [List.mapM_cons, h a List.mem_cons_self,
        mapM_eq_ok_map fun a' ha' => h a' (List.mem_cons_of_mem a ha')]
      rfl

theorem length_of_mapM_eq_ok {α β : Type} {f : α → Except ε β} :
    ∀ {l : List α} {l' : List β}, l.mapM f = .ok l' → l'.length = l.length
  | [], l', h => by
      obtain rfl : [] = l' := Except.ok.inj h
      rfl
  | a :: l, l', h => by
      rw [List.mapM_cons] at h
      obtain ⟨b, -, h⟩ := bind_eq_ok.mp h
      obtain ⟨bs, hbs, h⟩ := bind_eq_ok.mp h
      obtain rfl : b :: bs = l' := Except.ok.inj h
      simp [length_of_mapM_eq_ok hbs]

/-- **A `mapM` stops at its first error**: when the calls before `a` return values and the call
on `a` fails, the `mapM` fails with that error. -/
theorem mapM_eq_error {α β : Type} {f : α → Except ε β} {a : α} {e : ε} (l₂ : List α)
    (ha : f a = .error e) : ∀ {l₁ : List α}, (∀ x ∈ l₁, ∃ b, f x = .ok b) →
      (l₁ ++ a :: l₂).mapM f = .error e
  | [], _ => by
      rw [List.nil_append, List.mapM_cons, ha]
      rfl
  | x :: l₁, h => by
      obtain ⟨b, hb⟩ := h x List.mem_cons_self
      rw [List.cons_append, List.mapM_cons, hb,
        mapM_eq_error l₂ ha fun y hy => h y (List.mem_cons_of_mem x hy)]
      rfl

theorem foldlM_cons_eq_ok {s s'' : σ} {i : ι} {is : List ι} :
    (i :: is).foldlM step s = .ok s'' ↔ ∃ s', step s i = .ok s' ∧ is.foldlM step s' = .ok s'' := by
  rw [List.foldlM_cons]
  exact bind_eq_ok

/-- **Progress rule for aborting loops**: a loop whose every iteration, from a state satisfying
the invariant, returns a state satisfying it does not abort. -/
theorem foldlM_ok {P : List ι → σ → Prop}
    (hstep : ∀ s i is, P (i :: is) s → ∃ s', step s i = .ok s' ∧ P is s') :
    ∀ (is : List ι) (s : σ), P is s → ∃ s', is.foldlM step s = .ok s' ∧ P [] s'
  | [], s, hs => ⟨s, rfl, hs⟩
  | i :: is, s, hs => by
      obtain ⟨s', h1, h2⟩ := hstep s i is hs
      obtain ⟨s'', h3, h4⟩ := foldlM_ok hstep is s' h2
      exact ⟨s'', (foldlM_cons_eq_ok step).mpr ⟨s', h1, h3⟩, h4⟩

/-- **Invariant rule for aborting loops**: what every iteration that does not abort keeps holds
after every loop that does not abort. -/
theorem foldlM_invariant {P : σ → Prop} (hstep : ∀ s i s', P s → step s i = .ok s' → P s') :
    ∀ (is : List ι) (s s' : σ), P s → is.foldlM step s = .ok s' → P s'
  | [], s, s', hs, h => by
      obtain rfl : s = s' := Except.ok.inj h
      exact hs
  | i :: is, s, s', hs, h => by
      obtain ⟨s₁, h1, h2⟩ := (foldlM_cons_eq_ok step).mp h
      exact foldlM_invariant hstep is s₁ s' (hstep s i s₁ hs h1) h2

end aborting

/-! ### Runs of steps that can block -/

section blocking

variable (step : σ → ι → Option σ)

theorem foldlM_cons_eq_some {s s'' : σ} {i : ι} {is : List ι} :
    (i :: is).foldlM step s = some s'' ↔ ∃ s', step s i = some s' ∧ is.foldlM step s' = some s'' := by
  rw [List.foldlM_cons]
  cases step s i with
  | none => simp [bind, Option.bind]
  | some s' => simp [bind, Option.bind]

/-- **Invariant rule for runs that can block**: what holds of the inputs taken so far and the
state, and is kept by every step that does not block, holds after every run that does not. -/
theorem foldlM_history_invariant {I : List ι → σ → Prop}
    (hstep : ∀ is s i s', I is s → step s i = some s' → I (is ++ [i]) s') :
    ∀ (is pre : List ι) (s s' : σ), I pre s → is.foldlM step s = some s' → I (pre ++ is) s'
  | [], pre, s, s', hs, h => by
      obtain rfl : s = s' := Option.some.inj h
      rwa [List.append_nil]
  | i :: is, pre, s, s', hs, h => by
      obtain ⟨s₁, h1, h2⟩ := (foldlM_cons_eq_some step).mp h
      have hrest := foldlM_history_invariant hstep is (pre ++ [i]) s₁ s' (hstep pre s i s₁ hs h1) h2
      rwa [List.append_assoc, List.singleton_append] at hrest

end blocking

end StepSystem
