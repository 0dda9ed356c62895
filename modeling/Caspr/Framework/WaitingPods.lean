import Caspr.Framework.Interface
import Caspr.Lib.Run
import Mathlib.Data.Finset.Card

/-! # Waiting pods (framework/runtime/waiting_pods_map.go, framework.go)

When a permit plugin asks to wait, `RunPermitPlugins` makes the pod a waiting pod, pending on
every plugin that asked, and the binding cycle blocks in `WaitOnPermit` on the pod's channel
`s`, of capacity one.  `Allow(plugin)` takes the plugin off the pending set and, once the set is
empty, sends success; `Reject(msg)` sends the rejection.  Both sends are non-blocking: a send to
a full buffer is dropped.  `WaitOnPermit` receives once.

Whatever the order of the calls, the status `WaitOnPermit` receives is the first decision
(`decision`): success when every pending plugin allowed the pod before any `Reject`, else the
message of the first `Reject` (`WaitOnPermit_first_decision`).  The invariant `Inv` says what a
run of calls leaves: the pending set is the plugins not allowed yet, the buffer holds the first
decision until it is received, and what was received is that decision.

*Modelling.*
* Each call is one step.  `Allow` holds the waiting pod's write lock; the only thing `Reject`
  changes under its read lock is the channel, whose operations are atomic.  A run is any
  sequence of calls (`run`), in which a receive from an empty channel blocks.
* The timers are left out.  Stopping one keeps its `Reject` from being called, and one that
  fires calls `Reject`: every time a timer may fire, also after `Allow` has stopped it once its
  function was running, is some place of a `Reject` in a run.
* The timeouts `RunPermitPlugins` gathers only set the timers and are left out, and so are the
  lookup of the waiting pod by UID in `WaitOnPermit` and its removal afterwards; `WaitOnPermit`
  is what the function returns once it has received a status. -/

namespace Caspr

namespace WaitingPods

/-- `waitingPod`: the permit plugins that have not allowed the pod yet, and the channel `s`. -/
structure waitingPod where
  pendingPlugins : Finset String
  s : Go.Chan Status
deriving DecidableEq

/-- `newWaitingPod(pod, pluginsMaxWaitTime)`, pending on every plugin that asked to wait. -/
def newWaitingPod (pluginsMaxWaitTime : Finset String) : waitingPod := ⟨pluginsMaxWaitTime, {}⟩

namespace waitingPod

/-- `w.Allow(pluginName)`: success is sent only once every plugin has allowed the pod. -/
def Allow (w : waitingPod) (pluginName : String) : waitingPod :=
  let pendingPlugins := w.pendingPlugins.erase pluginName
  if pendingPlugins.card ≠ 0 then { w with pendingPlugins }
  else { pendingPlugins, s := w.s.trySend (NewStatus .Success "") }

/-- `w.Reject(msg)`. -/
def Reject (w : waitingPod) (msg : String) : waitingPod :=
  { w with s := w.s.trySend (NewStatus .Unschedulable msg) }

end waitingPod

/-- The calls on a waiting pod: `Allow` by a permit plugin; `Reject` by `RejectWaitingPod`, by
the preemption of a waiting victim or by a timer; the receive of `WaitOnPermit`. -/
inductive Event where
  | allow (pluginName : String)
  | reject (msg : String)
  | receive
deriving DecidableEq, Repr

def Event.isReject : Event → Bool
  | .reject _ => true
  | _ => false

@[simp] theorem Event.isReject_allow (p : String) : (Event.allow p).isReject = false := rfl

@[simp] theorem Event.isReject_reject (msg : String) : (Event.reject msg).isReject = true := rfl

@[simp] theorem Event.isReject_receive : Event.receive.isReject = false := rfl

/-- One call, on the waiting pod and what `WaitOnPermit` has received: the receive blocks on an
empty channel, and `WaitOnPermit` receives once. -/
def step : waitingPod × Option Status → Event → Option (waitingPod × Option Status)
  | (w, r), .allow p => some (w.Allow p, r)
  | (w, r), .reject msg => some (w.Reject msg, r)
  | (w, none), .receive => w.s.recv.map fun (st, c) => ({ w with s := c }, some st)
  | (_, some _), .receive => none

/-- The calls `es`, in this order, on the waiting pod `w`, if none blocks. -/
def run (w : waitingPod) (es : List Event) : Option (waitingPod × Option Status) :=
  es.foldlM step (w, none)

/-- `f.WaitOnPermit(ctx, pod)` once it has received `s` for the pod named `podName`. -/
def WaitOnPermit (podName : String) (s : Status) : Option Status :=
  if s.code ≠ .Success then
    if s.IsUnschedulable then
      some (NewStatus s.code
        ("pod " ++ Go.Quote podName ++ " rejected while waiting on permit: " ++ s.Message))
    else some (NewStatus .Error ("waiting on permit for pod: " ++ s.Message))
  else none

/-- The loop of `RunPermitPlugins` over what the plugins' `Permit` returned, in order: the
plugins that asked to wait and the status code so far, or the status returned early. -/
def runPermitLoop (podName : String) :
    Finset String × Code → List (String × Option Status) → Except Status (Finset String × Code)
  | acc, [] => .ok acc
  | (pluginsWaitTime, statusCode), (name, status) :: rest =>
      match status with
      | some st =>
          if st.code ≠ .Success then
            if st.IsUnschedulable then
              .error (NewStatus st.code ("rejected pod " ++ Go.Quote podName ++ " by permit plugin " ++
                Go.Quote name ++ ": " ++ st.Message))
            else if st.code = .Wait then runPermitLoop podName (insert name pluginsWaitTime, .Wait) rest
            else .error (NewStatus .Error ("running Permit plugin " ++ Go.Quote name ++ ": " ++ st.Message))
          else runPermitLoop podName (pluginsWaitTime, statusCode) rest
      | none => runPermitLoop podName (pluginsWaitTime, statusCode) rest

/-- `f.RunPermitPlugins(ctx, state, pod, nodeName)` for plugins whose `Permit` returned
`results`: the status, and the waiting pod it adds to the map, if any. -/
def RunPermitPlugins (podName : String) (results : List (String × Option Status)) :
    Option Status × Option waitingPod :=
  match runPermitLoop podName (∅, .Success) results with
  | .error st => (some st, none)
  | .ok (pluginsWaitTime, statusCode) =>
      if statusCode = .Wait then
        (some (NewStatus .Wait ("one or more plugins asked to wait and no plugin rejected pod " ++
          Go.Quote podName)), some (newWaitingPod pluginsWaitTime))
      else (none, none)

/-! ### The first decision -/

/-- The message of the first `Reject` among the calls. -/
def firstReject : List Event → Option String
  | [] => none
  | .reject msg :: _ => some msg
  | _ :: es => firstReject es

/-- Every plugin of `P` allowed the pod before the first `Reject`. -/
def AllowedBeforeReject (P : Finset String) (es : List Event) : Prop :=
  ∀ p ∈ P, Event.allow p ∈ es.takeWhile fun e => !e.isReject

instance (P : Finset String) (es : List Event) : Decidable (AllowedBeforeReject P es) := by
  unfold AllowedBeforeReject
  infer_instance

/-- **What a waiting pod pending on `P` comes to** after the calls `es`: success when every
plugin allowed it before any `Reject`, else the first `Reject`, and nothing while neither has
happened. -/
def decision (P : Finset String) (es : List Event) : Option Status :=
  if AllowedBeforeReject P es then some (NewStatus .Success "")
  else (firstReject es).map (NewStatus .Unschedulable)

theorem firstReject_append : ∀ (es l : List Event),
    firstReject (es ++ l) = (firstReject es).or (firstReject l)
  | [], _ => rfl
  | .reject _ :: _, _ => rfl
  | .allow _ :: es, l => firstReject_append es l
  | .receive :: es, l => firstReject_append es l

theorem takeWhile_append_of_firstReject_none {es : List Event} (h : firstReject es = none)
    (l : List Event) :
    (es ++ l).takeWhile (fun e => !e.isReject) = es ++ l.takeWhile fun e => !e.isReject := by
  induction es with
  | nil => rfl
  | cons e es ih =>
      cases e with
      | reject msg => simp [firstReject] at h
      | allow p => simp [ih (show firstReject es = none from h)]
      | receive => simp [ih (show firstReject es = none from h)]

theorem takeWhile_append_of_firstReject_some {es : List Event} {msg : String}
    (h : firstReject es = some msg) (l : List Event) :
    (es ++ l).takeWhile (fun e => !e.isReject) = es.takeWhile fun e => !e.isReject := by
  induction es with
  | nil => simp [firstReject] at h
  | cons e es ih =>
      cases e with
      | reject m => simp
      | allow p => simp [ih (show firstReject es = some msg from h)]
      | receive => simp [ih (show firstReject es = some msg from h)]

theorem AllowedBeforeReject.append {P : Finset String} {es : List Event}
    (h : AllowedBeforeReject P es) (l : List Event) : AllowedBeforeReject P (es ++ l) := by
  intro p hp
  cases hf : firstReject es with
  | none =>
      rw [takeWhile_append_of_firstReject_none hf]
      exact List.mem_append_left _ (List.takeWhile_prefix _ |>.subset (h p hp))
  | some msg =>
      rw [takeWhile_append_of_firstReject_some hf]
      exact h p hp

theorem decision_of_firstReject_none {P : Finset String} {es : List Event}
    (h : firstReject es = none) :
    decision P es = if ∀ p ∈ P, Event.allow p ∈ es then some (NewStatus .Success "") else none := by
  have htake : es.takeWhile (fun e => !e.isReject) = es := by
    simpa using takeWhile_append_of_firstReject_none h []
  simp only [decision, AllowedBeforeReject, htake, h, Option.map_none]

/-- **A decision, once taken, stays.** -/
theorem decision_append_of_some {P : Finset String} {es : List Event} {d : Status}
    (h : decision P es = some d) (l : List Event) : decision P (es ++ l) = some d := by
  unfold decision at h ⊢
  split_ifs at h with hA
  · rw [if_pos (hA.append l)]
    exact h
  · obtain ⟨msg, hmsg, rfl⟩ := Option.map_eq_some_iff.mp h
    have hA' : ¬ AllowedBeforeReject P (es ++ l) := by
      unfold AllowedBeforeReject at hA ⊢
      rwa [takeWhile_append_of_firstReject_some hmsg]
    rw [if_neg hA', firstReject_append, hmsg]
    rfl

theorem decision_eq_none {P : Finset String} {es : List Event} (h : decision P es = none) :
    firstReject es = none ∧ ¬ ∀ p ∈ P, Event.allow p ∈ es := by
  unfold decision at h
  split_ifs at h with hA
  have hf : firstReject es = none := Option.map_eq_none_iff.mp h
  refine ⟨hf, fun hall => hA fun p hp => ?_⟩
  rw [← List.append_nil es, takeWhile_append_of_firstReject_none hf]
  simpa using hall p hp

theorem decision_nil {P : Finset String} (hP : P.Nonempty) : decision P [] = none := by
  obtain ⟨p, hp⟩ := hP
  rw [decision_of_firstReject_none rfl, if_neg fun hall => by simpa using hall p hp]

/-! ### Runs of calls -/

namespace waitingPod

@[simp] theorem Allow_pendingPlugins (w : waitingPod) (p : String) :
    (w.Allow p).pendingPlugins = w.pendingPlugins.erase p := by
  unfold Allow
  dsimp only
  split_ifs <;> rfl

theorem Allow_s (w : waitingPod) (p : String) :
    (w.Allow p).s =
      if (w.pendingPlugins.erase p).Nonempty then w.s else w.s.trySend (NewStatus .Success "") := by
  unfold Allow
  simp only [ne_eq, Finset.card_eq_zero, Finset.nonempty_iff_ne_empty]
  split_ifs <;> rfl

end waitingPod

/-- What a run of calls `es` leaves on a waiting pod pending on `P`: the plugins not allowed
yet are pending; until it is received, the buffer holds the first decision; what was received
is that decision. -/
structure Inv (P : Finset String) (es : List Event) (σ : waitingPod × Option Status) : Prop where
  pending : σ.1.pendingPlugins = P.filter fun p => Event.allow p ∉ es
  buf : σ.2 = none → σ.1.s.buf = decision P es
  received : ∀ st, σ.2 = some st → decision P es = some st

theorem Inv.init {P : Finset String} (hP : P.Nonempty) :
    Inv P [] (newWaitingPod P, none) where
  pending := by simp [newWaitingPod]
  buf := fun _ => (decision_nil hP).symm
  received := fun _ h => by cases h

theorem pending_allow {P : Finset String} {es : List Event} (p : String) :
    (P.filter fun q => Event.allow q ∉ es).erase p =
      P.filter fun q => Event.allow q ∉ es ++ [.allow p] := by
  ext q
  simp only [Finset.mem_erase, Finset.mem_filter, List.mem_append, List.mem_singleton,
    Event.allow.injEq]
  tauto

theorem pending_nonempty_iff {P : Finset String} {es : List Event} :
    (P.filter fun q => Event.allow q ∉ es).Nonempty ↔ ¬ ∀ q ∈ P, Event.allow q ∈ es := by
  simp only [Finset.filter_nonempty_iff, not_forall, exists_prop]

theorem Inv.allow {P : Finset String} {es : List Event} {w : waitingPod} {r : Option Status}
    (h : Inv P es (w, r)) (p : String) : Inv P (es ++ [.allow p]) (w.Allow p, r) where
  pending := by
    rw [waitingPod.Allow_pendingPlugins, h.pending, pending_allow]
  buf := by
    intro hr
    have hb := h.buf hr
    rw [waitingPod.Allow_s, h.pending, pending_allow]
    cases hd : decision P es with
    | some d =>
        rw [decision_append_of_some hd]
        rw [hd] at hb
        split_ifs
        · exact hb
        · rw [Go.Chan.buf_trySend, hb]
          rfl
    | none =>
        obtain ⟨hf, -⟩ := decision_eq_none hd
        have hf' : firstReject (es ++ [.allow p]) = none := by
          rw [firstReject_append, hf]
          rfl
        rw [hd] at hb
        rw [decision_of_firstReject_none hf']
        by_cases hall : ∀ q ∈ P, Event.allow q ∈ es ++ [.allow p]
        · rw [if_neg (not_not.mpr hall ∘ pending_nonempty_iff.mp), if_pos hall,
            Go.Chan.buf_trySend, hb]
          rfl
        · rw [if_pos (pending_nonempty_iff.mpr hall), if_neg hall, hb]
  received := fun st hst => decision_append_of_some (h.received st hst) _

theorem Inv.reject {P : Finset String} {es : List Event} {w : waitingPod} {r : Option Status}
    (h : Inv P es (w, r)) (msg : String) : Inv P (es ++ [.reject msg]) (w.Reject msg, r) where
  pending := by
    rw [show (w.Reject msg).pendingPlugins = w.pendingPlugins from rfl, h.pending]
    ext q
    simp
  buf := by
    intro hr
    have hb := h.buf hr
    rw [show (w.Reject msg).s = w.s.trySend (NewStatus .Unschedulable msg) from rfl,
      Go.Chan.buf_trySend, hb]
    cases hd : decision P es with
    | some d => rw [decision_append_of_some hd]; rfl
    | none =>
        obtain ⟨hf, hall⟩ := decision_eq_none hd
        have hA : ¬ AllowedBeforeReject P (es ++ [.reject msg]) := by
          intro hA
          refine hall fun p hp => ?_
          have hp' := hA p hp
          rw [takeWhile_append_of_firstReject_none hf] at hp'
          simpa using hp'
        rw [decision, if_neg hA, firstReject_append, hf]
        rfl
  received := fun st hst => decision_append_of_some (h.received st hst) _

theorem Inv.receive {P : Finset String} {es : List Event} {w : waitingPod} {st : Status}
    {c : Go.Chan Status} (h : Inv P es (w, none)) (hrecv : w.s.recv = some (st, c)) :
    Inv P (es ++ [.receive]) ({ w with s := c }, some st) where
  pending := by
    rw [show ({ w with s := c } : waitingPod).pendingPlugins = w.pendingPlugins from rfl, h.pending]
    ext q
    simp
  buf := fun hr => by cases hr
  received := by
    intro st' hst'
    obtain rfl : st = st' := Option.some.inj hst'
    obtain ⟨st₀, hbuf, hst₀⟩ := Option.map_eq_some_iff.mp hrecv
    obtain ⟨rfl, -⟩ := Prod.mk.inj hst₀
    exact decision_append_of_some ((h.buf rfl).symm.trans hbuf) _

/-- **Every call keeps `Inv`.** -/
theorem Inv.step {P : Finset String} {es : List Event} {σ σ' : waitingPod × Option Status}
    {e : Event} (h : Inv P es σ) (hstep : step σ e = some σ') : Inv P (es ++ [e]) σ' := by
  obtain ⟨w, r⟩ := σ
  cases e with
  | allow p =>
      obtain rfl := Option.some.inj hstep.symm
      exact h.allow p
  | reject msg =>
      obtain rfl := Option.some.inj hstep.symm
      exact h.reject msg
  | receive =>
      cases r with
      | some _ => cases hstep
      | none =>
          obtain ⟨⟨st, c⟩, hrecv, rfl⟩ := Option.map_eq_some_iff.mp hstep
          exact h.receive hrecv

/-- **Every run of calls on a new waiting pod keeps `Inv`.** -/
theorem Inv.run {P : Finset String} (hP : P.Nonempty) {es : List Event}
    {σ : waitingPod × Option Status} (hr : run (newWaitingPod P) es = some σ) : Inv P es σ :=
  StepSystem.foldlM_history_invariant WaitingPods.step (fun _ _ _ _ h hs => h.step hs) es [] _ σ
    (Inv.init hP) hr

/-- Once `WaitOnPermit` has received a status, it keeps it: no call delivers another. -/
theorem received_stays {w : waitingPod} {st : Status} {es es' : List Event} {w₁ w' : waitingPod}
    {r' : Option Status} (hr : run w es = some (w₁, some st))
    (hr' : run w (es ++ es') = some (w', r')) : r' = some st := by
  unfold run at hr hr'
  rw [List.foldlM_append, hr] at hr'
  have hkeep := StepSystem.foldlM_history_invariant step (I := fun _ σ => σ.2 = some st)
    (fun _ σ e σ' hσ hs => by
      obtain ⟨w, r⟩ := σ
      dsimp only at hσ
      subst hσ
      cases e with
      | allow p => obtain rfl := Option.some.inj hs.symm; rfl
      | reject msg => obtain rfl := Option.some.inj hs.symm; rfl
      | receive => cases hs)
    es' [] (w₁, some st) (w', r') rfl hr'
  exact hkeep

/-! ### `RunPermitPlugins` and `WaitOnPermit` -/

/-- The loop sets the code to `Wait` only together with a plugin that asked to wait. -/
theorem runPermitLoop_wait (podName : String) :
    ∀ (results : List (String × Option Status)) (acc out : Finset String × Code),
      (acc.2 = .Wait → acc.1.Nonempty) → runPermitLoop podName acc results = .ok out →
        out.2 = .Wait → out.1.Nonempty
  | [], acc, out, hacc, h => by
      obtain rfl : acc = out := Except.ok.inj h
      exact hacc
  | (name, status) :: rest, (pluginsWaitTime, statusCode), out, hacc, h => by
      cases status with
      | none => exact runPermitLoop_wait podName rest _ out hacc h
      | some st =>
          simp only [runPermitLoop] at h
          split_ifs at h
          · exact runPermitLoop_wait podName rest _ out
              (fun _ => ⟨name, Finset.mem_insert_self name pluginsWaitTime⟩) h
          · exact runPermitLoop_wait podName rest _ out hacc h

/-- **A waiting pod that `RunPermitPlugins` creates is pending on some plugin.** -/
theorem RunPermitPlugins_waitingPod {podName : String} {results : List (String × Option Status)}
    {w : waitingPod} (h : (RunPermitPlugins podName results).2 = some w) :
    w = newWaitingPod w.pendingPlugins ∧ w.pendingPlugins.Nonempty := by
  unfold RunPermitPlugins at h
  cases hl : runPermitLoop podName (∅, .Success) results with
  | error st =>
      rw [hl] at h
      cases h
  | ok out =>
      rw [hl] at h
      obtain ⟨pluginsWaitTime, statusCode⟩ := out
      dsimp only at h
      split_ifs at h with hw
      obtain rfl := Option.some.inj h
      exact ⟨rfl, runPermitLoop_wait podName results _ _ (fun h => by cases h) hl hw⟩

theorem WaitOnPermit_success (podName : String) :
    WaitOnPermit podName (NewStatus .Success "") = none := rfl

theorem WaitOnPermit_unschedulable (podName msg : String) :
    WaitOnPermit podName (NewStatus .Unschedulable msg) =
      some (NewStatus .Unschedulable
        ("pod " ++ Go.Quote podName ++ " rejected while waiting on permit: " ++ msg)) := by
  simp [WaitOnPermit, NewStatus, Status.IsUnschedulable, Status.Message]

/-- **The first decision wins.**  On a waiting pod that `RunPermitPlugins` creates, pending on
the plugins `P`, in every run of calls in which `WaitOnPermit` receives a status: no later call
delivers another; `WaitOnPermit` returns success exactly when every plugin of `P` allowed the
pod before any `Reject`; otherwise it returns `Unschedulable` with the message of the first
`Reject`. -/
theorem WaitOnPermit_first_decision {podName : String} {results : List (String × Option Status)}
    {w₀ : waitingPod} (hw : (RunPermitPlugins podName results).2 = some w₀) {es : List Event}
    {w : waitingPod} {st : Status} (hr : run w₀ es = some (w, some st)) :
    (∀ es' w' r', run w₀ (es ++ es') = some (w', r') → r' = some st) ∧
      (WaitOnPermit podName st = none ↔ AllowedBeforeReject w₀.pendingPlugins es) ∧
      (¬ AllowedBeforeReject w₀.pendingPlugins es → ∃ msg, firstReject es = some msg ∧
        WaitOnPermit podName st = some (NewStatus .Unschedulable
          ("pod " ++ Go.Quote podName ++ " rejected while waiting on permit: " ++ msg))) := by
  obtain ⟨hw₀, hP⟩ := RunPermitPlugins_waitingPod hw
  rw [hw₀] at hr
  have hd : decision w₀.pendingPlugins es = some st := (Inv.run hP hr).received st rfl
  refine ⟨fun es' w' r' h' => received_stays hr (hw₀ ▸ h'), ?_⟩
  unfold decision at hd
  split_ifs at hd with hA
  · obtain rfl := Option.some.inj hd.symm
    exact ⟨⟨fun _ => hA, fun _ => WaitOnPermit_success podName⟩, fun hn => absurd hA hn⟩
  · obtain ⟨msg, hmsg, rfl⟩ := Option.map_eq_some_iff.mp hd
    rw [WaitOnPermit_unschedulable]
    exact ⟨⟨fun h => (by cases h), fun hA' => absurd hA' hA⟩, fun _ => ⟨msg, hmsg, rfl⟩⟩

/-- Two plugins ask to wait; one allows the pod, the pod is removed, then the other allows it:
`WaitOnPermit` returns the rejection. -/
theorem WaitOnPermit_first_decision_removed :
    ∃ msg, firstReject [.allow "a", .reject "removed", .allow "b", .receive] = some msg ∧
      WaitOnPermit "p" (NewStatus .Unschedulable "removed") = some (NewStatus .Unschedulable
        ("pod " ++ Go.Quote "p" ++ " rejected while waiting on permit: " ++ msg)) :=
  (@WaitOnPermit_first_decision "p" [("a", some (NewStatus .Wait "")), ("b", some (NewStatus .Wait ""))]
    _ rfl [.allow "a", .reject "removed", .allow "b", .receive] _ (NewStatus .Unschedulable "removed")
    rfl).2.2 (by decide)

end WaitingPods

end Caspr
