import Caspr.Framework.Types
import Caspr.Lib.Run

/-! # Plugin results and the preemption simulation (framework/interface.go)

A plugin returns a `*Status`: `nil` for success, else a code and its reasons.

Preemption asks the filter plugins whether a pod would fit on a node if some pods were there or
were not: `addNominatedPods` adds the pods nominated to the node, `selectVictimsOnNode` removes
victims from it and puts some back.  Each change is made to a copy of the node's `NodeInfo` and
reported to every plugin through its `PreFilterExtensions`, whose `AddPod` and `RemovePod`
update, in place, the state the plugin's `PreFilter` computed for the whole snapshot.

`SimStep` is one such call on one node, for a plugin whose two methods are given: it relates
the plugin's state and the node's pods before and after.  A plugin's extensions are correct when
every run of `SimStep` leaves the state that `PreFilter` computes on the snapshot with the node's
pods changed; `Plugins.SpreadCounts` and `Plugins.AffinityCounts` prove when they are. -/

namespace Caspr

/-- `framework.Code`. -/
inductive Code where
  | Success
  | Error
  | Unschedulable
  | UnschedulableAndUnresolvable
  | Wait
  | Skip
deriving DecidableEq, Repr

/-- `framework.Status`, when it is not `nil`. -/
structure Status where
  code : Code
  reasons : List String
deriving DecidableEq, Repr

namespace Status

/-- `s.Message()`: the reasons joined by `", "`. -/
def Message (s : Status) : String := String.intercalate ", " s.reasons

/-- `s.IsUnschedulable()`. -/
def IsUnschedulable (s : Status) : Bool :=
  s.code == .Unschedulable || s.code == .UnschedulableAndUnresolvable

end Status

/-- `framework.NewStatus(code, msg)`. -/
def NewStatus (code : Code) (msg : String) : Status := ⟨code, [msg]⟩

/-- A change that the preemption simulation makes to one node: a pod nominated to it added
(`addNominatedPods`), or one of its pods removed (`selectVictimsOnNode`). -/
inductive PodUpdate where
  | add (p : Pod)
  | remove (p : Pod)

/-- The pod a change adds or removes. -/
def PodUpdate.updatedPod : PodUpdate → Pod
  | .add p | .remove p => p

/-- One change on the node `n`, reported to a plugin whose `AddPod` and `RemovePod` are `addPod`
and `removePod`: it relates the plugin's state and the node's pods before and after, the
methods being given the node's `NodeInfo` after the change. -/
def SimStep {σ : Type} (addPod removePod : σ → Pod → NodeInfo → Except Go.Abort σ)
    (n : NodeInfo) : σ × List Pod → PodUpdate → σ × List Pod → Prop
  | (s, pods), .add q, (s', pods') =>
      pods'.Perm (q :: pods) ∧ addPod s q { n with pods := pods' } = .ok s'
  | (s, pods), .remove q, (s', pods') =>
      pods.Perm (q :: pods') ∧ removePod s q { n with pods := pods' } = .ok s'

end Caspr
