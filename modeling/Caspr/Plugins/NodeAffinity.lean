import Caspr.Framework.Types
import Caspr.Lib.Go

/-! # Node selectors and required node affinity

`helper.PodMatchesNodeSelectorAndAffinityTerms` (plugins/helper/node_affinity.go) says whether a
node can host a pod by the pod's `nodeSelector` and the required terms of its node affinity.
The terms are matched as `nodeaffinity.LazyErrorNodeSelector` matches them (component-helpers):
a term with no requirement is dropped, a term whose requirements do not parse matches nothing,
and one term that matches is enough.

*Modelling.*  `labels.NewRequirement` checks that the values fit the operator, which is modelled
(`NodeSelectorRequirement.valid`), and that keys and values are well-formed label names, which
is not: every key and value is taken as well-formed. -/

namespace Caspr

namespace NodeSelectorRequirement

/-- `labels.NewRequirement` on the operator and values of a requirement on labels: `In` and
`NotIn` need values, `Exists` and `DoesNotExist` none, `Gt` and `Lt` one integer. -/
def valid (r : NodeSelectorRequirement) : Bool :=
  match r.operator with
  | .In | .NotIn => !r.values.isEmpty
  | .Exists | .DoesNotExist => r.values.isEmpty
  | .Gt | .Lt =>
      match r.values with
      | [v] => (Go.ParseInt v).2.isNone
      | _ => false

/-- `Requirement.Matches` on the node's labels.  `Gt` and `Lt` compare the label and the value as
integers; a label that is not one matches nothing. -/
def Matches (r : NodeSelectorRequirement) (ls : AList (fun _ : String => String)) : Bool :=
  match r.operator, ls.lookup r.key with
  | .In, some v => decide (v ∈ r.values)
  | .In, none => false
  | .NotIn, some v => decide (v ∉ r.values)
  | .NotIn, none => true
  | .Exists, v => v.isSome
  | .DoesNotExist, v => v.isNone
  | .Gt, some v | .Lt, some v =>
      match Go.ParseInt v, r.values with
      | (lsValue, none), [w] =>
          match Go.ParseInt w with
          | (rValue, none) =>
              (r.operator == .Gt && decide (lsValue > rValue)) ||
                (r.operator == .Lt && decide (lsValue < rValue))
          | _ => false
      | _, _ => false
  | .Gt, none | .Lt, none => false

/-- `nodeSelectorRequirementsAsFieldSelector` on one requirement: `In` or `NotIn` with one
value. -/
def fieldValid (r : NodeSelectorRequirement) : Bool :=
  match r.operator, r.values with
  | .In, [_] | .NotIn, [_] => true
  | _, _ => false

/-- The field selector of a requirement on the node's fields, `{"metadata.name": name}`: a field
that is not set reads as `""`. -/
def fieldMatches (r : NodeSelectorRequirement) (name : String) : Bool :=
  let field := if r.key = "metadata.name" then name else ""
  match r.operator, r.values with
  | .In, [v] => field == v
  | .NotIn, [v] => field != v
  | _, _ => false

end NodeSelectorRequirement

namespace NodeSelectorTerm

/-- `newNodeSelectorTerm(term)` then `term.match(nodeLabels, nodeFields)`: a term that does not
parse matches nothing; else its label requirements must all match, and its field requirements
too when the node has a name. -/
def Match (t : NodeSelectorTerm) (node : Node) : Bool :=
  t.matchExpressions.all NodeSelectorRequirement.valid &&
    t.matchFields.all NodeSelectorRequirement.fieldValid &&
    t.matchExpressions.all (·.Matches node.labels) &&
    (node.name.isEmpty || t.matchFields.all (·.fieldMatches node.name))

/-- `isEmptyNodeSelectorTerm`. -/
def isEmpty (t : NodeSelectorTerm) : Bool := t.matchExpressions.isEmpty && t.matchFields.isEmpty

end NodeSelectorTerm

/-- `nodeMatchesNodeSelector(node, nodeSelector)`: some term that is not empty matches. -/
def nodeMatchesNodeSelector (node : Node) (nodeSelector : NodeSelector) : Bool :=
  nodeSelector.nodeSelectorTerms.any fun t => !t.isEmpty && t.Match node

/-- `helper.NodeMatchesNodeAffinity(affinity, node)`: a nil affinity or a nil required part
matches every node. -/
def NodeMatchesNodeAffinity (affinity : Option NodeAffinity) (node : Node) : Bool :=
  match affinity with
  | none => true
  | some a =>
      match a.requiredDuringSchedulingIgnoredDuringExecution with
      | none => true
      | some ns => nodeMatchesNodeSelector node ns

/-- `helper.PodMatchesNodeSelectorAndAffinityTerms(pod, node)`: every label of the pod's
`nodeSelector` is on the node, and the node matches the pod's required node affinity. -/
def PodMatchesNodeSelectorAndAffinityTerms (pod : Pod) (node : Node) : Bool :=
  (pod.nodeSelector.entries.isEmpty ||
      pod.nodeSelector.entries.all fun e => node.labels.lookup e.1 == some e.2) &&
    match pod.affinity with
    | none => true
    | some a => NodeMatchesNodeAffinity a.nodeAffinity node

end Caspr
