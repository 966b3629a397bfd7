import IndexedMail.Yaml.Error
import IndexedMail.Yaml.Graph

/-!
# Merge keys

A merge key puts the entries of another mapping, or of several in a list, in front of those of its
own mapping, so that these win.  Merging changes the graph for good: whoever meets the mapping
later finds it merged, even while it is being merged into itself.
-/

namespace IndexedMail.Yaml.Graph

/-- Whether an entry merges something in. -/
def isMerge (g : Graph) (e : NodePair) : Bool :=
  g.tag e.1 == .merge

/-- The number of entries that merge something in. -/
def mergeCount (g : Graph) : Nat :=
  g.nodes.foldl (fun count node =>
    match node.content with
    | .mapping entries => count + entries.countP g.isMerge
    | _ => count) 0

/-- Take the first merging entry out of a mapping: the node that it merges in, and what is left. -/
def takeMerge? (g : Graph) (n : NodeId) : Option (NodeId × Graph) :=
  let entries := g.entries n
  let before := entries.takeWhile fun e => !g.isMerge e
  match entries.drop before.length with
  | [] => none
  | (_, value) :: after => some (value, g.fill n (.mapping (before ++ after)))

/-- The mappings that a node stands for when it is merged in: itself, or its items. -/
def mergeSources? (g : Graph) (n : NodeId) : Option (List NodeId) :=
  match g.at? n with
  | some { tag := _, content := .mapping _ } => some [n]
  | some { tag := _, content := .sequence items } =>
      if items.all g.isMapping then some items else none
  | _ => none

/-- Let the default keys among some keys be texts like others. -/
def settleKeys (entries : List NodePair) (g : Graph) : Graph :=
  entries.foldl (fun g e => if g.tag e.1 == .value then g.retag e.1 .string else g) g

/-- End the merging of a mapping: what was merged in comes before its own entries. -/
def settle (n : NodeId) (merged : List NodePair) (g : Graph) : Graph :=
  let own := g.entries n
  (g.settleKeys own).fill n (.mapping (merged ++ own))

/--
Merge into a mapping what its entries ask for, behind what was merged in before, with a bound on
the depth of calls; every call but the last takes one merging entry out of the graph.
-/
def flattenFuel : Nat → List NodePair → NodeId → Graph → Except Defect Graph
  | 0, _, _, g => .ok g
  | fuel + 1, merged, n, g =>
      match g.takeMerge? n with
      | none => .ok (g.settle n merged)
      | some (value, g) =>
          match g.mergeSources? value with
          | none => .error .unusableMerge
          | some sources =>
              match sources.foldlM (fun g source => flattenFuel fuel [] source g) g with
              | .error d => .error d
              | .ok g => flattenFuel fuel (merged ++ sources.reverse.flatMap g.entries) n g

/-- Merge into a mapping what its entries ask for. -/
def flatten (n : NodeId) (g : Graph) : Except Defect Graph :=
  if (g.entries n).any g.isMerge then flattenFuel (g.mergeCount + 1) [] n g
  else .ok (g.settle n [])

end IndexedMail.Yaml.Graph
