import IndexedMail.Yaml.Collection
import IndexedMail.Yaml.Graph.Merge
import IndexedMail.Yaml.Scalar.Reading

/-!
# Values of nodes

The value that a document denotes.  A node that is met is given its value at once if it is no
collection; a collection is only noted then, and collections are filled in the order in which
they were met.  So of several errors the one that is nearest to the root is found first.
-/

namespace IndexedMail.Yaml

/-- A collection that was met: its node, its kind, and what it was filled with. -/
structure Noted where
  node : NodeId
  tag : Tag
  content : Collection
  deriving Repr

/-- What is known while values are found: the graph, the nodes met so far, and their collections. -/
structure Finding where
  graph : Graph
  known : Array (Option Ref)
  noted : Array Noted

/-- Finding values. -/
abbrev Denoting := StateT Finding (Except Error)

namespace Denoting

/-- Give up. -/
def fail {α : Type} (d : Defect) : Denoting α := fun _ =>
  .error (.malformed d)

/-- The value of a node that is no collection. -/
def atom (g : Graph) (n : NodeId) (tag : Tag) : Except Error Atom :=
  if tag == .merge || tag == .value || tag == .other then .error (.malformed .unknownTag)
  else
    match g.text? n with
    | none => .error .tooDeep
    | some none => .error (.malformed .wrongKind)
    | some (some text) =>
        if tag == .timestamp && g.isMapping n then .error .momentOfMapping
        else
          match Scalar.read tag text with
          | .error e => .error e
          | .ok (.float .nan) =>
              .ok { value := .float .nan, mark := if Scalar.isSharedNan text then none else some n }
          | .ok value => .ok { value := value, mark := none }

/-- Note what a node stands for. -/
def know (n : NodeId) (r : Ref) (s : Finding) : Finding :=
  { s with known := s.known.setIfInBounds n.number (some r) }

/-- What a node stands for, which is settled when the node is met first. -/
def meet (n : NodeId) : Denoting Ref := fun s =>
  match (s.known[n.number]?).join with
  | some r => .ok (r, s)
  | none =>
      let tag := s.graph.tag n
      if tag.isCollection then
        let r := Ref.collection s.noted.size
        let noted := s.noted.push { node := n, tag := tag, content := .sequence [] }
        .ok (r, know n r { s with noted := noted })
      else
        match atom s.graph n tag with
        | .error e => .error e
        | .ok a => .ok (.atom a, know n (.atom a) s)

/-- The key that a node stands for; collections are none. -/
def key (n : NodeId) : Denoting Atom := do
  match ← meet n with
  | .atom a => pure a
  | _ => fail .unusableKey

def items (n : NodeId) : Denoting (List Ref) := do
  match (← get).graph.at? n with
  | some { tag := _, content := .sequence nodes } => nodes.mapM meet
  | _ => fail .wrongKind

/-- Merge into a mapping what its entries ask for. -/
def flatten (n : NodeId) : Denoting Unit := fun s =>
  match s.graph.flatten n with
  | .error d => .error (.malformed d)
  | .ok g => .ok ((), { s with graph := g })

/-- The entries of a mapping, in which later ones override earlier ones. -/
def entries (n : NodeId) : Denoting (List (Atom × Ref)) := do
  if (← get).graph.isMapping n then
    flatten n
    ((← get).graph.entries n).foldlM (fun found e => do
      let name ← key e.1
      let value ← meet e.2
      pure (Entries.insertBy Atom.isSame name value found)) []
  else fail .wrongKind

/-- The pair that a mapping of one entry stands for; nothing is merged into it. -/
def pair (n : NodeId) : Denoting Ref := do
  match (← get).graph.entries n with
  | [(first, second)] => do
      let a ← meet first
      let b ← meet second
      pure (.pair a b)
  | _ => fail .wrongKind

/-- The pairs that a sequence of mappings stands for. -/
def pairs (n : NodeId) : Denoting (List Ref) := do
  match (← get).graph.at? n with
  | some { tag := _, content := .sequence nodes } => nodes.mapM pair
  | _ => fail .wrongKind

/-- What a collection of a kind is filled with. -/
def content (n : NodeId) (tag : Tag) : Denoting Collection := do
  match tag with
  | .mapping => pure (.mapping (← entries n))
  | .set => pure (.set ((← entries n).map (·.1)))
  | .orderedMapping => pure (.sequence (← pairs n))
  | .pairs => pure (.sequence (← pairs n))
  | _ => pure (.sequence (← items n))

/-- Fill a collection. -/
def fill (number : Nat) (c : Noted) : Denoting Unit := do
  let filled ← content c.node c.tag
  modify fun s =>
    { s with noted := s.noted.setIfInBounds number { c with content := filled } }

/-- Fill the collections from a number on, with a bound on how many there can be. -/
def fillFrom : Nat → Nat → Denoting Unit
  | 0, _ => pure ()
  | fuel + 1, number => do
      match (← get).noted[number]? with
      | some c => do
          fill number c
          fillFrom fuel (number + 1)
      | none => pure ()

/-- Find the value of a document; every node is met as a collection at most once. -/
def document (root : NodeId) : Denoting Ref := do
  let r ← meet root
  fillFrom ((← get).graph.size + 1) 0
  pure r

end Denoting

/-- The value of a document with the given root. -/
def Graph.value (g : Graph) (root : NodeId) : Except Error Yaml :=
  let start : Finding :=
    { graph := g, known := Array.replicate g.size none, noted := #[] }
  match (Denoting.document root).run start with
  | .error e => .error e
  | .ok (r, s) => .ok (r.value (Collection.values (s.noted.map Noted.content)))

end IndexedMail.Yaml
