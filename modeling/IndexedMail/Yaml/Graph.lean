import IndexedMail.Yaml.Tag

/-!
# The graph of a document

The scalars, sequences and mappings that a document spells, each with its kind.  An alias is the
node that it stands for, so that one node can be part of several others, and even of itself.
-/

namespace IndexedMail.Yaml

/-- A node, by its number in its document. -/
structure NodeId where
  number : Nat
  deriving DecidableEq, Repr

/-- A key and a value of a mapping. -/
abbrev NodePair := NodeId × NodeId

/-- What a node consists of. -/
inductive Content where
  | scalar (text : String)
  | sequence (items : List NodeId)
  | mapping (entries : List NodePair)
  deriving DecidableEq, Repr

/-- A node with its kind. -/
structure Node where
  tag : Tag
  content : Content
  deriving DecidableEq, Repr

/-- The nodes of a document by their numbers. -/
structure Graph where
  nodes : Array Node
  deriving Repr

namespace Graph

/-- No nodes. -/
def empty : Graph := ⟨#[]⟩

/-- The number of nodes. -/
def size (g : Graph) : Nat :=
  g.nodes.size

/-- A node, if there is one of that number. -/
def at? (g : Graph) (n : NodeId) : Option Node :=
  g.nodes[n.number]?

/-- A further node. -/
def add (node : Node) (g : Graph) : NodeId × Graph :=
  (⟨g.nodes.size⟩, ⟨g.nodes.push node⟩)

/-- Give a node other contents. -/
def fill (n : NodeId) (content : Content) (g : Graph) : Graph :=
  ⟨g.nodes.modify n.number fun node => { node with content := content }⟩

/-- Give a node another kind. -/
def retag (n : NodeId) (tag : Tag) (g : Graph) : Graph :=
  ⟨g.nodes.modify n.number fun node => { node with tag := tag }⟩

/-- The kind of a node. -/
def tag (g : Graph) (n : NodeId) : Tag :=
  ((g.at? n).map Node.tag).getD .other

/-- The entries of a mapping; nothing else has any. -/
def entries (g : Graph) (n : NodeId) : List NodePair :=
  match g.at? n with
  | some { tag := _, content := .mapping entries } => entries
  | _ => []

def isMapping (g : Graph) (n : NodeId) : Bool :=
  match g.at? n with
  | some { tag := _, content := .mapping _ } => true
  | _ => false

/--
The text of a node that is read as a scalar, with a bound on the steps that is never reached
unless the search does not end: a mapping has the text of its default entry.
-/
def textFuel (g : Graph) : Nat → NodeId → Option (Option String)
  | 0, _ => none
  | fuel + 1, n =>
      match g.at? n with
      | some { tag := _, content := .scalar text } => some (some text)
      | some { tag := _, content := .mapping entries } =>
          match entries.find? fun e => g.tag e.1 == .value with
          | some (_, value) => textFuel g fuel value
          | none => some none
      | _ => some none

/-- The text of a node that is read as a scalar, if the search for it ends and finds one. -/
def text? (g : Graph) (n : NodeId) : Option (Option String) :=
  g.textFuel (g.size + 1) n

end Graph

end IndexedMail.Yaml
