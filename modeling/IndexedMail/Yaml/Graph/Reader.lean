import IndexedMail.Yaml.Graph
import IndexedMail.Yaml.Token.Stream

/-!
# Reading the graph of a document

The scalars, sequences and mappings that the tokens of a document spell, with the kind of every
node settled and every alias replaced by the node that it stands for.  A collection stands for
its anchor as soon as it is opened.  Collections may be nested up to a limit.
-/

namespace IndexedMail.Yaml

namespace Reader

/-- What a document says about the kind of a node. -/
inductive Choice where
  | absent
  | open
  | named (tag : Tag)
  deriving DecidableEq, Repr

namespace Choice

def collection (default : Tag) : Choice → Tag
  | named t => t
  | _ => default

/-- The kind of a scalar; only quoted scalars without any tag are texts whatever they look like. -/
def scalar (text : String) (plain : Bool) : Choice → Tag
  | named t => t
  | «open» => Tag.ofPlain text
  | absent => if plain then Tag.ofPlain text else .string

end Choice

/--
The state of the reader: what is left, the meaning of the handles, the anchors, the nodes, and
the number of levels that may still be opened.
-/
structure State where
  tokens : List Token
  stop : Option Error
  handles : List (String × String)
  anchors : List (String × NodeId)
  graph : Graph
  levels : Nat

/-- Reading from a stream of tokens. -/
abbrev Reading := StateT State (Except Error)

/-- The next token, if there is one. -/
def peek : Reading (Option Token) := fun s =>
  match s.tokens, s.stop with
  | t :: _, _ => .ok (some t, s)
  | [], none => .ok (none, s)
  | [], some e => .error e

/-- Pass over a token. -/
def skip : Reading Unit := fun s =>
  .ok ((), { s with tokens := s.tokens.drop 1 })

/-- Give up. -/
def fail {α : Type} (d : Defect) : Reading α := fun _ =>
  .error (.malformed d)

/-- Pass over a token if it is the next one. -/
def accept (t : Token) : Reading Bool := do
  if (← peek) == some t then
    skip
    pure true
  else pure false

/-- The handles that every document knows. -/
def standardHandles : List (String × String) :=
  [("!", "!"), ("!!", Tag.standardBeginning)]

/-- The handles of a document with those that every document knows. -/
def withStandard (handles : List (String × String)) : List (String × String) :=
  handles ++ standardHandles

/-- What a tag says about the kind of its node. -/
def choice (name : TagName) : Reading Choice := fun s =>
  let ofName : String → Choice := fun n => if n == "!" then .open else .named (Tag.ofName n)
  match name.handle with
  | none => .ok (ofName name.suffix, s)
  | some h =>
      match s.handles.find? fun entry => entry.1 == h with
      | none => .error (.malformed .unknownHandle)
      | some (_, beginning) => .ok (ofName (beginning ++ name.suffix), s)

/-- The tag in front of a node. -/
def tag? : Reading (Option TagName) := do
  match ← peek with
  | some (.tag name) =>
      skip
      pure (some name)
  | _ => pure none

/-- The anchor in front of a node. -/
def anchor? : Reading (Option String) := do
  match ← peek with
  | some (.anchor name) =>
      skip
      pure (some name)
  | _ => pure none

/-- The anchor and the tag in front of a node, in either order. -/
def properties : Reading (Option String × Choice) := do
  let first ← anchor?
  let name ← tag?
  let second ← if first.isNone && name.isSome then anchor? else pure none
  let choice ←
    match name with
    | some n => choice n
    | none => pure .absent
  pure (first.or second, choice)

/-- Refuse an anchor that stands for another node already. -/
def checkNew (anchor : Option String) : Reading Unit := fun s =>
  match anchor with
  | none => .ok ((), s)
  | some name =>
      if s.anchors.any fun entry => entry.1 == name then .error (.malformed .repeatedAnchor)
      else .ok ((), s)

/-- Let an anchor stand for a node. -/
def bind (anchor : Option String) (n : NodeId) : Reading Unit := fun s =>
  match anchor with
  | none => .ok ((), s)
  | some name => .ok ((), { s with anchors := (name, n) :: s.anchors })

/-- The node that an alias stands for. -/
def ofAlias (name : String) : Reading NodeId := fun s =>
  match s.anchors.find? fun entry => entry.1 == name with
  | none => .error (.malformed .undefinedAlias)
  | some (_, n) => .ok (n, s)

/-- A new node. -/
def make (tag : Tag) (content : Content) : Reading NodeId := fun s =>
  let (n, graph) := s.graph.add { tag := tag, content := content }
  .ok (n, { s with graph := graph })

/-- Give a node its contents. -/
def complete (n : NodeId) (content : Content) : Reading Unit := fun s =>
  .ok ((), { s with graph := s.graph.fill n content })

/-- Read what is inside a collection. -/
def inside {α : Type} (read : Reading α) : Reading α := fun s =>
  match s.levels with
  | 0 => .error .tooDeep
  | levels + 1 =>
      match read { s with levels := levels } with
      | .error e => .error e
      | .ok (a, after) => .ok (a, { after with levels := levels + 1 })

def scalar (anchor : Option String) (tag : Tag) (text : String) : Reading NodeId := do
  let n ← make tag (.scalar text)
  bind anchor n
  pure n

/-- A sequence, which stands for its anchor already while its items are read. -/
def sequence (anchor : Option String) (tag : Tag) (items : Reading (List NodeId)) :
    Reading NodeId := do
  let n ← make tag (.sequence [])
  bind anchor n
  complete n (.sequence (← inside items))
  pure n

/-- A mapping, which stands for its anchor already while its entries are read. -/
def mapping (anchor : Option String) (tag : Tag) (entries : Reading (List NodePair)) :
    Reading NodeId := do
  let n ← make tag (.mapping [])
  bind anchor n
  complete n (.mapping (← inside entries))
  pure n

/-- The node that stands where nothing is written. -/
def nothing : Reading NodeId :=
  make .null (.scalar "")

/-- Whether the next token is one of the given ones. -/
def isNext (ts : List Token) : Reading Bool := do
  match ← peek with
  | some t => pure (ts.contains t)
  | none => pure false

mutual

/--
Read a node, with a bound on the steps.

Block collections are looked for only where they can stand, and a sequence whose dashes are not
indented further only below a key.
-/
def node : Nat → Bool → Bool → Reading NodeId
  | 0, _, _ => fail .unexpectedToken
  | fuel + 1, block, belowKey => do
      match ← peek with
      | some (.alias name) =>
          skip
          ofAlias name
      | _ =>
          let (anchor, choice) ← properties
          content fuel block belowKey anchor choice

/-- Read a node behind its properties. -/
def content : Nat → Bool → Bool → Option String → Choice → Reading NodeId
  | 0, _, _, _, _ => fail .unexpectedToken
  | fuel + 1, block, belowKey, anchor, choice => do
      let next ← peek
      checkNew anchor
      match next with
      | some (.scalar text plain) =>
          skip
          scalar anchor (choice.scalar text plain) text
      | some .openSequence =>
          skip
          sequence anchor (choice.collection .sequence) (flowItems fuel true)
      | some .openMapping =>
          skip
          mapping anchor (choice.collection .mapping) (flowEntries fuel true)
      | some .blockSequence =>
          if block then
            skip
            sequence anchor (choice.collection .sequence) (blockItems fuel)
          else omitted anchor choice
      | some .blockMapping =>
          if block then
            skip
            mapping anchor (choice.collection .mapping) (blockEntries fuel)
          else omitted anchor choice
      | some .blockEntry =>
          if belowKey then sequence anchor (choice.collection .sequence) (looseItems fuel)
          else omitted anchor choice
      | _ => omitted anchor choice

/-- A node of which only the properties are written. -/
def omitted (anchor : Option String) (choice : Choice) : Reading NodeId :=
  if anchor.isNone && choice == .absent then fail .unexpectedToken
  else scalar anchor (choice.scalar "" true) ""

/-- A node, or nothing if one of the given tokens comes first. -/
def nodeUnless (ts : List Token) : Nat → Bool → Bool → Reading NodeId
  | 0, _, _ => fail .unexpectedToken
  | fuel + 1, block, belowKey => do
      if ← isNext ts then nothing else node fuel block belowKey

/-- The items of an indented block sequence. -/
def blockItems : Nat → Reading (List NodeId)
  | 0 => fail .unexpectedToken
  | fuel + 1 => do
      if ← accept .blockEntry then
        let item ← nodeUnless [.blockEntry, .blockEnd] fuel true false
        let rest ← blockItems fuel
        pure (item :: rest)
      else if ← accept .blockEnd then pure []
      else fail .unexpectedToken

/-- The items of a block sequence that is not indented further than the key above it. -/
def looseItems : Nat → Reading (List NodeId)
  | 0 => fail .unexpectedToken
  | fuel + 1 => do
      if ← accept .blockEntry then
        let item ← nodeUnless [.blockEntry, .key, .value, .blockEnd] fuel true false
        let rest ← looseItems fuel
        pure (item :: rest)
      else pure []

def blockEntries : Nat → Reading (List NodePair)
  | 0 => fail .unexpectedToken
  | fuel + 1 => do
      if ← accept .key then
        let key ← nodeUnless [.key, .value, .blockEnd] fuel true true
        let value ←
          if ← accept .value then nodeUnless [.key, .value, .blockEnd] fuel true true
          else nothing
        let rest ← blockEntries fuel
        pure ((key, value) :: rest)
      else if ← accept .blockEnd then pure []
      else fail .unexpectedToken

/-- The items of a flow sequence; an item may be a mapping of one entry. -/
def flowItems : Nat → Bool → Reading (List NodeId)
  | 0, _ => fail .unexpectedToken
  | fuel + 1, first => do
      if ← accept .closeSequence then pure []
      else
        let separated ← if first then pure true else accept .flowEntry
        if !separated then fail .unexpectedToken
        else if ← accept .key then
          let pair ← mapping none .mapping (flowPair fuel)
          let rest ← flowItems fuel false
          pure (pair :: rest)
        else if ← accept .closeSequence then pure []
        else
          let item ← node fuel false false
          let rest ← flowItems fuel false
          pure (item :: rest)

/-- The entry of a mapping that is an item of a flow sequence. -/
def flowPair : Nat → Reading (List NodePair)
  | 0 => fail .unexpectedToken
  | fuel + 1 => do
      let key ← nodeUnless [.value, .flowEntry, .closeSequence] fuel false false
      let value ←
        if ← accept .value then nodeUnless [.flowEntry, .closeSequence] fuel false false
        else nothing
      pure [(key, value)]

/-- The entries of a flow mapping. -/
def flowEntries : Nat → Bool → Reading (List NodePair)
  | 0, _ => fail .unexpectedToken
  | fuel + 1, first => do
      if ← accept .closeMapping then pure []
      else
        let separated ← if first then pure true else accept .flowEntry
        if !separated then fail .unexpectedToken
        else if ← accept .key then
          let key ← nodeUnless [.value, .flowEntry, .closeMapping] fuel false false
          let value ←
            if ← accept .value then nodeUnless [.flowEntry, .closeMapping] fuel false false
            else nothing
          let rest ← flowEntries fuel false
          pure ((key, value) :: rest)
        else if ← accept .closeMapping then pure []
        else
          let key ← node fuel false false
          let value ← nothing
          let rest ← flowEntries fuel false
          pure ((key, value) :: rest)

end

/-- The meaning of the handles in the directives before a document, with a bound on their number. -/
def directives : Nat → Bool → List (String × String) → Reading (List (String × String))
  | 0, _, handles => pure handles
  | fuel + 1, versioned, handles => do
      match ← peek with
      | some (.directive d) =>
          skip
          match d with
          | .version major =>
              if versioned then fail .repeatedDirective
              else if major != 1 then fail .unsupportedVersion
              else directives fuel true handles
          | .handle name beginning =>
              if handles.any fun entry => entry.1 == name then fail .repeatedDirective
              else directives fuel versioned ((name, beginning) :: handles)
          | .other => directives fuel versioned handles
      | _ => pure handles

/-- The content of a document behind its mark. -/
def marked (bound : Nat) : Reading NodeId := do
  match ← peek with
  | none => nothing
  | some (.directive _) => nothing
  | some .documentStart => nothing
  | some .documentEnd => nothing
  | some _ => node bound true false

/-- The first document, if there is one. -/
def document (bound : Nat) : Reading (Option NodeId) := do
  match ← peek with
  | none => pure none
  | some t =>
      let isMarked :=
        match t with
        | .directive _ => true
        | .documentStart => true
        | _ => false
      if isMarked then
        let handles ← directives bound false []
        if ← accept .documentStart then
          modify fun s => { s with handles := withStandard handles }
          some <$> marked bound
        else fail .unexpectedToken
      else some <$> node bound true false

/-- Pass over marks at the end of a document. -/
def skipEnds : Nat → Reading Unit
  | 0 => pure ()
  | fuel + 1 => do
      if ← accept .documentEnd then skipEnds fuel else pure ()

/-- The only document of a stream. -/
def single (bound : Nat) : Reading (Option NodeId) := do
  let root ← document bound
  skipEnds bound
  match ← peek with
  | none => pure root
  | some _ =>
      let _ ← directives bound false []
      let _ ← peek
      fail .secondDocument

end Reader

/-- The graph of the only document of a stream and its root, if there is one, within some levels. -/
def Graph.ofStream? (levels : Nat) (s : Stream) : Except Error (Option (NodeId × Graph)) :=
  let start : Reader.State :=
    { tokens := s.tokens
      stop := s.stop
      handles := Reader.standardHandles
      anchors := []
      graph := Graph.empty
      levels := levels }
  match (Reader.single (4 * s.tokens.length + 8)).run start with
  | .error e => .error e
  | .ok (root, state) => .ok (root.map (·, state.graph))

end IndexedMail.Yaml
