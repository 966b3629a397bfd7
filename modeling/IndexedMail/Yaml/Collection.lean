import IndexedMail.Yaml.Graph
import IndexedMail.Yaml.Value

/-!
# Collections

The collections that a document denotes, which refer to each other by number, and the values that
they are when they are followed.  A collection can be part of itself; its value is unrolled to a
depth that no reader reaches.
-/

namespace IndexedMail.Yaml

/--
A value that is no collection.  A not-a-number equals nothing but itself, and so it is marked by
the node where it stands, unless it is the one that many nodes share.
-/
structure Atom where
  value : Yaml
  mark : Option NodeId
  deriving Repr

/-- Whether two atoms are one key. -/
def Atom.isSame (a b : Atom) : Bool :=
  sameKey a.value b.value && a.mark == b.mark

/-- What stands in a collection. -/
inductive Ref where
  | atom (a : Atom)
  | collection (number : Nat)
  | pair (first second : Ref)
  deriving Repr

/-- A collection of a document. -/
inductive Collection where
  | sequence (items : List Ref)
  | mapping (entries : List (Atom × Ref))
  | set (elements : List Atom)
  deriving Repr

/-- Values of collections by their numbers, with a note on whether they are complete. -/
abbrev Table := Array (Yaml × Bool)

namespace Ref

/-- The value that a reference leads to. -/
def value (table : Table) : Ref → Yaml
  | atom a => a.value
  | collection n => (table[n]?.map (·.1)).getD .endless
  | pair first second => .sequence [first.value table, second.value table]

def isComplete (table : Table) : Ref → Bool
  | atom _ => true
  | collection n => (table[n]?.map (·.2)).getD false
  | pair first second => first.isComplete table && second.isComplete table

end Ref

namespace Collection

/-- The value of a collection, given the values of those that it refers to. -/
def value (table : Table) : Collection → Yaml
  | sequence items => .sequence (items.map (Ref.value table))
  | mapping entries => .mapping (entries.map fun (key, r) => (key.value, r.value table))
  | set elements => .set (elements.map Atom.value)

def isComplete (table : Table) : Collection → Bool
  | sequence items => items.all (Ref.isComplete table)
  | mapping entries => entries.all fun (_, r) => r.isComplete table
  | set _ => true

/-- The values of all collections one level deeper than before. -/
def deepen (collections : Array Collection) (table : Table) : Table :=
  collections.mapIdx fun n c =>
    match table[n]? with
    | some (value, true) => (value, true)
    | _ => (c.value table, c.isComplete table)

/-- The values of all collections to a depth that is limited, or until all are complete. -/
def unroll (collections : Array Collection) : Nat → Table → Table
  | 0, table => table
  | levels + 1, table =>
      if table.all (·.2) then table else unroll collections levels (deepen collections table)

/-- The depth that no reader of settings reaches. -/
def readerDepth : Nat := 1000

/-- The values of all collections. -/
def values (collections : Array Collection) : Table :=
  unroll collections (collections.size + readerDepth) (collections.map fun _ => (.endless, false))

end Collection

end IndexedMail.Yaml
