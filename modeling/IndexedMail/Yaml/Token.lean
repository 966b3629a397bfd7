/-!
# Tokens of settings files

The pieces of which documents are made.  Indentation has become explicit: block collections have
a beginning and an end, and a mark stands before every key.
-/

namespace IndexedMail.Yaml

/-- A tag as it is written: with a handle that stands for the beginning, or verbatim. -/
structure TagName where
  handle : Option String
  suffix : String
  deriving DecidableEq, Repr

/-- An instruction in front of a document. -/
inductive Directive where
  | version (major : Nat)
  | handle (name beginning : String)
  | other
  deriving DecidableEq, Repr

/-- A token; a scalar is plain if it stands without quotation marks and is no block. -/
inductive Token where
  | directive (d : Directive)
  | documentStart
  | documentEnd
  | blockSequence
  | blockMapping
  | blockEnd
  | openSequence
  | closeSequence
  | openMapping
  | closeMapping
  | blockEntry
  | flowEntry
  | key
  | value
  | alias (name : String)
  | anchor (name : String)
  | tag (name : TagName)
  | scalar (text : String) (plain : Bool)
  deriving DecidableEq, Repr

end IndexedMail.Yaml
