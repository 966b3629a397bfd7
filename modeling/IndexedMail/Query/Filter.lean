import IndexedMail.Text.Case

/-!
# Attribute filters

A word that begins with a field marker, such as `@title=` or `@size>`, compares an attribute of
a message with the rest of the word.  Letters of the marker match without regard to case.
-/

namespace IndexedMail.Query

/-- How an attribute is compared with a value. -/
inductive Comparison where
  | equalNumber
  | containsText
  | atMost
  | atLeast
  deriving DecidableEq, Repr

namespace Comparison

/-- The word that the index tool has for the comparison. -/
def keyword : Comparison → String
  | equalNumber => "NUMEQ"
  | containsText => "STRINC"
  | atMost => "NUMLE"
  | atLeast => "NUMGE"

/-- The comparison that an operator asks for on an attribute, written with or without its sign. -/
def ofOperator (field operator : List Char) : Comparison :=
  if operator == ['='] then
    if Text.lower (field.dropWhile (· == '@')) == "cdate".toList then equalNumber
    else containsText
  else if operator == ['<'] then atMost
  else atLeast

end Comparison

/-- One comparison of an attribute with a value. -/
structure Filter where
  field : String
  keyword : String
  value : String
  deriving DecidableEq, Repr

namespace Filter

/-- The expression that the index tool takes: three parts with a space between each two. -/
def render (f : Filter) : String :=
  f.field ++ " " ++ f.keyword ++ " " ++ f.value

/-- The filter as diagnostic messages show it, given the quoting of texts. -/
def describe (quote : String → String) (f : Filter) : String :=
  "AttributeFilter(attribute=" ++ quote f.field ++ ", keyword=" ++ quote f.keyword ++
    ", value=" ++ quote f.value ++ ")"

end Filter

/-- The field markers: an attribute with its sign, and one operator character. -/
def markers : List (List Char) :=
  ["@cdate=", "@cdate>", "@cdate<", "@author=", "@size>", "@size<", "@title=", "@uri="].map
    String.toList

/--
Whether a character of a word matches a small letter or a sign of a marker.

Case does not count; a dotted capital I and a dotless small i match an i, and a long s matches
an s.
-/
def matchesMarkerChar (m c : Char) : Bool :=
  c.toLower == m || (m == 'i' && (c == 'İ' || c == 'ı')) || (m == 's' && c == 'ſ')

/-- The part of a word that matches a marker, and the rest. -/
def splitMarker : List Char → List Char → Option (List Char × List Char)
  | [], rest => some ([], rest)
  | _ :: _, [] => none
  | m :: ms, c :: rest =>
      if matchesMarkerChar m c then (splitMarker ms rest).map fun (a, b) => (c :: a, b) else none

/-- Read a word as a filter, if it begins with a marker. -/
def parseFilter (word : List Char) : Option Filter :=
  (markers.findSome? fun marker => splitMarker marker word).map fun (marker, value) =>
    let small := Text.lower marker
    let field := small.dropLast
    let operator := small.drop field.length
    { field := String.ofList field
      keyword := (Comparison.ofOperator field operator).keyword
      value := String.ofList value }

end IndexedMail.Query
