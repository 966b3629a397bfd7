import IndexedMail.Json.Whole
import IndexedMail.Ranking

/-!
# Hits

A hit is one message that a server found.  Hits are ranked by the number that the score spells;
the score itself stays the text that the index tool printed.

An item is what a report lists: a hit, or whatever else a source or a file puts in its place,
with values of any kind that are passed on as they are.
-/

namespace IndexedMail

/-- One message found. -/
structure Hit where
  server : String
  group : String
  article : Int
  score : String
  deriving DecidableEq, Repr

namespace Hit

/-- The number by which hits are ordered. -/
def rank (h : Hit) : Except Text.Numeral.Error Int :=
  Text.Numeral.read h.score.toList

/-- Hits by falling rank; hits of one rank keep their order. -/
def sortByScore (hits : List Hit) : Except Text.Numeral.Error (List Hit) :=
  Ranking.sort rank hits

end Hit

/-- One entry of a report. -/
structure Item where
  server : Json
  group : Json
  article : Json
  score : Json
  deriving Repr, Inhabited

/-- The hit as an entry of a report. -/
def Hit.item (h : Hit) : Item :=
  { server := .string h.server
    group := .string h.group
    article := .int h.article
    score := .string h.score }

namespace Item

/-- The number by which items are ordered. -/
def rank (i : Item) : Except Json.NotWhole Int :=
  i.score.whole

/-- Items by falling rank; items of one rank keep their order. -/
def sortByScore (items : List Item) : Except Json.NotWhole (List Item) :=
  Ranking.sort rank items

theorem sortByScore_perm {items sorted : List Item} (h : sortByScore items = .ok sorted) :
    sorted.Perm items :=
  Ranking.sort_perm h

end Item

end IndexedMail
