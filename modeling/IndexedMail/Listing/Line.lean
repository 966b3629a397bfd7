import IndexedMail.Hit
import IndexedMail.Listing.Article
import IndexedMail.Listing.Group
import IndexedMail.Text.Lines
import IndexedMail.Text.Percent

/-!
# Listings of the index tool

A line with a score, a tab and the address of a file is a hit; the header, the summary and all
else that the tool prints is passed over.
-/

namespace IndexedMail.Listing

/-- What it takes to read the listing of one server. -/
structure Mailbox where
  server : String
  removePrefix : String
  backend : String
  deriving DecidableEq, Repr

/-- What stands between the score and the path. -/
def addressMark : List Char :=
  "\tfile://".toList

/-- The score and the coded path of a line. -/
def splitLine? (line : List Char) : Option (List Char × List Char) :=
  let body := Text.trimEndBy (· == '\r') line
  let score := body.takeWhile Text.isDigit
  if score.isEmpty then none
  else
    match after? addressMark (body.dropWhile Text.isDigit) with
    | none => none
    | some rest =>
        let path := dropFinalNewline rest
        if path.isEmpty || path.contains '\n' then none else some (score, path)

/-- The hit that a line stands for. -/
def parseLine (m : Mailbox) (line : List Char) : Except Error (Option Hit) :=
  match splitLine? line with
  | none => .ok none
  | some (score, coded) =>
      let (directory, basename) := splitPath (Text.Percent.decode coded)
      match articleNumber basename m.backend with
      | .error e => .error e
      | .ok none => .ok none
      | .ok (some n) =>
          .ok (some
            { server := m.server
              group := String.ofList (groupName directory m.removePrefix.toList)
              article := Int.ofNat n
              score := String.ofList score })

def hitsOfLines (m : Mailbox) : List (List Char) → Except Error (List Hit)
  | [] => .ok []
  | line :: rest =>
      match parseLine m line with
      | .error e => .error e
      | .ok none => hitsOfLines m rest
      | .ok (some hit) => (hitsOfLines m rest).map (hit :: ·)

/-- The hits of a whole listing, ranked. -/
def parse (m : Mailbox) (output : List Char) : Except Error (List Hit) :=
  match hitsOfLines m (Text.lines output) with
  | .error e => .error e
  | .ok hits =>
      match Hit.sortByScore hits with
      | .ok sorted => .ok sorted
      | .error e => .error (.numeral e)

end IndexedMail.Listing
