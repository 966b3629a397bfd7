import IndexedMail.Query.Criteria
import IndexedMail.Settings.Server

/-!
# Command lines

The command line by which the index tool is asked for the matches of a query.  It does not exist
if the limit is a number that is too large to be written.
-/

namespace IndexedMail.Engine

/-- What a search is asked for. -/
structure Command where
  program : String
  indexDir : String
  text : String
  attributes : List String
  switches : List String
  maxResults : Int
  deriving DecidableEq, Repr

namespace Command

/-- A limit that is none: negative numbers stand for all matches. -/
def unlimited : Int := -1

/-- The arguments for a written limit, with the program first and the free text last. -/
def argvWith (c : Command) (limit : String) : List String :=
  [c.program, "search", "-vu", "-max", limit] ++ c.attributes ++ c.switches ++ [c.indexDir, c.text]

/-- The arguments, if the limit can be written. -/
def argv (c : Command) : Except Text.Numeral.Error (List String) :=
  (Text.Numeral.write c.maxResults).map c.argvWith

/-- The search for criteria on a server. -/
def ofServer (s : Settings.Server) (c : Query.Criteria) : Command :=
  { program := s.program
    indexDir := s.indexDir
    text := c.text
    attributes := c.attributeArguments Query.Criteria.attributeSwitch
    switches := s.switches
    maxResults := s.maxResults }

theorem argvWith_length (c : Command) (limit : String) :
    (c.argvWith limit).length = c.attributes.length + c.switches.length + 7 := by
  simp [argvWith]
  omega

end Command

end IndexedMail.Engine
