import IndexedMail.Engine.Child
import IndexedMail.Engine.Command
import IndexedMail.Listing.Line
import IndexedMail.Source

/-!
# Searching one server

The criteria of a query are handed to the index tool, which is started once; what it prints is read
as a listing whether it succeeded or not.  A query that cannot be cut into words starts nothing,
and neither does a search whose command line does not exist.
-/

namespace IndexedMail.Engine

/-- The criteria of a query with the child process that searches for them. -/
structure Plan where
  criteria : Query.Criteria
  invocation : Invocation
  deriving DecidableEq, Repr

/-- Why there is no plan: the query has no words, or the criteria no command line. -/
inductive Unplanned where
  | query (e : Query.SyntaxError)
  | limit (c : Query.Criteria) (e : Text.Numeral.Error)
  deriving DecidableEq, Repr

namespace Plan

/-- The search for criteria on a server, below an environment. -/
def ofCriteria (s : Settings.Server) (parent : Environment) (c : Query.Criteria) :
    Except Unplanned Plan :=
  match (Command.ofServer s c).argv with
  | .error e => .error (.limit c e)
  | .ok argv =>
      .ok
        { criteria := c
          invocation := { argv := argv, environment := some (parent.override s.pinned) } }

/-- The search for a query on a server, below an environment. -/
def ofQuery (s : Settings.Server) (parent : Environment) (query : String) :
    Except Unplanned Plan :=
  match Query.Criteria.ofQuery query with
  | .error e => .error (.query e)
  | .ok c => ofCriteria s parent c

end Plan

/-- The part of a server's settings by which its listings are read. -/
def mailbox (s : Settings.Server) : Listing.Mailbox :=
  { server := s.name, removePrefix := s.removePrefix, backend := s.backend }

/-- A message of a server, as it is reported. -/
def named (s : Settings.Server) (message : String) : String :=
  s.name ++ ": " ++ message

/-- The response to a query that cannot be cut into words. -/
def rejection (s : Settings.Server) (e : Query.SyntaxError) : Response :=
  { events := [.report (named s e.message)], result := .ok [] }

/-- The note on the criteria of a query. -/
def queryRecord (s : Settings.Server) (c : Query.Criteria) : Log.Record :=
  .debug (s!"estraier query: server={s.name} text={Text.quoted c.text} " ++
    s!"filters={c.describeFilters}")

/-- The response where no search can be planned. -/
def unplanned (s : Settings.Server) : Unplanned → Response
  | .query e => rejection s e
  | .limit c e => { events := [.record (queryRecord s c)], result := .error e.message }

/-- The events that a child without success causes. -/
def failureEvents (s : Settings.Server) (i : Invocation) (o : Outcome) : List Event :=
  if o.succeeded then []
  else
    [.report (named s (ProcessError.message ⟨i.argv, o.status?⟩)),
      .record (.debug (s!"estcmd output for {s.name}:\n" ++ String.ofList (o.text .utf8)))]

/-- The note on the hits of a listing. -/
def hitsRecord (s : Settings.Server) (hits : List Hit) : Log.Record :=
  .debug s!"estraier parsed {hits.length} results for server={s.name}"

/-- The response of a server whose child ended with an outcome. -/
def conclusion (s : Settings.Server) (p : Plan) (o : Outcome) : Response :=
  let events :=
    Event.record (queryRecord s p.criteria) ::
      ((childRecords p.invocation o).map .record ++ failureEvents s p.invocation o)
  match Listing.parse (mailbox s) (o.text .utf8) with
  | .error e => { events := events, result := .error e.message }
  | .ok hits =>
      { events := events ++ [.record (hitsRecord s hits)], result := .ok (hits.map Hit.item) }

/-- Search a server in a world where `run` starts children. -/
def search {σ : Type} (run : Invocation → σ → Outcome × σ) (parent : Environment)
    (s : Settings.Server) (query : String) (world : σ) : Response × σ :=
  match Plan.ofQuery s parent query with
  | .error e => (unplanned s e, world)
  | .ok plan =>
      let (outcome, world) := run plan.invocation world
      (conclusion s plan outcome, world)

/-- The source that searches a server; it has nothing to release. -/
def source {σ : Type} (run : Invocation → σ → Outcome × σ) (parent : Environment)
    (s : Settings.Server) : Source σ :=
  { name? := some s.name
    search := fun query _ => search run parent s query
    close? := some fun world => (none, world) }

/-- A server with an engine that nothing is known of. -/
structure Unsupported where
  server : String
  engine : String
  deriving DecidableEq, Repr

/-- The refusal in words. -/
def Unsupported.message (e : Unsupported) : String :=
  s!"Unsupported search engine for server {e.server}: {e.engine}"

/-- The source for a server, chosen by its engine. -/
def source? {σ : Type} (run : Invocation → σ → Outcome × σ) (parent : Environment)
    (s : Settings.Server) : Except Unsupported (Source σ) :=
  if Settings.engines.contains s.engine then .ok (source run parent s)
  else .error ⟨s.name, s.engine⟩

end IndexedMail.Engine
