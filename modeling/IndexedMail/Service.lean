import IndexedMail.Engine.Search
import IndexedMail.Report.Basic
import IndexedMail.Settings.Basic

/-!
# Searching several servers

A service runs one query on the selected sources, in order.  A source that fails does not keep
the others from being searched, and the search as a whole fails only if all of them do.  Messages
are gathered by a collector if there is one, which is emptied when a search begins and when its
report is made.
-/

namespace IndexedMail

/-- Sources, and the messages that wait in the collector if there is one. -/
structure Service (σ : Type) where
  sources : List (Source σ)
  pending : Option (List String)

namespace Service

/-- Why a search as a whole fails. -/
inductive Error where
  | noServers
  | unknownServers (names : List String)
  | allFailed (names : List String)
  | rank (e : Json.NotWhole)
  deriving DecidableEq, Repr

namespace Error

def message : Error → String
  | noServers => "No search servers are configured"
  | unknownServers names => "Unknown search server(s): " ++ Text.commaSeparated names
  | allFailed names => "All search servers failed: " ++ Text.commaSeparated names
  | rank e => e.message

end Error

variable {σ : Type}

/-- The names of the sources, in order. -/
def names (svc : Service σ) : List String :=
  svc.sources.map Source.displayName

/-- The source of a name; of several with one name it is the last. -/
def source? (svc : Service σ) (name : String) : Option (Source σ) :=
  svc.sources.reverse.find? fun s => s.selector == name

/-- The sources to search: all of them, or those of the given names, each once. -/
def select (svc : Service σ) (servers : List String) : Except Error (List (Source σ)) :=
  if svc.sources.isEmpty then .error .noServers
  else if servers.isEmpty then .ok svc.sources
  else
    match servers.filter fun name => (svc.source? name).isNone with
    | [] => .ok (servers.eraseDups.filterMap svc.source?)
    | unknown => .error (.unknownServers unknown)

/-- What has come of the sources that were searched so far. -/
structure Progress (σ : Type) where
  items : List Item
  failed : List String
  failures : List String
  pending : Option (List String)
  records : List Log.Record
  world : σ

namespace Progress

/-- Add a record. -/
def log (r : Log.Record) (p : Progress σ) : Progress σ :=
  { p with records := p.records ++ [r] }

/-- Hand a message to the collector, which logs it; without a collector it is lost. -/
def report (message : String) (p : Progress σ) : Progress σ :=
  match p.pending with
  | none => p
  | some waiting => { p.log (.warning message) with pending := some (waiting ++ [message]) }

/-- Let an event happen. -/
def event (p : Progress σ) : Event → Progress σ
  | .record r => p.log r
  | .report message => p.report message

/-- Note the failure of a source. -/
def fail (name error : String) (p : Progress σ) : Progress σ :=
  let message := name ++ ": " ++ error
  let p := { p with failed := p.failed ++ [name] }
  match p.pending with
  | some _ => p.report message
  | none =>
      { p.log (.warning ("Search server failed: " ++ message)) with
        failures := p.failures ++ [message] }

/-- Note the items of a source. -/
def complete (name : String) (items : List Item) (p : Progress σ) : Progress σ :=
  { p.log (.info s!"Search server completed: server={name} count={items.length}") with
    items := p.items ++ items }

/-- Search one source. -/
def search (query : String) (group : Option String) (p : Progress σ) (s : Source σ) :
    Progress σ :=
  let (response, world) := s.search query group p.world
  let p := response.events.foldl event { p with world := world }
  match response.result with
  | .error e => p.fail s.displayName e
  | .ok items => p.complete s.displayName items

end Progress

/-- What comes of a search, with the collector, the log and the world behind it. -/
structure Answer (σ : Type) where
  outcome : Except Error Report
  pending : Option (List String)
  records : List Log.Record
  world : σ

/-- The report on the sources that were searched, if not all of them failed. -/
def conclude (selected : List (Source σ)) (p : Progress σ) : Answer σ :=
  if p.failed.length = selected.length then
    { outcome := .error (.allFailed p.failed)
      pending := p.pending
      records := p.records
      world := p.world }
  else
    { outcome :=
        match Item.sortByScore p.items with
        | .error e => .error (.rank e)
        | .ok items => .ok { items := items, errors := p.pending.getD p.failures }
      pending := p.pending.map fun _ => []
      records := p.records
      world := p.world }

/-- Run a query on the sources of the given names, or on all if none are given. -/
def search (svc : Service σ) (query : String) (servers : List String) (group : Option String)
    (world : σ) : Answer σ :=
  match svc.select servers with
  | .error e => { outcome := .error e, pending := svc.pending, records := [], world := world }
  | .ok selected =>
      let start : Progress σ :=
        { items := []
          failed := []
          failures := []
          pending := svc.pending.map fun _ => []
          records := []
          world := world }
      conclude selected (selected.foldl (Progress.search query group) start)

/-- Put a message into the collector from outside. -/
def report (svc : Service σ) (message : String) : Service σ × List Log.Record :=
  match svc.pending with
  | none => (svc, [])
  | some waiting => ({ svc with pending := some (waiting ++ [message]) }, [.warning message])

/-- Take all messages out of the collector. -/
def drain (svc : Service σ) : Service σ × List String :=
  ({ svc with pending := svc.pending.map fun _ => [] }, svc.pending.getD [])

/-- What comes of closing: nothing is wrong, or a source that failed has no name to be named by. -/
inductive Closing where
  | done
  | unnamed
  deriving DecidableEq, Repr

/-- Close sources in order; a failure is logged under the name of the source. -/
def closeSources : List (Source σ) → σ → Closing × List Log.Record × σ
  | [], world => (.done, [], world)
  | s :: rest, world =>
      match s.close? with
      | none => closeSources rest world
      | some close =>
          let (failure, world) := close world
          match failure, s.name? with
          | none, _ => closeSources rest world
          | some _, none => (.unnamed, [], world)
          | some error, some name =>
              let record : Log.Record :=
                .warning s!"Search server close failed: server={name} error={error}"
              let (closing, records, world) := closeSources rest world
              (closing, record :: records, world)

/-- Close all sources. -/
def close (svc : Service σ) (world : σ) : Closing × List Log.Record × σ :=
  closeSources svc.sources world

/-- The sources for a list of servers. -/
def sourcesOf (run : Engine.Invocation → σ → Engine.Outcome × σ) (parent : Environment) :
    List Settings.Server → Except Engine.Unsupported (List (Source σ))
  | [] => .ok []
  | s :: rest =>
      match Engine.source? run parent s with
      | .error e => .error e
      | .ok source => (sourcesOf run parent rest).map (source :: ·)

/-- The service for settings: a source for every server, and a collector. -/
def ofSettings (run : Engine.Invocation → σ → Engine.Outcome × σ) (parent : Environment)
    (settings : Settings) : Except Engine.Unsupported (Service σ) :=
  (sourcesOf run parent settings.servers).map fun sources =>
    { sources := sources, pending := some [] }

end Service

end IndexedMail
