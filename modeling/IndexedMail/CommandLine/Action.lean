import IndexedMail.Archive.Reader
import IndexedMail.Report.Writer
import IndexedMail.Service
import IndexedMail.Text.Terminal

/-!
# Actions

What the commands do once the command line is understood: search and write the report, show saved
searches, or show the command line for a query.  An action that fails leaves one error record and is
aborted.
-/

namespace IndexedMail.CommandLine

/-- What an action has done. -/
structure Deed (σ : Type) where
  records : List Log.Record
  output : String
  aborted : Bool
  files : Files
  world : σ

variable {σ : Type}

/-- An action that failed for a reason, behind the records that were made before. -/
def aborted (records : List Log.Record) (what reason : String) (files : Files) (world : σ) :
    Deed σ :=
  { records := records ++ [.error (what ++ " failed: " ++ reason)]
    output := ""
    aborted := true
    files := files
    world := world }

/-- The records on the number of matches and of errors. -/
def countRecords (r : Report) : List Log.Record :=
  .info s!"Found {r.items.length} matches" ::
    (if r.ok then []
    else [.warning s!"{r.errors.length} server error(s) during search"])

/-- What a search needs to know. -/
structure SearchRequest where
  action : String
  query : String
  servers : List String
  deriving DecidableEq, Repr

/-- Search with a service and write the report; the sources are closed in any case. -/
def searchWith (now : Calendar.Moment) (r : SearchRequest) (writers : List Report.Writer)
    (svc : Service σ) (files : Files) (world : σ) : Deed σ :=
  let names := if r.servers.isEmpty then svc.names else r.servers
  let opening : Log.Record :=
    .debug s!"Running query={Text.quoted r.query} servers={Text.quotedList names}"
  let answer := svc.search r.query r.servers none world
  match answer.outcome with
  | .error e =>
      let (_, closing, world) := svc.close answer.world
      aborted (opening :: (answer.records ++ closing)) "Search" e.message files world
  | .ok report =>
      let (writers, shown) := Report.Writer.takeAll r.query report writers
      let (failure, saved, files) := Report.Writer.finish now r.action writers files
      let (_, closing, world) := svc.close answer.world
      let records :=
        opening :: (answer.records ++ countRecords report ++ shown ++ saved ++ closing)
      match failure with
      | some e => aborted records "Search" e.message files world
      | none =>
          { records := records, output := "", aborted := false, files := files, world := world }

/-- Search the servers of settings. -/
def search (run : Engine.Invocation → σ → Engine.Outcome × σ) (parent : Environment)
    (now : Calendar.Moment) (settings : Settings) (r : SearchRequest) (files : Files)
    (world : σ) : Deed σ :=
  match Service.ofSettings run parent settings with
  | .error e => aborted [] "Search" e.message files world
  | .ok svc =>
      match Report.Writer.ofFormats settings.output.formats settings.output.baseDir with
      | [] => aborted [] "Search" Report.Writer.noWriters files world
      | writers => searchWith now r writers svc files world

/-- Give every saved query to a writer, in order, each with a report of its items. -/
def replay {ω : Type} (write : Json → Report → ω → ω) (saved : List Archive.Saved) (writer : ω) :
    ω :=
  saved.foldl (fun writer s => write s.query { items := s.items, errors := [] } writer) writer

/-- Give the searches that a file holds to a writer. -/
def replayFile {ω : Type} (limits : Limits) (write : Json → Report → ω → ω) (path : Path)
    (files : Files) (writer : ω) : Except Archive.Error (List Archive.Saved × ω) :=
  match Archive.load limits files path with
  | .error e => .error e
  | .ok saved => .ok (saved, replay write saved writer)

/-- The records that have been made of searches, and why no more are, if one cannot be shown. -/
structure Shown where
  records : List Log.Record
  failure : Option Json.DepthError

/-- The text of a query in its record, which is asked for only if notes are taken by the log. -/
def queryText (limits : Limits) (takesNotes : Bool) (query : Json) :
    Except Json.DepthError Text.Wide :=
  if takesNotes then query.textWithin limits.queries else .ok query.text

/--
Show what is given, unless that has failed before.

The record of the query is made first; items one of which is nested too deep have no records.
-/
def showRecords (limits : Limits) (takesNotes : Bool) (query : Json) (report : Report)
    (shown : Shown) : Shown :=
  match shown.failure with
  | some _ => shown
  | none =>
      match queryText limits takesNotes query with
      | .error e => { shown with failure := some e }
      | .ok text =>
          if report.items.all (Report.isListable limits.items) then
            { shown with records := shown.records ++ Report.records text report.items }
          else
            { records := shown.records ++ [Report.queryRecord text], failure := some ⟨⟩ }

/-- Show the searches that a file holds, with a log that takes notes or not. -/
def showSaved (limits : Limits) (takesNotes : Bool) (path : Path) (files : Files) (world : σ) :
    Deed σ :=
  match replayFile limits (showRecords limits takesNotes) path files ⟨[], none⟩ with
  | .error e => aborted [] "Show" e.message files world
  | .ok (saved, shown) =>
      let loaded := Archive.loadRecord path saved
      match shown.failure with
      | some e => aborted (loaded :: shown.records) "Show" e.message files world
      | none =>
          { records := loaded :: (shown.records ++ [.info s!"Shown {saved.length} saved queries"])
            output := ""
            aborted := false
            files := files
            world := world }

/-- Why the command line for a query cannot be shown. -/
inductive TranslateError where
  | unknownServer (name : String)
  | noServer
  | syntaxError (e : Query.SyntaxError)
  | limit (e : Text.Numeral.Error)
  deriving DecidableEq, Repr

namespace TranslateError

def message : TranslateError → String
  | unknownServer name => Text.quoted s!"Unknown server: {name}"
  | noServer => "tuple index out of range"
  | syntaxError e => e.message
  | limit e => e.message

end TranslateError

/-- The server of a name, or the first one if no name is given. -/
def chosenServer (settings : Settings) (name : Option String) :
    Except TranslateError Settings.Server :=
  match name.filter fun n => !n.isEmpty with
  | none =>
      match settings.servers with
      | [] => .error .noServer
      | first :: _ => .ok first
  | some n =>
      match settings.server? n with
      | none => .error (.unknownServer n)
      | some server => .ok server

/-- The command line that a search would run, with the server and the criteria behind it. -/
def commandFor (settings : Settings) (query : String) (server : Option String) :
    Except TranslateError (Settings.Server × Query.Criteria × List String) :=
  match chosenServer settings server with
  | .error e => .error e
  | .ok s =>
      match Query.Criteria.ofQuery query with
      | .error e => .error (.syntaxError e)
      | .ok c =>
          match (Engine.Command.ofServer s c).argv with
          | .error e => .error (.limit e)
          | .ok argv => .ok (s, c, argv)

/-- The records that show a command line and the criteria behind it. -/
def commandRecords (s : Settings.Server) (c : Query.Criteria) (argv : List String) :
    List Log.Record :=
  [.info s!"server={s.name}", .info s!"text={c.text}"] ++
    c.filters.map (fun f => .info s!"attr={f.render}") ++
    [.info s!"argv={Text.quotedList argv}"]

/-- Show the command line for a query, on a terminal or not, without running it. -/
def translate (terminal : Bool) (settings : Settings) (query : String) (server : Option String)
    (files : Files) (world : σ) : Deed σ :=
  match commandFor settings query server with
  | .error e => aborted [] "Translate" e.message files world
  | .ok (s, c, argv) =>
      { records := commandRecords s c argv
        output := Text.Terminal.shown terminal (String.intercalate " " argv ++ "\n")
        aborted := false
        files := files
        world := world }

end IndexedMail.CommandLine
