import IndexedMail.Proofs.CommandLine.Arguments
import IndexedMail.Proofs.CommandLine.Boundary
import IndexedMail.Proofs.Report.Finishing
import IndexedMail.Proofs.Settings.Accepted

/-!
# Searching from the command line

Whether a search that is asked for on the command line succeeds, and what it leaves behind: the
report in a file of its own if there is to be one, and otherwise no file but that of the log.
-/

namespace IndexedMail.CommandLine

open Engine (Script source)
open Files (Keeps)
open Report (Writer)
open Service (Answered AreHits)

/-! ## Settings -/

theorem ok_of_orStop {α : Type} {r : Except Settings.FileError α} {a : α}
    (h : orStop r = .ok a) : r = .ok a := by
  cases r with
  | error e => cases h
  | ok b =>
      cases h
      rfl

theorem sound_of_ofRoot {e : Environment} {root : Settings.Section} {settings : Settings}
    (h : Settings.ofRoot e root = .ok settings) : settings.Sound := by
  unfold Settings.ofRoot at h
  split at h
  · cases h
  · rename_i found hread
    cases h
    exact (Settings.read_eq_ok_iff.1 hread).2

theorem sound_of_settingsOf {limits : Limits} {e : Environment} {path : Path} {f : Files}
    {settings : Settings} (h : settingsOf limits e path f = .ok settings) : settings.Sound := by
  unfold settingsOf at h
  split at h
  · obtain ⟨_, -, h⟩ := Settings.exists_of_bind_eq_ok h
    obtain ⟨_, -, h⟩ := Settings.exists_of_bind_eq_ok h
    obtain ⟨_, -, h⟩ := Settings.exists_of_bind_eq_ok h
    obtain ⟨root, -, h⟩ := Settings.exists_of_bind_eq_ok (ok_of_orStop h)
    split at h
    · cases h
    · exact sound_of_ofRoot h
  · obtain ⟨_, -, h⟩ := Settings.exists_of_bind_eq_ok h
    obtain ⟨root, -, h⟩ := Settings.exists_of_bind_eq_ok (ok_of_orStop h)
    exact sound_of_ofRoot h

/-! ## The deed of a search -/

section Deed

variable {environment : Environment} {now : Calendar.Moment} {limits : Limits}
  {terminals : Terminals} {settings : Settings}

theorem close_sources {σ : Type} (run : Engine.Invocation → σ → Engine.Outcome × σ)
    (parent : Environment) (servers : List Settings.Server) (world : σ) :
    Service.closeSources (servers.map (source run parent)) world = (.done, [], world) := by
  induction servers generalizing world with
  | nil => rfl
  | cons s rest ih =>
      rw [List.map_cons, Service.closeSources]
      exact ih world

/-- The service for settings, before it has searched for anything. -/
def serviceOf (environment : Environment) (settings : Settings) : Service Script :=
  ⟨settings.servers.map (source Script.run environment), some []⟩

theorem perform_search (hsettings : settings.Sound) (sink : Log.Sink) (query : String)
    (names : List String) (f : Files) (script : Script) :
    perform ⟨Script.run, environment, now, limits, terminals⟩ settings sink (.search query names) f
        script =
      searchWith now ⟨"search", query, names⟩
        (Writer.ofFormats settings.output.formats settings.output.baseDir)
        (serviceOf environment settings) f script := by
  have hservice : Service.ofSettings Script.run environment settings =
      .ok (serviceOf environment settings) := Service.ofSettings_eq_ok hsettings.wellFormed
  have hwriters := Settings.writers_ne_nil hsettings
  simp only [perform, search, hservice]
  rfl

variable {r : SearchRequest} {script : Script}

theorem searchWith_of_error (now : Calendar.Moment) (writers : List Writer) (f : Files)
    {e : Service.Error}
    (h : ((serviceOf environment settings).search r.query r.servers none script).outcome =
      .error e) :
    let deed := searchWith now r writers (serviceOf environment settings) f script
    deed.aborted = true ∧ deed.files = f ∧
      deed.world =
        ((serviceOf environment settings).search r.query r.servers none script).world := by
  unfold searchWith
  simp only [h]
  refine ⟨rfl, rfl, ?_⟩
  simp [aborted, Service.close, serviceOf, close_sources]

theorem searchWith_of_report (now : Calendar.Moment) (writers : List Writer) (f : Files)
    {report : Report}
    (h : ((serviceOf environment settings).search r.query r.servers none script).outcome =
      .ok report) :
    let finished := Writer.finish now r.action (Writer.takeAll r.query report writers).1 f
    let deed := searchWith now r writers (serviceOf environment settings) f script
    deed.aborted = finished.1.isSome ∧ deed.files = finished.2.2 := by
  intro finished
  have hfinished : Writer.finish now r.action (Writer.takeAll r.query report writers).1 f =
      finished := rfl
  unfold searchWith
  simp only [h, hfinished]
  cases finished.1 with
  | none => exact ⟨rfl, rfl⟩
  | some e => exact ⟨rfl, rfl⟩

end Deed

/-! ## The log and the saved file -/

section Log

variable {now : Calendar.Moment} {settings : Settings} {t : Task} {f between : Files}
  {sink : Log.Sink}

theorem ne_of_getLast? {s s' : String} {c c' : Char} (hs : s.toList.getLast? = some c)
    (hs' : s'.toList.getLast? = some c') (h : c ≠ c') : s ≠ s' := by
  rintro rfl
  rw [hs] at hs'
  exact h (Option.some.inj hs')

theorem slash_not_mem_name (c : Command) : '/' ∉ c.name.toList := by
  cases c <;> decide

/-- Log files and saved files have different names. -/
theorem not_writesTo_savePath
    (hlog : Log.configure now (logRequest settings t) f = (.ok sink, between))
    {g : Files} {dir : Path} {place : Files.Place}
    (hway : g.resolve (Writer.savePath now dir t.command.name) = .ok place) :
    ¬ sink.WritesTo between place := by
  rintro ⟨path, hfile, hlogway⟩
  obtain ⟨-, hpath⟩ := Log.keeps_configure hlog
  obtain ⟨hpath, -⟩ := hpath path hfile
  have haction := slash_not_mem_name t.command
  obtain ⟨stem, hstem⟩ : ∃ stem, stem = t.command.name ++ "_" := ⟨_, rfl⟩
  have hsaved := Writer.getLast?_savePath now dir haction
  have hlogged := Log.getLast?_filePath now settings.log.dir haction
  rw [← hstem] at hsaved hlogged
  -- Both paths lead to places of the names in which they end, and these end differently.
  have hjson : (stem ++ Writer.fileStamp now ++ ".json").toList.getLast? = some 'n' := by simp
  have hmark : (stem ++ Log.fileStamp now ++ ".log").toList.getLast? = some 'g' := by simp
  have hdots : "..".toList.getLast? = some '.' := rfl
  have hplace := Files.getLast?_of_resolve hsaved (ne_of_getLast? hjson hdots (by decide)) hway
  rw [hpath] at hlogway
  have hnotdots := ne_of_getLast? hmark hdots (by decide)
  have hstraight := Path.getLast?_straight hlogged hnotdots between.base
  have hplace' := Files.getLast?_of_resolve hstraight hnotdots hlogway
  rw [hplace'] at hplace
  exact ne_of_getLast? hmark hjson (by decide) (Option.some.inj hplace)

/-- The records of a task go to the file of its log. -/
theorem keeps_records
    (hlog : Log.configure now (logRequest settings t) f = (.ok sink, between)) {g : Files}
    (hbase : g.base = between.base)
    (hways : ∀ p place, between.resolve p = .ok place → g.resolve p = .ok place)
    (records : List Log.Record) :
    Keeps (sink.WritesTo between) g (Log.write now (some sink) records g).2 := by
  apply Log.keeps_write
  intro path hfile
  obtain ⟨-, place, hway⟩ := (Log.keeps_configure hlog).2 path hfile
  rw [hbase]
  exact ⟨place, hways _ place hway, path, hfile, hway⟩

end Log

/-! ## The program -/

section Program

variable {environment : Environment} {now : Calendar.Moment} {limits : Limits}
  {terminals : Terminals} {settings : Settings} {f between : Files} {sink : Log.Sink}
  {query : String} {names : List String} {script : Script}

/-- All names are those of servers. -/
def Configured (settings : Settings) (names : List String) : Prop :=
  ∀ name ∈ names, ∃ t ∈ settings.servers, t.name = name

/-- A search that succeeds has a report, which is all that it saves if it saves anything. -/
def Reported (environment : Environment) (now : Calendar.Moment) (settings : Settings)
    (names : List String) (query : String) (script : Script) (excepted : Files.Place → Prop)
    (f g : Files) : Prop :=
  ∃ svc report, Service.ofSettings Script.run environment settings = .ok svc ∧
    (svc.search query names none script).outcome = .ok report ∧
    ("json" ∈ settings.output.formats →
      Writer.Saved excepted
        (Writer.savePath now (Writer.saveDir settings.output.baseDir) "search") query report f g) ∧
    ("json" ∉ settings.output.formats → Keeps excepted f g)

theorem abortedBy_of_ending {s : Setting Script} {t : Task}
    (hlog : Log.configure s.now (logRequest settings t) f = (.ok sink, between))
    (h : (runTask s settings t f script).ending = .exit abortCode) :
    AbortedBy s t (runTask s settings t f script) := by
  rcases runTask_of_log hlog script with hsuccess | haborted
  · rw [hsuccess] at h
    exact absurd h (by decide)
  · exact haborted

theorem runTask_search_of_error (hsettings : settings.Sound)
    (hlog : Log.configure now (logRequest settings (.search query names)) f = (.ok sink, between))
    {e : Service.Error}
    (h : ((serviceOf environment settings).search query names none script).outcome = .error e) :
    let result := runTask ⟨Script.run, environment, now, limits, terminals⟩ settings
      (.search query names) f script
    result.ending = .exit abortCode ∧ Keeps (sink.WritesTo between) f result.files ∧
      result.world = ((serviceOf environment settings).search query names none script).world := by
  intro result
  have hresult : result = _ :=
    runTask_of_configure (s := ⟨Script.run, environment, now, limits, terminals⟩) hlog script
  obtain ⟨haborted, hfiles, hworld⟩ := searchWith_of_error (r := ⟨"search", query, names⟩) now
    (Writer.ofFormats settings.output.formats settings.output.baseDir) between h
  simp only [perform_search hsettings, haborted, if_true, hfiles, hworld] at hresult
  rw [hresult]
  have hkeeps := (Log.keeps_configure hlog).1
  exact ⟨rfl, hkeeps.trans (keeps_records hlog rfl (fun _ _ hway => hway) _), rfl⟩

theorem runTask_search_of_report (hsettings : settings.Sound)
    (hlog : Log.configure now (logRequest settings (.search query names)) f = (.ok sink, between))
    {report : Report}
    (h : ((serviceOf environment settings).search query names none script).outcome = .ok report)
    (hhits : AreHits report.items) :
    let saveable := Writer.Saveable now "search" settings.output.formats settings.output.baseDir
      between
    let result := runTask ⟨Script.run, environment, now, limits, terminals⟩ settings
      (.search query names) f script
    (saveable → result.ending = .exit success ∧
      Reported environment now settings names query script (sink.WritesTo between) f
        result.files) ∧
    (¬ saveable → result.ending = .exit abortCode ∧
      Keeps (sink.WritesTo between) f result.files) := by
  intro saveable result
  have hresult : result = _ :=
    runTask_of_configure (s := ⟨Script.run, environment, now, limits, terminals⟩) hlog script
  obtain ⟨haborted, hfiles⟩ := searchWith_of_report (r := ⟨"search", query, names⟩) now
    (Writer.ofFormats settings.output.formats settings.output.baseDir) between h
  obtain ⟨finished, hfinished⟩ : ∃ finished, finished = Writer.finish now "search"
    (Writer.takeAll query report
      (Writer.ofFormats settings.output.formats settings.output.baseDir)).1 between := ⟨_, rfl⟩
  simp only [← hfinished] at haborted hfiles
  simp only [perform_search hsettings, haborted, hfiles] at hresult
  have hopened := (Log.keeps_configure hlog).1
  constructor
  · intro hsaveable
    obtain ⟨hnone, hsaved, hplain⟩ := Writer.finish_of_saveable query hhits hsaveable
      fun g place hway => not_writesTo_savePath hlog hway
    rw [← hfinished] at hnone hsaved hplain
    -- The path of the log leads where it led when the log was opened, so the records go there.
    obtain ⟨hbase, hways⟩ : finished.2.2.base = between.base ∧
        ∀ p place, between.resolve p = .ok place → finished.2.2.resolve p = .ok place := by
      by_cases hjson : "json" ∈ settings.output.formats
      · obtain ⟨_, -, -, halone⟩ := (hsaved hjson).alone
        exact ⟨halone.base, halone.ways⟩
      · rw [hplain hjson]
        exact ⟨rfl, fun _ _ hway => hway⟩
    simp only [hnone, Option.isSome_none] at hresult
    rw [hresult]
    refine ⟨rfl, serviceOf environment settings, report, ?_, h, ?_, ?_⟩
    · exact Service.ofSettings_eq_ok hsettings.wellFormed
    · exact fun hjson => ((hsaved hjson).since hopened).keep (keeps_records hlog hbase hways _)
    · intro hjson
      have hrecords := keeps_records hlog hbase hways
      rw [hplain hjson] at hrecords ⊢
      exact hopened.trans (hrecords _)
  · intro hsaveable
    obtain ⟨⟨e, he⟩, hkeeps⟩ := Writer.finish_of_not_saveable query
      (sink.WritesTo between) hhits hsaveable
    rw [← hfinished] at he hkeeps
    simp only [he, Option.isSome_some, if_true] at hresult
    rw [hresult]
    exact ⟨rfl, (hopened.trans hkeeps).trans (keeps_records hlog hkeeps.base hkeeps.ways _)⟩

/--
A search on the command line, with accepted settings and a log that could be configured.

It succeeds if and only if all servers that are named are configured, one of the selected ones
answers, and the file of the report, if there is to be one, can be stored.  Otherwise it is aborted
and writes to no file but that of the log, and where a name is not configured no child is started.
-/
theorem program_search (config : Option String) {path : Path}
    (hpath : existingFile .program configOption.name (config.getD defaultConfig.text) f = .ok path)
    (hsettings : settingsOf limits environment path f = .ok settings) (names : List String)
    (query : String)
    (hlog : Log.configure now (logRequest settings (.search query names)) f = (.ok sink, between))
    (script : Script) :
    let setting : Setting Script := ⟨Script.run, environment, now, limits, terminals⟩
    let result := program setting (searchArguments config names query) f script
    let succeeds := Configured settings names ∧
      Answered query (settings.chosen names) script.outcomes ∧
      Writer.Saveable now "search" settings.output.formats settings.output.baseDir between
    (succeeds → result.ending = .exit success ∧
      Reported environment now settings names query script (sink.WritesTo between) f
        result.files) ∧
    (¬ succeeds → AbortedBy setting (.search query names) result ∧
      Keeps (sink.WritesTo between) f result.files) ∧
    (¬ Configured settings names → result.world = script) := by
  intro setting result succeeds
  have hsound := sound_of_settingsOf hsettings
  have hplan := plan_searchArguments config hpath hsettings names query
  have hresult : result = runTask setting settings (.search query names) f script :=
    program_of_plan (s := ⟨Script.run, environment, now, limits, terminals⟩) hplan script
  rw [hresult]
  -- The search fails at the first of the three conditions that does not hold.
  by_cases hnames : Configured settings names
  · obtain ⟨hreport, herror⟩ := Service.outcome_of_chosen environment hsound hnames query
      none script
    by_cases hanswered : Answered query (settings.chosen names) script.outcomes
    · obtain ⟨report, houtcome, hhits⟩ := hreport hanswered
      obtain ⟨hsaved, hunsaved⟩ := runTask_search_of_report hsound hlog houtcome hhits
      refine ⟨fun h => hsaved h.2.2, fun h => ?_, fun h => absurd hnames h⟩
      obtain ⟨hending, hkeeps⟩ := hunsaved fun hsaveable => h ⟨hnames, hanswered, hsaveable⟩
      exact ⟨abortedBy_of_ending hlog hending, hkeeps⟩
    · obtain ⟨e, he⟩ := herror hanswered
      obtain ⟨hending, hkeeps, -⟩ := runTask_search_of_error hsound hlog he
      exact ⟨fun h => absurd h.2.1 hanswered,
        fun _ => ⟨abortedBy_of_ending hlog hending, hkeeps⟩, fun h => absurd hnames h⟩
  · obtain ⟨e, he⟩ := Service.search_of_not_configured environment hsound hnames query
      none script
    obtain ⟨hending, hkeeps, hworld⟩ := runTask_search_of_error hsound hlog (congrArg _ he)
    refine ⟨fun h => absurd h.1 hnames,
      fun _ => ⟨abortedBy_of_ending hlog hending, hkeeps⟩, fun _ => ?_⟩
    exact hworld.trans (congrArg _ he)

end Program

/-! ## A settings file with one server -/

def configText : String :=
  "servers: [\x7bname: s, index_dir: /i, remove_prefix: /m/\x7d]\noutput: \x7bformats: [json]\x7d"

def configPath : Path :=
  ⟨"", ["c.yml"]⟩

/-- The settings file and nothing else. -/
def configFiles : Files :=
  ⟨[], [(configPath.names, .file (Text.Utf8.encode configText.toList))]⟩

def savingSettings : Settings :=
  { log := Settings.Log.default
    servers := [Engine.plainServer "s"]
    output := { baseDir := "output", formats := ["json"] } }

theorem existingFile_config :
    existingFile .program configOption.name "c.yml" configFiles = .ok configPath := rfl

theorem settingsOf_config :
    settingsOf Limits.ofThousand ⟨[]⟩ configPath configFiles = .ok savingSettings := by
  decide +kernel

theorem configure_config :
    Log.configure scripted.now (logRequest savingSettings (.search "x" ["s"])) configFiles =
      (.ok ⟨Log.infoLevel, none⟩, configFiles) := rfl

theorem saveable_config : Writer.Saveable scripted.now "search" savingSettings.output.formats
    savingSettings.output.baseDir configFiles :=
  fun _ => ⟨_, rfl, _, rfl, by decide⟩

theorem configured_config : Configured savingSettings ["s"] := by
  simp [Configured, savingSettings, Engine.plainServer]

/-- One server is dealt one outcome, and answers if that can be read. -/
theorem answered_config_iff (o : Engine.Outcome) :
    Answered "x" (savingSettings.chosen ["s"]) [o] ↔
      Engine.Legible .nnml (Engine.plainServer "s") o := by
  have hwords : Query.tokenize "x" = .ok ["x"] := by decide
  have hwritable : (savingSettings.chosen ["s"]).filter (fun s => Engine.Writable s) =
      [Engine.plainServer "s"] := by
    have hchosen : savingSettings.chosen ["s"] = [Engine.plainServer "s"] := rfl
    rw [hchosen, List.filter_cons_of_pos (by simpa using Engine.writable_plainServer "s")]
    rfl
  have hdealt : Service.dealt [Engine.plainServer "s"] [o] = [(Engine.plainServer "s", o)] := rfl
  unfold Answered
  rw [hwritable, hdealt]
  constructor
  · intro hanswered
    obtain ⟨d, hd, hlegible⟩ := hanswered ["x"] hwords
    obtain rfl := List.mem_singleton.1 hd
    exact hlegible .nnml rfl
  · intro hlegible words _
    refine ⟨_, List.mem_singleton_self _, fun b hb => ?_⟩
    obtain rfl := Service.eq_nnml_of_plainServer hb
    exact hlegible

theorem program_search_saved :
    let result := program scripted (searchArguments (some "c.yml") ["s"] "x") configFiles
      ⟨[.notStarted "gone"], []⟩
    existingFile .program configOption.name "c.yml" configFiles = .ok configPath ∧
    settingsOf Limits.ofThousand ⟨[]⟩ configPath configFiles = .ok savingSettings ∧
    Log.configure scripted.now (logRequest savingSettings (.search "x" ["s"])) configFiles =
      (.ok ⟨Log.infoLevel, none⟩, configFiles) ∧
    result.ending = .exit success ∧
    Reported ⟨[]⟩ scripted.now savingSettings ["s"] "x" ⟨[.notStarted "gone"], []⟩
      (Log.Sink.WritesTo ⟨Log.infoLevel, none⟩ configFiles) configFiles result.files := by
  have hnone : Listing.notices .nnml (Engine.plainServer "s").removePrefix.toList
      ((Engine.Outcome.notStarted "gone").text .utf8) = [] := rfl
  have hanswered : Answered "x" (savingSettings.chosen ["s"]) [.notStarted "gone"] := by
    rw [answered_config_iff]
    intro n hn
    rw [hnone] at hn
    cases hn
  obtain ⟨hsucceeds, -⟩ := program_search (some "c.yml") existingFile_config
    settingsOf_config ["s"] "x" configure_config ⟨[.notStarted "gone"], []⟩
  exact ⟨existingFile_config, settingsOf_config, configure_config,
    hsucceeds ⟨configured_config, hanswered, saveable_config⟩⟩

/-- A search of the one server there is can be aborted by what its child prints. -/
theorem program_search_aborted :
    Configured savingSettings ["s"] ∧
    Writer.Saveable scripted.now "search" savingSettings.output.formats
      savingSettings.output.baseDir configFiles ∧
    (program scripted (searchArguments (some "c.yml") ["s"] "x") configFiles
      ⟨[Engine.overlongOutcome], []⟩).ending = .exit abortCode := by
  refine ⟨configured_config, saveable_config, ?_⟩
  have hsound := sound_of_settingsOf settingsOf_config
  have hanswered : ¬ Answered "x" (savingSettings.chosen ["s"]) [Engine.overlongOutcome] := by
    rw [answered_config_iff]
    exact Engine.not_legible_overlongOutcome "s"
  obtain ⟨-, herror⟩ := Service.outcome_of_chosen ⟨[]⟩ hsound configured_config "x" none
    ⟨[Engine.overlongOutcome], []⟩
  obtain ⟨e, he⟩ := herror hanswered
  have hplan := plan_searchArguments (some "c.yml") existingFile_config settingsOf_config
    ["s"] "x"
  rw [program_of_plan (s := scripted) hplan]
  exact (runTask_search_of_error hsound configure_config he).1

end IndexedMail.CommandLine
