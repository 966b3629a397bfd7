import IndexedMail.Proofs.CommandLine.Searching
import IndexedMail.Proofs.Engine.Readback
import IndexedMail.Proofs.Text.Terminal

/-!
# The command line that is shown for a query

What is shown for a query and a server is the command line that a search of this server runs, with
the commands for terminals left out of it where nobody looks at a terminal.  So it is shown as it is
run exactly if none of its arguments has such a command or a terminal shows it; and showing it
starts nothing.
-/

namespace IndexedMail.CommandLine

open Engine (Script invocation)
open Text.Terminal (HasCommand)

/-- The line that shows the arguments of a child. -/
def shownLine (argv : List String) : String :=
  String.intercalate " " argv ++ "\n"

theorem plain_shownLine_iff {argv : List String} :
    Text.Terminal.plain (shownLine argv) = shownLine argv ↔
      ∀ a ∈ argv, ¬ HasCommand a.toList := by
  have hline : (shownLine argv).toList = [' '].intercalate (argv.map String.toList) ++ ['\n'] := by
    rw [shownLine, String.toList_append, String.toList_intercalate]
    rfl
  rw [Text.Terminal.plain_eq_self_iff, hline, Text.Terminal.hasCommand_line_iff]
  simp

theorem shown_shownLine_iff {terminal : Bool} {argv : List String} :
    Text.Terminal.shown terminal (shownLine argv) = shownLine argv ↔
      terminal = true ∨ ∀ a ∈ argv, ¬ HasCommand a.toList := by
  rw [← plain_shownLine_iff]
  cases terminal <;> simp [Text.Terminal.shown]

theorem shownLine_ne_empty (argv : List String) : shownLine argv ≠ "" := by
  simp [shownLine]

/-! ## The deed of a translation -/

section Deed

variable {σ : Type} {settings : Settings} {s : Settings.Server} {query : String}
  {tokens : List String}

theorem chosenServer_of_mem (hsettings : settings.Sound) (hs : s ∈ settings.servers) :
    chosenServer settings (some s.name) = .ok s := by
  have hname : (some s.name).filter (fun n => !n.isEmpty) = some s.name := by
    simp [Option.filter, (hsettings.servers s hs).name]
  have hfound : settings.server? s.name = some s :=
    (Settings.server?_eq_some_iff hsettings.names).2 ⟨hs, rfl⟩
  simp only [chosenServer, hname, hfound]

theorem translate_of_writable (terminal : Bool) (environment : Environment)
    (hsettings : settings.Sound) (hs : s ∈ settings.servers)
    (hquery : Query.tokenize query = .ok tokens) (hlimit : Engine.Writable s) (f : Files)
    (world : σ) :
    let c := Query.Criteria.ofWords tokens
    let argv := (invocation environment s c).argv
    translate terminal settings query (some s.name) f world =
      { records := commandRecords s c argv
        output := Text.Terminal.shown terminal (shownLine argv)
        aborted := false
        files := f
        world := world } := by
  have hargv := Engine.argv_of_writable environment hlimit (Query.Criteria.ofWords tokens)
  simp only [translate, commandFor, chosenServer_of_mem hsettings hs,
    Query.Criteria.ofQuery_of_tokenize hquery, hargv]
  rfl

theorem translate_of_not_writable (terminal : Bool) (hsettings : settings.Sound)
    (hs : s ∈ settings.servers) (hquery : Query.tokenize query = .ok tokens)
    (hlimit : ¬ Engine.Writable s) (f : Files) (world : σ) :
    translate terminal settings query (some s.name) f world =
      aborted [] "Translate" Text.Numeral.Error.tooLarge.message f world := by
  have hargv := Engine.argv_of_not_writable hlimit (Query.Criteria.ofWords tokens)
  simp only [translate, commandFor, chosenServer_of_mem hsettings hs,
    Query.Criteria.ofQuery_of_tokenize hquery, hargv]
  rfl

theorem world_translate (terminal : Bool) (settings : Settings) (query : String)
    (name : Option String) (f : Files) (world : σ) :
    (translate terminal settings query name f world).world = world := by
  unfold translate
  split <;> rfl

end Deed

/-! ## The deed of a search -/

section Search

variable {environment : Environment} {now : Calendar.Moment} {limits : Limits}
  {terminals : Terminals} {settings : Settings} {sink : Log.Sink} {s : Settings.Server}
  {query : String} {tokens : List String}

theorem world_searchWith (r : SearchRequest) (writers : List Report.Writer) (f : Files)
    (script : Script) :
    (searchWith now r writers (serviceOf environment settings) f script).world =
      ((serviceOf environment settings).search r.query r.servers none script).world := by
  have hclose : ∀ world, ((serviceOf environment settings).close world).2.2 = world := by
    intro world
    simp [Service.close, serviceOf, close_sources]
  unfold searchWith
  dsimp only
  split
  · exact hclose _
  · split
    · exact hclose _
    · exact hclose _

/-- The name of a server selects it alone. -/
theorem chosen_singleton (hsettings : settings.Sound) (hs : s ∈ settings.servers) :
    settings.chosen [s.name] = [s] := by
  have hfound : settings.server? s.name = some s :=
    (Settings.server?_eq_some_iff hsettings.names).2 ⟨hs, rfl⟩
  have halone : [s.name].eraseDups = [s.name] := Lookup.eraseDups_of_nodup (List.nodup_singleton _)
  simp [Settings.chosen, halone, hfound]

theorem world_perform_search (hsettings : settings.Sound) (hs : s ∈ settings.servers)
    (query : String) (f : Files) (script : Script) :
    (perform ⟨Script.run, environment, now, limits, terminals⟩ settings sink
      (.search query [s.name]) f script).world =
      (Engine.search Script.run environment s query script).2 := by
  have hnames : ∀ name ∈ [s.name], ∃ t ∈ settings.servers, t.name = name := by
    simpa using ⟨s, hs, rfl⟩
  have hselect := Service.select_ofSettings environment hsettings.wellFormed (some []) hnames
  rw [perform_search hsettings, world_searchWith, serviceOf,
    (Service.search_of_select hselect query none script).1, chosen_singleton hsettings hs]
  rfl

theorem started_perform_search (hsettings : settings.Sound) (hs : s ∈ settings.servers)
    (hquery : Query.tokenize query = .ok tokens) (hlimit : Engine.Writable s) (f : Files)
    (script : Script) :
    (perform ⟨Script.run, environment, now, limits, terminals⟩ settings sink
      (.search query [s.name]) f script).world.started =
        script.started ++ [invocation environment s (Query.Criteria.ofWords tokens)] := by
  rw [world_perform_search hsettings hs, Engine.search_of_writable hquery hlimit]
  rfl

theorem world_perform_search_of_not_writable (hsettings : settings.Sound)
    (hs : s ∈ settings.servers) (hquery : Query.tokenize query = .ok tokens)
    (hlimit : ¬ Engine.Writable s) (f : Files) (script : Script) :
    (perform ⟨Script.run, environment, now, limits, terminals⟩ settings sink
      (.search query [s.name]) f script).world = script := by
  rw [world_perform_search hsettings hs, Engine.search_of_not_writable hquery hlimit]

end Search

/-! ## The program -/

/-- A task with a log that opens does its deed. -/
theorem exists_deed_of_logOpens {σ : Type} {setting : Setting σ} {settings : Settings} {t : Task}
    {f : Files} (hsettings : settings.Sound) (h : LogOpens setting settings t f) (world : σ) :
    ∃ sink between, let deed := perform setting settings sink t between world
      let result := runTask setting settings t f world
      result.ending = .exit (if deed.aborted then abortCode else success) ∧
        result.output = deed.output ∧ result.world = deed.world := by
  obtain ⟨sink, between, hlog⟩ := Log.configure_of_opens (r := logRequest settings t)
    hsettings.level rfl (name_ne_empty t.command) h
  refine ⟨sink, between, ?_⟩
  rw [runTask_of_configure hlog world]
  exact ⟨rfl, rfl, rfl⟩

/-- What a translation puts out is the line of the one child that a search starts. -/
def ShowsChild (script : Script) (translated searched : Result Script) : Prop :=
  ∃ i, searched.world.started = script.started ++ [i] ∧
    translated.ending = .exit success ∧ translated.output = shownLine i.argv

section Program

/-- Whatever becomes of its log, a translation starts nothing. -/
theorem world_runTask_translate (setting : Setting Script) (settings : Settings) (query : String)
    (name : Option String) (f : Files) (script : Script) :
    (runTask setting settings (.translate query name) f script).world = script := by
  unfold runTask
  split
  · rfl
  · exact world_translate setting.terminals.output settings query name _ script

variable {environment : Environment} {now : Calendar.Moment} {limits : Limits}
  {terminals : Terminals} {settings : Settings} {s : Settings.Server} {query : String}
  {tokens : List String} {f : Files}

/-- A log that opens and a limit that can be written. -/
def Proceeds (setting : Setting Script) (settings : Settings) (s : Settings.Server) (t : Task)
    (f : Files) : Prop :=
  LogOpens setting settings t f ∧ Engine.Writable s

theorem runTask_translate_of_proceeds (hsettings : settings.Sound) (hs : s ∈ settings.servers)
    (hquery : Query.tokenize query = .ok tokens)
    (h : Proceeds ⟨Script.run, environment, now, limits, terminals⟩ settings s
      (.translate query (some s.name)) f) (script : Script) :
    let result := runTask ⟨Script.run, environment, now, limits, terminals⟩ settings
      (.translate query (some s.name)) f script
    result.ending = .exit success ∧ result.output = Text.Terminal.shown terminals.output
      (shownLine (invocation environment s (Query.Criteria.ofWords tokens)).argv) := by
  obtain ⟨sink, between, hending, houtput, -⟩ := exists_deed_of_logOpens hsettings h.1 script
  have hdeed :=
    translate_of_writable terminals.output environment hsettings hs hquery h.2 between script
  have hperform : perform ⟨Script.run, environment, now, limits, terminals⟩ settings sink
    (.translate query (some s.name)) between script = _ := hdeed
  rw [hperform] at hending houtput
  exact ⟨hending, houtput⟩

theorem output_runTask_translate_of_not_proceeds (hsettings : settings.Sound)
    (hs : s ∈ settings.servers) (hquery : Query.tokenize query = .ok tokens)
    (h : ¬ Proceeds ⟨Script.run, environment, now, limits, terminals⟩ settings s
      (.translate query (some s.name)) f) (script : Script) :
    (runTask ⟨Script.run, environment, now, limits, terminals⟩ settings
      (.translate query (some s.name)) f script).output = "" := by
  by_cases hlog : LogOpens ⟨Script.run, environment, now, limits, terminals⟩ settings
    (.translate query (some s.name)) f
  · obtain ⟨sink, between, -, houtput, -⟩ := exists_deed_of_logOpens hsettings hlog script
    have hperform : perform ⟨Script.run, environment, now, limits, terminals⟩ settings sink
        (.translate query (some s.name)) between script = _ :=
      translate_of_not_writable terminals.output hsettings hs hquery
        (fun hlimit => h ⟨hlog, hlimit⟩) between script
    rw [houtput, hperform]
    rfl
  · obtain ⟨e, between, hstopped⟩ := runTask_of_not_logOpens hsettings.level hlog script
    rw [hstopped]
    rfl

theorem started_runTask_search_of_proceeds (hsettings : settings.Sound)
    (hs : s ∈ settings.servers) (hquery : Query.tokenize query = .ok tokens)
    (h : Proceeds ⟨Script.run, environment, now, limits, terminals⟩ settings s
      (.search query [s.name]) f) (script : Script) :
    (runTask ⟨Script.run, environment, now, limits, terminals⟩ settings
      (.search query [s.name]) f script).world.started =
        script.started ++ [invocation environment s (Query.Criteria.ofWords tokens)] := by
  obtain ⟨sink, between, -, -, hworld⟩ := exists_deed_of_logOpens hsettings h.1 script
  rw [hworld]
  exact started_perform_search hsettings hs hquery h.2 between script

theorem world_runTask_search_of_not_proceeds (hsettings : settings.Sound)
    (hs : s ∈ settings.servers) (hquery : Query.tokenize query = .ok tokens)
    (h : ¬ Proceeds ⟨Script.run, environment, now, limits, terminals⟩ settings s
      (.search query [s.name]) f) (script : Script) :
    (runTask ⟨Script.run, environment, now, limits, terminals⟩ settings (.search query [s.name])
      f script).world = script := by
  by_cases hlog : LogOpens ⟨Script.run, environment, now, limits, terminals⟩ settings
    (.search query [s.name]) f
  · obtain ⟨sink, between, -, -, hworld⟩ := exists_deed_of_logOpens hsettings hlog script
    rw [hworld]
    exact world_perform_search_of_not_writable hsettings hs hquery
      (fun hlimit => h ⟨hlog, hlimit⟩) between script
  · obtain ⟨e, between, hstopped⟩ := runTask_of_not_logOpens hsettings.level hlog script
    rw [hstopped]
    rfl

theorem started_ne_of_world_eq {searched : Result Script} {script : Script}
    (h : searched.world = script) (i : Engine.Invocation) :
    searched.world.started ≠ script.started ++ [i] := by
  rw [h]
  simp

/-- Both tasks must proceed, and then all depends on what is left out of the line. -/
theorem showsChild_iff (now : Calendar.Moment) (limits : Limits) (terminals : Terminals)
    (hsettings : settings.Sound) (hs : s ∈ settings.servers)
    (hquery : Query.tokenize query = .ok tokens) (script : Script) :
    let setting : Setting Script := ⟨Script.run, environment, now, limits, terminals⟩
    ShowsChild script (runTask setting settings (.translate query (some s.name)) f script)
        (runTask setting settings (.search query [s.name]) f script) ↔
      Proceeds setting settings s (.translate query (some s.name)) f ∧
      Proceeds setting settings s (.search query [s.name]) f ∧
      (terminals.output = true ∨
        ∀ a ∈ (invocation environment s (Query.Criteria.ofWords tokens)).argv,
          ¬ HasCommand a.toList) := by
  intro setting
  constructor
  · rintro ⟨i, hstarted, -, houtput⟩
    have hsearch : Proceeds setting settings s (.search query [s.name]) f := by
      by_contra hnot
      have hworld := world_runTask_search_of_not_proceeds hsettings hs hquery hnot script
      exact started_ne_of_world_eq hworld i hstarted
    have htranslate : Proceeds setting settings s (.translate query (some s.name)) f := by
      by_contra hnot
      rw [output_runTask_translate_of_not_proceeds hsettings hs hquery hnot] at houtput
      exact shownLine_ne_empty i.argv houtput.symm
    rw [started_runTask_search_of_proceeds hsettings hs hquery hsearch] at hstarted
    obtain rfl := List.singleton_inj.1 (List.append_cancel_left hstarted)
    obtain ⟨-, hline⟩ := runTask_translate_of_proceeds hsettings hs hquery htranslate script
    exact ⟨htranslate, hsearch, shown_shownLine_iff.1 (hline.symm.trans houtput)⟩
  · rintro ⟨htranslate, hsearch, hplain⟩
    obtain ⟨hending, hline⟩ := runTask_translate_of_proceeds hsettings hs hquery htranslate script
    exact ⟨_, started_runTask_search_of_proceeds hsettings hs hquery hsearch script, hending,
      hline.trans (shown_shownLine_iff.2 hplain)⟩

/-- With accepted settings, the program carries out the task that its arguments ask for. -/
theorem program_of_accepted (setting : Setting Script) (config : Option String) {path : Path}
    (hpath : existingFile .program configOption.name (config.getD defaultConfig.text) f = .ok path)
    (haccepted : settingsOf setting.limits setting.environment path f = .ok settings)
    (name query : String) (script : Script) :
    program setting (translateArguments config name query) f script =
        runTask setting settings (.translate query (some name)) f script ∧
      program setting (searchArguments config [name] query) f script =
        runTask setting settings (.search query [name]) f script :=
  ⟨program_of_plan (plan_translateArguments config hpath haccepted name query) script,
    program_of_plan (plan_searchArguments config hpath haccepted [name] query) script⟩

/--
What is shown for a query on a server, with accepted settings.

Showing it starts nothing.  It is the line of the one child that a search of the server for the
query starts, if and only if the logs of both can be opened, the limit of the server can be written,
and no argument has a command for terminals in it unless the output is one.  A command line for the
server tells the criteria that it was made for, so that no query with other criteria has the same.
-/
theorem translate_shows_search (now : Calendar.Moment) (terminals : Terminals)
    (config : Option String) {path : Path}
    (hpath : existingFile .program configOption.name (config.getD defaultConfig.text) f = .ok path)
    (haccepted : settingsOf limits environment path f = .ok settings) (hs : s ∈ settings.servers)
    (hquery : Query.tokenize query = .ok tokens) (script : Script) :
    let setting : Setting Script := ⟨Script.run, environment, now, limits, terminals⟩
    let translated := program setting (translateArguments config s.name query) f script
    let searched := program setting (searchArguments config [s.name] query) f script
    let c := Query.Criteria.ofWords tokens
    translated.world = script ∧
    (ShowsChild script translated searched ↔
      LogOpens setting settings (.translate query (some s.name)) f ∧
      LogOpens setting settings (.search query [s.name]) f ∧
      Engine.Writable s ∧
      (terminals.output = true ∨
        ∀ a ∈ (invocation environment s c).argv, ¬ HasCommand a.toList)) ∧
    (∀ argv, (Engine.Command.ofServer s c).argv = .ok argv →
      Engine.Tells s argv c ∧
      ∀ query' c', Query.Criteria.ofQuery query' = .ok c' →
        (Engine.Command.ofServer s c').argv = .ok argv → c' = c) := by
  intro setting translated searched c
  have hsettings := sound_of_settingsOf haccepted
  obtain ⟨htranslated, hsearched⟩ : translated = _ ∧ searched = _ :=
    program_of_accepted setting config hpath haccepted s.name query script
  rw [htranslated, hsearched]
  refine ⟨world_runTask_translate setting settings query _ f script, ?_, ?_⟩
  · refine (showsChild_iff now limits terminals hsettings hs hquery script).trans ⟨?_, ?_⟩
    · rintro ⟨⟨hshown, hlimit⟩, ⟨hrun, -⟩, hplain⟩
      exact ⟨hshown, hrun, hlimit, hplain⟩
    · rintro ⟨hshown, hrun, hlimit, hplain⟩
      exact ⟨⟨hshown, hlimit⟩, ⟨hrun, hlimit⟩, hplain⟩
  · intro argv hargv
    have htells := Engine.Command.tells_of_argv (Query.Criteria.ofQuery_of_tokenize hquery) hargv
    refine ⟨htells, fun query' c' hquery' hargv' => ?_⟩
    exact (Engine.Command.tells_of_argv hquery' hargv').unique htells

end Program

/-! ## Two queries -/

theorem proceeds_config {t : Task} :
    Proceeds scripted savingSettings (Engine.plainServer "s") t configFiles :=
  ⟨fun h => absurd h (by decide), Engine.writable_plainServer "s"⟩

theorem mem_config : Engine.plainServer "s" ∈ savingSettings.servers :=
  List.mem_singleton_self _

/-- A value and a text that look like switches. -/
theorem translate_shows_search_switches :
    let query := "'@title=-attr @size NUMGE 5' -max"
    let c : Query.Criteria := ⟨"-max", [⟨"@title", "STRINC", "-attr @size NUMGE 5"⟩]⟩
    let argv := ["estcmd", "search", "-vu", "-max", "300", "-attr",
      "@title STRINC -attr @size NUMGE 5", "/i", "-max"]
    existingFile .program configOption.name "c.yml" configFiles = .ok configPath ∧
    settingsOf Limits.ofThousand ⟨[]⟩ configPath configFiles = .ok savingSettings ∧
    Engine.plainServer "s" ∈ savingSettings.servers ∧
    Query.tokenize query = .ok ["@title=-attr @size NUMGE 5", "-max"] ∧
    ShowsChild ⟨[], []⟩
      (program scripted (translateArguments (some "c.yml") "s" query) configFiles ⟨[], []⟩)
      (program scripted (searchArguments (some "c.yml") ["s"] query) configFiles ⟨[], []⟩) ∧
    (Engine.Command.ofServer (Engine.plainServer "s") c).argv = .ok argv ∧
    Engine.Tells (Engine.plainServer "s") argv c := by
  intro query c argv
  have hquery : Query.tokenize query = .ok ["@title=-attr @size NUMGE 5", "-max"] := by decide
  have hc : Query.Criteria.ofWords ["@title=-attr @size NUMGE 5", "-max"] = c := by decide
  have hinvocation : (invocation ⟨[]⟩ (Engine.plainServer "s") c).argv = argv := by decide
  have hargv : (Engine.Command.ofServer (Engine.plainServer "s") c).argv = .ok argv :=
    hinvocation ▸ Engine.argv_of_writable ⟨[]⟩ (Engine.writable_plainServer "s") c
  have hplain : ∀ a ∈ argv, Text.Terminal.escapeChar ∉ a.toList := by decide
  obtain ⟨-, hshows, htells⟩ := translate_shows_search scripted.now
    scripted.terminals (some "c.yml")
    existingFile_config settingsOf_config mem_config hquery ⟨[], []⟩
  rw [hc, hinvocation] at hshows
  rw [hc] at htells
  refine ⟨existingFile_config, settingsOf_config, mem_config, hquery, ?_, hargv,
    (htells argv hargv).1⟩
  exact hshows.2 ⟨proceeds_config.1, proceeds_config.1, Engine.writable_plainServer "s",
    .inr fun a ha => Text.Terminal.not_hasCommand_of_not_mem (hplain a ha)⟩

/-- A query that colours a terminal is searched for, but is not shown. -/
theorem translate_drops_command :
    let query := "\x1b[31mx"
    let translated := program scripted (translateArguments (some "c.yml") "s" query) configFiles
      ⟨[], []⟩
    let searched := program scripted (searchArguments (some "c.yml") ["s"] query) configFiles
      ⟨[], []⟩
    Query.tokenize query = .ok [query] ∧
    translated.output = "estcmd search -vu -max 300 /i x\n" ∧
    searched.world.started.map (·.argv) =
      [["estcmd", "search", "-vu", "-max", "300", "/i", query]] ∧
    ¬ ShowsChild ⟨[], []⟩ translated searched := by
  intro query translated searched
  have hsettings := sound_of_settingsOf settingsOf_config
  have hquery : Query.tokenize query = .ok [query] := by decide
  obtain ⟨htranslated, hsearched⟩ : translated = _ ∧ searched = _ :=
    program_of_accepted scripted (some "c.yml") existingFile_config settingsOf_config "s" query _
  have hcommand : HasCommand "\x1b[31mx".toList :=
    ⟨"\x1b[31m".toList, ⟨['3', '1'], 'm', rfl, by simp [Text.Terminal.isParameter], by decide⟩, [],
      ['x'], rfl⟩
  rw [htranslated, hsearched]
  refine ⟨hquery, ?_, ?_, ?_⟩
  · obtain ⟨-, hline⟩ := runTask_translate_of_proceeds hsettings mem_config
      hquery proceeds_config ⟨[], []⟩
    exact hline.trans (by decide)
  · have hstarted := started_runTask_search_of_proceeds hsettings mem_config
      hquery proceeds_config ⟨[], []⟩
    exact (congrArg _ hstarted).trans (by decide)
  · intro hshows
    obtain ⟨-, -, hplain⟩ := (showsChild_iff scripted.now scripted.limits scripted.terminals
      hsettings mem_config hquery ⟨[], []⟩).1 hshows
    rcases hplain with hterminal | hplain
    · cases hterminal
    · exact hplain query (by decide) hcommand

end IndexedMail.CommandLine
