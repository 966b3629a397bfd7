import IndexedMail.CommandLine.Program
import Mathlib.Data.List.Basic

/-!
# The command lines of tasks

A settings file may be named before a command.  For a search, servers may be named any number of
times, and behind two dashes the query may be any text.
-/

namespace IndexedMail.CommandLine

/-- The arguments of a search: the settings file if one is named, the servers, and the query. -/
def searchArguments (config : Option String) (names : List String) (query : String) :
    List String :=
  config.toList.flatMap (fun c => ["--config", c]) ++
    "search" :: names.flatMap (fun name => ["--server", name]) ++ ["--", query]

theorem arguments_option {scope : Scope} {o : OptionForm} (hoption : isOption o.name = true)
    (hplain : splitOption o.name = (o.name, none)) (hend : (o.name == "--") = false)
    (hfind : (scope.options.find? fun known => known.name == o.name) = some o)
    (hvalue : o.takesValue = true) (value : String) (rest : List String) :
    arguments scope (o.name :: value :: rest) =
      (arguments scope rest).map (·.withOption o.name (some value)) := by
  rw [arguments]
  simp only [hend, hoption, hplain, hfind, hvalue]
  rfl

theorem arguments_server (value : String) (rest : List String) :
    arguments (.command .search) ("--server" :: value :: rest) =
      (arguments (.command .search) rest).map (·.withOption "--server" (some value)) :=
  arguments_option (o := serverOption) rfl rfl rfl rfl rfl value rest

theorem arguments_config (value : String) (rest : List String) :
    arguments .program ("--config" :: value :: rest) =
      (arguments .program rest).map (·.withOption "--config" (some value)) :=
  arguments_option (o := configOption) rfl rfl rfl rfl rfl value rest

theorem arguments_servers (names : List String) (query : String) :
    arguments (.command .search)
      (names.flatMap (fun name => ["--server", name]) ++ ["--", query]) =
        .ok ⟨names.map fun name => ("--server", some name), [query]⟩ := by
  induction names with
  | nil => rfl
  | cons name rest ih =>
      rw [List.flatMap_cons, List.append_assoc, List.cons_append, List.cons_append,
        List.nil_append, arguments_server, ih]
      rfl

theorem values_servers (names others : List String) :
    Arguments.values ⟨names.map fun name => ("--server", some name), others⟩ serverOption =
      names := by
  simp [Arguments.values, serverOption]

theorem task_servers (names : List String) (query : String) (f : Files) :
    task .search (names.flatMap (fun name => ["--server", name]) ++ ["--", query]) f =
      .ok (.search query names) := by
  have hhelp : Arguments.asksForHelp ⟨names.map fun name => ("--server", some name), [query]⟩ =
      false := by
    simp [Arguments.asksForHelp, helpOption]
  simp only [task, arguments_servers, hhelp]
  simp [noMore, Except.map, values_servers]

/-! ## Commands behind the settings file -/

/-- The arguments of a command, behind the settings file if one is named. -/
def commandArguments (config : Option String) (c : Command) (args : List String) : List String :=
  config.toList.flatMap (fun path => ["--config", path]) ++ c.name :: args

theorem arguments_name (c : Command) (args : List String) :
    arguments .program (c.name :: args) = .ok ⟨[], c.name :: args⟩ := by
  cases c <;> rfl

theorem arguments_command (config : Option String) (c : Command) (args : List String) :
    arguments .program (commandArguments config c args) =
      .ok ⟨config.toList.map fun path => ("--config", some path), c.name :: args⟩ := by
  cases config with
  | none => exact arguments_name c args
  | some path =>
      simp only [commandArguments, Option.toList_some, List.flatMap_cons, List.flatMap_nil,
        List.append_nil, List.cons_append, List.nil_append]
      rw [arguments_config, arguments_name]
      rfl

theorem command_name (c : Command) : command c.name = .ok c := by
  cases c <;> rfl

/-- A task is planned with the settings of the file that is named for it. -/
theorem plan_of_task {limits : Limits} {environment : Environment} (config : Option String)
    {f : Files} {path : Path} {settings : Settings}
    (hpath : existingFile .program configOption.name (config.getD defaultConfig.text) f = .ok path)
    (hsettings : settingsOf limits environment path f = .ok settings) {c : Command}
    {args : List String} {t : Task} (htask : task c args f = .ok t) :
    plan limits environment (commandArguments config c args) f = .ok (settings, t) := by
  have hempty : (commandArguments config c args).isEmpty = false := by simp [commandArguments]
  -- The arguments are made opaque, so that the plan is not unfolded with them.
  obtain ⟨a, ha⟩ : ∃ a : Arguments,
      a = ⟨config.toList.map fun path => ("--config", some path), c.name :: args⟩ := ⟨_, rfl⟩
  have hhelp : a.asksForHelp = false := by
    cases config <;> simp [ha, Arguments.asksForHelp, helpOption]
  have hvalue : (a.values configOption).getLast? = config := by
    cases config <;> simp [ha, Arguments.values, configOption]
  simp only [plan, hempty, arguments_command, ← ha, hhelp, hvalue, hpath]
  simp only [ha, Bool.false_eq_true, if_false, bind, Except.bind, command_name, hsettings, htask]
  rfl

/-! ## Searching and translating -/

theorem plan_searchArguments {limits : Limits} {environment : Environment}
    (config : Option String) {f : Files} {path : Path} {settings : Settings}
    (hpath : existingFile .program configOption.name (config.getD defaultConfig.text) f = .ok path)
    (hsettings : settingsOf limits environment path f = .ok settings) (names : List String)
    (query : String) :
    plan limits environment (searchArguments config names query) f =
      .ok (settings, .search query names) := by
  rw [searchArguments, List.append_assoc, List.cons_append]
  exact plan_of_task config hpath hsettings (task_servers names query f)

/-- The arguments that ask for the command line for a query on a server. -/
def translateArguments (config : Option String) (name query : String) : List String :=
  commandArguments config .translate ["--server", name, "--", query]

theorem task_translate (name query : String) (f : Files) :
    task .translate ["--server", name, "--", query] f = .ok (.translate query (some name)) := by
  have harguments : arguments (.command .translate) ["--server", name, "--", query] =
      .ok ⟨[("--server", some name)], [query]⟩ :=
    arguments_option (o := serverOption) rfl rfl rfl rfl rfl name ["--", query]
  simp only [task, harguments]
  rfl

theorem plan_translateArguments {limits : Limits} {environment : Environment}
    (config : Option String) {f : Files} {path : Path} {settings : Settings}
    (hpath : existingFile .program configOption.name (config.getD defaultConfig.text) f = .ok path)
    (hsettings : settingsOf limits environment path f = .ok settings) (name query : String) :
    plan limits environment (translateArguments config name query) f =
      .ok (settings, .translate query (some name)) :=
  plan_of_task config hpath hsettings (task_translate name query f)

end IndexedMail.CommandLine
