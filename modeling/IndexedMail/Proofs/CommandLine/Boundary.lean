import IndexedMail.CommandLine.Program
import IndexedMail.Engine.Script
import IndexedMail.Proofs.Service.Isolation

/-!
# How a task ends

A task with accepted settings ends by an exit code, and if it was aborted its last record says so.
Only a log file that cannot be opened ends it otherwise.
-/

namespace IndexedMail

namespace Log

/-- The log file of an action can be opened in its directory, which can be made. -/
def Opens (now : Calendar.Moment) (dir action : String) (f : Files) : Prop :=
  ∃ between after, f.makeDirectories (actionDir dir action) = (.ok (), between) ∧
    between.append ((filePath now dir action).straight between.base) [] = .ok after

variable {now : Calendar.Moment} {r : Request} {action : String} {f : Files}

theorem openFile_of_not_toFile (h : r.toFile = false) (now : Calendar.Moment) (f : Files) :
    openFile now r f = (.ok none, f) := by
  simp [openFile, h]

theorem openFile_of_opens (hfile : r.toFile = true) (haction : r.action = some action)
    (hne : action ≠ "") (h : Opens now r.dir action f) :
    ∃ after, openFile now r f = (.ok (some (filePath now r.dir action)), after) := by
  obtain ⟨between, after, hmade, happended⟩ := h
  refine ⟨after, ?_⟩
  simp [openFile, hfile, haction, hne, hmade, happended]

theorem openFile_of_not_opens (hfile : r.toFile = true) (haction : r.action = some action)
    (hne : action ≠ "") (h : ¬ Opens now r.dir action f) :
    ∃ e after, openFile now r f = (.error (.files e), after) := by
  cases hmade : f.makeDirectories (actionDir r.dir action) with
  | mk made between =>
      cases made with
      | error e => exact ⟨e, between, by simp [openFile, hfile, haction, hne, hmade]⟩
      | ok made =>
          cases happended :
            between.append ((filePath now r.dir action).straight between.base) [] with
          | error e =>
              exact ⟨e, between, by simp [openFile, hfile, haction, hne, hmade, happended]⟩
          | ok after => exact absurd ⟨between, after, hmade, happended⟩ h

/-- The name of a level is not mistaken for anything else. -/
theorem exists_level_of_mem_levels {name : String} (h : name ∈ Settings.Log.levels) :
    ∃ n, level name = .ok n := by
  have hall : ∀ name ∈ Settings.Log.levels, (level name).isOk = true := by decide
  have hok := hall name h
  cases hlevel : level name with
  | ok n => exact ⟨n, rfl⟩
  | error e => simp [hlevel, Except.isOk, Except.toBool] at hok

theorem configure_of_opens (hlevel : r.level ∈ Settings.Log.levels)
    (haction : r.action = some action) (hne : action ≠ "")
    (h : r.toFile = true → Opens now r.dir action f) :
    ∃ sink after, configure now r f = (.ok sink, after) := by
  obtain ⟨n, hn⟩ := exists_level_of_mem_levels hlevel
  cases hfile : r.toFile with
  | false =>
      exact ⟨⟨n, none⟩, f, by simp only [configure, hn, openFile_of_not_toFile hfile]⟩
  | true =>
      obtain ⟨after, hopened⟩ := openFile_of_opens hfile haction hne (h hfile)
      exact ⟨⟨n, some (filePath now r.dir action)⟩, after, by simp only [configure, hn, hopened]⟩

theorem configure_of_not_opens (hlevel : r.level ∈ Settings.Log.levels) (hfile : r.toFile = true)
    (haction : r.action = some action) (hne : action ≠ "") (h : ¬ Opens now r.dir action f) :
    ∃ e after, configure now r f = (.error (.files e), after) := by
  obtain ⟨n, hn⟩ := exists_level_of_mem_levels hlevel
  obtain ⟨e, after, hrefused⟩ := openFile_of_not_opens hfile haction hne h
  exact ⟨e, after, by simp only [configure, hn, hrefused]⟩

end Log

namespace CommandLine

variable {σ : Type}

/-- The name under which the failure of a task is recorded. -/
def Task.title : Task → String
  | .search _ _ => "Search"
  | .show _ => "Show"
  | .translate _ _ => "Translate"

/-- What was aborted says so in its last record, and puts nothing out. -/
def Deed.SaysWhy (d : Deed σ) (what : String) : Prop :=
  d.aborted = true → d.output = "" ∧
    ∃ before, ∃ reason : String, d.records = before ++ [.error (what ++ " failed: " ++ reason)]

theorem saysWhy_aborted (before : List Log.Record) (what reason : String) (f : Files) (world : σ) :
    (aborted before what reason f world).SaysWhy what :=
  fun _ => ⟨rfl, before, reason, rfl⟩

theorem saysWhy_of_not_aborted {d : Deed σ} (h : d.aborted = false) (what : String) :
    d.SaysWhy what := by
  intro haborted
  rw [h] at haborted
  cases haborted

theorem saysWhy_searchWith (now : Calendar.Moment) (r : SearchRequest)
    (writers : List Report.Writer) (svc : Service σ) (f : Files) (world : σ) :
    (searchWith now r writers svc f world).SaysWhy "Search" := by
  unfold searchWith
  dsimp only
  split
  · exact saysWhy_aborted _ _ _ _ _
  · split
    · exact saysWhy_aborted _ _ _ _ _
    · exact saysWhy_of_not_aborted rfl _

theorem saysWhy_search (run : Engine.Invocation → σ → Engine.Outcome × σ) (parent : Environment)
    (now : Calendar.Moment) (settings : Settings) (r : SearchRequest) (f : Files) (world : σ) :
    (search run parent now settings r f world).SaysWhy "Search" := by
  unfold search
  split
  · exact saysWhy_aborted _ _ _ _ _
  · split
    · exact saysWhy_aborted _ _ _ _ _
    · exact saysWhy_searchWith _ _ _ _ _ _

theorem saysWhy_showSaved (limits : Limits) (takesNotes : Bool) (path : Path) (f : Files)
    (world : σ) : (showSaved limits takesNotes path f world).SaysWhy "Show" := by
  unfold showSaved
  split
  · exact saysWhy_aborted _ _ _ _ _
  · dsimp only
    split
    · exact saysWhy_aborted _ _ _ _ _
    · exact saysWhy_of_not_aborted rfl _

theorem saysWhy_translate (terminal : Bool) (settings : Settings) (query : String)
    (server : Option String) (f : Files) (world : σ) :
    (translate terminal settings query server f world).SaysWhy "Translate" := by
  unfold translate
  split
  · exact saysWhy_aborted _ _ _ _ _
  · exact saysWhy_of_not_aborted rfl _

theorem saysWhy_perform (s : Setting σ) (settings : Settings) (sink : Log.Sink) (t : Task)
    (f : Files) (world : σ) : (perform s settings sink t f world).SaysWhy t.title := by
  cases t with
  | search query servers => exact saysWhy_search _ _ _ _ _ _ _
  | «show» path => exact saysWhy_showSaved _ _ _ _ _
  | translate query server => exact saysWhy_translate _ _ _ _ _ _

theorem name_ne_empty (c : Command) : c.name ≠ "" := by
  cases c <;> decide

/-! ## The log and then the task -/

section RunTask

variable {s : Setting σ} {settings : Settings} {t : Task} {f : Files}

theorem runTask_of_configure {sink : Log.Sink} {between : Files}
    (h : Log.configure s.now (logRequest settings t) f = (.ok sink, between)) (world : σ) :
    let deed := perform s settings sink t between world
    let written := Log.write s.now (some sink) deed.records deed.files
    runTask s settings t f world =
      { ending := .exit (if deed.aborted then abortCode else success)
        output := deed.output
        errors := if deed.aborted then written.1.shown ++ "Aborted!\n" else written.1.shown
        files := written.2
        world := deed.world } := by
  simp only [runTask, h]

/-- What is planned is what is run. -/
theorem program_of_plan {given : List String}
    (h : plan s.limits s.environment given f = .ok (settings, t)) (world : σ) :
    program s given f world = runTask s settings t f world := by
  simp only [program, h]

theorem runTask_of_configure_error {e : Log.Error} {between : Files}
    (h : Log.configure s.now (logRequest settings t) f = (.error e, between)) (world : σ) :
    runTask s settings t f world = stopped s (.failed (.log e)) between world := by
  simp only [runTask, h]

/-- The log for a task is on the console only, or its file can be opened. -/
def LogOpens (s : Setting σ) (settings : Settings) (t : Task) (f : Files) : Prop :=
  settings.log.toFile = true → Log.Opens s.now settings.log.dir t.command.name f

/-- A task has been aborted, and its last record says why. -/
structure AbortedBy (s : Setting σ) (t : Task) (result : Result σ) : Prop where
  ending : result.ending = .exit abortCode
  output : result.output = ""
  errors : ∃ sink before f, ∃ reason : String, result.errors =
    Text.Wide.shown (Log.write s.now (some sink)
      (before ++ [.error (t.title ++ " failed: " ++ reason)]) f).1 ++ "Aborted!\n"

theorem runTask_of_log {sink : Log.Sink} {between : Files}
    (h : Log.configure s.now (logRequest settings t) f = (.ok sink, between)) (world : σ) :
    (runTask s settings t f world).ending = .exit success ∨
      AbortedBy s t (runTask s settings t f world) := by
  have hrun := runTask_of_configure h world
  have hwhy := saysWhy_perform s settings sink t between world
  cases haborted : (perform s settings sink t between world).aborted with
  | false =>
      simp only [haborted] at hrun
      exact .inl (by rw [hrun]; rfl)
  | true =>
      obtain ⟨houtput, before, reason, hrecords⟩ := hwhy haborted
      simp only [haborted, if_true, hrecords] at hrun
      refine .inr ⟨by rw [hrun], by rw [hrun, houtput], ?_⟩
      exact ⟨sink, before, (perform s settings sink t between world).files, reason, by rw [hrun]⟩

theorem runTask_of_logOpens (hlevel : settings.log.level ∈ Settings.Log.levels)
    (h : LogOpens s settings t f) (world : σ) :
    (runTask s settings t f world).ending = .exit success ∨
      AbortedBy s t (runTask s settings t f world) := by
  obtain ⟨sink, between, hconfigured⟩ := Log.configure_of_opens (r := logRequest settings t) hlevel
    rfl (name_ne_empty t.command) h
  exact runTask_of_log hconfigured world

theorem runTask_of_not_logOpens (hlevel : settings.log.level ∈ Settings.Log.levels)
    (h : ¬ LogOpens s settings t f) (world : σ) :
    ∃ e between, runTask s settings t f world =
      stopped s (.failed (.log (.files e))) between world := by
  obtain ⟨hfile, hopens⟩ := Classical.not_imp.1 h
  obtain ⟨e, between, hrefused⟩ := Log.configure_of_not_opens (r := logRequest settings t) hlevel
    hfile rfl (name_ne_empty t.command) hopens
  exact ⟨e, between, runTask_of_configure_error hrefused world⟩

end RunTask

/--
How a task ends with accepted settings, in any world and among any files.

If the log is on the console only or its file can be opened, the task succeeds or is aborted; an
aborted one puts nothing out and says why in its last record.  Otherwise nothing is begun and the
failure of the log ends the program, without an exit code.
-/
theorem runTask_ends {environment : Environment} {root : Settings.Section} {settings : Settings}
    (hread : Settings.read environment root = .ok settings) (s : Setting σ) (t : Task) (f : Files)
    (world : σ) :
    let result := runTask s settings t f world
    (LogOpens s settings t f → result.ending = .exit success ∨ AbortedBy s t result) ∧
    (¬ LogOpens s settings t f →
      (∃ e, result.ending = .failed (.log (.files e))) ∧ result.output = "" ∧
        result.errors = "" ∧ result.world = world) := by
  intro result
  have hlevel := (Settings.read_eq_ok_iff.1 hread).2.level
  refine ⟨fun hopens => runTask_of_logOpens hlevel hopens world, fun hopens => ?_⟩
  obtain ⟨e, between, hresult⟩ := runTask_of_not_logOpens hlevel hopens world
  have hstopped : result = stopped s (.failed (.log (.files e))) between world := hresult
  exact ⟨⟨e, by rw [hstopped]; rfl⟩, by rw [hstopped]; rfl, by rw [hstopped]; rfl,
    by rw [hstopped]; rfl⟩

/-! ## A log below a name that may be taken -/

def loggingLog : Settings.Log :=
  { level := "INFO", toFile := true, dir := "taken" }

def loggingSection : Settings.Section :=
  (.string "log", .mapping [(.string "to_file", .bool true), (.string "dir", .string "taken")]) ::
    Service.pairSection

def loggingSettings : Settings :=
  { Service.pairSettings with log := loggingLog }

theorem read_loggingSection : Settings.read ⟨[]⟩ loggingSection = .ok loggingSettings := by
  obtain ⟨-, hsound⟩ := Settings.read_eq_ok_iff.1 Service.read_pairSection
  refine Settings.read_eq_ok_iff.2 ⟨rfl, ?_⟩
  exact { hsound with level := by decide, logDir := by decide }

def scripted : Setting Engine.Script :=
  { run := Engine.Script.run
    environment := ⟨[]⟩
    now := ⟨⟨2024, 1, 2⟩, 3, 4, 5, 0, none⟩
    limits := Limits.ofThousand
    terminals := { output := false, errors := false } }

/-- A file stands where the directory of the log should be. -/
def takenFiles : Files :=
  ⟨[], [(["taken"], .file [])]⟩

theorem runTask_ends_logging :
    Settings.read ⟨[]⟩ loggingSection = .ok loggingSettings ∧
    LogOpens scripted loggingSettings (.translate "x" none) Files.empty ∧
    ((runTask scripted loggingSettings (.translate "x" none) Files.empty ⟨[], []⟩).ending =
        .exit success ∨
      AbortedBy scripted (.translate "x" none)
        (runTask scripted loggingSettings (.translate "x" none) Files.empty ⟨[], []⟩)) := by
  have hopens : LogOpens scripted loggingSettings (.translate "x" none) Files.empty :=
    fun _ => ⟨_, _, rfl, rfl⟩
  exact ⟨read_loggingSection, hopens,
    (runTask_ends read_loggingSection scripted (.translate "x" none) Files.empty ⟨[], []⟩).1 hopens⟩

/-- A log that cannot be opened ends the program, whatever it was to do. -/
theorem log_not_opened :
    Settings.read ⟨[]⟩ loggingSection = .ok loggingSettings ∧
    ∀ world, (runTask scripted loggingSettings (.translate "x" none) takenFiles world).ending =
      .failed (.log (.files (.failed .notDirectory ⟨"", ["taken", "translate"]⟩))) :=
  ⟨read_loggingSection, fun _ => rfl⟩

end CommandLine

end IndexedMail
