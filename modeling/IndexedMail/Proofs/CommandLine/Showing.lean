import IndexedMail.Proofs.Archive.Loading
import IndexedMail.Proofs.CommandLine.Boundary
import IndexedMail.Proofs.Log.History

/-!
# Showing all saved searches or none

The searches of a file are shown all, in their order and each with all its items, or none is shown
and a record says why.  All are loaded before the first is shown, so that what cannot be loaded at
the end of a file keeps the beginning from being shown too.  What is nested too deep to become text
can be loaded nevertheless, and then what stands before it has been shown.
-/

namespace IndexedMail.CommandLine

open Archive (Denotes Holds Listed Loadable Loads Saved)

/-! ## What is recorded -/

section Records

variable {limits : Limits} {notes : Bool}

/-- The query of a search can be put in a record. -/
def Named (limits : Limits) (notes : Bool) (query : Json) : Prop :=
  ∃ text, queryText limits notes query = .ok text

/-- The query and the items of a search can be put in records. -/
structure Showable (limits : Limits) (notes : Bool) (s : Saved) : Prop where
  query : Named limits notes s.query
  items : ∀ i ∈ s.items, Report.isListable limits.items i = true

instance (limits : Limits) (notes : Bool) (query : Json) : Decidable (Named limits notes query) :=
  match h : queryText limits notes query with
  | .ok text => .isTrue ⟨text, h⟩
  | .error _ => .isFalse fun ⟨_, htext⟩ => by
      rw [h] at htext
      cases htext

instance (limits : Limits) (notes : Bool) (s : Saved) : Decidable (Showable limits notes s) :=
  decidable_of_iff (Named limits notes s.query ∧ ∀ i ∈ s.items, Report.isListable limits.items i)
    ⟨fun h => ⟨h.1, h.2⟩, fun h => ⟨h.query, h.items⟩⟩

/-- The records of some searches. -/
def savedRecords (saved : List Saved) : List Log.Record :=
  saved.flatMap fun s => Report.records s.query.text s.items

/-- What is recorded of a search that cannot be shown: its query, as far as that goes. -/
def begunRecords (limits : Limits) (notes : Bool) (s : Saved) : List Log.Record :=
  if Named limits notes s.query then [Report.queryRecord s.query.text] else []

/-- The records of searches that are shown, between those on their file and on their number. -/
def shownRecords (path : Path) (saved : List Saved) : List Log.Record :=
  Archive.loadRecord path saved ::
    (savedRecords saved ++ [.info s!"Shown {saved.length} saved queries"])

theorem queryText_eq_ok {query : Json} {text : Text.Wide}
    (h : queryText limits notes query = .ok text) : text = query.text := by
  have hwithin : ∀ text, query.textWithin limits.queries = .ok text → text = query.text := by
    intro text htext
    cases query <;> simp only [Json.textWithin] at htext
    case string s => exact (Except.ok.inj htext).symm
    all_goals
      split at htext
      · exact (Except.ok.inj htext).symm
      · cases htext
  cases notes with
  | true => exact hwithin text h
  | false => exact (Except.ok.inj h).symm

/-- One search after others that have been shown. -/
theorem showRecords_of_showable {s : Saved} (h : Showable limits notes s)
    (records : List Log.Record) :
    showRecords limits notes s.query ⟨s.items, []⟩ ⟨records, none⟩ =
      ⟨records ++ Report.records s.query.text s.items, none⟩ := by
  obtain ⟨text, htext⟩ := h.query
  have hitems : s.items.all (Report.isListable limits.items) = true := List.all_eq_true.2 h.items
  simp only [showRecords, htext, hitems, queryText_eq_ok htext, if_true]

theorem showRecords_of_not_showable {s : Saved} (h : ¬ Showable limits notes s)
    (records : List Log.Record) :
    showRecords limits notes s.query ⟨s.items, []⟩ ⟨records, none⟩ =
      ⟨records ++ begunRecords limits notes s, some ⟨⟩⟩ := by
  cases htext : queryText limits notes s.query with
  | error e =>
      have hnot : ¬ Named limits notes s.query := by
        rintro ⟨text, hnamed⟩
        rw [htext] at hnamed
        cases hnamed
      simp [showRecords, htext, begunRecords, hnot]
  | ok text =>
      have hnamed : Named limits notes s.query := ⟨text, htext⟩
      have hitems : s.items.all (Report.isListable limits.items) ≠ true :=
        fun hall => h ⟨hnamed, List.all_eq_true.1 hall⟩
      simp [showRecords, htext, begunRecords, hnamed, hitems, queryText_eq_ok htext]

/-- Once a search could not be shown, nothing is. -/
theorem replay_of_failed (saved : List Saved) (records : List Log.Record) (e : Json.DepthError) :
    replay (showRecords limits notes) saved ⟨records, some e⟩ = ⟨records, some e⟩ := by
  induction saved with
  | nil => rfl
  | cons s rest ih => exact ih

theorem replay_of_showable {saved : List Saved} (h : ∀ s ∈ saved, Showable limits notes s)
    (records : List Log.Record) :
    replay (showRecords limits notes) saved ⟨records, none⟩ =
      ⟨records ++ savedRecords saved, none⟩ := by
  induction saved generalizing records with
  | nil => simp [replay, savedRecords]
  | cons s rest ih =>
      have hrest := ih (fun t ht => h t (List.mem_cons_of_mem _ ht))
        (records ++ Report.records s.query.text s.items)
      rw [replay] at hrest ⊢
      rw [List.foldl_cons, showRecords_of_showable (h s List.mem_cons_self), hrest,
        List.append_assoc]
      rfl

/-- The first search that cannot be shown ends the records behind those of the searches before. -/
theorem replay_of_first {shown rest : List Saved} {s : Saved}
    (hshown : ∀ t ∈ shown, Showable limits notes t) (hs : ¬ Showable limits notes s) :
    replay (showRecords limits notes) (shown ++ s :: rest) ⟨[], none⟩ =
      ⟨savedRecords shown ++ begunRecords limits notes s, some ⟨⟩⟩ := by
  have hbefore := replay_of_showable hshown []
  rw [replay, List.nil_append] at hbefore
  rw [replay, List.foldl_append, hbefore, List.foldl_cons, showRecords_of_not_showable hs]
  exact replay_of_failed rest _ _

theorem showable_or_first (limits : Limits) (notes : Bool) (saved : List Saved) :
    (∀ s ∈ saved, Showable limits notes s) ∨
      ∃ shown s rest, saved = shown ++ s :: rest ∧ (∀ t ∈ shown, Showable limits notes t) ∧
        ¬ Showable limits notes s := by
  induction saved with
  | nil => exact .inl fun s hs => absurd hs List.not_mem_nil
  | cons first others ih =>
      by_cases hfirst : Showable limits notes first
      · rcases ih with hall | ⟨shown, s, rest, rfl, hshown, hs⟩
        · exact .inl (List.forall_mem_cons.2 ⟨hfirst, hall⟩)
        · exact .inr ⟨first :: shown, s, rest, rfl, List.forall_mem_cons.2 ⟨hfirst, hshown⟩, hs⟩
      · exact .inr ⟨[], first, others, rfl, fun t ht => absurd ht List.not_mem_nil, hfirst⟩

end Records

/-! ## How showing ends -/

section Showing

variable {σ : Type} {s : Setting σ} {settings : Settings} {f : Files} {path : Path}
  {bytes : List UInt8} {world : σ} {result : Result σ}

/-- The record of the reason for which showing has failed. -/
def failureRecord (reason : String) : Log.Record :=
  .error ("Show failed: " ++ reason)

theorem aborted_show (records : List Log.Record) (reason : String) (f : Files) (world : σ) :
    aborted records "Show" reason f world =
      { records := records ++ [failureRecord reason]
        output := ""
        aborted := true
        files := f
        world := world } := by
  have htitle : Text.wide "Show" ++ Text.wide " failed: " = Text.wide "Show failed: " := by decide
  rw [aborted, htitle]
  rfl

/--
The log has been opened, the records are all that was made and all that was written to it, and then
the task has ended, with nothing put out and no other change.
-/
def LeavesRecords (s : Setting σ) (settings : Settings) (t : Task) (f : Files) (world : σ)
    (records : List Log.Record) (code : Nat) (lastWord : String) (result : Result σ) : Prop :=
  ∃ sink between, Log.configure s.now (logRequest settings t) f = (.ok sink, between) ∧
    (perform s settings sink t between world).records = records ∧
    let written := Log.write s.now (some sink) records between
    result =
      { ending := .exit code
        output := ""
        errors := written.1.shown ++ lastWord
        files := written.2
        world := world }

/-- The searches of a file have been shown, each entry with results in its place. -/
def ShowsAll (s : Setting σ) (settings : Settings) (path : Path) (f : Files) (world : σ)
    (bytes : List UInt8) (result : Result σ) : Prop :=
  ∃ saved, Loads s.limits bytes saved ∧
    LeavesRecords s settings (.show path) f world (shownRecords path saved) success "" result

/--
Nothing has been shown; there is but the reason, perhaps behind the note on what was loaded, and the
task was aborted.
-/
def ShowsNone (s : Setting σ) (settings : Settings) (path : Path) (f : Files) (world : σ)
    (result : Result σ) : Prop :=
  ∃ loaded, (loaded = [] ∨ ∃ saved, loaded = [Archive.loadRecord path saved]) ∧ ∃ reason,
    LeavesRecords s settings (.show path) f world (loaded ++ [failureRecord reason]) abortCode
      "Aborted!\n" result

/--
The searches of a file have been shown up to one that is nested too deep, of which at most the query
was, and the task was aborted.
-/
def ShowsPart (s : Setting σ) (settings : Settings) (path : Path) (f : Files) (world : σ)
    (notes : Bool) (bytes : List UInt8) (result : Result σ) : Prop :=
  ∃ shown first rest, Loads s.limits bytes (shown ++ first :: rest) ∧
    (∀ t ∈ shown, Showable s.limits notes t) ∧ ¬ Showable s.limits notes first ∧
    LeavesRecords s settings (.show path) f world
      (Archive.loadRecord path (shown ++ first :: rest) ::
        (savedRecords shown ++ begunRecords s.limits notes first ++
          [failureRecord (Json.DepthError.message ⟨⟩)])) abortCode "Aborted!\n" result

theorem ShowsAll.ending (h : ShowsAll s settings path f world bytes result) :
    result.ending = .exit success := by
  obtain ⟨_, -, _, _, -, -, rfl⟩ := h
  rfl

theorem ShowsNone.ending (h : ShowsNone s settings path f world result) :
    result.ending = .exit abortCode := by
  obtain ⟨_, -, _, _, _, -, -, rfl⟩ := h
  rfl

theorem ShowsPart.ending {notes : Bool}
    (h : ShowsPart s settings path f world notes bytes result) :
    result.ending = .exit abortCode := by
  obtain ⟨_, _, _, -, -, -, _, _, -, -, rfl⟩ := h
  rfl

theorem not_showsAll_of_aborted (h : result.ending = .exit abortCode) :
    ¬ ShowsAll s settings path f world bytes result := by
  intro hall
  have hcodes : Ending.exit success = .exit abortCode := hall.ending.symm.trans h
  exact absurd hcodes (by decide)

/-- A record of a query is none of a failure, so that where there is one something is shown. -/
theorem not_showsNone_of_named {first : Saved} {rest : List Saved} {tail : List Log.Record}
    {code : Nat} {lastWord : String}
    (h : LeavesRecords s settings (.show path) f world
      (Archive.loadRecord path (first :: rest) :: Report.queryRecord first.query.text :: tail)
      code lastWord result) :
    ¬ ShowsNone s settings path f world result := by
  rintro ⟨loaded, hloaded, reason, sink, between, hlog, hrecords, -⟩
  obtain ⟨sink', between', hlog', hrecords', -⟩ := h
  rw [hlog] at hlog'
  cases hlog'
  rw [hrecords] at hrecords'
  -- Notes and failures are of different levels.
  rcases hloaded with rfl | ⟨saved, rfl⟩
  · have hlevels := congrArg Log.Record.level (List.cons.inj hrecords').1
    exact absurd hlevels (show ¬ Log.errorLevel = Log.infoLevel by decide)
  · obtain ⟨-, htail⟩ := List.cons.inj hrecords'
    have hlevels := congrArg Log.Record.level (List.cons.inj htail).1
    exact absurd hlevels (show ¬ Log.errorLevel = Log.infoLevel by decide)

/-- Where the query of the first search cannot be put in a record, none is shown. -/
theorem ShowsPart.showsNone {first : Saved} {rest : List Saved} {notes : Bool}
    (h : ShowsPart s settings path f world notes bytes result)
    (hloads : Loads s.limits bytes (first :: rest)) (hnamed : ¬ Named s.limits notes first.query) :
    ShowsNone s settings path f world result := by
  obtain ⟨shown, failed, others, hloads', hshown, -, hleaves⟩ := h
  have hsplit := hloads.unique hloads'
  cases shown with
  | cons t more =>
      obtain rfl : first = t := (List.cons.inj hsplit).1
      exact absurd (hshown first List.mem_cons_self).query hnamed
  | nil =>
      obtain rfl : first = failed := (List.cons.inj hsplit).1
      refine ⟨_, .inr ⟨[] ++ first :: others, rfl⟩, Json.DepthError.message ⟨⟩, ?_⟩
      simpa [savedRecords, begunRecords, hnamed] using hleaves

theorem ShowsPart.not_showsNone {first : Saved} {rest : List Saved} {notes : Bool}
    (h : ShowsPart s settings path f world notes bytes result)
    (hloads : Loads s.limits bytes (first :: rest)) (hnamed : Named s.limits notes first.query) :
    ¬ ShowsNone s settings path f world result := by
  obtain ⟨shown, failed, others, hloads', -, -, hleaves⟩ := h
  have hsplit := hloads.unique hloads'
  rw [← hsplit] at hleaves
  cases shown with
  | cons t more =>
      obtain rfl : first = t := (List.cons.inj hsplit).1
      exact not_showsNone_of_named hleaves
  | nil =>
      obtain rfl : first = failed := (List.cons.inj hsplit).1
      rw [begunRecords, if_pos hnamed] at hleaves
      exact not_showsNone_of_named hleaves

section Log

variable {sink : Log.Sink} {between : Files}
  (hlog : Log.configure s.now (logRequest settings (.show path)) f = (.ok sink, between))
  (hread : between.read path = .ok bytes)

include hlog hread

theorem showsAll_of_showable {saved : List Saved} (hloads : Loads s.limits bytes saved)
    (hall : ∀ e ∈ saved, Showable s.limits (takesNotes sink) e) (world : σ) :
    ShowsAll s settings path f world bytes (runTask s settings (.show path) f world) := by
  have hload : Archive.load s.limits between path = .ok saved := by
    simp only [Archive.load, hread, Archive.ofBytes_eq_ok_iff.2 hloads]
  have hdeed : perform s settings sink (.show path) between world =
      { records := shownRecords path saved
        output := ""
        aborted := false
        files := between
        world := world } := by
    simp [perform, showSaved, replayFile, hload, replay_of_showable hall, shownRecords]
  refine ⟨saved, hloads, sink, between, hlog, by rw [hdeed], ?_⟩
  rw [runTask_of_configure hlog world, hdeed]
  simp

theorem showsPart_of_not_showable {shown rest : List Saved} {first : Saved}
    (hloads : Loads s.limits bytes (shown ++ first :: rest))
    (hshown : ∀ e ∈ shown, Showable s.limits (takesNotes sink) e)
    (hfirst : ¬ Showable s.limits (takesNotes sink) first) (world : σ) :
    ShowsPart s settings path f world (takesNotes sink) bytes
      (runTask s settings (.show path) f world) := by
  have hload : Archive.load s.limits between path = .ok (shown ++ first :: rest) := by
    simp only [Archive.load, hread, Archive.ofBytes_eq_ok_iff.2 hloads]
  have hdeed : perform s settings sink (.show path) between world =
      { records := Archive.loadRecord path (shown ++ first :: rest) ::
          (savedRecords shown ++ begunRecords s.limits (takesNotes sink) first ++
            [failureRecord (Json.DepthError.message ⟨⟩)])
        output := ""
        aborted := true
        files := between
        world := world } := by
    simp [perform, showSaved, replayFile, hload, replay_of_first hshown hfirst, aborted_show]
  refine ⟨shown, first, rest, hloads, hshown, hfirst, sink, between, hlog, by rw [hdeed], ?_⟩
  rw [runTask_of_configure hlog world, hdeed]
  simp

theorem showsNone_of_not_loadable (hloadable : ¬ Loadable s.limits bytes) (world : σ) :
    ShowsNone s settings path f world (runTask s settings (.show path) f world) := by
  cases hsaved : Archive.ofBytes s.limits bytes with
  | ok saved =>
      exact absurd (Archive.loadable_iff.2 ⟨saved, Archive.ofBytes_eq_ok_iff.1 hsaved⟩) hloadable
  | error e =>
      have hload : Archive.load s.limits between path = .error e := by
        simp only [Archive.load, hread, hsaved]
      have hdeed : perform s settings sink (.show path) between world =
          aborted [] "Show" e.message between world := by
        simp only [perform, showSaved, replayFile, hload]
      rw [aborted_show] at hdeed
      refine ⟨[], .inl rfl, e.message, sink, between, hlog, by rw [hdeed], ?_⟩
      rw [runTask_of_configure hlog world, hdeed]
      rfl

/-- Of the searches that a file gives, all are shown, or those before the first that cannot be. -/
theorem showsAll_or_showsPart {saved : List Saved} (hloads : Loads s.limits bytes saved)
    (world : σ) :
    (∀ e ∈ saved, Showable s.limits (takesNotes sink) e) ∧
        ShowsAll s settings path f world bytes (runTask s settings (.show path) f world) ∨
      (¬ ∀ e ∈ saved, Showable s.limits (takesNotes sink) e) ∧
        ShowsPart s settings path f world (takesNotes sink) bytes
          (runTask s settings (.show path) f world) := by
  rcases showable_or_first s.limits (takesNotes sink) saved with
    hall | ⟨shown, first, rest, rfl, hshown, hfirst⟩
  · exact .inl ⟨hall, showsAll_of_showable hlog hread hloads hall world⟩
  · refine .inr ⟨fun hall => hfirst (hall first (by simp)), ?_⟩
    exact showsPart_of_not_showable hlog hread hloads hshown hfirst world

theorem showsAll_iff (world : σ) :
    ShowsAll s settings path f world bytes (runTask s settings (.show path) f world) ↔
      ∃ saved, Loads s.limits bytes saved ∧
        ∀ e ∈ saved, Showable s.limits (takesNotes sink) e := by
  constructor
  · intro h
    obtain ⟨saved, hloads, -⟩ := id h
    refine ⟨saved, hloads, ?_⟩
    rcases showsAll_or_showsPart hlog hread hloads world with ⟨hall, -⟩ | ⟨-, hpart⟩
    · exact hall
    · exact absurd h (not_showsAll_of_aborted hpart.ending)
  · rintro ⟨saved, hloads, hall⟩
    exact showsAll_of_showable hlog hread hloads hall world

theorem showsNone_iff (world : σ) :
    ShowsNone s settings path f world (runTask s settings (.show path) f world) ↔
      ¬ Loadable s.limits bytes ∨ ∃ first rest, Loads s.limits bytes (first :: rest) ∧
        ¬ Named s.limits (takesNotes sink) first.query := by
  constructor
  · intro hnone
    by_contra hnot
    obtain ⟨hloadable, hfirst⟩ := not_or.1 hnot
    obtain ⟨saved, hloads⟩ := Archive.loadable_iff.1 (not_not.1 hloadable)
    rcases showsAll_or_showsPart hlog hread hloads world with ⟨-, hall⟩ | ⟨hsome, hpart⟩
    · exact not_showsAll_of_aborted hnone.ending hall
    · cases saved with
      | nil => exact hsome fun e he => absurd he List.not_mem_nil
      | cons first rest =>
          have hnamed : Named s.limits (takesNotes sink) first.query := by
            by_contra hunnamed
            exact hfirst ⟨first, rest, hloads, hunnamed⟩
          exact hpart.not_showsNone hloads hnamed hnone
  · rintro (hloadable | ⟨first, rest, hloads, hnamed⟩)
    · exact showsNone_of_not_loadable hlog hread hloadable world
    · rcases showsAll_or_showsPart hlog hread hloads world with ⟨hall, -⟩ | ⟨-, hpart⟩
      · exact absurd (hall first List.mem_cons_self).query hnamed
      · exact hpart.showsNone hloads hnamed

end Log

end Showing

/--
Showing the searches of a file with accepted settings, whatever the file holds.

If the log can be opened, all entries with results are shown if each of their results is an item
and none of them is nested too deep to become text.  None is shown if one of the results is no item,
in whatever entry it stands, or if the query of the first entry is nested too deep.  In the one case
that remains the entries up to the first that is nested too deep are shown.  If the log cannot be
opened, nothing is begun and its failure ends the program, without an exit code.
-/
theorem show_all_or_none {σ : Type} {environment : Environment} {root : Settings.Section}
    {settings : Settings} (hread : Settings.read environment root = .ok settings) {path : Path}
    {f : Files} {bytes : List UInt8} (hfile : f.read path = .ok bytes) (s : Setting σ)
    (world : σ) :
    let result := runTask s settings (.show path) f world
    (LogOpens s settings (.show path) f →
      ∃ sink between,
        Log.configure s.now (logRequest settings (.show path)) f = (.ok sink, between) ∧
        (ShowsAll s settings path f world bytes result ↔
          ∃ saved, Loads s.limits bytes saved ∧
            ∀ e ∈ saved, Showable s.limits (takesNotes sink) e) ∧
        (ShowsNone s settings path f world result ↔
          ¬ Loadable s.limits bytes ∨ ∃ first rest, Loads s.limits bytes (first :: rest) ∧
            ¬ Named s.limits (takesNotes sink) first.query) ∧
        (¬ ShowsAll s settings path f world bytes result →
          ¬ ShowsNone s settings path f world result →
            ShowsPart s settings path f world (takesNotes sink) bytes result) ∧
        ∀ value, Holds s.limits bytes value → ∀ l ∈ Archive.entries value, ∀ values,
          Archive.members l.results = .ok values → ∀ v ∈ values,
            (∀ i, ¬ Denotes s.limits.scores v i) → ShowsNone s settings path f world result) ∧
    (¬ LogOpens s settings (.show path) f →
      (∃ e, result.ending = .failed (.log (.files e))) ∧ result.output = "" ∧
        result.errors = "" ∧ result.world = world) := by
  intro result
  have hlevel := (Settings.read_eq_ok_iff.1 hread).2.level
  constructor
  · intro hopens
    obtain ⟨sink, between, hlog⟩ := Log.configure_of_opens (r := logRequest settings (.show path))
      hlevel rfl (name_ne_empty _) hopens
    have hbetween := Log.read_of_configure hlog hfile
    have hnone := showsNone_iff hlog hbetween world
    refine ⟨sink, between, hlog, showsAll_iff hlog hbetween world, hnone, ?_, ?_⟩
    · intro hnotall hnotnone
      have hloadable : Loadable s.limits bytes := by
        by_contra hloadable
        exact hnotnone (hnone.2 (.inl hloadable))
      obtain ⟨saved, hloads⟩ := Archive.loadable_iff.1 hloadable
      rcases showsAll_or_showsPart hlog hbetween hloads world with ⟨-, hall⟩ | ⟨-, hpart⟩
      · exact absurd hall hnotall
      · exact hpart
    · intro value hholds l hl values hvalues v hv hitem
      exact hnone.2 (.inl (Archive.not_loadable_of_mem hholds hl hvalues hv hitem))
  · intro hopens
    obtain ⟨e, between, hrun⟩ := runTask_of_not_logOpens hlevel hopens world
    have hstopped : result = stopped s (.failed (.log (.files e))) between world := hrun
    rw [hstopped]
    exact ⟨⟨e, rfl⟩, rfl, rfl, rfl⟩

/-! ## A good search with and without a bad one behind it -/

def savedPath : Path := ⟨"", ["s.json"]⟩

def savedFiles (bytes : List UInt8) : Files :=
  ⟨[], [(savedPath.names, .file bytes)]⟩

/-- A search with one item. -/
def goodText : String :=
  "\x7b\"query\": \"x\", \"results\": [" ++
    "\x7b\"server\": \"s\", \"group\": \"g\", \"article\": 7, \"score\": \"90\"\x7d]\x7d"

/-- A search whose only item is none. -/
def badText : String := "\x7b\"results\": [5]\x7d"

/-- A search with a nested query. -/
def deepText : String := "\x7b\"query\": [[1]], \"results\": []\x7d"

def listBytes (texts : List String) : List UInt8 :=
  Text.Utf8.encode ("[" ++ Text.commaSeparated texts ++ "]").toList

theorem read_savedFiles (bytes : List UInt8) : (savedFiles bytes).read savedPath = .ok bytes := rfl

/-- The files once the directory of the log has been made. -/
def loggedFiles (bytes : List UInt8) : Files :=
  ⟨[], [(["s.json"], .file bytes), (["taken"], .directory), (["taken", "show"], .directory)]⟩

theorem logOpens_savedFiles (bytes : List UInt8) :
    LogOpens scripted loggingSettings (.show savedPath) (savedFiles bytes) := by
  intro _
  have hpath : (Log.filePath scripted.now loggingSettings.log.dir "show").straight [] =
      ⟨"/", ["taken", "show", "show_0102030405.log"]⟩ := by decide +kernel
  have happended : (loggedFiles bytes).append
      ((Log.filePath scripted.now loggingSettings.log.dir "show").straight []) [] =
        .ok ((loggedFiles bytes).put ["taken", "show", "show_0102030405.log"] (.file [])) := by
    rw [hpath]
    rfl
  exact ⟨loggedFiles bytes, _, rfl, happended⟩

theorem not_loadable_spoilt : ¬ Loadable scripted.limits (listBytes [goodText, badText]) := by
  decide +kernel

theorem show_all_or_none_spoilt :
    let good := listBytes [goodText]
    let spoilt := listBytes [goodText, badText]
    Settings.read ⟨[]⟩ loggingSection = .ok loggingSettings ∧
    (∀ bytes, (savedFiles bytes).read savedPath = .ok bytes ∧
      LogOpens scripted loggingSettings (.show savedPath) (savedFiles bytes)) ∧
    ∀ world,
      ShowsAll scripted loggingSettings savedPath (savedFiles good) world good
        (runTask scripted loggingSettings (.show savedPath) (savedFiles good) world) ∧
      ShowsNone scripted loggingSettings savedPath (savedFiles spoilt) world
        (runTask scripted loggingSettings (.show savedPath) (savedFiles spoilt) world) := by
  intro good spoilt
  refine ⟨read_loggingSection, fun bytes => ⟨read_savedFiles bytes, logOpens_savedFiles bytes⟩,
    fun world => ?_⟩
  obtain ⟨hgood, -⟩ := show_all_or_none read_loggingSection (read_savedFiles good) scripted world
  obtain ⟨hspoilt, -⟩ :=
    show_all_or_none read_loggingSection (read_savedFiles spoilt) scripted world
  obtain ⟨sink, between, -, hall, -⟩ := hgood (logOpens_savedFiles good)
  obtain ⟨_, _, -, -, hnone, -⟩ := hspoilt (logOpens_savedFiles spoilt)
  refine ⟨hall.2 ?_, hnone.2 (.inl not_loadable_spoilt)⟩
  have hgives : ∀ notes, (Archive.ofBytes scripted.limits good).toOption.any
      (fun saved => decide (∀ e ∈ saved, Showable scripted.limits notes e)) = true := by
    decide +kernel
  obtain ⟨saved, hloads, hsaved⟩ := Archive.any_ofBytes_iff.1 (hgives (takesNotes sink))
  exact ⟨saved, hloads, of_decide_eq_true hsaved⟩

/-- The bad one again, with a file where the directory of the log should be. -/
def blockedFiles : Files :=
  ⟨[], (savedPath.names, .file (listBytes [goodText, badText])) :: takenFiles.entries⟩

/-- A stack on which queries become text only if they are hardly nested. -/
def shallow : Setting Engine.Script :=
  { scripted with
    limits :=
      { json := 8, scores := 8, queries := 2, items := 8, yaml := 8, overlap := 8
        savedSearches := by decide } }

/--
Showing can do neither: without its log, where it is neither done nor aborted though the file cannot
be loaded, and with a query nested too deep behind a search that is shown.
-/
theorem show_neither :
    Settings.read ⟨[]⟩ loggingSection = .ok loggingSettings ∧
    (∀ world,
      let spoilt := listBytes [goodText, badText]
      let result := runTask scripted loggingSettings (.show savedPath) blockedFiles world
      blockedFiles.read savedPath = .ok spoilt ∧ ¬ Loadable scripted.limits spoilt ∧
      result.ending = .failed (.log (.files (.failed .notDirectory ⟨"", ["taken", "show"]⟩))) ∧
      ¬ ShowsAll scripted loggingSettings savedPath blockedFiles world spoilt result ∧
      ¬ ShowsNone scripted loggingSettings savedPath blockedFiles world result) ∧
    ∀ world,
      let deep := listBytes [goodText, deepText]
      let files := savedFiles deep
      let result := runTask shallow loggingSettings (.show savedPath) files world
      files.read savedPath = .ok deep ∧ Loadable shallow.limits deep ∧
      result.ending = .exit abortCode ∧
      ¬ ShowsAll shallow loggingSettings savedPath files world deep result ∧
      ¬ ShowsNone shallow loggingSettings savedPath files world result := by
  refine ⟨read_loggingSection, fun world => ?_, fun world => ?_⟩
  · intro spoilt result
    have hending : result.ending =
        .failed (.log (.files (.failed .notDirectory ⟨"", ["taken", "show"]⟩))) := rfl
    refine ⟨rfl, not_loadable_spoilt, hending, fun hall => ?_, fun hnone => ?_⟩
    · cases hending.symm.trans hall.ending
    · cases hending.symm.trans hnone.ending
  · intro deep files result
    have hlog : Log.configure shallow.now (logRequest loggingSettings (.show savedPath)) files =
        (.ok ⟨Log.infoLevel, some (Log.filePath shallow.now "taken" "show")⟩,
          (loggedFiles deep).put ["taken", "show", "show_0102030405.log"] (.file [])) := by
      decide +kernel
    have hread := Log.read_of_configure hlog (read_savedFiles deep)
    have hgives : (Archive.ofBytes shallow.limits deep).toOption.any (fun saved =>
        saved.head?.any (fun first => decide (Named shallow.limits true first.query)) &&
          decide (¬ ∀ e ∈ saved, Showable shallow.limits true e)) = true := by
      decide +kernel
    obtain ⟨saved, hloads, hsaved⟩ := Archive.any_ofBytes_iff.1 hgives
    obtain ⟨hfirst, hsome⟩ := Bool.and_eq_true_iff.1 hsaved
    obtain ⟨first, hhead, hnamed⟩ := (Option.any_eq_true _ _).1 hfirst
    obtain ⟨rest, rfl⟩ := List.head?_eq_some_iff.1 hhead
    have hloadable := Archive.loadable_iff.2 ⟨_, hloads⟩
    rcases showsAll_or_showsPart hlog hread hloads world with ⟨hall, -⟩ | ⟨-, hpart⟩
    · exact absurd hall (of_decide_eq_true hsome)
    · exact ⟨rfl, hloadable, hpart.ending, not_showsAll_of_aborted hpart.ending,
        hpart.not_showsNone hloads (of_decide_eq_true hnamed)⟩

end IndexedMail.CommandLine
