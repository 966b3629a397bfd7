import IndexedMail.Proofs.Log.Filing
import IndexedMail.Proofs.Report.Saving
import IndexedMail.Proofs.Service.Answering

/-!
# Finishing the writers of one report

When all writers that settings ask for have taken one report, finishing them saves the report alone
and changes no other file, or else changes none.
-/

namespace IndexedMail.Report.Writer

open Archive (Search)
open Files (Keeps Storable)

/-- A report is all that a file holds, and no other file has changed but excepted ones. -/
structure Saved (excepted : Files.Place → Prop) (path : Path) (query : String) (report : Report)
    (f g : Files) : Prop where
  alone : ∃ place, ¬ excepted place ∧ g.resolve path = .ok place ∧
    Keeps (fun q => excepted q ∨ q = place) f g
  content : ∃ text, g.read path = .ok (Text.Utf8.encode text) ∧
    ∀ limits : Limits, Json.read limits.json text =
      .ok (.array [(⟨query, report⟩ : Archive.Entry).json])
  loaded : ∀ limits, Archive.load limits g path = .ok [⟨.string query, report.items⟩]

namespace Saved

variable {excepted : Files.Place → Prop} {path : Path} {query : String} {report : Report}
  {f g h : Files}

/-- What is saved stays saved as long as only excepted files are changed. -/
theorem keep (saved : Saved excepted path query report f g) (hkeeps : Keeps excepted g h) :
    Saved excepted path query report f h := by
  obtain ⟨place, hplace, hway, halone⟩ := saved.alone
  obtain ⟨text, hread, hjson⟩ := saved.content
  have hread' := hkeeps.read hway hplace hread
  have hload : ∀ limits, Archive.load limits h path = Archive.load limits g path := by
    intro limits
    simp only [Archive.load, hread, hread']
  refine ⟨⟨place, hplace, hkeeps.ways path place hway, ?_⟩, ⟨text, hread', hjson⟩, ?_⟩
  · exact halone.trans (hkeeps.mono fun q hq => .inl hq)
  · exact fun limits => (hload limits).trans (saved.loaded limits)

theorem since (saved : Saved excepted path query report g h) (hkeeps : Keeps excepted f g) :
    Saved excepted path query report f h := by
  obtain ⟨place, hplace, hway, halone⟩ := saved.alone
  refine ⟨⟨place, hplace, hway, ?_⟩, saved.content, saved.loaded⟩
  exact (hkeeps.mono fun q hq => .inl hq).trans halone

end Saved

variable {now : Calendar.Moment} {action : String} {dir : Path} {f : Files}
  {excepted : Files.Place → Prop}

/-! ## One search -/

theorem writable_singleton {s : Search} (h : s.Writable) : ∀ t ∈ [s], t.Writable := by
  intro t ht
  obtain rfl := List.mem_singleton.1 ht
  exact h

/-- Saving one search with numbers that can be written needs nothing but the file. -/
theorem saved_of_storable {s : Search} (hwritable : s.Writable)
    (hstorable : Storable dir (savePath now dir action) f)
    (hexcepted : ∀ (g : Files) place,
      g.resolve (savePath now dir action) = .ok place → ¬ excepted place) :
    (save now action dir [s.entry] f).1 = .ok () ∧
      Saved excepted (savePath now dir action) s.query s.report f
        (save now action dir [s.entry] f).2 := by
  have hall := writable_singleton hwritable
  have hstored :=
    (Files.store_eq_ok_iff (Text.Utf8.encode (Archive.written [s]))).2 hstorable
  have hsaved : (save now action dir [s.entry] f).1 = .ok () :=
    (@save_eq_ok_iff [s] now action dir f).2 ⟨hall, hstorable⟩
  have hfiles : (save now action dir [s.entry] f).2 =
      (f.store dir (savePath now dir action) (Text.Utf8.encode (Archive.written [s]))).2 :=
    congrArg Prod.snd (@save_of_writable [s] now action dir f hall)
  have hloaded := @load_of_save [s] now action dir f hsaved
  obtain ⟨place, hway, hkeeps⟩ := Files.keeps_of_store hstored
  have hread := Files.read_of_store hstored
  rw [← hfiles] at hway hkeeps hread
  refine ⟨hsaved, ⟨place, hexcepted _ place hway, hway, ?_⟩, ?_, hloaded⟩
  · exact hkeeps.mono fun q hq => .inr hq
  · refine ⟨Archive.written [s], hread, fun limits => ?_⟩
    exact Json.read_charsAt (Archive.restorable_value hall limits)

theorem keeps_of_not_storable (excepted : Files.Place → Prop) {s : Search} (hwritable : s.Writable)
    (hstorable : ¬ Storable dir (savePath now dir action) f) :
    (∃ e, (save now action dir [s.entry] f).1 = .error e) ∧
      Keeps excepted f (save now action dir [s.entry] f).2 := by
  have hall := writable_singleton hwritable
  have hsave := save_of_writable now action dir f hall
  obtain ⟨e, he⟩ : ∃ e, (f.store dir (savePath now dir action)
      (Text.Utf8.encode (Archive.written [s]))).1 = .error e := by
    cases hstored : (f.store dir (savePath now dir action)
      (Text.Utf8.encode (Archive.written [s]))).1 with
    | error e => exact ⟨e, rfl⟩
    | ok stored => exact absurd ((Files.store_eq_ok_iff _).1 hstored) hstorable
  have hkeeps := Files.keeps_of_store_error excepted he
  simp only [List.map_cons, List.map_nil] at hsave
  rw [hsave]
  exact ⟨⟨.files e, by rw [he]; rfl⟩, hkeeps⟩

/-! ## All writers -/

/-- Of the writers for formats only that of files has anything to finish. -/
theorem finish_takeAll (formats : List String) (baseDir : String) (query : Text.Wide)
    (report : Report) :
    let writers := (takeAll query report (ofFormats formats baseDir)).1
    finish now action writers f =
      if "json" ∈ formats then
        finish now action [file (saveDir baseDir) [⟨query, report⟩]] f
      else (none, [], f) := by
  unfold takeAll ofFormats
  by_cases hconsole : "console" ∈ formats <;> by_cases hjson : "json" ∈ formats <;>
    simp [hconsole, hjson, take, finish]

/-- If there is a file to be saved, it can be stored. -/
def Saveable (now : Calendar.Moment) (action : String) (formats : List String) (baseDir : String)
    (f : Files) : Prop :=
  "json" ∈ formats → Storable (saveDir baseDir) (savePath now (saveDir baseDir) action) f

theorem exists_search_of_areHits (query : String) {report : Report}
    (h : Service.AreHits report.items) :
    ∃ s : Search, s.Writable ∧ s.entry = ⟨query, report⟩ := by
  obtain ⟨hits, hitems, hsound⟩ := h
  obtain ⟨items, errors⟩ := report
  obtain rfl : items = hits.map Hit.item := hitems
  exact ⟨⟨query, hits, errors⟩, fun h hh => (hsound h hh).article, rfl⟩

section Finish

variable {formats : List String} {baseDir : String} {report : Report}

theorem finish_of_saveable (query : String) (hhits : Service.AreHits report.items)
    (hsaveable : Saveable now action formats baseDir f)
    (hexcepted : ∀ (g : Files) place,
      g.resolve (savePath now (saveDir baseDir) action) = .ok place → ¬ excepted place) :
    let finished := finish now action (takeAll query report (ofFormats formats baseDir)).1 f
    finished.1 = none ∧
      ("json" ∈ formats → Saved excepted (savePath now (saveDir baseDir) action) query report f
        finished.2.2) ∧
      ("json" ∉ formats → finished.2.2 = f) := by
  intro finished
  have hfinished : finished = _ := finish_takeAll formats baseDir query report
  by_cases hjson : "json" ∈ formats
  · obtain ⟨s, hwritable, hentry⟩ := exists_search_of_areHits query hhits
    obtain ⟨hok, hsaved⟩ := saved_of_storable hwritable (hsaveable hjson) hexcepted
    obtain ⟨hnone, -, hfiles⟩ := finish_file now action (saveDir baseDir) f [s.entry]
    have hreport : s.report = report := congrArg Archive.Entry.report hentry
    have hquery : s.query = query :=
      Text.wide_injective (congrArg Archive.Entry.query hentry)
    rw [if_pos hjson, ← hentry] at hfinished
    rw [← hfinished] at hnone hfiles
    rw [← hfiles, hreport, hquery] at hsaved
    exact ⟨hnone.2 hok, fun _ => hsaved, fun hnot => absurd hjson hnot⟩
  · rw [if_neg hjson] at hfinished
    rw [hfinished]
    exact ⟨rfl, fun h => absurd h hjson, fun _ => rfl⟩

theorem finish_of_not_saveable (query : String) (excepted : Files.Place → Prop)
    (hhits : Service.AreHits report.items)
    (hsaveable : ¬ Saveable now action formats baseDir f) :
    let finished := finish now action (takeAll query report (ofFormats formats baseDir)).1 f
    (∃ e, finished.1 = some e) ∧ Keeps excepted f finished.2.2 := by
  intro finished
  have hfinished : finished = _ := finish_takeAll formats baseDir query report
  obtain ⟨hjson, hstorable⟩ := Classical.not_imp.1 hsaveable
  obtain ⟨s, hwritable, hentry⟩ := exists_search_of_areHits query hhits
  obtain ⟨⟨e, he⟩, hkeeps⟩ := keeps_of_not_storable excepted hwritable hstorable
  obtain ⟨-, hsome, hfiles⟩ := finish_file now action (saveDir baseDir) f [s.entry]
  rw [if_pos hjson, ← hentry] at hfinished
  rw [← hfinished] at hsome hfiles
  rw [← hfiles] at hkeeps
  exact ⟨⟨e, (hsome e).2 he⟩, hkeeps⟩

end Finish

/-- A saved file is named for its action and the time. -/
theorem getLast?_savePath (now : Calendar.Moment) (dir : Path) {action : String}
    (haction : '/' ∉ action.toList) :
    (savePath now dir action).names.getLast? =
      some (action ++ "_" ++ fileStamp now ++ ".json") := by
  have hstamp : ∀ width n, '/' ∉ (Calendar.padded width n).toList :=
    Calendar.not_mem_padded (by decide)
  exact Path.getLast?_child_append (by simp [fileStamp, haction, hstamp]) (by decide) (by decide) _

end IndexedMail.Report.Writer
