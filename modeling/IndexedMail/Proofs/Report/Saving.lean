import IndexedMail.CommandLine.Action
import IndexedMail.Proofs.Archive.Restoring
import IndexedMail.Proofs.Files.Keeping

/-!
# Saved searches that are loaded again

A file that a writer has saved holds all searches that were given to it until then, and loading it
gives them back in their order, whether or not the writer has saved before.
-/

namespace IndexedMail.Report.Writer

open Archive (Search)
open Files (Storable)

/-! ## Calls of a writer -/

inductive Call where
  | write (s : Search)
  | finish (now : Calendar.Moment) (action : String)

def given (calls : List Call) : List Search :=
  calls.filterMap fun
    | .write s => some s
    | .finish _ _ => none

section Save

variable {searches : List Search} (now : Calendar.Moment) (action : String) (dir : Path)
  (f : Files)

/-- Searches that can be written are saved exactly if their file can be stored. -/
theorem save_of_writable (h : ∀ s ∈ searches, s.Writable) :
    let stored := f.store dir (savePath now dir action)
      (Text.Utf8.encode (Archive.written searches))
    save now action dir (searches.map Search.entry) f =
      (stored.1.mapError SaveError.files, stored.2) := by
  intro stored
  have hstored : f.store dir (savePath now dir action)
      (Text.Utf8.encode (Archive.written searches)) = stored := rfl
  simp only [save, Archive.text_of_writable h, Text.Wide.encode_map_char, hstored]
  obtain ⟨outcome, after⟩ := stored
  cases outcome <;> rfl

theorem save_of_not_writable (h : ¬ ∀ s ∈ searches, s.Writable) :
    save now action dir (searches.map Search.entry) f = (.error (.numeral .tooLarge), f) := by
  simp only [save, Archive.text_of_not_writable h]

theorem finish_file (entries : List Archive.Entry) :
    let saved := save now action dir entries f
    let answer := finish now action [file dir entries] f
    (answer.1 = none ↔ saved.1 = .ok ()) ∧ (∀ e, answer.1 = some e ↔ saved.1 = .error e) ∧
      answer.2.2 = saved.2 := by
  intro saved answer
  have hsaved : save now action dir entries f = saved := rfl
  have hanswer : answer = finish now action [file dir entries] f := rfl
  simp only [finish, hsaved] at hanswer
  obtain ⟨outcome, after⟩ := saved
  cases outcome <;> simp [hanswer]

end Save

theorem save_eq_ok_iff {searches : List Search} {now : Calendar.Moment} {action : String}
    {dir : Path} {f : Files} :
    (save now action dir (searches.map Search.entry) f).1 = .ok () ↔
      (∀ s ∈ searches, s.Writable) ∧ Storable dir (savePath now dir action) f := by
  rw [← Files.store_eq_ok_iff (Text.Utf8.encode (Archive.written searches))]
  by_cases hwritable : ∀ s ∈ searches, s.Writable
  · rw [save_of_writable now action dir f hwritable]
    rw [and_iff_right hwritable]
    cases hstored : (f.store dir (savePath now dir action)
      (Text.Utf8.encode (Archive.written searches))).1 <;> simp [Except.mapError]
  · simp [save_of_not_writable now action dir f hwritable, hwritable]

/-! ## Texts that cannot be encoded -/

theorem mem_renderItems {p : Text.Point} {item : Json} {items : List Json} (hitem : item ∈ items)
    {level : Nat} (h : p ∈ Json.renderAt (level + 1) item) : p ∈ Json.renderItems level items := by
  induction items with
  | nil => cases hitem
  | cons first rest ih =>
      rw [Json.renderItems]
      simp only [List.mem_append]
      rcases List.mem_cons.1 hitem with rfl | hrest
      · exact .inr (.inl (.inr h))
      · exact .inr (.inr (ih hrest))

theorem mem_renderAt_array {p : Text.Point} {item : Json} {items : List Json}
    (hitem : item ∈ items) {level : Nat} (h : p ∈ Json.renderAt (level + 1) item) :
    p ∈ Json.renderAt level (.array items) := by
  cases items with
  | nil => cases hitem
  | cons first rest =>
      rw [Json.renderAt]
      simp only [List.mem_append]
      rcases List.mem_cons.1 hitem with rfl | hrest
      · exact .inr (.inl (.inr h))
      · exact .inr (.inr (mem_renderItems hrest h))

/-- A half in a query stands as it is in the text of its entry. -/
theorem half_mem_renderAt_entry {n : Fin 2048} {e : Archive.Entry}
    (h : Text.Point.half n ∈ e.query) (level : Nat) :
    Text.Point.half n ∈ Json.renderAt level e.json := by
  have hliteral : Text.Point.half n ∈ Json.renderAt (level + 1) (.string e.query) := by
    simp only [Json.renderAt, Json.renderString, List.mem_cons, List.mem_append]
    refine .inr (.inl (List.mem_flatMap.2 ⟨_, h, ?_⟩))
    exact List.mem_singleton_self _
  simp only [Archive.Entry.json, Json.renderAt, List.mem_append]
  exact .inr (.inr (.inl hliteral))

/--
Entries of which one has a half in its query are not saved, and if their file can be stored it is
left empty.
-/
theorem save_of_half {entries : List Archive.Entry} {e : Archive.Entry} (he : e ∈ entries)
    (hquery : ∀ s : String, e.query ≠ s) {text : Text.Wide}
    (htext : Archive.text entries = .ok text) (now : Calendar.Moment) (action : String)
    {dir : Path} {f : Files}
    (hstorable : Storable dir (savePath now dir action) f) :
    ∃ fault, (save now action dir entries f).1 = .error (.encoding fault) ∧
      (save now action dir entries f).2.read (savePath now dir action) = .ok [] := by
  obtain ⟨n, hn⟩ := Text.exists_half_mem hquery
  have hrender : text = Json.renderAt 0 (.array (entries.map Archive.Entry.json)) := by
    unfold Archive.text Json.write at htext
    split at htext
    · exact (Except.ok.inj htext).symm
    · cases htext
  have hmem : Text.Point.half n ∈ text := by
    rw [hrender]
    exact mem_renderAt_array (List.mem_map_of_mem he) (half_mem_renderAt_entry hn 1)
  obtain ⟨fault, hfault⟩ := Text.Wide.exists_encode_error hmem
  have hstored := (Files.store_eq_ok_iff []).2 hstorable
  have hread := Files.read_of_store hstored
  refine ⟨fault, ?_⟩
  simp only [save, htext, hfault]
  cases houtcome : f.store dir (savePath now dir action) [] with
  | mk outcome after =>
      rw [houtcome] at hstored hread
      cases hstored
      exact ⟨rfl, hread⟩

/-! ## Loading -/

theorem load_of_save {searches : List Search} {now : Calendar.Moment} {action : String}
    {dir : Path} {f : Files} (h : (save now action dir (searches.map Search.entry) f).1 = .ok ())
    (limits : Limits) :
    Archive.load limits (save now action dir (searches.map Search.entry) f).2
        (savePath now dir action) = .ok (searches.map Search.saved) := by
  obtain ⟨hwritable, hstorable⟩ := save_eq_ok_iff.1 h
  have hstored :=
    (Files.store_eq_ok_iff (Text.Utf8.encode (Archive.written searches))).2 hstorable
  rw [save_of_writable now action dir f hwritable, Archive.load, Files.read_of_store hstored]
  exact Archive.ofBytes_written hwritable limits

end IndexedMail.Report.Writer
