import IndexedMail.Archive.Entry
import IndexedMail.Archive.Reader
import IndexedMail.Proofs.Json.RoundTrip
import IndexedMail.Proofs.Text.Lines
import IndexedMail.Proofs.Text.Utf8
import Mathlib.Data.List.Nodup

/-!
# Searches that are restored from their text

What is written for searches is read as those searches, query for query and item for item, if
their article numbers can be written at all.
-/

namespace IndexedMail

open Text.Numeral (writableBound)

namespace Json

theorem areWritable_iff {items : List Json} :
    areWritable items = true ↔ ∀ item ∈ items, item.isWritable = true := by
  induction items with
  | nil => simp [areWritable]
  | cons item rest ih => simp [areWritable, ih]

end Json

namespace Archive

/-- A search with what came of it. -/
structure Search where
  query : String
  hits : List Hit
  errors : List String

namespace Search

def report (s : Search) : Report :=
  { items := s.hits.map Hit.item, errors := s.errors }

def entry (s : Search) : Entry :=
  { query := s.query, report := s.report }

def saved (s : Search) : Saved :=
  { query := .string s.query, items := s.hits.map Hit.item }

/-- All article numbers can be written. -/
def Writable (s : Search) : Prop :=
  ∀ h ∈ s.hits, h.article.natAbs < writableBound

end Search

def value (searches : List Search) : Json :=
  .array (searches.map fun s => s.entry.json)

/-! ## Writing searches -/

theorem isWritable_itemJson (h : Hit) :
    (itemJson h.item).isWritable = true ↔ h.article.natAbs < writableBound := by
  simp [itemJson, Hit.item, Json.isWritable, Json.membersWritable]

theorem isWritable_entry (s : Search) : s.entry.json.isWritable = true ↔ s.Writable := by
  have herrors :
      Json.areWritable (s.errors.map fun error : String => Json.string error) = true := by
    rw [Json.areWritable_iff]
    intro item hitem
    obtain ⟨e, -, rfl⟩ := List.mem_map.1 hitem
    rfl
  have hitems : Json.areWritable ((s.hits.map Hit.item).map itemJson) = true ↔ s.Writable := by
    rw [Json.areWritable_iff, List.map_map, List.forall_mem_map]
    exact forall₂_congr fun h _ => isWritable_itemJson h
  simp [Search.entry, Search.report, Entry.json, Json.isWritable, Json.membersWritable, herrors,
    ← hitems]

theorem isWritable_value (searches : List Search) :
    (value searches).isWritable = true ↔ ∀ s ∈ searches, s.Writable := by
  rw [value, Json.isWritable, Json.areWritable_iff, List.forall_mem_map]
  exact forall₂_congr fun s _ => isWritable_entry s

theorem text_eq (searches : List Search) :
    text (searches.map Search.entry) = (value searches).write := by
  rw [text, List.map_map]
  rfl

/-! ## Reading them back -/

theorem restorable_itemJson {h : Hit} (hwritable : h.article.natAbs < writableBound)
    (levels : Nat) : Json.Restorable (levels + 1) (itemJson h.item) := by
  refine .object ?_ ?_ ?_
  · change (["server", "group", "article", "score"].map Text.wide).Nodup
    exact List.Nodup.map Text.wide_injective (by decide)
  · simp only [List.forall_mem_cons]
    exact ⟨⟨_, rfl⟩, ⟨_, rfl⟩, ⟨_, rfl⟩, ⟨_, rfl⟩, fun _ hm => absurd hm List.not_mem_nil⟩
  · simp only [List.forall_mem_cons]
    exact ⟨.string _, .string _, .int hwritable, .string _, fun _ hm => absurd hm List.not_mem_nil⟩

theorem restorable_entry {s : Search} (h : s.Writable) (levels : Nat) :
    Json.Restorable (levels + 3) s.entry.json := by
  have herrors : Json.Restorable (levels + 2)
      (.array (s.errors.map fun error : String => .string error)) := by
    refine .array ?_
    rw [List.forall_mem_map]
    exact fun e _ => .string e
  have hitems : Json.Restorable (levels + 2) (.array ((s.hits.map Hit.item).map itemJson)) := by
    refine .array ?_
    rw [List.map_map, List.forall_mem_map]
    exact fun hit hhit => restorable_itemJson (h hit hhit) levels
  refine .object ?_ ?_ ?_
  · change (["query", "errors", "results"].map Text.wide).Nodup
    exact List.Nodup.map Text.wide_injective (by decide)
  · simp only [List.forall_mem_cons]
    exact ⟨⟨_, rfl⟩, ⟨_, rfl⟩, ⟨_, rfl⟩, fun _ hm => absurd hm List.not_mem_nil⟩
  · simp only [List.forall_mem_cons]
    exact ⟨.string _, herrors, hitems, fun _ hm => absurd hm List.not_mem_nil⟩

/-- Searches have few enough levels to be read under any limits. -/
theorem restorable_value {searches : List Search} (h : ∀ s ∈ searches, s.Writable)
    (limits : Limits) : Json.Restorable limits.json (value searches) := by
  have hlevels := limits.savedSearches
  obtain ⟨levels, hjson⟩ : ∃ n, limits.json = n + 4 := ⟨limits.json - 4, by omega⟩
  rw [hjson]
  refine .array ?_
  rw [List.forall_mem_map]
  exact fun s hs => restorable_entry (h s hs) levels

section Reading

variable (levels : Nat)

theorem items_itemJson (hits : List Hit) :
    items levels ((hits.map Hit.item).map itemJson) = .ok (hits.map Hit.item) := by
  induction hits with
  | nil => rfl
  | cons h rest ih =>
      have hitem : item levels (itemJson h.item) = .ok h.item := rfl
      rw [List.map_cons, List.map_cons, items, hitem, ih]
      rfl

theorem saved?_entry (s : Search) : saved? levels s.entry.json = .ok (some s.saved) := by
  have hresults : Json.member? [("query", .string s.query),
      ("errors", .array (s.errors.map fun error : String => .string error)),
      ("results", .array ((s.hits.map Hit.item).map itemJson))] "results" =
        some (.array ((s.hits.map Hit.item).map itemJson)) := rfl
  have hfound : (members (.array ((s.hits.map Hit.item).map itemJson))).bind (items levels) =
      .ok (s.hits.map Hit.item) := items_itemJson levels s.hits
  simp only [Search.entry, Search.report, Entry.json, saved?, hresults, hfound]
  rfl

theorem savedQueries_value (searches : List Search) :
    savedQueries levels (value searches) = .ok (searches.map Search.saved) := by
  rw [value, savedQueries]
  induction searches with
  | nil => rfl
  | cons s rest ih =>
      rw [List.map_cons, savedItems, saved?_entry, ih]
      rfl

end Reading

/-- The characters that are written for searches. -/
def written (searches : List Search) : List Char :=
  Json.charsAt 0 (value searches)

theorem text_of_writable {searches : List Search} (h : ∀ s ∈ searches, s.Writable) :
    text (searches.map Search.entry) = .ok ((written searches).map .char) := by
  have hvalue := restorable_value h Limits.ofThousand
  rw [text_eq, Json.write, if_pos ((isWritable_value searches).2 h), hvalue.render_eq]
  rfl

theorem text_of_not_writable {searches : List Search} (h : ¬ ∀ s ∈ searches, s.Writable) :
    text (searches.map Search.entry) = .error .tooLarge := by
  rw [text_eq, Json.write, if_neg fun hwritable => h ((isWritable_value searches).1 hwritable)]

theorem ofBytes_written {searches : List Search} (h : ∀ s ∈ searches, s.Writable)
    (limits : Limits) :
    ofBytes limits (Text.Utf8.encode (written searches)) = .ok (searches.map Search.saved) := by
  have hvalue := restorable_value h limits
  have hbreaks : Text.foldLineBreaks (written searches) = written searches :=
    Text.foldLineBreaks_of_not_mem hvalue.not_mem_charsAt
  have hread : Json.read limits.json (written searches) = .ok (value searches) :=
    Json.read_charsAt hvalue
  simp only [ofBytes, Text.Utf8.decode_encode, hbreaks, ofText, hread, savedQueries_value]

end Archive

end IndexedMail
