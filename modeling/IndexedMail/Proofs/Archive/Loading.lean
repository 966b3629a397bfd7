import IndexedMail.Archive.Reader
import IndexedMail.Proofs.Settings.Checks
import Mathlib.Data.List.Forall2

/-!
# What a file of saved searches holds

The entries with results in a file are loaded one for one, in their order, and each with its items
one for one.  A file is loaded exactly if it is JSON and every item of every such entry is an object
with the fields of an item; one item that is not, wherever it stands, leaves nothing to be loaded.
How deep values may be nested is a matter of the limits under which a file is loaded.
-/

namespace IndexedMail.Archive

/-! ## Items -/

/--
An object has the fields of an item, among them a whole number for its article and a score that
becomes text.
-/
structure HasFields (levels : Nat) (fields : List (Text.Wide × Json)) (i : Item) : Prop where
  server : Json.member? fields "server" = some i.server
  group : Json.member? fields "group" = some i.group
  article : ∃ number n, Json.member? fields "article" = some number ∧ number.whole = .ok n ∧
    i.article = .int n
  score : ∃ score text, Json.member? fields "score" = some score ∧
    score.textWithin levels = .ok text ∧ i.score = .string text

/-- A value is an object that stands for an item. -/
def Denotes (levels : Nat) (value : Json) (i : Item) : Prop :=
  ∃ fields, value = .object fields ∧ HasFields levels fields i

variable {levels : Nat}

theorem field_object {fields : List (Text.Wide × Json)} {name : String} {v : Json} :
    field (.object fields) name = .ok v ↔ Json.member? fields name = some v := by
  cases hmember : Json.member? fields name <;> simp [field, hmember]

theorem article_eq_ok_iff {number : Json} {n : Int} :
    article number = .ok n ↔ number.whole = .ok n := by
  unfold article
  cases number.whole <;> simp

theorem score_eq_ok_iff {value : Json} {text : Text.Wide} :
    score levels value = .ok text ↔ value.textWithin levels = .ok text := by
  unfold score
  cases value.textWithin levels <;> simp

theorem item_eq_ok_iff {value : Json} {i : Item} :
    item levels value = .ok i ↔ Denotes levels value i := by
  constructor
  · intro h
    cases value with
    | object fields =>
        obtain ⟨server, hserver, h⟩ := Settings.exists_of_bind_eq_ok h
        obtain ⟨group, hgroup, h⟩ := Settings.exists_of_bind_eq_ok h
        obtain ⟨n, hnumber, h⟩ := Settings.exists_of_bind_eq_ok h
        obtain ⟨text, htext, h⟩ := Settings.exists_of_bind_eq_ok h
        obtain ⟨number, hfield, hwhole⟩ := Settings.exists_of_bind_eq_ok hnumber
        obtain ⟨value, hscore, hwithin⟩ := Settings.exists_of_bind_eq_ok htext
        cases h
        refine ⟨fields, rfl, field_object.1 hserver, field_object.1 hgroup, ?_, ?_⟩
        · exact ⟨number, n, field_object.1 hfield, article_eq_ok_iff.1 hwhole, rfl⟩
        · exact ⟨value, text, field_object.1 hscore, score_eq_ok_iff.1 hwithin, rfl⟩
    | _ => cases h
  · rintro ⟨fields, rfl, h⟩
    obtain ⟨number, n, hfield, hwhole, harticle⟩ := h.article
    obtain ⟨value, text, hscore, hwithin, htext⟩ := h.score
    have hnumber : (field (.object fields) "article").bind article = .ok n := by
      rw [field_object.2 hfield]
      exact article_eq_ok_iff.2 hwhole
    have hshown : (field (.object fields) "score").bind (score levels) = .ok text := by
      rw [field_object.2 hscore]
      exact score_eq_ok_iff.2 hwithin
    rw [item, field_object.2 h.server, field_object.2 h.group, hnumber, hshown]
    obtain ⟨server, group, _, _⟩ := i
    obtain rfl : _ = Json.int n := harticle
    obtain rfl : _ = Json.string text := htext
    rfl

theorem items_eq_ok_iff {values : List Json} {found : List Item} :
    items levels values = .ok found ↔ List.Forall₂ (Denotes levels) values found := by
  induction values generalizing found with
  | nil => simp [items, eq_comm]
  | cons value rest ih =>
      rw [List.forall₂_cons_left_iff]
      simp only [← ih, ← item_eq_ok_iff]
      cases hitem : item levels value with
      | error d => simp [items, hitem]
      | ok i =>
          cases hrest : items levels rest with
          | error d => simp [items, hitem, hrest, Except.map]
          | ok others => simp [items, hitem, hrest, Except.map, eq_comm]

/-! ## Entries with results -/

/-- The query of an entry, if there is one, and the results from which its items are loaded. -/
structure Listed where
  query : Json
  results : Json

/-- What an object has for a query and for results; without results it is no entry. -/
def listed? : Json → Option Listed
  | .object fields =>
      (Json.member? fields "results").map fun results =>
        ⟨(Json.member? fields "query").getD (.string []), results⟩
  | _ => none

/-- The entries with results of a value, in order; only a list has any. -/
def entries : Json → List Listed
  | .array values => values.filterMap listed?
  | _ => []

/-- A saved search is that of an entry, with one item for each value among the results. -/
structure Listed.Gives (levels : Nat) (l : Listed) (s : Saved) : Prop where
  query : s.query = l.query
  items : ∃ values, members l.results = .ok values ∧ List.Forall₂ (Denotes levels) values s.items

/-- The saved search that is loaded from an entry. -/
def Listed.load (levels : Nat) (l : Listed) : Except Defect Saved :=
  ((members l.results).bind (items levels)).map fun found => ⟨l.query, found⟩

theorem load_eq_ok_iff {l : Listed} {s : Saved} : l.load levels = .ok s ↔ l.Gives levels s := by
  constructor
  · intro h
    unfold Listed.load at h
    cases hfound : (members l.results).bind (items levels) with
    | error d => simp [hfound, Except.map] at h
    | ok found =>
        obtain ⟨values, hvalues, hitems⟩ := Settings.exists_of_bind_eq_ok hfound
        simp only [hfound, Except.map, Except.ok.injEq] at h
        subst h
        exact ⟨rfl, values, hvalues, items_eq_ok_iff.1 hitems⟩
  · rintro ⟨hquery, values, hvalues, hitems⟩
    have hfound : (members l.results).bind (items levels) = .ok s.items := by
      rw [hvalues]
      exact items_eq_ok_iff.2 hitems
    rw [Listed.load, hfound, ← hquery]
    rfl

theorem saved?_of_none {value : Json} (h : listed? value = none) :
    saved? levels value = .ok none := by
  cases value with
  | object fields =>
      rw [listed?, Option.map_eq_none_iff] at h
      simp only [saved?, h]
  | _ => rfl

theorem saved?_of_some {value : Json} {l : Listed} (h : listed? value = some l) :
    saved? levels value = (l.load levels).map some := by
  cases value with
  | object fields =>
      obtain ⟨results, hresults, rfl⟩ := Option.map_eq_some_iff.1 h
      simp only [saved?, hresults, Listed.load]
      cases (members results).bind (items levels) <;> rfl
  | _ => cases h

theorem savedItems_eq_ok_iff {values : List Json} {saved : List Saved} :
    savedItems levels values = .ok saved ↔
      List.Forall₂ (Listed.Gives levels) (values.filterMap listed?) saved := by
  induction values generalizing saved with
  | nil => simp [savedItems, eq_comm]
  | cons value rest ih =>
      cases hlisted : listed? value with
      | none =>
          rw [List.filterMap_cons_none hlisted, ← ih]
          simp only [savedItems, saved?_of_none hlisted]
      | some l =>
          rw [List.filterMap_cons_some hlisted, List.forall₂_cons_left_iff]
          simp only [← ih, ← load_eq_ok_iff, savedItems, saved?_of_some hlisted]
          cases hload : l.load levels with
          | error d => simp [Except.map]
          | ok s => cases hrest : savedItems levels rest <;> simp [Except.map, eq_comm]

theorem savedQueries_eq_ok_iff {value : Json} {saved : List Saved} :
    savedQueries levels value = .ok saved ↔
      List.Forall₂ (Listed.Gives levels) (entries value) saved := by
  cases value with
  | array values => exact savedItems_eq_ok_iff
  | _ => simp [savedQueries, entries, eq_comm]

/-! ## Files -/

variable {limits : Limits} {bytes : List UInt8}

/-- The content of a file is text in UTF-8, and the text is the JSON of a value. -/
def Holds (limits : Limits) (bytes : List UInt8) (value : Json) : Prop :=
  ∃ cs, Text.Utf8.decode bytes = .ok cs ∧
    Json.read limits.json (Text.foldLineBreaks cs) = .ok value

/-- Everything that a file has to hold can be loaded: it is JSON, and each result is an item. -/
def Loadable (limits : Limits) (bytes : List UInt8) : Prop :=
  ∃ value, Holds limits bytes value ∧ ∀ l ∈ entries value,
    ∃ values, members l.results = .ok values ∧ ∀ v ∈ values, ∃ i, Denotes limits.scores v i

/-- The entries with results in a file are those of saved searches, one for one. -/
def Loads (limits : Limits) (bytes : List UInt8) (saved : List Saved) : Prop :=
  ∃ value, Holds limits bytes value ∧
    List.Forall₂ (Listed.Gives limits.scores) (entries value) saved

theorem Holds.unique {value other : Json} (h : Holds limits bytes value)
    (hother : Holds limits bytes other) : value = other := by
  obtain ⟨cs, hdecode, hread⟩ := h
  obtain ⟨ds, hdecode', hread'⟩ := hother
  obtain rfl : cs = ds := by simpa [hdecode] using hdecode'
  simpa [hread] using hread'

/-- A result that is no item leaves nothing to be loaded, in whatever entry it stands. -/
theorem not_loadable_of_mem {value : Json} {l : Listed} {values : List Json} {v : Json}
    (hholds : Holds limits bytes value) (hl : l ∈ entries value)
    (hvalues : members l.results = .ok values) (hv : v ∈ values)
    (hitem : ∀ i, ¬ Denotes limits.scores v i) : ¬ Loadable limits bytes := by
  rintro ⟨other, hother, hall⟩
  obtain rfl := hholds.unique hother
  obtain ⟨values', hvalues', hitems⟩ := hall l hl
  obtain rfl : values = values' := by simpa [hvalues] using hvalues'
  obtain ⟨i, hi⟩ := hitems v hv
  exact hitem i hi

theorem ofBytes_eq_ok_iff {saved : List Saved} :
    ofBytes limits bytes = .ok saved ↔ Loads limits bytes saved := by
  constructor
  · intro h
    unfold ofBytes at h
    split at h
    · cases h
    · rename_i cs hdecode
      unfold ofText at h
      split at h
      · cases h
      · rename_i value hread
        split at h
        · cases h
        · rename_i found hfound
          cases h
          exact ⟨value, ⟨cs, hdecode, hread⟩, savedQueries_eq_ok_iff.1 hfound⟩
  · rintro ⟨value, ⟨cs, hdecode, hread⟩, hgives⟩
    simp only [ofBytes, hdecode, ofText, hread, savedQueries_eq_ok_iff.2 hgives]

theorem Loads.unique {saved other : List Saved} (h : Loads limits bytes saved)
    (hother : Loads limits bytes other) : saved = other := by
  rw [← ofBytes_eq_ok_iff] at h hother
  simpa [h] using hother

theorem exists_forall₂_iff {α β : Type} {R : α → β → Prop} {xs : List α} :
    (∃ ys, List.Forall₂ R xs ys) ↔ ∀ x ∈ xs, ∃ y, R x y := by
  induction xs with
  | nil => simp
  | cons x rest ih =>
      rw [List.forall_mem_cons, ← ih]
      constructor
      · rintro ⟨_, hall⟩
        obtain ⟨y, ys, hxy, hrest, -⟩ := List.forall₂_cons_left_iff.1 hall
        exact ⟨⟨y, hxy⟩, ys, hrest⟩
      · rintro ⟨⟨y, hxy⟩, ys, hrest⟩
        exact ⟨y :: ys, .cons hxy hrest⟩

theorem exists_gives_iff {l : Listed} :
    (∃ s, l.Gives levels s) ↔
      ∃ values, members l.results = .ok values ∧ ∀ v ∈ values, ∃ i, Denotes levels v i := by
  constructor
  · rintro ⟨s, -, values, hvalues, hitems⟩
    exact ⟨values, hvalues, exists_forall₂_iff.1 ⟨_, hitems⟩⟩
  · rintro ⟨values, hvalues, hall⟩
    obtain ⟨found, hitems⟩ := exists_forall₂_iff.2 hall
    exact ⟨⟨l.query, found⟩, rfl, values, hvalues, hitems⟩

/-- Of what a file holds, all is loaded or nothing. -/
theorem loadable_iff : Loadable limits bytes ↔ ∃ saved, Loads limits bytes saved := by
  have hentries : ∀ value : Json,
      (∀ l ∈ entries value,
        ∃ values, members l.results = .ok values ∧
          ∀ v ∈ values, ∃ i, Denotes limits.scores v i) ↔
      ∃ saved, List.Forall₂ (Listed.Gives limits.scores) (entries value) saved := by
    intro value
    simp only [exists_forall₂_iff, exists_gives_iff]
  simp only [Loadable, Loads, hentries]
  constructor
  · rintro ⟨value, hholds, saved, hgives⟩
    exact ⟨saved, value, hholds, hgives⟩
  · rintro ⟨saved, value, hholds, hgives⟩
    exact ⟨value, hholds, saved, hgives⟩

/-- Whether a file gives searches of some kind can be found out by loading it. -/
theorem any_ofBytes_iff {p : List Saved → Bool} :
    (ofBytes limits bytes).toOption.any p = true ↔
      ∃ saved, Loads limits bytes saved ∧ p saved = true := by
  simp only [← ofBytes_eq_ok_iff]
  cases ofBytes limits bytes <;> simp [Except.toOption]

theorem isSome_ofBytes_iff :
    (ofBytes limits bytes).toOption.isSome = true ↔ Loadable limits bytes := by
  simp only [loadable_iff, ← ofBytes_eq_ok_iff]
  cases ofBytes limits bytes <;> simp [Except.toOption]

instance (limits : Limits) (bytes : List UInt8) : Decidable (Loadable limits bytes) :=
  decidable_of_iff _ isSome_ofBytes_iff

end IndexedMail.Archive
