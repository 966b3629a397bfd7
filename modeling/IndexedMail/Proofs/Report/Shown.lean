import IndexedMail.Proofs.Engine.Search
import IndexedMail.Report.Writer

/-!
# Reports as a log shows them

Where a report is shown, the text of its listing is cut into lines again.  The name of a group may
hold a line end, and so a hit has one record exactly if that name is a single line.
-/

namespace IndexedMail.Report

open Listing (Notice)
open Text (isLineEnd lines)

def hitLine (number : Nat) (h : Hit) : String :=
  s!"{number}. [{h.score}] {h.server}:{h.group} {Text.Numeral.text h.article}"

def hitRecords (number : Nat) (h : Hit) : List Log.Record :=
  (lines (hitLine number h).toList).map fun line => .info (String.ofList line)

/-! ## Lines of hits -/

theorem itemLine_item (number : Nat) (h : Hit) :
    itemLine number h.item = Text.wide (hitLine number h) := by
  simp [itemLine, hitLine, Hit.item, Json.text, Json.innerText, Text.wide, toString]

theorem itemLines_hits (number : Nat) (hits : List Hit) :
    itemLines number (hits.map Hit.item) =
      (hits.zipIdx number).map fun e => Text.wide (hitLine e.2 e.1) := by
  induction hits generalizing number with
  | nil => rfl
  | cons h rest ih =>
      rw [List.map_cons, itemLines, ih, List.zipIdx_cons, List.map_cons, itemLine_item]

theorem toList_hitLine (number : Nat) (h : Hit) :
    (hitLine number h).toList =
      Nat.toDigits 10 number ++ ". [".toList ++ h.score.toList ++ "] ".toList ++
        h.server.toList ++ ":".toList ++ h.group.toList ++ " ".toList ++
        Text.Numeral.ofInt h.article := by
  simp [hitLine, Text.Numeral.text, toString, Nat.repr_eq_ofList_toDigits]

theorem isLineEnd_of_mem_toDigits {number : Nat} {c : Char} (h : c ∈ Nat.toDigits 10 number) :
    isLineEnd c = false := by
  have hdigit := Nat.isDigit_of_mem_toDigits (by decide) (by decide) h
  apply Text.isLineEnd_of_isDigit
  have hrange : '0' ≤ c ∧ c ≤ '9' := by
    simpa [Char.isDigit, Char.le_def] using hdigit
  simp [Text.isDigit, Text.digitValue?, hrange]

section Notice

variable {server : String} {n : Notice}

/-- The line of a hit ends in the article number. -/
theorem getLast?_hitLine (number : Nat) (server : String) (n : Notice) :
    ∃ c, (hitLine number (n.hit server)).toList.getLast? = some c ∧ isLineEnd c = false := by
  have hdigits : Text.Numeral.ofInt (n.hit server).article =
      Text.Numeral.ofNat (Text.Numeral.ofDigits n.article) := rfl
  obtain ⟨c, hlast⟩ := Option.ne_none_iff_exists'.1
    (mt List.getLast?_eq_none_iff.1
      (Text.Numeral.ofNat_ne_nil (Text.Numeral.ofDigits n.article)))
  have hmem := List.mem_of_getLast? hlast
  refine ⟨c, ?_, Text.isLineEnd_of_isDigit (Text.Numeral.isDigit_of_mem_ofNat hmem)⟩
  rw [toList_hitLine, hdigits, List.getLast?_append, hlast]
  rfl

/-- Only a group can bring a line end into the line of a hit. -/
theorem isLineEnd_hitLine_iff (hserver : ∀ c ∈ server.toList, isLineEnd c = false)
    (hscore : ∀ c ∈ n.score, Text.isDigit c = true) (number : Nat) :
    (∀ c ∈ (hitLine number (n.hit server)).toList, isLineEnd c = false) ↔
      ∀ c ∈ (n.hit server).group.toList, isLineEnd c = false := by
  have hnumber : ∀ c ∈ Nat.toDigits 10 number, isLineEnd c = false :=
    fun c hc => isLineEnd_of_mem_toDigits hc
  have hopen : ∀ c ∈ ". [".toList, isLineEnd c = false := Text.eq_false_of_any (by decide)
  have hscore : ∀ c ∈ (n.hit server).score.toList, isLineEnd c = false := by
    intro c hc
    rw [Notice.hit, String.toList_ofList] at hc
    exact Text.isLineEnd_of_isDigit (hscore c hc)
  have hclose : ∀ c ∈ "] ".toList, isLineEnd c = false := Text.eq_false_of_any (by decide)
  have hcolon : ∀ c ∈ ":".toList, isLineEnd c = false := Text.eq_false_of_any (by decide)
  have hspace : ∀ c ∈ " ".toList, isLineEnd c = false := Text.eq_false_of_any (by decide)
  have harticle : ∀ c ∈ Text.Numeral.ofInt (n.hit server).article, isLineEnd c = false :=
    fun c hc => Text.isLineEnd_of_isDigit (Text.Numeral.isDigit_of_mem_ofNat hc)
  rw [toList_hitLine]
  simp only [List.forall_mem_append]
  constructor
  · rintro ⟨⟨⟨-, hgroup⟩, -⟩, -⟩
    exact hgroup
  · intro hgroup
    exact ⟨⟨⟨⟨⟨⟨⟨⟨hnumber, hopen⟩, hscore⟩, hclose⟩, hserver⟩, hcolon⟩, hgroup⟩, hspace⟩, harticle⟩

end Notice

/-! ## Hits of a listing -/

section Hits

variable {m : Listing.Mailbox} {b : Listing.Backend} {text : List Char} {hits : List Hit}

theorem exists_notice_of_parse (hb : m.backend = b.name)
    (hparse : Listing.parse m text = .ok hits) {h : Hit} (hh : h ∈ hits) :
    ∃ n : Notice, h = n.hit m.server ∧ ∀ c ∈ n.score, Text.isDigit c = true := by
  obtain ⟨n, hn, -, rfl⟩ := Listing.exists_notice_of_mem hb hparse hh
  exact ⟨n, rfl, (Listing.isDigit_of_mem_notices hn).2⟩

/-- The lines of numbered hits, before they are put together. -/
def hitTexts (hits : List Hit) : List (List Char) :=
  (hits.zipIdx 1).map fun e => (hitLine e.2 e.1).toList

theorem mem_hitTexts {l : List Char} (h : l ∈ hitTexts hits) :
    ∃ hit ∈ hits, ∃ number, (hitLine number hit).toList = l := by
  obtain ⟨⟨hit, number⟩, he, rfl⟩ := List.mem_map.1 h
  exact ⟨hit, List.fst_mem_of_mem_zipIdx he, number, rfl⟩

theorem exists_mem_hitTexts {hit : Hit} (h : hit ∈ hits) :
    ∃ number, (hitLine number hit).toList ∈ hitTexts hits := by
  rw [← List.zipIdx_map_fst 1 hits] at h
  obtain ⟨⟨hit, number⟩, he, rfl⟩ := List.mem_map.1 h
  exact ⟨number, List.mem_map.2 ⟨(hit, number), he, rfl⟩⟩

theorem getLast?_of_mem_hitTexts (hb : m.backend = b.name)
    (hparse : Listing.parse m text = .ok hits) :
    ∀ l ∈ hitTexts hits, ∃ c, l.getLast? = some c ∧ isLineEnd c = false := by
  intro l hl
  obtain ⟨hit, hmem, number, rfl⟩ := mem_hitTexts hl
  obtain ⟨n, rfl, -⟩ := exists_notice_of_parse hb hparse hmem
  exact getLast?_hitLine number m.server n

theorem listing_hits (hne : hits ≠ []) :
    listing (hits.map Hit.item) = ((hitTexts hits).flatMap fun l => l ++ ['\n']).map .char := by
  have hitems : ¬ (hits.map Hit.item).isEmpty := by simpa using hne
  have hlines : (hits.zipIdx 1).map (fun e => Text.wide (hitLine e.2 e.1)) ≠ [] := by
    simpa using hne
  rw [listing, if_neg hitems, itemLines_hits, Text.intercalate_append hlines, hitTexts,
    List.flatMap_map, List.flatMap_map, List.map_flatMap]
  simp [Text.wide]

theorem lines_listing (hb : m.backend = b.name) (hparse : Listing.parse m text = .ok hits)
    (hne : hits ≠ []) :
    Text.Wide.lines (listing (hits.map Hit.item)) =
      ((hitTexts hits).flatMap lines).map (List.map .char) := by
  rw [listing_hits hne, Text.Wide.lines_map_char,
    Text.lines_flatMap_lf (getLast?_of_mem_hitTexts hb hparse)]

theorem flatMap_lines_hitTexts_iff (hb : m.backend = b.name)
    (hserver : ∀ c ∈ m.server.toList, isLineEnd c = false)
    (hparse : Listing.parse m text = .ok hits) :
    (hitTexts hits).flatMap lines = hitTexts hits ↔
      ∀ h ∈ hits, ∀ c ∈ h.group.toList, isLineEnd c = false := by
  have hne : ∀ l ∈ hitTexts hits, l ≠ [] := by
    intro l hl
    obtain ⟨c, hlast, -⟩ := getLast?_of_mem_hitTexts hb hparse l hl
    rintro rfl
    cases hlast
  rw [Text.flatMap_lines_eq_self_iff hne]
  constructor
  · intro hplain h hh
    obtain ⟨n, rfl, hscore⟩ := exists_notice_of_parse hb hparse hh
    obtain ⟨number, hmem⟩ := exists_mem_hitTexts hh
    exact (isLineEnd_hitLine_iff hserver hscore number).1 (hplain _ hmem)
  · intro hgroups l hl
    obtain ⟨h, hh, number, rfl⟩ := mem_hitTexts hl
    have hgroup := hgroups h hh
    obtain ⟨n, rfl, hscore⟩ := exists_notice_of_parse hb hparse hh
    exact (isLineEnd_hitLine_iff hserver hscore number).2 hgroup

end Hits

/-! ## Records -/

theorem info_ofList_injective :
    Function.Injective fun line : List Char => Log.Record.info (String.ofList line) := by
  intro l l' h
  have hwide : Text.wide (String.ofList l) = Text.wide (String.ofList l') :=
    congrArg Log.Record.text h
  exact String.ofList_injective (Text.wide_injective hwide)

theorem map_info_hitTexts (hits : List Hit) :
    (hitTexts hits).map (fun line => Log.Record.info (String.ofList line)) =
      (hits.zipIdx 1).map fun e => .info (hitLine e.2 e.1) := by
  simp [hitTexts]

/--
The records of a report on the hits of a listing, for a server whose name is a single line.

After the query come the hits in their order, each with the lines of its own text, or a note that
there are none.  There is one record for each hit exactly if no group has a line end in its name.
-/
theorem shown_hits (s : Settings.Server) (b : Listing.Backend) (hb : s.backend = b.name)
    (hname : ∀ c ∈ s.name.toList, isLineEnd c = false) (text : List Char) (hits : List Hit)
    (hparse : Listing.parse (Engine.mailbox s) text = .ok hits) (query : Text.Wide)
    (errors : List String) :
    let records := Writer.shown query ⟨hits.map Hit.item, errors⟩ .console
    (hits = [] → records = [.info ("query=" ++ query), .info "No matches."]) ∧
    (hits ≠ [] →
      records = .info ("query=" ++ query) ::
        (hits.zipIdx 1).flatMap (fun e => hitRecords e.2 e.1) ∧
      (records = .info ("query=" ++ query) ::
          (hits.zipIdx 1).map (fun e => .info (hitLine e.2 e.1)) ↔
        ∀ h ∈ hits, ∀ c ∈ h.group.toList, isLineEnd c = false)) := by
  intro records
  refine ⟨?_, fun hne => ?_⟩
  · rintro rfl
    have hnone : Text.Wide.lines (listing []) = [Text.wide "No matches."] := by decide +kernel
    change queryRecord query :: (Text.Wide.lines (listing [])).map .info = _
    rw [hnone]
    rfl
  · have hrecords : records = .info ("query=" ++ query) ::
        ((hitTexts hits).flatMap lines).map fun line => .info (String.ofList line) := by
      have hlines := lines_listing (m := Engine.mailbox s) hb hparse hne
      change queryRecord query :: (Text.Wide.lines (listing (hits.map Hit.item))).map .info = _
      rw [hlines, List.map_map]
      simp [queryRecord, Function.comp_def, Text.wide]
    refine ⟨?_, ?_⟩
    · rw [hrecords, List.map_flatMap, hitTexts, List.flatMap_map]
      rfl
    · rw [hrecords, ← map_info_hitTexts, List.cons_inj_right,
        (List.map_injective_iff.2 info_ofList_injective).eq_iff]
      exact flatMap_lines_hitTexts_iff hb hname hparse

/-! ## Listings of one message -/

def oneMessage : List Char :=
  "5\tfile:///m/g/7".toList

/-- A message in a group with a line feed in its name, as the index tool codes it. -/
def brokenGroup : List Char :=
  "5\tfile:///m/a%0Ab/7".toList

theorem shown_hits_one :
    (∀ c ∈ (Engine.plainServer "s").name.toList, isLineEnd c = false) ∧
    Listing.parse (Engine.mailbox (Engine.plainServer "s")) oneMessage =
      .ok [⟨"s", "g", 7, "5"⟩] ∧
    Writer.shown "x" ⟨[(⟨"s", "g", 7, "5"⟩ : Hit)].map Hit.item, []⟩ .console =
      [.info "query=x", .info "1. [5] s:g 7"] := by
  have hname : ∀ c ∈ (Engine.plainServer "s").name.toList, isLineEnd c = false :=
    Text.eq_false_of_any (by decide)
  have hparse : Listing.parse (Engine.mailbox (Engine.plainServer "s")) oneMessage =
      .ok [⟨"s", "g", 7, "5"⟩] :=
    Listing.parse_of_notice (b := .nnml) (n := ⟨['5'], ['g'], ['7']⟩) rfl rfl
      ⟨by decide, by decide⟩
  have hgroup : ∀ h ∈ [(⟨"s", "g", 7, "5"⟩ : Hit)], ∀ c ∈ h.group.toList, isLineEnd c = false :=
    List.forall_mem_singleton.2 (Text.eq_false_of_any (by decide))
  obtain ⟨-, hshown⟩ := shown_hits (Engine.plainServer "s") .nnml rfl hname oneMessage
    [⟨"s", "g", 7, "5"⟩] hparse "x" []
  exact ⟨hname, hparse, (hshown (by simp)).2.2 hgroup⟩

def brokenHit : Hit :=
  ⟨"s", "a\nb", 7, "5"⟩

/-- A single message can be shown by two records. -/
theorem one_hit_two_records :
    Listing.parse (Engine.mailbox (Engine.plainServer "s")) brokenGroup = .ok [brokenHit] ∧
    Writer.shown "x" ⟨[brokenHit.item], []⟩ .console =
      [.info "query=x", .info "1. [5] s:a", .info "b 7"] ∧
    Writer.shown "x" ⟨[brokenHit.item], []⟩ .console ≠
      [.info "query=x", .info (hitLine 1 brokenHit)] := by
  have hshown : Writer.shown "x" ⟨[brokenHit.item], []⟩ .console =
      [.info "query=x", .info "1. [5] s:a", .info "b 7"] := by decide +kernel
  refine ⟨?_, hshown, ?_⟩
  · exact Listing.parse_of_notice (b := .nnml) (n := ⟨['5'], ['a', '\n', 'b'], ['7']⟩) rfl rfl
      ⟨by decide, by decide⟩
  · rw [hshown]
    decide +kernel

end IndexedMail.Report
