import IndexedMail.Proofs.Listing.Printed
import IndexedMail.Proofs.Text.Utf8
import IndexedMail.Text.Encoding

/-!
# Listings in parts

Output may be cut at any line feed, whether or not the bytes on either side are well formed: what
is read from the whole is the ranking of what is read from the parts.  Only a numeral that is too
long to be read in one part keeps the other from being read too.
-/

namespace IndexedMail.Listing

open Ranking
open Text (Encoding)

variable {m : Mailbox} {b : Backend}

theorem decode_append_lf (before after : List UInt8) :
    Encoding.utf8.decode (before ++ 10 :: after) =
      Encoding.utf8.decode before ++ '\n' :: Encoding.utf8.decode after :=
  Text.Utf8.decodeLossy_append_ascii (by decide) before after

theorem notice?_nil (b : Backend) (root : List Char) : notice? b root [] = none := rfl

/-- The notices on both sides of a line feed are those of the whole. -/
theorem notices_append_lf (b : Backend) (root text more : List Char) :
    notices b root (text ++ '\n' :: more) = notices b root text ++ notices b root more := by
  obtain ⟨gap, hgap, hlines⟩ := Text.lines_append_lf text more
  have hnothing : gap.filterMap (notice? b root) = [] := by
    rcases hgap with rfl | ⟨rfl, -⟩
    · rfl
    · simp [notice?_nil]
  unfold notices
  rw [hlines, List.filterMap_append, List.filterMap_append, hnothing, List.append_nil]

theorem rank_of_parse (hb : m.backend = b.name) {text : List Char} {hits : List Hit}
    (h : parse m text = .ok hits) : ∀ h ∈ hits, h.rank = .ok h.value := by
  intro hit hhit
  obtain ⟨n, hn, hreadable, rfl⟩ := exists_notice_of_mem hb h hhit
  obtain ⟨hne, hdigits⟩ := isDigit_of_mem_notices hn
  have hranked : ∃ k, (n.hit m.server).rank = .ok k :=
    (exists_rank_hit_iff hne hdigits).2 hreadable.1
  obtain ⟨k, hk⟩ := hranked
  rw [← keyOf_rank_hit hne hdigits hreadable.1, keyOf_of_ok hk, hk]

/-- Two parts that are read give together what the whole gives. -/
theorem parse_append_lf_of_parse (hb : m.backend = b.name) {text more : List Char}
    {first second : List Hit} (hfirst : parse m text = .ok first)
    (hsecond : parse m more = .ok second) {hits : List Hit} :
    parse m (text ++ '\n' :: more) = .ok hits ↔ Hit.sortByScore (first ++ second) = .ok hits := by
  have hranks : ∀ h ∈ first ++ second, h.rank = .ok h.value := by
    intro h hh
    rcases List.mem_append.1 hh with hh | hh
    · exact rank_of_parse hb hfirst h hh
    · exact rank_of_parse hb hsecond h hh
  obtain ⟨hreadable, hstable⟩ := (parse_eq_ok_iff hb).1 hfirst
  obtain ⟨hreadable', hstable'⟩ := (parse_eq_ok_iff hb).1 hsecond
  have hall : ∀ n ∈ notices b m.removePrefix.toList (text ++ '\n' :: more), n.Readable := by
    intro n hn
    rw [notices_append_lf, List.mem_append] at hn
    exact hn.elim (hreadable n) (hreadable' n)
  unfold Hit.sortByScore
  rw [sort_eq_ok_iff_of_forall hranks, hstable.append_iff hstable', parse_eq_ok_iff hb,
    notices_append_lf, List.map_append]
  rw [notices_append_lf] at hall
  exact and_iff_right hall

theorem exists_parse_append_lf_iff (hb : m.backend = b.name) {text more : List Char} :
    (∃ hits, parse m (text ++ '\n' :: more) = .ok hits) ↔
      (∃ first, parse m text = .ok first) ∧ ∃ second, parse m more = .ok second := by
  rw [exists_parse_iff hb, exists_parse_iff hb, exists_parse_iff hb, notices_append_lf,
    List.forall_mem_append]

/--
Reading output that is cut at a line feed, on either side of which there may be any bytes.

The whole is read if and only if both parts are, which is if all numerals in them can be read, and
its hits are then those of the parts, ranked.
-/
theorem parse_parts (server removePrefix : String) (b : Backend) (before after : List UInt8) :
    let read := fun bytes => parse ⟨server, removePrefix, b.name⟩ (Encoding.utf8.decode bytes)
    let found := fun bytes => notices b removePrefix.toList (Encoding.utf8.decode bytes)
    (∀ hits, read (before ++ 10 :: after) = .ok hits ↔
      ∃ first second, read before = .ok first ∧ read after = .ok second ∧
        Hit.sortByScore (first ++ second) = .ok hits) ∧
    ((∃ hits, read (before ++ 10 :: after) = .ok hits) ↔
      ∀ n ∈ found before ++ found after, n.Readable) := by
  intro read found
  have hb : (Mailbox.mk server removePrefix b.name).backend = b.name := rfl
  have hwhole : read (before ++ 10 :: after) = parse ⟨server, removePrefix, b.name⟩
      (Encoding.utf8.decode before ++ '\n' :: Encoding.utf8.decode after) := by
    rw [← decode_append_lf]
  refine ⟨?_, ?_⟩
  · intro hits
    rw [hwhole]
    constructor
    · intro h
      obtain ⟨⟨first, hfirst⟩, second, hsecond⟩ := (exists_parse_append_lf_iff hb).1 ⟨hits, h⟩
      exact ⟨first, second, hfirst, hsecond, (parse_append_lf_of_parse hb hfirst hsecond).1 h⟩
    · rintro ⟨first, second, hfirst, hsecond, hsort⟩
      exact (parse_append_lf_of_parse hb hfirst hsecond).2 hsort
  · rw [hwhole, exists_parse_iff hb, notices_append_lf]

/-! ## A part that is not read -/

def plainLine : List UInt8 :=
  Text.Utf8.encode "5\tfile:///m/g/7".toList

theorem parse_plainLine :
    parse ⟨"s", "/m/", "nnml"⟩ (Encoding.utf8.decode plainLine) = .ok [⟨"s", "g", 7, "5"⟩] := by
  have htext : Encoding.utf8.decode plainLine = "5\tfile:///m/g/7".toList :=
    Text.Utf8.decodeLossy_encode _
  rw [htext]
  exact parse_of_notice (b := .nnml) (n := ⟨['5'], ['g'], ['7']⟩) rfl rfl ⟨by decide, by decide⟩

/-- A line that is read alone is lost beside one whose score is too long. -/
theorem plain_line_lost :
    parse ⟨"s", "/m/", "nnml"⟩ (Encoding.utf8.decode plainLine) = .ok [⟨"s", "g", 7, "5"⟩] ∧
    ∀ hits, parse ⟨"s", "/m/", "nnml"⟩ (Encoding.utf8.decode
      (plainLine ++ 10 :: Text.Utf8.encode overlongListing)) ≠ .ok hits := by
  refine ⟨parse_plainLine, ?_⟩
  intro hits hparse
  have htext : Encoding.utf8.decode (Text.Utf8.encode overlongListing) = overlongListing :=
    Text.Utf8.decodeLossy_encode _
  rw [decode_append_lf, htext] at hparse
  obtain ⟨-, second, hsecond⟩ := (exists_parse_append_lf_iff (m := ⟨"s", "/m/", "nnml"⟩)
    (b := .nnml) rfl).1 ⟨hits, hparse⟩
  obtain ⟨e, he⟩ := exists_error_of_overlong "s"
  rw [he] at hsecond
  cases hsecond

end IndexedMail.Listing
