import IndexedMail.Proofs.Text.Case
import IndexedMail.Query.Filter
import Mathlib.Data.List.Basic

/-!
# Field markers

Which words are filters, and what they compare.  A marker is matched without regard to case, and
there three letters outside ASCII pass for an i or an s.  The attribute of a filter is the marker
as it was typed, in lower case, and that keeps these letters or leaves a combining dot.  So a word
with one of them in its marker is a filter on an attribute that no marker has; every other word
is read as the table of markers says.
-/

namespace IndexedMail.Query

/-! ## Letters of a marker -/

/-- The letters outside ASCII that pass for a letter of a marker. -/
def disguises : List Char := ['İ', 'ı', 'ſ']

/-- What a character of a word counts as where a marker is looked for. -/
def folded (c : Char) : Char :=
  if c = 'İ' ∨ c = 'ı' then 'i' else if c = 'ſ' then 's' else c.toLower

theorem mem_disguises {c : Char} : c ∈ disguises ↔ c = 'İ' ∨ c = 'ı' ∨ c = 'ſ' := by
  simp [disguises]

theorem folded_of_not_mem {c : Char} (h : c ∉ disguises) : folded c = c.toLower := by
  simp only [mem_disguises, not_or] at h
  simp [folded, h]

theorem folded_disguise {c : Char} (h : c ∈ disguises) : folded c = 'i' ∨ folded c = 's' := by
  rcases mem_disguises.1 h with rfl | rfl | rfl
  · exact .inl rfl
  · exact .inl rfl
  · exact .inr rfl

theorem disguise_not_ascii : ∀ c ∈ disguises, 128 ≤ c.toNat := by simp [disguises]

theorem not_mem_disguises_of_ascii {c : Char} (h : c.toNat < 128) : c ∉ disguises := by
  intro hc
  have hlarge := disguise_not_ascii c hc
  omega

/-- A sign counts only as itself. -/
theorem eq_of_folded {c sign : Char} (hsign : sign.toNat < 97) (h : folded c = sign) :
    c = sign := by
  have hc : c ∉ disguises := by
    intro hc
    rcases folded_disguise hc with hi | hs
    · rw [← h, hi] at hsign
      exact absurd hsign (by decide)
    · rw [← h, hs] at hsign
      exact absurd hsign (by decide)
  rw [folded_of_not_mem hc] at h
  rcases Text.toLower_cases c with hsame | ⟨hlow, _, hsmall⟩
  · rw [← hsame, h]
  · rw [h] at hsmall
    omega

theorem matchesMarkerChar_iff {m c : Char} (hm : m.toNat < 128) :
    matchesMarkerChar m c = true ↔ folded c = m := by
  by_cases hc : c ∈ disguises
  · have hne : c ≠ m := by
      rintro rfl
      exact not_mem_disguises_of_ascii hm hc
    rcases mem_disguises.1 hc with rfl | rfl | rfl
    · simpa [matchesMarkerChar, folded, hne] using eq_comm
    · simpa [matchesMarkerChar, folded, hne] using eq_comm
    · simpa [matchesMarkerChar, folded, hne] using eq_comm
  · have hfold := folded_of_not_mem hc
    simp only [mem_disguises, not_or] at hc
    simp [matchesMarkerChar, hfold, hc]

/-! ## The marker of a word -/

theorem markers_ascii : ∀ marker ∈ markers, ∀ m ∈ marker, m.toNat < 128 := by
  simp [markers]

theorem markers_prefix_free : ∀ marker ∈ markers, ∀ other ∈ markers,
    marker <+: other → marker = other := by decide

theorem splitMarker_append {marker typed : List Char} (hm : ∀ m ∈ marker, m.toNat < 128)
    (hmap : typed.map folded = marker) (value : List Char) :
    splitMarker marker (typed ++ value) = some (typed, value) := by
  induction marker generalizing typed with
  | nil =>
      rw [List.map_eq_nil_iff.1 hmap]
      rfl
  | cons m ms ih =>
      rw [List.forall_mem_cons] at hm
      obtain ⟨c, rest, rfl, hc, hrest⟩ := List.map_eq_cons_iff.1 hmap
      rw [List.cons_append, splitMarker, if_pos ((matchesMarkerChar_iff hm.1).2 hc),
        ih hm.2 hrest]
      rfl

theorem eq_append_of_splitMarker {marker word typed value : List Char}
    (hm : ∀ m ∈ marker, m.toNat < 128) (h : splitMarker marker word = some (typed, value)) :
    word = typed ++ value ∧ typed.map folded = marker := by
  induction marker generalizing word typed with
  | nil =>
      cases h
      exact ⟨rfl, rfl⟩
  | cons m ms ih =>
      rw [List.forall_mem_cons] at hm
      cases word with
      | nil => cases h
      | cons c rest =>
          rw [splitMarker] at h
          split at h
          · rename_i hmatch
            obtain ⟨⟨typed', value'⟩, hsplit, hboth⟩ := Option.map_eq_some_iff.1 h
            cases hboth
            obtain ⟨rfl, hmap⟩ := ih hm.2 hsplit
            refine ⟨rfl, ?_⟩
            rw [List.map_cons, (matchesMarkerChar_iff hm.1).1 hmatch, hmap]
          · cases h

/-- No word begins with two markers. -/
theorem marker_unique {marker other typed typed' value value' : List Char}
    (hm : marker ∈ markers) (hm' : other ∈ markers) (hword : typed ++ value = typed' ++ value')
    (hmap : typed.map folded = marker) (hmap' : typed'.map folded = other) :
    marker = other ∧ typed = typed' ∧ value = value' := by
  have hpre : marker <+: (typed ++ value).map folded := by
    rw [List.map_append, hmap]
    exact List.prefix_append _ _
  have hpre' : other <+: (typed ++ value).map folded := by
    rw [hword, List.map_append, hmap']
    exact List.prefix_append _ _
  have hsame : marker = other := by
    rcases List.prefix_or_prefix_of_prefix hpre hpre' with h | h
    · exact markers_prefix_free marker hm other hm' h
    · exact (markers_prefix_free other hm' marker hm h).symm
  have hlength : typed.length = typed'.length := by
    rw [← List.length_map folded, hmap, hsame, ← hmap', List.length_map]
  exact ⟨hsame, List.append_inj hword hlength⟩

theorem findSome?_splitMarker {word typed value : List Char} :
    (markers.findSome? fun marker => splitMarker marker word) = some (typed, value) ↔
      word = typed ++ value ∧ typed.map folded ∈ markers := by
  constructor
  · intro h
    obtain ⟨marker, hm, hmarker⟩ := List.exists_of_findSome?_eq_some h
    obtain ⟨hword, hmap⟩ := eq_append_of_splitMarker (markers_ascii marker hm) hmarker
    exact ⟨hword, hmap ▸ hm⟩
  · rintro ⟨rfl, hm⟩
    have hsplit := splitMarker_append (markers_ascii _ hm) rfl value
    have hsome : (markers.findSome? fun m => splitMarker m (typed ++ value)).isSome = true := by
      rw [List.findSome?_isSome_iff]
      exact ⟨_, hm, by rw [hsplit]; rfl⟩
    -- The marker that is found first is the only one with which the word begins.
    obtain ⟨⟨typed', value'⟩, hfound⟩ := Option.isSome_iff_exists.1 hsome
    obtain ⟨other, hm', hother⟩ := List.exists_of_findSome?_eq_some hfound
    obtain ⟨hword, hmap⟩ := eq_append_of_splitMarker (markers_ascii other hm') hother
    obtain ⟨-, rfl, rfl⟩ := marker_unique hm hm' hword rfl hmap
    exact hfound

/-! ## What a marker is read as -/

/-- The comparison that the table of markers gives for a marker. -/
def keywordOf (marker : List Char) : String :=
  if marker = "@cdate=".toList then "NUMEQ"
  else if marker.getLast? = some '=' then "STRINC"
  else if marker.getLast? = some '<' then "NUMLE"
  else "NUMGE"

theorem markers_sign : ∀ marker ∈ markers,
    marker.getLast? = some '=' ∨ marker.getLast? = some '<' ∨ marker.getLast? = some '>' := by
  decide

theorem keywordOf_equals : ∀ marker ∈ markers, marker.getLast? = some '=' →
    marker.dropLast ∈ ["@cdate", "@author", "@title", "@uri"].map String.toList ∧
      keywordOf marker = if marker.dropLast = "@cdate".toList then "NUMEQ" else "STRINC" := by
  decide

theorem keywordOf_less : ∀ marker ∈ markers, marker.getLast? = some '<' →
    keywordOf marker = "NUMLE" := by
  decide

theorem keywordOf_greater : ∀ marker ∈ markers, marker.getLast? = some '>' →
    keywordOf marker = "NUMGE" := by
  decide

theorem not_mem_of_folded_ascii {cs marker : List Char} (hmap : cs.map folded = marker)
    (hm : ∀ m ∈ marker, m.toNat < 128) : 'Σ' ∉ cs := by
  intro h
  have hsigma := hm (folded 'Σ') (hmap ▸ List.mem_map_of_mem h)
  exact absurd hsigma (by decide)

theorem flatMap_lowerChar {cs : List Char} (hplain : ∀ c ∈ cs, c ∉ disguises)
    (hascii : ∀ c ∈ cs, (folded c).toNat < 128) :
    cs.flatMap Text.lowerChar = cs.map folded := by
  induction cs with
  | nil => rfl
  | cons c rest ih =>
      have hfold := folded_of_not_mem (hplain c List.mem_cons_self)
      have hc : c.toNat < 128 := Text.ascii_of_toLower (hfold ▸ hascii c List.mem_cons_self)
      rw [List.flatMap_cons, Text.lowerChar_of_ascii hc, List.map_cons, hfold,
        ih (fun c' h => hplain c' (List.mem_cons_of_mem c h))
          (fun c' h => hascii c' (List.mem_cons_of_mem c h))]
      rfl

/-- A marker typed in ASCII is its own lower case. -/
theorem lower_of_plain {typed marker : List Char} (hmap : typed.map folded = marker)
    (hascii : ∀ m ∈ marker, m.toNat < 128) (hplain : ∀ c ∈ typed, c ∉ disguises) :
    Text.lower typed = marker := by
  rw [Text.lower_eq_flatMap (not_mem_of_folded_ascii hmap hascii), flatMap_lowerChar hplain, hmap]
  intro c hc
  exact hascii _ (hmap ▸ List.mem_map_of_mem hc)

/-- A marker typed with another letter is not, because that letter has no ASCII small form. -/
theorem lower_of_disguise {typed marker : List Char} {c : Char}
    (hmap : typed.map folded = marker) (hascii : ∀ m ∈ marker, m.toNat < 128)
    (hc : c ∈ typed) (hdisguise : c ∈ disguises) : ∃ d ∈ Text.lower typed, 128 ≤ d.toNat := by
  have hsmall : ∃ d ∈ Text.lowerChar c, 128 ≤ d.toNat := by
    rcases mem_disguises.1 hdisguise with rfl | rfl | rfl
    · exact ⟨Char.ofNat 0x307, by decide, by decide⟩
    · exact ⟨'ı', by decide, by decide⟩
    · exact ⟨'ſ', by decide, by decide⟩
  obtain ⟨d, hd, hlarge⟩ := hsmall
  refine ⟨d, ?_, hlarge⟩
  rw [Text.lower_eq_flatMap (not_mem_of_folded_ascii hmap hascii)]
  exact List.mem_flatMap.2 ⟨c, hc, hd⟩

theorem not_mem_disguises_of_folded {c : Char} (hi : folded c ≠ 'i') (hs : folded c ≠ 's') :
    c ∉ disguises := by
  intro hc
  rcases folded_disguise hc with h | h
  · exact hi h
  · exact hs h

/-- An attribute other than the date is told from it by its first letter alone, whatever letters
follow; nothing outside ASCII passes for that one. -/
theorem lower_ne_cdate {typed more : List Char} {first : Char} (hfirst : first ∈ ['a', 't', 'u'])
    (hmap : typed.map folded = '@' :: first :: more)
    (hascii : ∀ m ∈ '@' :: first :: more, m.toNat < 128) :
    Text.lower ((Text.lower typed).dropWhile (· == '@')) ≠ "cdate".toList := by
  have hsigma := not_mem_of_folded_ascii hmap hascii
  obtain ⟨sign, letters, rfl, hsign, hletters⟩ := List.map_eq_cons_iff.1 hmap
  obtain ⟨letter, rest, rfl, hletter, -⟩ := List.map_eq_cons_iff.1 hletters
  obtain rfl : sign = '@' := eq_of_folded (by decide) hsign
  have hothers : ∀ m ∈ ['a', 't', 'u'], m ≠ 'i' ∧ m ≠ 's' ∧ m ≠ '@' ∧ m ≠ 'Σ' ∧ m ≠ 'c' ∧
      m.toNat < 128 ∧ m.toLower = m := by simp
  obtain ⟨hi, hs, hat, hne, hc, hlow, hsmall⟩ := hothers first hfirst
  have hplain : letter ∉ disguises :=
    not_mem_disguises_of_folded (hletter ▸ hi) (hletter ▸ hs)
  have hsame : letter.toLower = first := folded_of_not_mem hplain ▸ hletter
  have hlowered : Text.lowerChar letter = [first] := by
    rw [Text.lowerChar_of_ascii (Text.ascii_of_toLower (hsame ▸ hlow)), hsame]
  have hdropped : (Text.lower ('@' :: letter :: rest)).dropWhile (· == '@') =
      first :: rest.flatMap Text.lowerChar := by
    rw [Text.lower_eq_flatMap hsigma, List.flatMap_cons, List.flatMap_cons, hlowered]
    change List.dropWhile (· == '@') ('@' :: first :: rest.flatMap Text.lowerChar) = _
    simp [hat]
  rw [hdropped, Text.lower_cons hne, Text.lowerChar_of_ascii hlow, hsmall]
  intro h
  exact hc (List.cons.inj h).1

theorem lower_cdate {typed : List Char} (hmap : typed.map folded = "@cdate".toList) :
    Text.lower ((Text.lower typed).dropWhile (· == '@')) = "cdate".toList := by
  have hletters : ∀ m ∈ "@cdate".toList, m.toNat < 128 ∧ m ≠ 'i' ∧ m ≠ 's' := by simp
  have hplain : ∀ c ∈ typed, c ∉ disguises := by
    intro c hc
    obtain ⟨-, hi, hs⟩ := hletters (folded c) (hmap ▸ List.mem_map_of_mem hc)
    exact not_mem_disguises_of_folded hi hs
  rw [lower_of_plain hmap (fun m hm => (hletters m hm).1) hplain]
  decide

theorem ofOperator_equals {name typed : List Char}
    (hname : name ∈ ["@cdate", "@author", "@title", "@uri"].map String.toList)
    (hmap : typed.map folded = name) :
    (Comparison.ofOperator (Text.lower typed) ['=']).keyword =
      if name = "@cdate".toList then "NUMEQ" else "STRINC" := by
  have hascii : ∀ name ∈ ["@cdate", "@author", "@title", "@uri"].map String.toList,
      ∀ m ∈ name, m.toNat < 128 := by simp
  have hother : ∀ name ∈ ["@cdate", "@author", "@title", "@uri"].map String.toList,
      name = "@cdate".toList ∨ (name ≠ "@cdate".toList ∧ name.take 1 = ['@'] ∧
        ∃ first ∈ ['a', 't', 'u'], name.drop 1 = first :: name.drop 2) := by simp
  rw [Comparison.ofOperator, if_pos (by decide)]
  rcases hother name hname with rfl | ⟨hne, hsign, first, hfirst, hrest⟩
  · rw [if_pos (beq_iff_eq.2 (lower_cdate hmap)), if_pos rfl]
    rfl
  · have hcons : name = '@' :: first :: name.drop 2 := by
      rw [← hrest, ← List.singleton_append, ← hsign, List.take_append_drop]
    have hdate := lower_ne_cdate hfirst (hmap.trans hcons) (hcons ▸ hascii name hname)
    rw [if_neg (fun h => hdate (beq_iff_eq.1 h)), if_neg hne]
    rfl

theorem ofOperator_keyword {marker typed : List Char} {sign : Char} (hm : marker ∈ markers)
    (hsign : marker.getLast? = some sign) (hmap : typed.map folded = marker.dropLast) :
    (Comparison.ofOperator (Text.lower typed) [sign]).keyword = keywordOf marker := by
  have hcases := markers_sign marker hm
  rw [hsign, Option.some.injEq, Option.some.injEq, Option.some.injEq] at hcases
  rcases hcases with rfl | rfl | rfl
  · obtain ⟨hname, hkeyword⟩ := keywordOf_equals marker hm hsign
    rw [ofOperator_equals hname hmap, hkeyword]
  · rw [keywordOf_less marker hm hsign]
    rfl
  · rw [keywordOf_greater marker hm hsign]
    rfl

/-- A marker as typed ends with its own sign, and lower case leaves that alone. -/
theorem lower_typed {marker typed : List Char} (hm : marker ∈ markers)
    (hmap : typed.map folded = marker) :
    ∃ name sign, name.map folded = marker.dropLast ∧ marker.getLast? = some sign ∧
      Text.lower typed = Text.lower name ++ [sign] := by
  obtain ⟨sign, hlast, hsmall, hsign⟩ : ∃ sign, marker.getLast? = some sign ∧
      sign.toNat < 97 ∧ Text.lowerChar sign = [sign] := by
    rcases markers_sign marker hm with h | h | h
    · exact ⟨'=', h, by decide, by decide⟩
    · exact ⟨'<', h, by decide, by decide⟩
    · exact ⟨'>', h, by decide, by decide⟩
  have hsigma := not_mem_of_folded_ascii hmap (markers_ascii marker hm)
  rw [← List.dropLast_append_getLast? sign hlast] at hmap
  obtain ⟨name, last, rfl, hname, hfold⟩ := List.map_eq_append_iff.1 hmap
  obtain ⟨c, rest, rfl, hc, hrest⟩ := List.map_eq_cons_iff.1 hfold
  obtain rfl : rest = [] := List.map_eq_nil_iff.1 hrest
  obtain rfl : c = sign := eq_of_folded hsmall hc
  refine ⟨name, c, hname, hlast, ?_⟩
  have hsigma' : 'Σ' ∉ name := fun h => hsigma (List.mem_append_left _ h)
  rw [Text.lower_eq_flatMap hsigma, Text.lower_eq_flatMap hsigma', List.flatMap_append,
    List.flatMap_cons, List.flatMap_nil, hsign, List.append_nil]

/-- A word read as a filter: some marker, as it was typed, and the rest. -/
theorem parseFilter_eq_some_iff {word : List Char} {f : Filter} :
    parseFilter word = some f ↔
      ∃ marker ∈ markers, ∃ typed value, word = typed ++ value ∧ typed.map folded = marker ∧
        f = { field := String.ofList (Text.lower typed).dropLast
              keyword := keywordOf marker
              value := String.ofList value } := by
  have hkeyword : ∀ typed, typed.map folded ∈ markers →
      (Comparison.ofOperator (Text.lower typed).dropLast
        ((Text.lower typed).drop (Text.lower typed).dropLast.length)).keyword =
          keywordOf (typed.map folded) := by
    intro typed hm
    obtain ⟨name, sign, hname, hlast, hlower⟩ := lower_typed hm rfl
    rw [hlower, List.dropLast_concat, List.drop_left, ofOperator_keyword hm hlast hname]
  rw [parseFilter, Option.map_eq_some_iff]
  constructor
  · rintro ⟨⟨typed, value⟩, hfound, rfl⟩
    obtain ⟨hword, hm⟩ := findSome?_splitMarker.1 hfound
    refine ⟨_, hm, typed, value, hword, rfl, ?_⟩
    rw [← hkeyword typed hm]
  · rintro ⟨_, hm, typed, value, hword, rfl, rfl⟩
    refine ⟨(typed, value), findSome?_splitMarker.2 ⟨hword, hm⟩, ?_⟩
    rw [← hkeyword typed hm]

/-! ## The documented filters -/

/-- The attributes that the table of markers has. -/
def attributes : List String := ["@cdate", "@author", "@size", "@title", "@uri"]

/-- A word is documented to be a filter if it begins with a marker up to the case of ASCII
letters; the marker decides what is compared and how, and the rest of the word is the value. -/
def Documented (word : List Char) (f : Filter) : Prop :=
  ∃ marker ∈ markers, ∃ typed value, word = typed ++ value ∧ typed.map Char.toLower = marker ∧
    f = { field := String.ofList marker.dropLast
          keyword := keywordOf marker
          value := String.ofList value }

/-- A word that has a marker only because a letter outside ASCII passes for one of its letters. -/
def Disguised (word : List Char) : Prop :=
  ∃ marker ∈ markers, ∃ typed value, word = typed ++ value ∧ typed.map folded = marker ∧
    ∃ c ∈ typed, c ∈ disguises

theorem attribute_of_marker : ∀ marker ∈ markers,
    String.ofList marker.dropLast ∈ attributes := by decide

theorem attributes_ascii : ∀ a ∈ attributes, ∀ c ∈ a.toList, c.toNat < 128 := by
  simp [attributes]

theorem map_folded_of_toLower {typed marker : List Char} (hm : marker ∈ markers)
    (hmap : typed.map Char.toLower = marker) :
    typed.map folded = marker ∧ ∀ c ∈ typed, c ∉ disguises := by
  have hplain : ∀ c ∈ typed, c ∉ disguises := by
    intro c hc
    have hlow := markers_ascii marker hm c.toLower (hmap ▸ List.mem_map_of_mem hc)
    exact not_mem_disguises_of_ascii (Text.ascii_of_toLower hlow)
  refine ⟨?_, hplain⟩
  rw [← hmap]
  exact List.map_congr_left fun c hc => folded_of_not_mem (hplain c hc)

theorem documented_iff {word : List Char} {f : Filter} :
    Documented word f ↔ parseFilter word = some f ∧ ¬ Disguised word := by
  rw [parseFilter_eq_some_iff]
  constructor
  · rintro ⟨marker, hm, typed, value, hword, hmap, rfl⟩
    obtain ⟨hfold, hplain⟩ := map_folded_of_toLower hm hmap
    refine ⟨⟨marker, hm, typed, value, hword, hfold, ?_⟩, ?_⟩
    · rw [lower_of_plain hfold (markers_ascii marker hm) hplain]
    · rintro ⟨other, hm', typed', value', hword', hfold', c, hc, hdisguise⟩
      obtain ⟨-, rfl, -⟩ := marker_unique hm hm' (hword.symm.trans hword') hfold hfold'
      exact hplain c hc hdisguise
  · rintro ⟨⟨marker, hm, typed, value, hword, hfold, rfl⟩, hnot⟩
    have hplain : ∀ c ∈ typed, c ∉ disguises := fun c hc hdisguise =>
      hnot ⟨marker, hm, typed, value, hword, hfold, c, hc, hdisguise⟩
    refine ⟨marker, hm, typed, value, hword, ?_, ?_⟩
    · rw [← hfold]
      exact List.map_congr_left fun c hc => (folded_of_not_mem (hplain c hc)).symm
    · rw [lower_of_plain hfold (markers_ascii marker hm) hplain]

theorem exists_parseFilter_of_disguised {word : List Char} (h : Disguised word) :
    ∃ f, parseFilter word = some f ∧ f.field ∉ attributes := by
  obtain ⟨marker, hm, typed, value, hword, hfold, c, hc, hdisguise⟩ := h
  refine ⟨_, parseFilter_eq_some_iff.2 ⟨marker, hm, typed, value, hword, hfold, rfl⟩, ?_⟩
  intro hmem
  obtain ⟨d, hd, hlarge⟩ := lower_of_disguise hfold (markers_ascii marker hm) hc hdisguise
  obtain ⟨name, sign, -, hlast, hlower⟩ := lower_typed hm hfold
  rw [hlower, List.dropLast_concat] at hmem
  rw [hlower] at hd
  rcases List.mem_append.1 hd with hname | hsign
  · have := attributes_ascii _ hmem d (by rwa [String.toList_ofList])
    omega
  · obtain rfl := List.mem_singleton.1 hsign
    have := markers_ascii marker hm d (List.mem_of_getLast? hlast)
    omega

/--
Which words are filters, and what they compare.

A word is a filter exactly if it begins with a marker, where three letters outside ASCII pass
for an i or an s; its attribute is the marker as typed, in lower case and without the sign.  The
documented reading, with the case of ASCII letters ignored and nothing else, is the actual one
exactly for the words that do not use such a letter in their marker, and only for these the
attribute of a filter is one that the markers have.
-/
theorem parseFilter_documented (word : List Char) :
    (∀ f, parseFilter word = some f ↔
      ∃ marker ∈ markers, ∃ typed value, word = typed ++ value ∧ typed.map folded = marker ∧
        f = { field := String.ofList (Text.lower typed).dropLast
              keyword := keywordOf marker
              value := String.ofList value }) ∧
    ((∀ f, parseFilter word = some f ↔ Documented word f) ↔ ¬ Disguised word) ∧
    (∀ f, parseFilter word = some f → (f.field ∈ attributes ↔ ¬ Disguised word)) := by
  refine ⟨fun f => parseFilter_eq_some_iff, ?_, ?_⟩
  · constructor
    · intro hall hdisguised
      obtain ⟨f, hf, -⟩ := exists_parseFilter_of_disguised hdisguised
      exact (documented_iff.1 ((hall f).1 hf)).2 hdisguised
    · intro hnot f
      rw [documented_iff]
      exact ⟨fun hf => ⟨hf, hnot⟩, fun h => h.1⟩
  · intro f hf
    constructor
    · intro hmem hdisguised
      obtain ⟨g, hg, hnone⟩ := exists_parseFilter_of_disguised hdisguised
      obtain rfl : f = g := Option.some.inj (hf.symm.trans hg)
      exact hnone hmem
    · intro hnot
      obtain ⟨marker, hm, typed, value, -, -, rfl⟩ := documented_iff.2 ⟨hf, hnot⟩
      exact attribute_of_marker marker hm

example : parseFilter "@Title=a\nb".toList = some ⟨"@title", "STRINC", "a\nb"⟩ := by decide

/-- A long s in the marker of the size. -/
theorem parseFilter_documented_long_s :
    parseFilter "@ſize>5".toList = some ⟨"@ſize", "NUMGE", "5"⟩ ∧ Disguised "@ſize>5".toList := by
  have hread : parseFilter "@ſize>5".toList = some ⟨"@ſize", "NUMGE", "5"⟩ := by decide
  have hnone : "@ſize" ∉ attributes := by decide
  have hiff := (parseFilter_documented "@ſize>5".toList).2.2 _ hread
  exact ⟨hread, by_contra fun h => hnone (hiff.2 h)⟩

/-- Not every word that is read as a filter is documented to be one. -/
theorem parseFilter_not_documented :
    ¬ ∀ (word : List Char) (f : Filter), parseFilter word = some f ↔ Documented word f := by
  intro h
  have hread : parseFilter "@ſize>5".toList = some ⟨"@ſize", "NUMGE", "5"⟩ := by decide
  obtain ⟨marker, hm, typed, value, -, -, hf⟩ := (h _ _).1 hread
  have hnone : "@ſize" ∉ attributes := by decide
  have hfield : "@ſize" = String.ofList marker.dropLast := congrArg Filter.field hf
  exact hnone (hfield ▸ attribute_of_marker marker hm)

end IndexedMail.Query
