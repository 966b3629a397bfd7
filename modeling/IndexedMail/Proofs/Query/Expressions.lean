import IndexedMail.Proofs.Query.Markers
import IndexedMail.Query.Criteria

/-!
# Filters read back

The expression for a filter is cut at its first two spaces to get the filter back: neither the
attribute of a filter that was read from a query nor its keyword has a space in it.  So pairs of a
switch and an expression tell the filters that they were written for, whatever the values are.
-/

namespace IndexedMail.Query

/-! ## Expressions -/

/-- Cut a text at its first space, which is left out. -/
def cutAtSpace (cs : List Char) : List Char × List Char :=
  (cs.takeWhile (· != ' '), (cs.dropWhile (· != ' ')).drop 1)

theorem cutAtSpace_append {cs : List Char} (h : ' ' ∉ cs) (rest : List Char) :
    cutAtSpace (cs ++ ' ' :: rest) = (cs, rest) := by
  have hall : ∀ c ∈ cs, (c != ' ') = true := by
    intro c hc
    rw [bne_iff_ne]
    rintro rfl
    exact h hc
  simp [cutAtSpace, List.takeWhile_append_of_pos hall, List.dropWhile_append_of_pos hall]

namespace Filter

/-- The filter that an expression is for. -/
def ofExpression (expression : String) : Filter :=
  let (field, rest) := cutAtSpace expression.toList
  let (keyword, value) := cutAtSpace rest
  { field := String.ofList field, keyword := String.ofList keyword, value := String.ofList value }

theorem ofExpression_render {f : Filter} (hfield : ' ' ∉ f.field.toList)
    (hkeyword : ' ' ∉ f.keyword.toList) : ofExpression f.render = f := by
  have hparts : f.render.toList =
      f.field.toList ++ ' ' :: (f.keyword.toList ++ ' ' :: f.value.toList) := by
    simp [render]
  simp [ofExpression, hparts, cutAtSpace_append hfield, cutAtSpace_append hkeyword]

end Filter

/-! ## Filters of queries -/

theorem markers_spaceless : ∀ marker ∈ markers, ' ' ∉ marker := by decide

theorem space_not_mem_lowerChar {c : Char} (hascii : (folded c).toNat < 128)
    (hspace : folded c ≠ ' ') : ' ' ∉ Text.lowerChar c := by
  by_cases hc : c ∈ disguises
  · rcases mem_disguises.1 hc with rfl | rfl | rfl <;> decide
  · rw [folded_of_not_mem hc] at hascii hspace
    rw [Text.lowerChar_of_ascii (Text.ascii_of_toLower hascii)]
    simpa using Ne.symm hspace

theorem space_not_mem_lower {typed marker : List Char} (hm : marker ∈ markers)
    (hmap : typed.map folded = marker) : ' ' ∉ Text.lower typed := by
  have hascii := markers_ascii marker hm
  rw [Text.lower_eq_flatMap (not_mem_of_folded_ascii hmap hascii), List.mem_flatMap]
  rintro ⟨c, hc, hspace⟩
  have hfolded : folded c ∈ marker := hmap ▸ List.mem_map_of_mem hc
  refine space_not_mem_lowerChar (hascii _ hfolded) ?_ hspace
  exact fun heq => markers_spaceless marker hm (heq ▸ hfolded)

theorem space_not_mem_keywordOf (marker : List Char) : ' ' ∉ (keywordOf marker).toList := by
  unfold keywordOf
  split_ifs <;> decide

theorem ofExpression_render_of_parseFilter {word : List Char} {f : Filter}
    (h : parseFilter word = some f) : Filter.ofExpression f.render = f := by
  obtain ⟨marker, hm, typed, value, -, hmap, rfl⟩ := parseFilter_eq_some_iff.1 h
  refine Filter.ofExpression_render ?_ (space_not_mem_keywordOf marker)
  rw [String.toList_ofList]
  exact fun hmem => space_not_mem_lower hm hmap (List.dropLast_subset _ hmem)

/-! ## Pairs of a switch and an expression -/

/-- The filters that stand behind switches, if there is nothing else. -/
def readFilters? (switch : String) : List String → Option (List Filter)
  | [] => some []
  | [_] => none
  | found :: expression :: rest =>
      if found = switch then
        (readFilters? switch rest).map (Filter.ofExpression expression :: ·)
      else none

theorem readFilters?_flatMap {filters : List Filter}
    (h : ∀ f ∈ filters, Filter.ofExpression f.render = f) (switch : String) :
    readFilters? switch (filters.flatMap fun f => [switch, f.render]) = some filters := by
  induction filters with
  | nil => rfl
  | cons f rest ih =>
      rw [List.forall_mem_cons] at h
      rw [List.flatMap_cons, List.cons_append, List.cons_append, List.nil_append, readFilters?,
        if_pos rfl, ih h.2, h.1]
      rfl

namespace Criteria

theorem ofExpression_render_of_ofWords {tokens : List String} :
    ∀ f ∈ (ofWords tokens).filters, Filter.ofExpression f.render = f := by
  intro f hf
  obtain ⟨t, -, ht⟩ := List.mem_filterMap.1 hf
  exact ofExpression_render_of_parseFilter ht

/-- The arguments for the filters of a query tell these filters. -/
theorem readFilters?_attributeArguments {query : String} {c : Criteria}
    (h : ofQuery query = .ok c) (switch : String) :
    readFilters? switch (c.attributeArguments switch) = some c.filters := by
  obtain ⟨tokens, -, rfl⟩ := ofQuery_eq_ok_iff.1 h
  exact readFilters?_flatMap ofExpression_render_of_ofWords switch

example : Filter.ofExpression "@title STRINC -attr @size NUMGE 5" =
    ⟨"@title", "STRINC", "-attr @size NUMGE 5"⟩ := by decide

end Criteria

end IndexedMail.Query
