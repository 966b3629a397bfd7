import IndexedMail.Proofs.Listing.Printed
import Mathlib.Data.List.Infix

/-!
# Directories and their groups

A directory is written as its components, each behind a slash.  Its group is what is left when the
components of the mail directory are taken off; a directory that is not below the mail directory
is its own group.  So no component is ever cut, and a group tells its directory.
-/

namespace IndexedMail.Listing

/-- A component of a path. -/
structure Component where
  text : List Char
  ne_nil : text ≠ []
  slash_not_mem : '/' ∉ text
  deriving DecidableEq

/-- Components with a slash between any two. -/
def joined (cs : List Component) : List Char :=
  ['/'].intercalate (cs.map Component.text)

/-- The directory of components. -/
def directory (cs : List Component) : List Char :=
  '/' :: joined cs

/-- The ways to write a mail directory: with a slash at its end, or without one. -/
inductive WritesRoot (ps : List Component) : List Char → Prop
  | bare : WritesRoot ps (directory ps)
  | slashed : ps ≠ [] → WritesRoot ps (directory ps ++ ['/'])

/-- Components with a slash behind each. -/
def ended (cs : List Component) : List Char :=
  cs.flatMap fun c => c.text ++ ['/']

/-! ## Joined components -/

theorem joined_append_slash {cs : List Component} (h : cs ≠ []) :
    joined cs ++ ['/'] = ended cs := by
  rw [joined, Text.intercalate_append (by simpa using h), List.flatMap_map]
  rfl

theorem joined_concat (cs : List Component) (c : Component) :
    joined (cs ++ [c]) = ended cs ++ c.text := by
  have h := joined_append_slash (List.concat_ne_nil c cs)
  simp only [ended, List.flatMap_append, List.flatMap_singleton, ← List.append_assoc] at h
  exact List.append_cancel_right h

theorem getLast?_joined (cs : List Component) : (joined cs).getLast? ≠ some '/' := by
  rcases List.eq_nil_or_concat cs with rfl | ⟨init, c, rfl⟩
  · simp [joined]
  · rw [List.concat_eq_append, joined_concat, List.getLast?_append_of_ne_nil _ c.ne_nil]
    exact fun hlast => c.slash_not_mem (List.mem_of_getLast? hlast)

theorem head?_joined (cs : List Component) : (joined cs).head? ≠ some '/' := by
  cases cs with
  | nil => simp [joined]
  | cons c rest =>
      have hhead : (joined (c :: rest)).head? = c.text.head? := by
        cases rest with
        | nil => simp [joined]
        | cons d more =>
            rw [joined, List.map_cons, List.map_cons, List.intercalate_cons_cons, List.append_assoc,
              List.head?_append_of_ne_nil _ c.ne_nil]
      rw [hhead]
      exact fun h => c.slash_not_mem (List.mem_of_head? h)

theorem trimSlashes_ended (cs : List Component) : trimSlashes (ended cs) = joined cs := by
  cases cs with
  | nil => rfl
  | cons c rest =>
      rw [← joined_append_slash (List.cons_ne_nil c rest), trimSlashes_slash,
        trimSlashes_of_getLast? (getLast?_joined _)]

theorem takeWhile_text_append (c : Component) (tail : List Char) :
    (c.text ++ '/' :: tail).takeWhile (· != '/') = c.text := by
  rw [List.takeWhile_append_of_pos, List.takeWhile_cons_of_neg (by simp), List.append_nil]
  intro x hx
  rw [bne_iff_ne]
  rintro rfl
  exact c.slash_not_mem hx

theorem eq_of_text_append {c d : Component} {tail other : List Char}
    (h : c.text ++ '/' :: tail = d.text ++ '/' :: other) : c = d ∧ tail = other := by
  have htext : c.text = d.text := by
    rw [← takeWhile_text_append c tail, h, takeWhile_text_append]
  rw [htext] at h
  refine ⟨?_, (List.cons.inj (List.append_cancel_left h)).2⟩
  cases c
  cases d
  cases htext
  rfl

/-- One list of components begins with another exactly if their texts do, each ended by a slash. -/
theorem ended_eq_append_iff {cs ps : List Component} {tail : List Char} :
    ended cs = ended ps ++ tail ↔ ∃ rest, cs = ps ++ rest ∧ tail = ended rest := by
  constructor
  · intro h
    induction ps generalizing cs with
    | nil => exact ⟨cs, rfl, h.symm⟩
    | cons p ps ih =>
        cases cs with
        | nil => simp [ended] at h
        | cons c cs =>
            have hsplit : c.text ++ '/' :: ended cs = p.text ++ '/' :: (ended ps ++ tail) := by
              simpa [ended] using h
            obtain ⟨rfl, hrest⟩ := eq_of_text_append hsplit
            obtain ⟨rest, rfl, htail⟩ := ih hrest
            exact ⟨rest, rfl, htail⟩
  · rintro ⟨rest, rfl, rfl⟩
    exact List.flatMap_append

theorem ended_injective {cs ds : List Component} (h : ended cs = ended ds) : cs = ds := by
  obtain ⟨rest, rfl, hnil⟩ := ended_eq_append_iff.1 (h.trans (List.append_nil _).symm)
  cases rest with
  | nil => rw [List.append_nil]
  | cons c rest => simp [ended] at hnil

theorem joined_eq_nil_iff {cs : List Component} : joined cs = [] ↔ cs = [] := by
  rcases List.eq_nil_or_concat cs with rfl | ⟨init, c, rfl⟩
  · simp [joined]
  · rw [List.concat_eq_append, joined_concat]
    simp [c.ne_nil]

theorem joined_injective {cs ds : List Component} (h : joined cs = joined ds) : cs = ds := by
  by_cases hcs : cs = []
  · rw [hcs] at h ⊢
    exact (joined_eq_nil_iff.1 h.symm).symm
  · have hds : ds ≠ [] := fun hnil => hcs (joined_eq_nil_iff.1 (h.trans (joined_eq_nil_iff.2 hnil)))
    apply ended_injective
    rw [← joined_append_slash hcs, h, joined_append_slash hds]

/-! ## Groups of directories -/

theorem getLast?_directory {cs : List Component} (h : cs ≠ []) :
    (directory cs).getLast? ≠ some '/' := by
  have hjoined : joined cs ≠ [] := fun hnil => h (joined_eq_nil_iff.1 hnil)
  rw [directory, List.getLast?_cons_of_ne_nil hjoined]
  exact getLast?_joined cs

theorem directory_append_slash {cs : List Component} (h : cs ≠ []) :
    directory cs ++ ['/'] = '/' :: ended cs := by
  rw [directory, List.cons_append, joined_append_slash h]

theorem removes_of_writesRoot {ps : List Component} {removed : List Char}
    (h : WritesRoot ps removed) : Removes ('/' :: ended ps) removed := by
  by_cases hps : ps = []
  · subst hps
    cases h with
    | bare => exact .whole
    | slashed hne => exact absurd rfl hne
  · rw [← directory_append_slash hps]
    cases h with
    | bare => exact .unslashed (List.cons_ne_nil _ _) (getLast?_directory hps) rfl
    | slashed => exact .whole

theorem getLast?_cons_ended (ps : List Component) : ('/' :: ended ps).getLast? = some '/' := by
  by_cases hps : ps = []
  · subst hps
    rfl
  · rw [← directory_append_slash hps, List.getLast?_concat]

theorem after?_ended_eq_some_iff {cs ps : List Component} {tail : List Char} :
    after? ('/' :: ended ps) ('/' :: ended cs) = some tail ↔
      ∃ rest, cs = ps ++ rest ∧ tail = ended rest := by
  rw [after?_eq_some_iff, List.cons_append, List.cons_inj_right, ended_eq_append_iff]

section Directory

variable {cs ps : List Component} {removed : List Char}

theorem groupName_of_below (h : WritesRoot ps removed) {rest : List Component}
    (hcs : cs ≠ []) (hbelow : cs = ps ++ rest) :
    groupName (directory cs) removed = joined rest := by
  have hafter := after?_ended_eq_some_iff.2 ⟨rest, hbelow, rfl⟩
  rw [groupName_eq (getLast?_cons_ended ps) (removes_of_writesRoot h) (getLast?_directory hcs),
    directory_append_slash hcs, hafter]
  exact trimSlashes_ended rest

theorem groupName_of_not_below (h : WritesRoot ps removed) (hcs : cs ≠ []) (hbelow : ¬ ps <+: cs) :
    groupName (directory cs) removed = directory cs := by
  have hafter : after? ('/' :: ended ps) ('/' :: ended cs) = none := by
    rw [Option.eq_none_iff_forall_ne_some]
    intro tail htail
    obtain ⟨rest, hrest, -⟩ := after?_ended_eq_some_iff.1 htail
    exact hbelow ⟨rest, hrest.symm⟩
  rw [groupName_eq (getLast?_cons_ended ps) (removes_of_writesRoot h) (getLast?_directory hcs),
    directory_append_slash hcs, hafter]
  rfl

theorem groupName_nil (hcs : cs ≠ []) : groupName (directory cs) [] = directory cs := by
  simp [groupName, trimSlashes_slash, trimSlashes_of_getLast? (getLast?_directory hcs)]

/-- A group that is left of a directory does not begin with a slash, as directories do. -/
theorem joined_ne_directory (rest cs : List Component) : joined rest ≠ directory cs := by
  intro h
  exact head?_joined rest (h ▸ rfl)

/-- Different directories have different groups. -/
theorem eq_of_groupName_eq (h : WritesRoot ps removed) {ds : List Component} (hcs : cs ≠ [])
    (hds : ds ≠ []) (heq : groupName (directory cs) removed = groupName (directory ds) removed) :
    cs = ds := by
  by_cases hc : ps <+: cs
  · obtain ⟨rest, rfl⟩ := hc
    rw [groupName_of_below h hcs rfl] at heq
    by_cases hd : ps <+: ds
    · obtain ⟨other, rfl⟩ := hd
      rw [groupName_of_below h hds rfl] at heq
      rw [joined_injective heq]
    · rw [groupName_of_not_below h hds hd] at heq
      exact absurd heq (joined_ne_directory _ _)
  · rw [groupName_of_not_below h hcs hc] at heq
    by_cases hd : ps <+: ds
    · obtain ⟨other, rfl⟩ := hd
      rw [groupName_of_below h hds rfl] at heq
      exact absurd heq.symm (joined_ne_directory _ _)
    · rw [groupName_of_not_below h hds hd] at heq
      exact joined_injective (List.cons.inj heq).2

/--
The group of a directory is what is left of its components behind those of the mail directory,
and the directory itself if the mail directory's components are not the first of its own, or if
nothing is to be taken off.  Different directories have different groups.
-/
theorem groupName_directory (h : WritesRoot ps removed) (hcs : cs ≠ []) :
    (∀ rest, cs = ps ++ rest → groupName (directory cs) removed = joined rest) ∧
    (¬ ps <+: cs → groupName (directory cs) removed = directory cs) ∧
    groupName (directory cs) [] = directory cs ∧
    ∀ ds : List Component, ds ≠ [] → ds ≠ cs →
      groupName (directory ds) removed ≠ groupName (directory cs) removed := by
  refine ⟨fun rest hbelow => ?_, fun hbelow => ?_, groupName_nil hcs, fun ds hds hne heq => ?_⟩
  · exact groupName_of_below h hcs hbelow
  · exact groupName_of_not_below h hcs hbelow
  · exact hne (eq_of_groupName_eq h hds hcs heq)

end Directory

/-- A directory of mail. -/
def mailComponents : List Component :=
  [⟨['j'], by decide, by decide⟩, ⟨['M', 'a', 'i', 'l'], by decide, by decide⟩]

/-- A directory beside it, whose last component begins with the same letters. -/
def mailboxComponents : List Component :=
  [⟨['j'], by decide, by decide⟩, ⟨['M', 'a', 'i', 'l', 'b', 'o', 'x'], by decide, by decide⟩]

theorem groupName_directory_mail :
    let removed := directory mailComponents ++ ['/']
    WritesRoot mailComponents removed ∧ mailComponents ≠ [] ∧ mailboxComponents ≠ [] ∧
    removed = ['/', 'j', '/', 'M', 'a', 'i', 'l', '/'] ∧
    ¬ mailComponents <+: mailboxComponents ∧
    groupName (directory mailComponents) removed = [] ∧
    groupName (directory mailboxComponents) removed = directory mailboxComponents := by
  intro removed
  have hmail : mailComponents ≠ [] := List.cons_ne_nil _ _
  have hmailbox : mailboxComponents ≠ [] := List.cons_ne_nil _ _
  have h : WritesRoot mailComponents removed := .slashed hmail
  have hbeside : ¬ mailComponents <+: mailboxComponents := by decide
  obtain ⟨hbelow, -⟩ := groupName_directory h hmail
  obtain ⟨-, hnot, -⟩ := groupName_directory h hmailbox
  exact ⟨h, hmail, hmailbox, rfl, hbeside, hbelow [] (List.append_nil _).symm, hnot hbeside⟩

end IndexedMail.Listing
