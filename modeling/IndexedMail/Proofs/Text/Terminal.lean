import IndexedMail.Proofs.Text.Lines
import IndexedMail.Text.Terminal
import Mathlib.Data.List.Infix
import Mathlib.Data.List.TakeWhile

/-!
# What is left out of a text

A text without commands for terminals is what it was exactly if there was no command in it.  No
command reaches over a space or a line feed, so a line of several parts has one only in a part.
-/

namespace IndexedMail.Text.Terminal

/-! ## Commands -/

/-- A command as a whole, from the escape character to the letter. -/
def IsCommand (cs : List Char) : Prop :=
  ∃ parameters letter, cs = escapeChar :: '[' :: (parameters ++ [letter]) ∧
    (∀ p ∈ parameters, isParameter p = true) ∧ letter.isAlpha = true

/-- Somewhere in a text there is a command. -/
def HasCommand (cs : List Char) : Prop :=
  ∃ command, IsCommand command ∧ command <:+: cs

theorem not_hasCommand_of_not_mem {cs : List Char} (h : escapeChar ∉ cs) : ¬ HasCommand cs := by
  rintro ⟨_, ⟨parameters, letter, rfl, -, -⟩, before, after, rfl⟩
  exact h (by simp)

theorem not_hasCommand_nil : ¬ HasCommand [] :=
  not_hasCommand_of_not_mem List.not_mem_nil

theorem toNat_of_isDigit {c : Char} (h : c.isDigit = true) : 48 ≤ c.toNat ∧ c.toNat ≤ 57 := by
  obtain ⟨hlow, hhigh⟩ := Bool.and_eq_true_iff.1 h
  exact ⟨of_decide_eq_true hlow, of_decide_eq_true hhigh⟩

theorem toNat_of_isAlpha {c : Char} (h : c.isAlpha = true) :
    (65 ≤ c.toNat ∧ c.toNat ≤ 90) ∨ (97 ≤ c.toNat ∧ c.toNat ≤ 122) := by
  rcases Bool.or_eq_true_iff.1 h with hupper | hlower
  · exact .inl (of_decide_eq_true hupper)
  · obtain ⟨hlow, hhigh⟩ := Bool.and_eq_true_iff.1 hlower
    exact .inr ⟨of_decide_eq_true hlow, of_decide_eq_true hhigh⟩

theorem isParameter_of_isAlpha {c : Char} (h : c.isAlpha = true) : isParameter c = false := by
  have hletter := toNat_of_isAlpha h
  cases hparameter : isParameter c with
  | false => rfl
  | true =>
      simp only [isParameter, Bool.or_eq_true, beq_iff_eq] at hparameter
      rcases hparameter with (rfl | rfl) | hdigit
      · exact absurd h (by decide)
      · exact absurd h (by decide)
      · have hrange := toNat_of_isDigit hdigit
        omega

theorem takeWhile_isParameter {parameters : List Char}
    (h : ∀ p ∈ parameters, isParameter p = true) {letter : Char} (hletter : letter.isAlpha = true)
    (after : List Char) :
    (parameters ++ letter :: after).takeWhile isParameter = parameters := by
  rw [List.takeWhile_append_of_pos h, List.takeWhile_cons_of_neg
    (by simp [isParameter_of_isAlpha hletter]), List.append_nil]

theorem drop_takeWhile (more : List Char) :
    more.drop (more.takeWhile isParameter).length = more.dropWhile isParameter := by
  conv_lhs =>
    arg 2
    rw [← List.takeWhile_append_dropWhile (p := isParameter) (l := more)]
  exact List.drop_left

/-- Behind an escape character there is the rest of a command exactly if a length is found. -/
theorem isSome_commandLength?_iff {rest : List Char} :
    (commandLength? rest).isSome = true ↔
      ∃ command, IsCommand command ∧ command <+: escapeChar :: rest := by
  constructor
  · intro h
    unfold commandLength? at h
    split at h
    · rename_i more
      dsimp only at h
      split at h
      · rename_i letter after hdrop
        split at h
        · rename_i hletter
          have hmore := List.takeWhile_append_dropWhile (p := isParameter) (l := more)
          rw [← drop_takeWhile, hdrop] at hmore
          refine ⟨_, ⟨more.takeWhile isParameter, letter, rfl, ?_, hletter⟩, after, ?_⟩
          · exact fun p hp => List.mem_takeWhile_imp hp
          · simpa using hmore
        · cases h
      · cases h
    · cases h
  · rintro ⟨_, ⟨parameters, letter, rfl, hparameters, hletter⟩, after, hrest⟩
    obtain rfl : rest = '[' :: (parameters ++ letter :: after) := by simpa using hrest.symm
    simp [commandLength?, takeWhile_isParameter hparameters hletter, hletter]

/-! ## Texts that keep their commands -/

theorem length_plainFrom_le (skip : Nat) (cs : List Char) :
    (plainFrom skip cs).length ≤ cs.length := by
  fun_induction plainFrom skip cs with
  | case1 => exact Nat.le_refl _
  | case2 skip c rest ih => exact Nat.le_succ_of_le ih
  | case3 c rest hc length hlength ih => exact Nat.le_succ_of_le ih
  | case4 c rest hc hlength ih => exact Nat.succ_le_succ ih
  | case5 c rest hc ih => exact Nat.succ_le_succ ih

theorem hasCommand_cons_iff {c : Char} {rest : List Char} :
    HasCommand (c :: rest) ↔
      (c = escapeChar ∧ (commandLength? rest).isSome = true) ∨ HasCommand rest := by
  rw [isSome_commandLength?_iff]
  constructor
  · rintro ⟨command, hcommand, hinfix⟩
    rcases List.infix_cons_iff.1 hinfix with hprefix | hinfix
    · obtain ⟨_, _, rfl, -, -⟩ := id hcommand
      obtain rfl := (List.cons_prefix_cons.1 hprefix).1
      exact .inl ⟨rfl, _, hcommand, hprefix⟩
    · exact .inr ⟨command, hcommand, hinfix⟩
  · rintro (⟨rfl, command, hcommand, hprefix⟩ | ⟨command, hcommand, hinfix⟩)
    · exact ⟨command, hcommand, hprefix.isInfix⟩
    · exact ⟨command, hcommand, List.infix_cons hinfix⟩

/-- What is passed over is missing from the text, so the two are told apart by length. -/
theorem length_plainFrom_lt {cs : List Char} (h : HasCommand cs) :
    (plainFrom 0 cs).length < cs.length := by
  induction cs with
  | nil => exact absurd h not_hasCommand_nil
  | cons c rest ih =>
      rw [plainFrom]
      split
      · rename_i hc
        split
        · rename_i length hlength
          exact Nat.lt_succ_of_le (length_plainFrom_le length rest)
        · rename_i hnone
          have hrest := (hasCommand_cons_iff.1 h).resolve_left (by simp [hnone])
          exact Nat.succ_lt_succ (ih hrest)
      · rename_i hc
        have hrest := (hasCommand_cons_iff.1 h).resolve_left fun hfirst => hc (by simp [hfirst.1])
        exact Nat.succ_lt_succ (ih hrest)

theorem plainFrom_of_not_hasCommand {cs : List Char} (h : ¬ HasCommand cs) :
    plainFrom 0 cs = cs := by
  induction cs with
  | nil => rfl
  | cons c rest ih =>
      rw [hasCommand_cons_iff, not_or, not_and] at h
      rw [plainFrom, ih h.2]
      split
      · rename_i hc
        have hnone : commandLength? rest = none := by simpa using h.1 (by simpa using hc)
        rw [hnone]
      · rfl

theorem plain_eq_self_iff {s : String} : plain s = s ↔ ¬ HasCommand s.toList := by
  constructor
  · intro h hcommand
    have hlist : plainFrom 0 s.toList = s.toList := by
      rw [← String.toList_ofList (l := plainFrom 0 s.toList)]
      exact congrArg String.toList h
    exact Nat.lt_irrefl _ (hlist ▸ length_plainFrom_lt hcommand)
  · intro h
    rw [plain, plainFrom_of_not_hasCommand h, String.ofList_toList]

/-! ## Lines of several parts -/

/-- A character that is in no command divides the commands of a text. -/
theorem hasCommand_append_cons_iff {c : Char} (hc : ∀ command, IsCommand command → c ∉ command)
    {cs rest : List Char} :
    HasCommand (cs ++ c :: rest) ↔ HasCommand cs ∨ HasCommand rest := by
  have hescape : c ≠ escapeChar := by
    rintro rfl
    exact hc [escapeChar, '[', 'm'] ⟨[], 'm', rfl, by simp, by decide⟩ List.mem_cons_self
  have hrest : HasCommand (c :: rest) ↔ HasCommand rest := by
    rw [hasCommand_cons_iff]
    exact or_iff_right fun h => hescape h.1
  constructor
  · rintro ⟨command, hcommand, hinfix⟩
    rcases List.infix_append_iff.1 hinfix with hleft | hright | ⟨left, right, rfl, hleft, hright⟩
    · exact .inl ⟨command, hcommand, hleft⟩
    · exact .inr (hrest.1 ⟨command, hcommand, hright⟩)
    · cases right with
      | nil =>
          rw [List.append_nil] at hcommand
          exact .inl ⟨left, hcommand, hleft.isInfix⟩
      | cons d more =>
          obtain rfl := (List.cons_prefix_cons.1 hright).1
          exact absurd (by simp) (hc _ hcommand)
  · rintro (⟨command, hcommand, hinfix⟩ | h)
    · exact ⟨command, hcommand, hinfix.trans (List.prefix_append _ _).isInfix⟩
    · obtain ⟨command, hcommand, hinfix⟩ := hrest.2 h
      exact ⟨command, hcommand, hinfix.trans (List.suffix_append _ _).isInfix⟩

theorem not_mem_command {c : Char} (hescape : c ≠ escapeChar) (hbracket : c ≠ '[')
    (hparameter : isParameter c = false) (hletter : c.isAlpha = false) :
    ∀ command, IsCommand command → c ∉ command := by
  rintro _ ⟨parameters, letter, rfl, hparameters, hlast⟩ hmem
  simp only [List.mem_cons, List.mem_append, List.not_mem_nil, or_false] at hmem
  rcases hmem with rfl | rfl | hmem | rfl
  · exact hescape rfl
  · exact hbracket rfl
  · simp [hparameters c hmem] at hparameter
  · simp [hlast] at hletter

theorem hasCommand_intercalate_iff {parts : List (List Char)} :
    HasCommand ([' '].intercalate parts) ↔ ∃ p ∈ parts, HasCommand p := by
  have hspace := not_mem_command (c := ' ') (by decide) (by decide) (by decide) (by decide)
  induction parts with
  | nil => simpa using not_hasCommand_nil
  | cons p rest ih =>
      cases rest with
      | nil => simp
      | cons q more =>
          rw [List.intercalate_cons_cons, List.append_assoc, List.singleton_append,
            hasCommand_append_cons_iff hspace, List.exists_mem_cons_iff]
          exact or_congr_right ih

/-- A line of parts with spaces between them has a command exactly if one of its parts has. -/
theorem hasCommand_line_iff {parts : List (List Char)} :
    HasCommand ([' '].intercalate parts ++ ['\n']) ↔ ∃ p ∈ parts, HasCommand p := by
  have hfeed := not_mem_command (c := '\n') (by decide) (by decide) (by decide) (by decide)
  rw [hasCommand_append_cons_iff hfeed, or_iff_left not_hasCommand_nil, hasCommand_intercalate_iff]

end IndexedMail.Text.Terminal
