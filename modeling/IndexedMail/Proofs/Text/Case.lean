import IndexedMail.Text.Case

/-!
# Lower case

The small form of a single ASCII character stays in ASCII, and no other character gets there by
it.  In a text only a sigma asks what stands around it: without one, the text is put in lower case
character by character.
-/

namespace IndexedMail.Text

theorem toLower_cases (c : Char) :
    c.toLower = c ∨ (65 ≤ c.toNat ∧ c.toNat ≤ 90 ∧ c.toLower.toNat = c.toNat + 32) := by
  unfold Char.toLower
  split
  · rename_i h
    have hlow : 65 ≤ c.toNat := h.1
    have hhigh : c.toNat ≤ 90 := h.2
    refine .inr ⟨hlow, hhigh, ?_⟩
    change (c.val + 32).toNat = c.val.toNat + 32
    have hval : c.val.toNat ≤ 90 := hhigh
    have h32 : (32 : UInt32).toNat = 32 := rfl
    rw [UInt32.toNat_add]
    omega
  · exact .inl rfl

theorem ascii_of_toLower {c : Char} (h : c.toLower.toNat < 128) : c.toNat < 128 := by
  rcases toLower_cases c with hsame | ⟨_, hhigh, _⟩
  · rwa [hsame] at h
  · omega

theorem lowerAfter_eq_flatMap {cs : List Char} (h : 'Σ' ∉ cs) (before : List Char) :
    lowerAfter before cs = cs.flatMap lowerChar := by
  induction cs generalizing before with
  | nil => rfl
  | cons c rest ih =>
      rw [List.mem_cons, not_or] at h
      have hc : (c == 'Σ') = false := beq_eq_false_iff_ne.2 (Ne.symm h.1)
      simp [lowerAfter, hc, ih h.2]

theorem lower_eq_flatMap {cs : List Char} (h : 'Σ' ∉ cs) : lower cs = cs.flatMap lowerChar :=
  lowerAfter_eq_flatMap h []

theorem lower_cons {c : Char} (h : c ≠ 'Σ') (rest : List Char) :
    lower (c :: rest) = lowerChar c ++ lowerAfter [c] rest := by
  have hc : (c == 'Σ') = false := beq_eq_false_iff_ne.2 h
  simp [lower, lowerAfter, hc]

end IndexedMail.Text
