import IndexedMail.Proofs.Text.Utf8
import IndexedMail.Text.Lines
import IndexedMail.Text.Percent

/-!
# Percent coding undone

A text is coded by writing the characters of a chosen set as the escapes of all their bytes, and
all others as they are.  If the percent sign itself is chosen, decoding gives the text back.
-/

namespace IndexedMail.Text.Percent

/-- The escapes of bytes, with hexadecimal digits of either case. -/
inductive Escapes : List UInt8 → List Char → Prop
  | nil : Escapes [] []
  | cons {b : UInt8} {bytes : List UInt8} {high low : Char} {coded : List Char} :
      hexValue? high = some (b.toNat / 16) → hexValue? low = some (b.toNat % 16) →
        Escapes bytes coded → Escapes (b :: bytes) ('%' :: high :: low :: coded)

/-- A text and its coding, in which exactly the chosen characters are escaped. -/
inductive Coded (chosen : Char → Bool) : List Char → List Char → Prop
  | nil : Coded chosen [] []
  | literal {c : Char} {cs coded : List Char} :
      chosen c = false → Coded chosen cs coded → Coded chosen (c :: cs) (c :: coded)
  | escaped {c : Char} {cs escapes coded : List Char} :
      chosen c = true → Escapes (String.utf8EncodeChar c) escapes → Coded chosen cs coded →
        Coded chosen (c :: cs) (escapes ++ coded)

/-! ## Atoms of a coded text -/

theorem hexValue?_bounds {c : Char} {n : Nat} (h : hexValue? c = some n) :
    48 ≤ c.toNat ∧ c.toNat ≤ 102 := by
  unfold hexValue? at h
  simp only at h
  split_ifs at h <;> omega

theorem escaped?_of_digits {b : UInt8} {high low : Char}
    (hhigh : hexValue? high = some (b.toNat / 16)) (hlow : hexValue? low = some (b.toNat % 16)) :
    escaped? high low = some b := by
  have hsum : UInt8.ofNat (b.toNat / 16 * 16 + b.toNat % 16) = b := by
    rw [Nat.div_add_mod', UInt8.ofNat_toNat]
  simp only [escaped?, hhigh, hlow, Option.bind_eq_bind, Option.bind_some, hsum]
  rfl

theorem atoms_literal {c : Char} (h : c ≠ '%') (rest : List Char) :
    atoms (c :: rest) = Atom.ofChar c :: atoms rest := by
  simp only [atoms, atomsFrom]
  split
  · exact absurd rfl h
  · rfl

theorem atoms_escape {b : UInt8} {high low : Char} (rest : List Char)
    (hhigh : hexValue? high = some (b.toNat / 16)) (hlow : hexValue? low = some (b.toNat % 16)) :
    atoms ('%' :: high :: low :: rest) = Atom.byte b :: atoms rest := by
  simp only [atoms, atomsFrom, escaped?_of_digits hhigh hlow]

theorem atoms_escapes {bytes : List UInt8} {coded : List Char} (h : Escapes bytes coded)
    (rest : List Char) : atoms (coded ++ rest) = bytes.map Atom.byte ++ atoms rest := by
  induction h with
  | nil => rfl
  | cons hhigh hlow _ ih =>
      simp only [List.cons_append, List.map_cons]
      rw [atoms_escape _ hhigh hlow, ih]

/-! ## Settling -/

theorem settle_bytes (pending bytes : List UInt8) (rest : List Atom) :
    settle pending (bytes.map Atom.byte ++ rest) = settle (bytes.reverse ++ pending) rest := by
  induction bytes generalizing pending with
  | nil => rfl
  | cons b more ih => simp [settle, ih]

theorem utf8EncodeChar_of_lt {c : Char} (h : c.toNat < 128) :
    String.utf8EncodeChar c = [UInt8.ofNat c.toNat] := by
  have hle : c.toNat ≤ 127 := Nat.le_of_lt_succ h
  simp [String.utf8EncodeChar, hle]

/-- The bytes that wait are always those of a text, which stands before what is to come. -/
theorem settle_atoms_of_coded {chosen : Char → Bool} {cs coded : List Char}
    (hpercent : chosen '%' = true) (h : Coded chosen cs coded) (before : List Char) :
    settle (Utf8.encode before).reverse (atoms coded) = before ++ cs := by
  induction h generalizing before with
  | nil => simp [atoms, atomsFrom, settle, Utf8.decodeLossy_encode]
  | @literal c cs coded hc _ ih =>
      have hne : c ≠ '%' := by
        rintro rfl
        rw [hpercent] at hc
        cases hc
      rw [atoms_literal hne]
      by_cases hascii : c.toNat < 128
      · have hnext := ih (before ++ [c])
        rw [Utf8.encode_append, Utf8.encode_cons, utf8EncodeChar_of_lt hascii] at hnext
        simpa [Atom.ofChar, hascii, settle, Utf8.encode] using hnext
      · have hnext : settle [] (atoms coded) = cs := ih []
        simp [Atom.ofChar, hascii, settle, Utf8.decodeLossy_encode, hnext]
  | @escaped c cs escapes coded _ hescapes _ ih =>
      have hnext := ih (before ++ [c])
      rw [Utf8.encode_append, Utf8.encode_cons] at hnext
      rw [atoms_escapes hescapes, settle_bytes]
      simpa [Utf8.encode] using hnext

/-- Decoding gives back what was coded. -/
theorem decode_of_coded {chosen : Char → Bool} {cs coded : List Char}
    (hpercent : chosen '%' = true) (h : Coded chosen cs coded) : decode coded = cs := by
  have hsettle := settle_atoms_of_coded hpercent h []
  simpa [decode, Utf8.encode] using hsettle

/-! ## Characters of a coded text -/

theorem isLineEnd_of_mem_escapes {bytes : List UInt8} {coded : List Char}
    (h : Escapes bytes coded) {c : Char} (hc : c ∈ coded) : isLineEnd c = false := by
  have hsmall : ∀ d : Char, 14 ≤ d.toNat ∧ d.toNat ≤ 102 ∧ (28 ≤ d.toNat → 31 ≤ d.toNat) →
      isLineEnd d = false := by
    intro d hd
    simp only [isLineEnd, Bool.or_eq_false_iff, Bool.and_eq_false_iff, decide_eq_false_iff_not,
      beq_eq_false_iff_ne]
    omega
  induction h with
  | nil => exact absurd hc List.not_mem_nil
  | cons hhigh hlow _ ih =>
      have hh := hexValue?_bounds hhigh
      have hl := hexValue?_bounds hlow
      rcases List.mem_cons.1 hc with rfl | hc
      · rfl
      rcases List.mem_cons.1 hc with rfl | hc
      · exact hsmall _ (by omega)
      rcases List.mem_cons.1 hc with rfl | hc
      · exact hsmall _ (by omega)
      · exact ih hc

/-- If all line ends are chosen, the coding is free of them. -/
theorem isLineEnd_of_mem_coded {chosen : Char → Bool} {cs coded : List Char}
    (hends : ∀ c, isLineEnd c = true → chosen c = true) (h : Coded chosen cs coded) {c : Char}
    (hc : c ∈ coded) : isLineEnd c = false := by
  induction h with
  | nil => exact absurd hc List.not_mem_nil
  | @literal d cs coded hd _ ih =>
      rcases List.mem_cons.1 hc with rfl | hc
      · cases hl : isLineEnd c with
        | false => rfl
        | true =>
            rw [hends c hl] at hd
            cases hd
      · exact ih hc
  | escaped _ hescapes _ ih =>
      rcases List.mem_append.1 hc with hc | hc
      · exact isLineEnd_of_mem_escapes hescapes hc
      · exact ih hc

theorem coded_ne_nil {chosen : Char → Bool} {cs coded : List Char} (h : Coded chosen cs coded)
    (hne : cs ≠ []) : coded ≠ [] := by
  cases h with
  | nil => exact absurd rfl hne
  | literal _ _ => exact List.cons_ne_nil _ _
  | @escaped c cs escapes coded _ hescapes _ =>
      obtain ⟨b, more, hbytes, -⟩ := Utf8.exists_piece_utf8EncodeChar c
      rw [hbytes] at hescapes
      cases hescapes
      simp

/-- A text without chosen characters is its own coding. -/
theorem coded_self {chosen : Char → Bool} {cs : List Char} (h : ∀ c ∈ cs, chosen c = false) :
    Coded chosen cs cs := by
  induction cs with
  | nil => exact Coded.nil
  | cons c rest ih =>
      exact Coded.literal (h c List.mem_cons_self)
        (ih fun d hd => h d (List.mem_cons_of_mem _ hd))

end IndexedMail.Text.Percent
