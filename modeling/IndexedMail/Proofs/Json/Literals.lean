import IndexedMail.Json.Reader
import IndexedMail.Json.Writer
import IndexedMail.Proofs.Text.Numeral
import Mathlib.Data.List.TakeWhile

/-!
# Literals that are read back

What is written for a text is read as that text, whatever characters it holds, and what is written
for a whole number as that number, unless it has too many digits.
-/

namespace IndexedMail.Json

/-! ## String literals -/

theorem hexQuad?_append {ds : List Char} (h : ds.length = 4) (rest : List Char) :
    hexQuad? (ds ++ rest) = hexQuad? ds := by
  match ds, h with
  | [_, _, _, _], _ => rfl

/-- A numbered escape of a control character, which is no half of a pair, is read alone. -/
theorem unicodeEscape_hexDigits {n : Nat} (h : n < 0x20) {tail : List Char} (htail : tail ≠ []) :
    unicodeEscape ('u' :: (Text.hexDigits 4 n ++ tail)) = .ok (.char (Char.ofNat n), 5) := by
  have hall : ∀ n < 0x20, hexQuad? (Text.hexDigits 4 n) = some n ∧ isHighHalf n = false ∧
      unitPoint n = .char (Char.ofNat n) := by decide
  obtain ⟨hquad, hhalf, hunit⟩ := hall n h
  have hlength : (Text.hexDigits 4 n).length = 4 := Text.hexDigits_length 4 n
  have hmore : ¬ ((Text.hexDigits 4 n ++ tail).take 5).length ≤ 4 := by
    have hpos := List.length_pos_iff.2 htail
    rw [List.length_take, List.length_append, hlength]
    omega
  have hafter : (Text.hexDigits 4 n ++ tail).drop 4 = tail := by
    rw [List.drop_append_of_le_length (by omega), List.drop_of_length_le (by omega)]
    rfl
  simp only [unicodeEscape, List.drop_one, List.tail_cons, if_neg hmore, hexQuad?_append hlength,
    hquad, hafter, hhalf, Bool.false_and, Bool.false_eq_true, if_false, hunit]
  split <;> rfl

theorem stringFrom_append (opening skipped tail : List Char) :
    stringFrom opening skipped.length (skipped ++ tail) = stringFrom opening 0 tail := by
  induction skipped with
  | nil => rfl
  | cons c rest ih => exact ih

theorem stringFrom_shortEscape (opening : List Char) {letter c : Char} (hu : letter ≠ 'u')
    (h : shortEscape? letter = some c) (tail : List Char) :
    stringFrom opening 0 ('\\' :: letter :: tail) =
      (stringFrom opening 0 tail).map fun (s, after) => (.char c :: s, after) := by
  simp [stringFrom, hu, h]

theorem stringFrom_unicodeEscape (opening : List Char) {n : Nat} (h : n < 0x20)
    {tail : List Char} (htail : tail ≠ []) :
    stringFrom opening 0 ('\\' :: 'u' :: (Text.hexDigits 4 n ++ tail)) =
      (stringFrom opening 0 tail).map fun (s, after) => (.char (Char.ofNat n) :: s, after) := by
  have hskip := stringFrom_append opening (Text.hexDigits 4 n) tail
  rw [Text.hexDigits_length] at hskip
  simp [stringFrom, unicodeEscape_hexDigits h htail, hskip]

theorem stringFrom_plain (opening : List Char) {c : Char} (hquote : c ≠ '"') (hslash : c ≠ '\\')
    (h : ¬ c.toNat < 0x20) (tail : List Char) :
    stringFrom opening 0 (c :: tail) =
      (stringFrom opening 0 tail).map fun (s, after) => (.char c :: s, after) := by
  simp [stringFrom, hquote, hslash, h]

/-- How one character is written: by a letter of its own, by its number, or as it is. -/
theorem escapeChar_cases (c : Char) :
    (∃ letter, letter ≠ 'u' ∧ letter ≠ '\r' ∧ shortEscape? letter = some c ∧
        escapeChar c = ['\\', letter]) ∨
      (c.toNat < 0x20 ∧ escapeChar c = '\\' :: 'u' :: Text.hexDigits 4 c.toNat) ∨
      (c ≠ '"' ∧ c ≠ '\\' ∧ ¬ c.toNat < 0x20 ∧ escapeChar c = [c]) := by
  unfold escapeChar
  split_ifs with hquote hslash hfeed hreturn htab hback hform hcontrol
  · obtain rfl := beq_iff_eq.1 hquote
    exact .inl ⟨'"', by decide, by decide, rfl, rfl⟩
  · obtain rfl := beq_iff_eq.1 hslash
    exact .inl ⟨'\\', by decide, by decide, rfl, rfl⟩
  · obtain rfl := beq_iff_eq.1 hfeed
    exact .inl ⟨'n', by decide, by decide, rfl, rfl⟩
  · obtain rfl := beq_iff_eq.1 hreturn
    exact .inl ⟨'r', by decide, by decide, rfl, rfl⟩
  · obtain rfl := beq_iff_eq.1 htab
    exact .inl ⟨'t', by decide, by decide, rfl, rfl⟩
  · obtain rfl := beq_iff_eq.1 hback
    exact .inl ⟨'b', by decide, by decide, rfl, rfl⟩
  · obtain rfl := beq_iff_eq.1 hform
    exact .inl ⟨'f', by decide, by decide, rfl, rfl⟩
  · exact .inr (.inl ⟨hcontrol, rfl⟩)
  · exact .inr (.inr ⟨by simpa using hquote, by simpa using hslash, hcontrol, rfl⟩)

/-- The form of one character is read as that character, in front of anything but the end. -/
theorem stringFrom_escapeChar (opening : List Char) (c : Char) {tail : List Char}
    (htail : tail ≠ []) :
    stringFrom opening 0 (escapeChar c ++ tail) =
      (stringFrom opening 0 tail).map fun (s, after) => (.char c :: s, after) := by
  obtain ⟨letter, hu, -, hletter, hescape⟩ | ⟨hcontrol, hescape⟩ |
    ⟨hquote, hslash, hcontrol, hescape⟩ := escapeChar_cases c
  · rw [hescape, List.cons_append, List.singleton_append,
      stringFrom_shortEscape opening hu hletter]
  · rw [hescape, List.cons_append, List.cons_append,
      stringFrom_unicodeEscape opening hcontrol htail, Char.ofNat_toNat]
  · rw [hescape, List.singleton_append, stringFrom_plain opening hquote hslash hcontrol]

theorem stringFrom_flatMap_escapeChar (opening cs rest : List Char) :
    stringFrom opening 0 (cs.flatMap escapeChar ++ '"' :: rest) = .ok (cs.map .char, rest) := by
  induction cs with
  | nil => rfl
  | cons c more ih =>
      rw [List.flatMap_cons, List.append_assoc, stringFrom_escapeChar opening c (by simp), ih]
      rfl

/-! ## Whole numbers -/

/-- What may stand behind a value: nothing, a comma or a line feed. -/
def Ends (rest : List Char) : Prop :=
  rest = [] ∨ (∃ more, rest = ',' :: more) ∨ ∃ more, rest = '\n' :: more

theorem isDecimal_of_mem_ofNat {n : Nat} : ∀ c ∈ Text.Numeral.ofNat n, isDecimal c = true := by
  intro c hc
  obtain ⟨d, hd, rfl⟩ := Text.Numeral.exists_digit_of_mem_ofNat hc
  have hall : ∀ d < 10, isDecimal (Nat.digitChar d) = true := by decide
  exact hall d hd

namespace Ends

variable {rest : List Char}

theorem nil : Ends [] := .inl rfl

theorem comma (more : List Char) : Ends (',' :: more) := .inr (.inl ⟨more, rfl⟩)

theorem lineFeed (more : List Char) : Ends ('\n' :: more) := .inr (.inr ⟨more, rfl⟩)

theorem takeWhile_isDecimal (h : Ends rest) : rest.takeWhile isDecimal = [] := by
  rcases h with rfl | ⟨more, rfl⟩ | ⟨more, rfl⟩ <;> rfl

theorem dropWhile_isDecimal (h : Ends rest) : rest.dropWhile isDecimal = rest := by
  rcases h with rfl | ⟨more, rfl⟩ | ⟨more, rfl⟩ <;> rfl

theorem splitFraction_eq (h : Ends rest) : splitFraction rest = ([], rest) := by
  rcases h with rfl | ⟨more, rfl⟩ | ⟨more, rfl⟩ <;> rfl

theorem splitExponent_eq (h : Ends rest) : splitExponent rest = (none, rest) := by
  rcases h with rfl | ⟨more, rfl⟩ | ⟨more, rfl⟩ <;> rfl

end Ends

theorem number_ofNat (start : List Char) (negative : Bool) {n : Nat}
    (h : n < Text.Numeral.writableBound) {rest : List Char} (hrest : Ends rest) :
    number start negative (Text.Numeral.ofNat n ++ rest) =
      .ok (int (if negative then -Int.ofNat n else Int.ofNat n), rest) := by
  have hread : Text.Numeral.readDigits (Text.Numeral.ofNat n) = .ok n :=
    Text.Numeral.readDigits_eq_ok_iff.2
      ⟨(Text.Numeral.length_ofNat_le_maxDigits_iff n).2 h, (Text.Numeral.ofDigits_ofNat n).symm⟩
  by_cases hn : n = 0
  · subst hn
    rw [Text.Numeral.ofNat_of_lt (by decide)] at hread ⊢
    change Text.Numeral.readDigits ['0'] = .ok 0 at hread
    change number start negative ('0' :: rest) = _
    simp [number, hrest.splitFraction_eq, hrest.splitExponent_eq, hread]
  · obtain ⟨c, more, hdigits, hc⟩ := Text.Numeral.exists_ofNat_eq_cons hn
    have hdecimal := @isDecimal_of_mem_ofNat n
    have htake : (Text.Numeral.ofNat n ++ rest).takeWhile isDecimal = Text.Numeral.ofNat n := by
      rw [List.takeWhile_append_of_pos hdecimal, hrest.takeWhile_isDecimal, List.append_nil]
    have hdrop : (Text.Numeral.ofNat n ++ rest).dropWhile isDecimal = rest := by
      rw [List.dropWhile_append_of_pos hdecimal, hrest.dropWhile_isDecimal]
    rw [hdigits] at hdecimal htake hdrop hread ⊢
    have hfirst : isDecimal c = true := hdecimal c List.mem_cons_self
    rw [List.cons_append] at htake hdrop ⊢
    simp [number, hfirst, htake, hdrop, hrest.splitFraction_eq, hrest.splitExponent_eq, hread]

/-- No constant begins as a numeral does, with or without a sign. -/
theorem constants_of_isDecimal {c : Char} (h : isDecimal c = true) (rest : List Char) :
    (constants.findSome? fun (word, value) => (afterWord? word (c :: rest)).map (value, ·)) = none ∧
      (constants.findSome? fun (word, value) =>
        (afterWord? word ('-' :: c :: rest)).map (value, ·)) = none := by
  have hother : ∀ w, isDecimal w = false → (w == c) = false := by
    intro w hw
    rw [beq_eq_false_iff_ne]
    rintro rfl
    rw [hw] at h
    cases h
  have hI : ('I' == c) = false := hother 'I' (by decide)
  constructor
  · simp [constants, afterWord?, hI, hother 'n' (by decide), hother 't' (by decide),
      hother 'f' (by decide), hother 'N' (by decide), hother '-' (by decide)]
  · simp [constants, afterWord?, hI]

/-- A whole number is read as it was written, unless it has too many digits. -/
theorem atom_ofInt {i : Int} (h : i.natAbs < Text.Numeral.writableBound) {rest : List Char}
    (hrest : Ends rest) : atom (Text.Numeral.ofInt i ++ rest) = .ok (int i, rest) := by
  have hdigits : ∀ n, ∃ c more, Text.Numeral.ofNat n = c :: more ∧ isDecimal c = true := by
    intro n
    obtain ⟨c, more, hcons⟩ := List.exists_cons_of_ne_nil (Text.Numeral.ofNat_ne_nil n)
    exact ⟨c, more, hcons, isDecimal_of_mem_ofNat c (hcons ▸ List.mem_cons_self)⟩
  cases i with
  | ofNat n =>
      have hbound : n < Text.Numeral.writableBound := h
      have hnumber := number_ofNat (Text.Numeral.ofNat n ++ rest) false hbound hrest
      obtain ⟨c, more, hcons, hc⟩ := hdigits n
      have hminus : c ≠ '-' := by
        rintro rfl
        exact absurd hc (by decide)
      have hnone := (constants_of_isDecimal hc (more ++ rest)).1
      simp only [Text.Numeral.ofInt, hcons, List.cons_append] at hnumber ⊢
      simp only [atom, hnone]
      split
      · rename_i heq
        exact absurd (List.cons.inj heq).1 hminus
      · exact hnumber
  | negSucc n =>
      have hbound : n + 1 < Text.Numeral.writableBound := h
      have hnumber := number_ofNat ('-' :: (Text.Numeral.ofNat (n + 1) ++ rest)) true hbound hrest
      obtain ⟨c, more, hcons, hc⟩ := hdigits (n + 1)
      have hnone := (constants_of_isDecimal hc (more ++ rest)).2
      simp only [Text.Numeral.ofInt, hcons, List.cons_append] at hnumber ⊢
      simp only [atom, hnone]
      exact hnumber

end IndexedMail.Json
