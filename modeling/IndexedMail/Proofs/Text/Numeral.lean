import IndexedMail.Text.Lines
import IndexedMail.Text.Numeral
import Mathlib.Data.List.Induction
import Mathlib.Tactic.Ring

/-!
# Numerals and their values

Digits are neither blanks nor line ends.  A run of digits is read as the number that it spells
unless it is too long, and writing a natural number produces such a run, of as many digits as its
size asks for.
-/

namespace IndexedMail.Text

/-! ## Digits among the characters -/

/-- A digit is one of ASCII or within ten of a listed zero. -/
theorem exists_zero_of_isDigit {c : Char} (h : isDigit c = true) :
    (48 ≤ c.toNat ∧ c.toNat ≤ 57) ∨ ∃ z ∈ digitZeros, z ≤ c.toNat ∧ c.toNat < z + 10 := by
  unfold isDigit digitValue? at h
  split at h
  · rename_i hc
    exact Or.inl hc
  · rw [Option.isSome_map, List.find?_isSome] at h
    obtain ⟨z, hz, hb⟩ := h
    simp only [Bool.and_eq_true, decide_eq_true_eq] at hb
    exact Or.inr ⟨z, hz, hb⟩

theorem toNat_of_isDigit {c : Char} (h : isDigit c = true) :
    (48 ≤ c.toNat ∧ c.toNat ≤ 57) ∨ 1632 ≤ c.toNat := by
  have hzeros : ∀ z ∈ digitZeros, 1632 ≤ z := by decide
  rcases exists_zero_of_isDigit h with h | ⟨z, hz, hle, -⟩
  · exact Or.inl h
  · exact Or.inr (Nat.le_trans (hzeros z hz) hle)

theorem isDigit_eq_false {c : Char} (h : c.toNat < 48 ∨ (57 < c.toNat ∧ c.toNat < 1632)) :
    isDigit c = false := by
  cases hd : isDigit c with
  | false => rfl
  | true => rcases toNat_of_isDigit hd with h' | h' <;> omega

theorem isBlank_of_isDigit {c : Char} (h : isDigit c = true) : isBlank c = false := by
  have hapart : ∀ z ∈ digitZeros, ∀ b ∈ blankCodes, b < z ∨ z + 10 ≤ b := by decide
  have hascii : ∀ b ∈ blankCodes, b < 48 ∨ 57 < b := by decide
  have hcode : c.toNat ∉ blankCodes := by
    intro hb
    rcases exists_zero_of_isDigit h with h' | ⟨z, hz, hle, hlt⟩
    · have := hascii _ hb
      omega
    · have := hapart z hz _ hb
      omega
  have hn := toNat_of_isDigit h
  simp only [isBlank, List.contains_eq_mem, hcode, decide_false, Bool.or_false,
    Bool.or_eq_false_iff, Bool.and_eq_false_iff, decide_eq_false_iff_not]
  omega

theorem isBlank_of_isLineEnd {c : Char} (h : isLineEnd c = true) : isBlank c = true := by
  simp only [isLineEnd, Bool.or_eq_true, Bool.and_eq_true, decide_eq_true_eq, beq_iff_eq] at h
  simp only [isBlank, List.contains_eq_mem, blankCodes, Bool.or_eq_true, Bool.and_eq_true,
    decide_eq_true_eq, List.mem_cons, List.not_mem_nil, or_false]
  omega

theorem isLineEnd_of_isDigit {c : Char} (h : isDigit c = true) : isLineEnd c = false := by
  cases hl : isLineEnd c with
  | false => rfl
  | true =>
      have hb := isBlank_of_isLineEnd hl
      rw [isBlank_of_isDigit h] at hb
      cases hb

theorem not_mem_of_isDigit {digits : List Char} {c : Char} (hc : isDigit c = false)
    (h : ∀ d ∈ digits, isDigit d = true) : c ∉ digits := by
  intro hmem
  rw [h c hmem] at hc
  cases hc

theorem digitValue?_digitChar {d : Nat} (h : d < 10) : digitValue? (Nat.digitChar d) = some d := by
  have hall : ∀ d < 10, digitValue? (Nat.digitChar d) = some d := by decide
  exact hall d h

theorem isDigit_digitChar {d : Nat} (h : d < 10) : isDigit (Nat.digitChar d) = true := by
  simp [isDigit, digitValue?_digitChar h]

namespace Numeral

/-! ## Reading runs of digits -/

theorem isMargin_of_isDigit {c : Char} (h : isDigit c = true) : isMargin c = false := by
  simp [isMargin, isBlank_of_isDigit h]

theorem digitIn?_ten {c : Char} (h : isDigit c = true) :
    digitIn? 10 c = some ((digitValue? c).getD 0) := by
  obtain ⟨d, hd⟩ := Option.isSome_iff_exists.1 h
  have hlt := digitValue?_lt hd
  simp [digitIn?, hd, hlt]

theorem digitRun_of_forall {ds : List Char} {last : Char} (hlast : last ≠ '_')
    (h : ∀ c ∈ ds, isDigit c = true) :
    digitRun 10 last ds = some (ds.map fun c => (digitValue? c).getD 0, []) := by
  induction ds generalizing last with
  | nil => simp [digitRun, hlast]
  | cons c rest ih =>
      have hc := h c List.mem_cons_self
      have hne : c ≠ '_' := by
        rintro rfl
        simp [isDigit_eq_false (c := '_') (by decide)] at hc
      have hrest := ih hne fun d hd => h d (List.mem_cons_of_mem _ hd)
      simp [digitRun, digitIn?_ten hc, hrest]

theorem splitSign_of_isDigit {c : Char} (rest : List Char) (h : isDigit c = true) :
    splitSign (c :: rest) = (false, c :: rest) := by
  have hn := toNat_of_isDigit h
  unfold splitSign
  split
  · rename_i heq
    cases heq
    exact absurd hn (by decide)
  · rename_i heq
    cases heq
    exact absurd hn (by decide)
  · rfl

theorem dropBaseMark_ten (cs : List Char) : dropBaseMark 10 cs = cs := by
  unfold dropBaseMark
  split <;> simp

/-- A run of digits spells a number, which is read unless the run is too long. -/
theorem read_of_forall {ds : List Char} (hne : ds ≠ []) (h : ∀ c ∈ ds, isDigit c = true) :
    read ds = (readDigits ds).map Int.ofNat := by
  cases ds with
  | nil => exact absurd rfl hne
  | cons c rest =>
      have hc := h c List.mem_cons_self
      have hunder : (c == '_') = false := by
        rw [beq_eq_false_iff_ne]
        rintro rfl
        simp [isDigit_eq_false (c := '_') (by decide)] at hc
      have hrun := digitRun_of_forall (show ' ' ≠ '_' by decide) h
      have hstart : (c :: rest).dropWhile isMargin = c :: rest := by
        simp [isMargin_of_isDigit hc]
      simp only [read, readIn, hstart, splitSign_of_isDigit rest hc, dropBaseMark_ten, hunder, hrun,
        readDigits]
      by_cases hlen : maxDigits < rest.length + 1
      · simp [hlen, Except.map]
      · simp [hlen, Except.map, ofDigits]

theorem readDigits_eq_ok_iff {ds : List Char} {n : Nat} :
    readDigits ds = .ok n ↔ ds.length ≤ maxDigits ∧ n = ofDigits ds := by
  unfold readDigits
  split
  · rename_i h
    simp [Nat.not_le.2 h]
  · rename_i h
    simp [Nat.not_lt.1 h, eq_comm]

/-! ## Writing natural numbers -/

theorem digitsFuel_eq_append (fuel n : Nat) (tail : List Char) :
    digitsFuel fuel n tail = digitsFuel fuel n [] ++ tail := by
  induction fuel generalizing n tail with
  | zero => rfl
  | succ fuel ih =>
      unfold digitsFuel
      split
      · rfl
      · rw [ih (n / 10) (_ :: tail), ih (n / 10) [_]]
        simp

/-- Fuel above the number makes no difference. -/
theorem digitsFuel_of_lt {fuel n : Nat} (h : n < fuel) : digitsFuel fuel n [] = ofNat n := by
  unfold ofNat
  induction fuel using Nat.strong_induction_on generalizing n with
  | _ fuel ih =>
      cases fuel with
      | zero => omega
      | succ fuel =>
          unfold digitsFuel
          split
          · rfl
          · rename_i hn
            rw [digitsFuel_eq_append fuel, digitsFuel_eq_append n,
              ih fuel (by omega) (show n / 10 < fuel by omega)]
            by_cases hlast : n = fuel
            · subst hlast
              rw [ih n (by omega) (show n / 10 < n by omega)]
            · rw [ih n (by omega) (show n / 10 < n by omega)]

theorem ofNat_of_lt {n : Nat} (h : n < 10) : ofNat n = [Nat.digitChar n] := by
  simp [ofNat, digitsFuel, h]

theorem ofNat_of_le {n : Nat} (h : 10 ≤ n) :
    ofNat n = ofNat (n / 10) ++ [Nat.digitChar (n % 10)] := by
  have hn : ¬ n < 10 := by omega
  have hfuel := digitsFuel_of_lt (show n / 10 < n by omega)
  rw [← hfuel, ← digitsFuel_eq_append]
  simp [ofNat, digitsFuel, hn]

theorem ofNat_ne_nil (n : Nat) : ofNat n ≠ [] := by
  by_cases h : n < 10
  · simp [ofNat_of_lt h]
  · simp [ofNat_of_le (Nat.not_lt.1 h)]

theorem exists_digit_of_mem_ofNat {n : Nat} :
    ∀ {c : Char}, c ∈ ofNat n → ∃ d < 10, c = Nat.digitChar d := by
  induction n using Nat.strong_induction_on with
  | _ n ih =>
      intro c hc
      by_cases h : n < 10
      · rw [ofNat_of_lt h, List.mem_singleton] at hc
        exact ⟨n, h, hc⟩
      · rw [ofNat_of_le (Nat.not_lt.1 h), List.mem_append, List.mem_singleton] at hc
        rcases hc with hc | rfl
        · exact ih (n / 10) (by omega) hc
        · exact ⟨n % 10, Nat.mod_lt n (by decide), rfl⟩

theorem isDigit_of_mem_ofNat {n : Nat} {c : Char} (h : c ∈ ofNat n) : isDigit c = true := by
  obtain ⟨d, hd, rfl⟩ := exists_digit_of_mem_ofNat h
  exact isDigit_digitChar hd

/-- No numeral but that of nought begins with a nought. -/
theorem exists_ofNat_eq_cons {n : Nat} (h : n ≠ 0) : ∃ c rest, ofNat n = c :: rest ∧ c ≠ '0' := by
  induction n using Nat.strong_induction_on with
  | _ n ih =>
      by_cases hn : n < 10
      · have hnonzero : ∀ d < 10, d ≠ 0 → Nat.digitChar d ≠ '0' := by decide
        exact ⟨Nat.digitChar n, [], ofNat_of_lt hn, hnonzero n hn h⟩
      · obtain ⟨c, rest, hrest, hc⟩ := ih (n / 10) (by omega) (by omega)
        exact ⟨c, rest ++ [Nat.digitChar (n % 10)], by
          rw [ofNat_of_le (Nat.not_lt.1 hn), hrest, List.cons_append], hc⟩

theorem ofDigits_concat (ds : List Char) (c : Char) :
    ofDigits (ds ++ [c]) = ofDigits ds * 10 + (digitValue? c).getD 0 := by
  simp [ofDigits, ofValues]

theorem ofDigits_lt (ds : List Char) : ofDigits ds < 10 ^ ds.length := by
  induction ds using List.reverseRecOn with
  | nil => decide
  | append_singleton ds c ih =>
      have hdigit : (digitValue? c).getD 0 < 10 := by
        cases hc : digitValue? c with
        | none => decide
        | some d => exact digitValue?_lt hc
      rw [ofDigits_concat, List.length_append, List.length_singleton, Nat.pow_succ]
      omega

theorem ofDigits_ofNat (n : Nat) : ofDigits (ofNat n) = n := by
  induction n using Nat.strong_induction_on with
  | _ n ih =>
      by_cases h : n < 10
      · rw [ofNat_of_lt h]
        simp [ofDigits, ofValues, digitValue?_digitChar h]
      · rw [ofNat_of_le (Nat.not_lt.1 h), ofDigits_concat, ih (n / 10) (by omega),
          digitValue?_digitChar (Nat.mod_lt n (by decide)), Option.getD_some]
        omega

/-- A number has at most so many digits if it lies below that power of ten. -/
theorem length_ofNat_le_iff (n : Nat) {k : Nat} (hk : 1 ≤ k) :
    (ofNat n).length ≤ k ↔ n < 10 ^ k := by
  induction k, hk using Nat.le_induction generalizing n with
  | base =>
      by_cases h : n < 10
      · simp [ofNat_of_lt h, h]
      · have hne := List.length_pos_iff.2 (ofNat_ne_nil (n / 10))
        rw [ofNat_of_le (Nat.not_lt.1 h), List.length_append]
        simp only [List.length_singleton]
        omega
  | succ k hk ih =>
      by_cases h : n < 10
      · have hpow : 10 ≤ 10 ^ (k + 1) := by
          rw [Nat.pow_succ]
          exact Nat.le_mul_of_pos_left 10 (Nat.pow_pos (by decide))
        simp only [ofNat_of_lt h, List.length_singleton]
        omega
      · have hdiv : n / 10 < 10 ^ k ↔ n < 10 ^ (k + 1) := by
          rw [Nat.pow_succ, Nat.div_lt_iff_lt_mul (by decide)]
        rw [ofNat_of_le (Nat.not_lt.1 h), List.length_append, List.length_singleton, ← hdiv,
          ← ih]
        omega

theorem writableBound_eq : writableBound = 10 ^ maxDigits := by
  unfold writableBound
  -- The power is too large to be computed, so its exponent is made opaque first.
  generalize maxDigits = k
  rfl

theorem length_ofNat_le_maxDigits_iff (n : Nat) :
    (ofNat n).length ≤ maxDigits ↔ n < writableBound := by
  rw [length_ofNat_le_iff n (by decide), writableBound_eq]

/-- A numeral that can be read spells a number that can be written. -/
theorem ofDigits_lt_writableBound {ds : List Char} (h : ds.length ≤ maxDigits) :
    ofDigits ds < writableBound := by
  rw [writableBound_eq]
  exact Nat.lt_of_lt_of_le (ofDigits_lt ds) (Nat.pow_le_pow_right (by decide) h)

theorem write_of_le {i : Int} (h : writableBound ≤ i.natAbs) : write i = .error .tooLarge := by
  simp only [write, h, if_true]

end Numeral

end IndexedMail.Text
