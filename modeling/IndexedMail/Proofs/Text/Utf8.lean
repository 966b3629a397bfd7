import IndexedMail.Text.Utf8
import Mathlib.Tactic.SplitIfs

/-!
# Decoding what was encoded

The bytes of a character form one well-formed piece, whatever follows them, so decoding with
replacement gives back every text that was encoded.
-/

namespace IndexedMail.Text.Utf8

theorem toNat_ofNat_of_lt {n : Nat} (h : n < 256) : (UInt8.ofNat n).toNat = n := by
  rw [UInt8.toNat_ofNat']
  exact Nat.mod_eq_of_lt h

/-- A continuation byte within the bounds adds its six bits. -/
theorem follow_tail {low high : UInt8} (bits missing taken v : Nat) (rest : List UInt8)
    (hlow : low.toNat ≤ v % 64 + 128) (hhigh : v % 64 + 128 ≤ high.toNat) :
    follow bits (missing + 1) low high taken (UInt8.ofNat (v % 64 + 128) :: rest) =
      follow (bits * 64 + v % 64) missing 0x80 0xbf (taken + 1) rest := by
  have hb : (UInt8.ofNat (v % 64 + 128)).toNat = v % 64 + 128 :=
    toNat_ofNat_of_lt (by omega)
  have hmod : (v % 64 + 128) % 64 = v % 64 := by omega
  have hbounds : low ≤ UInt8.ofNat (v % 64 + 128) ∧ UInt8.ofNat (v % 64 + 128) ≤ high := by
    rw [UInt8.le_iff_toNat_le, UInt8.le_iff_toNat_le, hb]
    exact ⟨hlow, hhigh⟩
  simp only [follow, hbounds, and_self, if_true, hb, hmod]

theorem follow_zero (bits taken : Nat) (low high : UInt8) (rest : List UInt8) :
    follow bits 0 low high taken rest = ⟨taken, .ok (Char.ofNat bits)⟩ := rfl

/-- The first byte decides how many continuation bytes there are and where the next one lies. -/
theorem piece_of_two {n : Nat} (h : 0xc2 ≤ n) (h' : n < 0xe0) (rest : List UInt8) :
    piece (UInt8.ofNat n) rest = follow (n % 32) 1 0x80 0xbf 1 rest := by
  have hb : (UInt8.ofNat n).toNat = n := toNat_ofNat_of_lt (by omega)
  simp only [piece, UInt8.lt_iff_toNat_lt, hb, UInt8.reduceToNat]
  split_ifs <;> first | rfl | omega

theorem piece_of_three {n : Nat} (h : 0xe0 ≤ n) (h' : n < 0xf0) (rest : List UInt8) :
    piece (UInt8.ofNat n) rest =
      follow (n % 16) 2 (if n = 0xe0 then 0xa0 else 0x80) (if n = 0xed then 0x9f else 0xbf) 1
        rest := by
  have hb : (UInt8.ofNat n).toNat = n := toNat_ofNat_of_lt (by omega)
  simp only [piece, UInt8.lt_iff_toNat_lt, ← UInt8.toNat_inj, hb, UInt8.reduceToNat]
  split_ifs <;> first | omega | rfl | (subst n; rfl)

theorem piece_of_four {n : Nat} (h : 0xf0 ≤ n) (h' : n ≤ 0xf4) (rest : List UInt8) :
    piece (UInt8.ofNat n) rest =
      follow (n % 8) 3 (if n = 0xf0 then 0x90 else 0x80) (if n = 0xf4 then 0x8f else 0xbf) 1
        rest := by
  have hb : (UInt8.ofNat n).toNat = n := toNat_ofNat_of_lt (by omega)
  simp only [piece, UInt8.lt_iff_toNat_lt, ← UInt8.toNat_inj, hb, UInt8.reduceToNat]
  split_ifs <;> first | omega | rfl | (subst n; rfl)

/-- The bytes of a character are one piece, whatever follows. -/
theorem exists_piece_utf8EncodeChar (c : Char) :
    ∃ b more, String.utf8EncodeChar c = b :: more ∧
      ∀ rest, piece b (more ++ rest) = ⟨more.length + 1, .ok c⟩ := by
  obtain ⟨v, hv⟩ : ∃ v, v = c.toNat := ⟨_, rfl⟩
  have hc : Char.ofNat v = c := by rw [hv, Char.ofNat_toNat]
  have hval : v < 0xd800 ∨ (0xdfff < v ∧ v < 0x110000) := hv ▸ c.valid
  have hcode : c.val.toNat = v := hv.symm
  unfold String.utf8EncodeChar
  simp only [hcode]
  by_cases h1 : v ≤ 0x7f
  · refine ⟨UInt8.ofNat v, [], by simp [h1], ?_⟩
    intro rest
    have hb : (UInt8.ofNat v).toNat = v := toNat_ofNat_of_lt (by omega)
    have hlt : UInt8.ofNat v < 0x80 := by
      rw [UInt8.lt_iff_toNat_lt, hb]
      exact Nat.lt_succ_of_le h1
    simp [piece, hlt, hb, hc]
  by_cases h2 : v ≤ 0x7ff
  · refine ⟨_, _, by simp only [h1, h2, if_true, if_false]; rfl, ?_⟩
    intro rest
    rw [piece_of_two (by omega) (by omega)]
    simp only [List.cons_append, List.nil_append]
    rw [follow_tail _ _ _ _ _ (by simp) (by simp; omega), follow_zero,
      show (v / 64 % 32 + 192) % 32 * 64 + v % 64 = v by omega, hc]
    rfl
  by_cases h3 : v ≤ 0xffff
  · refine ⟨_, _, by simp only [h1, h2, h3, if_true, if_false]; rfl, ?_⟩
    intro rest
    rw [piece_of_three (by omega) (by omega)]
    simp only [List.cons_append, List.nil_append]
    rw [follow_tail _ _ _ _ _ (by split_ifs <;> simp; omega) (by split_ifs <;> simp <;> omega),
      follow_tail _ _ _ _ _ (by simp) (by simp; omega), follow_zero,
      show ((v / 4096 % 16 + 224) % 16 * 64 + v / 64 % 64) * 64 + v % 64 = v by omega, hc]
    rfl
  · refine ⟨_, _, by simp only [h1, h2, h3, if_false]; rfl, ?_⟩
    intro rest
    rw [piece_of_four (by omega) (by omega)]
    simp only [List.cons_append, List.nil_append]
    rw [follow_tail _ _ _ _ _ (by split_ifs <;> simp; omega) (by split_ifs <;> simp <;> omega),
      follow_tail _ _ _ _ _ (by simp) (by simp; omega),
      follow_tail _ _ _ _ _ (by simp) (by simp; omega), follow_zero,
      show (((v / 262144 % 8 + 240) % 8 * 64 + v / 4096 % 64) * 64 + v / 64 % 64) * 64 + v % 64 =
        v by omega, hc]
    rfl

theorem decodeLossyFrom_append (skipped rest : List UInt8) :
    decodeLossyFrom skipped.length (skipped ++ rest) = decodeLossyFrom 0 rest := by
  induction skipped with
  | nil => rfl
  | cons b more ih => exact ih

theorem decodeLossy_utf8EncodeChar (c : Char) (rest : List UInt8) :
    decodeLossy (String.utf8EncodeChar c ++ rest) = c :: decodeLossy rest := by
  obtain ⟨b, more, hbytes, hpiece⟩ := exists_piece_utf8EncodeChar c
  rw [hbytes, List.cons_append]
  simp only [decodeLossy, decodeLossyFrom, hpiece, Nat.add_sub_cancel]
  rw [decodeLossyFrom_append]

theorem encode_cons (c : Char) (cs : List Char) :
    encode (c :: cs) = String.utf8EncodeChar c ++ encode cs := by
  simp [encode]

/-- Decoding gives back every text that was encoded. -/
theorem decodeLossy_encode (cs : List Char) : decodeLossy (encode cs) = cs := by
  induction cs with
  | nil => rfl
  | cons c rest ih => rw [encode_cons, decodeLossy_utf8EncodeChar, ih]

theorem encode_append (as bs : List Char) : encode (as ++ bs) = encode as ++ encode bs := by
  simp [encode]

theorem decodeFrom_append (position : Nat) (skipped rest : List UInt8) :
    decodeFrom position skipped.length (skipped ++ rest) =
      decodeFrom (position + skipped.length) 0 rest := by
  induction skipped generalizing position with
  | nil => rfl
  | cons b more ih =>
      have hmore := ih (position + 1)
      rwa [Nat.add_assoc, Nat.add_comm 1] at hmore

theorem decodeFrom_utf8EncodeChar (position : Nat) (c : Char) (rest : List UInt8) :
    ∃ next, decodeFrom position 0 (String.utf8EncodeChar c ++ rest) =
      (decodeFrom next 0 rest).map (c :: ·) := by
  obtain ⟨b, more, hbytes, hpiece⟩ := exists_piece_utf8EncodeChar c
  refine ⟨position + 1 + more.length, ?_⟩
  rw [hbytes, List.cons_append]
  simp only [decodeFrom, hpiece, Nat.add_sub_cancel]
  rw [decodeFrom_append]

/-- What was encoded is well formed, and decoding it gives back the text. -/
theorem decode_encode (cs : List Char) : decode (encode cs) = .ok cs := by
  have hfrom : ∀ position, decodeFrom position 0 (encode cs) = .ok cs := by
    induction cs with
    | nil => exact fun _ => rfl
    | cons c rest ih =>
        intro position
        obtain ⟨next, hnext⟩ := decodeFrom_utf8EncodeChar position c (encode rest)
        rw [encode_cons, hnext, ih]
        rfl
  exact hfrom 0

/-! ## Cutting at an ASCII byte -/

/-- The character that a piece is decoded to. -/
def Piece.char (p : Piece) : Char :=
  match p.content with
  | .ok c => c
  | .error _ => replacement

theorem decodeLossyFrom_cons (b : UInt8) (rest : List UInt8) :
    decodeLossyFrom 0 (b :: rest) =
      (piece b rest).char :: decodeLossyFrom ((piece b rest).length - 1) rest := rfl

/-- No ASCII byte continues a character: a character that it cuts off is ill formed either way. -/
theorem follow_append_ascii {c : UInt8} (hc : c < 0x80) (bits missing taken : Nat)
    (low high : UInt8) (hlow : 0x80 ≤ low) (before after : List UInt8) :
    let p := follow bits missing low high taken before
    let q := follow bits missing low high taken (before ++ c :: after)
    q.length = p.length ∧ q.char = p.char ∧ p.length ≤ taken + before.length := by
  induction missing generalizing bits taken low high before with
  | zero => exact ⟨rfl, rfl, Nat.le_add_right _ _⟩
  | succ missing ih =>
      cases before with
      | nil =>
          have hout : ¬ (low ≤ c ∧ c ≤ high) := by
            rintro ⟨hle, -⟩
            rw [UInt8.le_iff_toNat_le] at hle hlow
            rw [UInt8.lt_iff_toNat_lt] at hc
            omega
          simp [follow, hout, Piece.char]
      | cons b rest =>
          by_cases hin : low ≤ b ∧ b ≤ high
          · obtain ⟨hlength, hchar, hle⟩ := ih (bits * 64 + b.toNat % 64) (taken + 1) 0x80
              0xbf (UInt8.le_refl _) rest
            simp only [follow, hin, and_self, if_true, List.cons_append, List.length_cons]
            exact ⟨hlength, hchar, by omega⟩
          · simp [follow, hin, Piece.char]

theorem piece_append_ascii {c : UInt8} (hc : c < 0x80) (b : UInt8) (before after : List UInt8) :
    let p := piece b before
    let q := piece b (before ++ c :: after)
    q.length = p.length ∧ q.char = p.char ∧ p.length ≤ before.length + 1 := by
  have hfollow : ∀ (bits missing : Nat) (low high : UInt8), 0x80 ≤ low →
      let p := follow bits missing low high 1 before
      let q := follow bits missing low high 1 (before ++ c :: after)
      q.length = p.length ∧ q.char = p.char ∧ p.length ≤ before.length + 1 := by
    intro bits missing low high hlow
    have h := follow_append_ascii hc bits missing 1 low high hlow before after
    rwa [Nat.add_comm 1] at h
  simp only [piece]
  split_ifs
  all_goals first
    | exact ⟨rfl, rfl, Nat.le_add_left _ _⟩
    | exact hfollow _ _ _ _ (by decide)

theorem decodeLossyFrom_append_ascii {c : UInt8} (hc : c < 0x80) {skip : Nat}
    {before : List UInt8} (hskip : skip ≤ before.length) (after : List UInt8) :
    decodeLossyFrom skip (before ++ c :: after) =
      decodeLossyFrom skip before ++ decodeLossyFrom 0 (c :: after) := by
  induction before generalizing skip with
  | nil =>
      obtain rfl : skip = 0 := Nat.le_zero.1 hskip
      rfl
  | cons b rest ih =>
      cases skip with
      | succ skip => exact ih (Nat.le_of_succ_le_succ hskip)
      | zero =>
          obtain ⟨hlength, hchar, hle⟩ := piece_append_ascii hc b rest after
          have hskip : (piece b rest).length - 1 ≤ rest.length := by omega
          have hrest := ih hskip
          rw [List.cons_append, decodeLossyFrom_cons, decodeLossyFrom_cons, hlength, hchar, hrest,
            List.cons_append]

/-- What stands before and behind an ASCII byte is decoded apart, well formed or not. -/
theorem decodeLossy_append_ascii {c : UInt8} (hc : c < 0x80) (before after : List UInt8) :
    decodeLossy (before ++ c :: after) =
      decodeLossy before ++ Char.ofNat c.toNat :: decodeLossy after := by
  have hpiece : piece c after = ⟨1, .ok (Char.ofNat c.toNat)⟩ := if_pos hc
  unfold decodeLossy
  rw [decodeLossyFrom_append_ascii hc (Nat.zero_le _), decodeLossyFrom_cons, hpiece]
  rfl

end IndexedMail.Text.Utf8
