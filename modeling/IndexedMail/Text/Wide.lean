import IndexedMail.Text.Lines
import IndexedMail.Text.Quoted
import IndexedMail.Text.Utf8

/-!
# Wide text

Text in which halves of surrogate pairs may stand alone.  Such halves come from escapes that name
them, and from bytes that are no text where bytes are taken for text.  No encoding of text has
them, so that a wide text can be shown anywhere but not always stored.
-/

namespace IndexedMail.Text

/-- A character, or one half of a surrogate pair by its place among all halves. -/
inductive Point where
  | char (c : Char)
  | half (n : Fin 2048)
  deriving DecidableEq, Repr

namespace Point

/-- The code of the first half. -/
def firstHalf : Nat := 0xd800

/-- The character, if it is one. -/
def char? : Point → Option Char
  | char c => some c
  | half _ => none

/-- Whether it is no character. -/
def isHalf (p : Point) : Bool :=
  p.char?.isNone

def halfEscape (n : Fin 2048) : List Char :=
  '\\' :: 'u' :: hexDigits 4 (firstHalf + n)

/-- A character as it is, and a half by its escape. -/
def shown : Point → List Char
  | char c => [c]
  | half n => halfEscape n

/-- Whether it ends a line. -/
def isLineEnd : Point → Bool
  | char c => Text.isLineEnd c
  | half _ => false

end Point

/-- Text with halves of surrogate pairs in it. -/
abbrev Wide := List Point

def wide (s : String) : Wide :=
  s.toList.map Point.char

instance : Coe String Wide :=
  ⟨wide⟩

namespace Wide

/-- The text, if there are no halves in it. -/
def narrow? (w : Wide) : Option String :=
  if w.any Point.isHalf then none else some (String.ofList (w.filterMap Point.char?))

/-- The text with halves by their escapes. -/
def shown (w : Wide) : String :=
  String.ofList (w.flatMap Point.shown)

/-- One point between the given quotation marks. -/
def escape (quote : Char) : Point → List Char
  | .char c => Quoted.escape quote c
  | .half n => Point.halfEscape n

/-- The text as messages show it. -/
def quoted (w : Wide) : String :=
  let mark := Quoted.mark (w.filterMap Point.char?)
  String.ofList (mark :: (w.flatMap (escape mark) ++ [mark]))

/-- The lines of a wide text, cut as those of any text. -/
def lines : Wide → List Wide
  | [] => []
  | .char '\r' :: .char '\n' :: rest => [] :: lines rest
  | p :: rest =>
      if p.isLineEnd then [] :: lines rest
      else
        match lines rest with
        | [] => [[p]]
        | line :: more => (p :: line) :: more

/-! ## Encoding -/

/-- The first half that cannot be encoded, with the number of halves from there on. -/
structure EncodeError where
  position : Nat
  length : Nat
  first : Fin 2048
  deriving DecidableEq, Repr

namespace EncodeError

/-- Where encoding stopped and why, in words. -/
def message (e : EncodeError) : String :=
  if e.length = 1 then
    "'utf-8' codec can't encode character '" ++ String.ofList (Point.halfEscape e.first) ++
      s!"' in position {e.position}: surrogates not allowed"
  else
    s!"'utf-8' codec can't encode characters in position {e.position}-" ++
      s!"{e.position + e.length - 1}: surrogates not allowed"

end EncodeError

/-- What cannot be encoded in a text that stands at a position, if some halves can. -/
def faultFrom (encodes : Fin 2048 → Bool) : Nat → Wide → Option EncodeError
  | _, [] => none
  | position, .char _ :: rest => faultFrom encodes (position + 1) rest
  | position, .half n :: rest =>
      if encodes n then faultFrom encodes (position + 1) rest
      else some ⟨position, (rest.takeWhile Point.isHalf).length + 1, n⟩

/-- The bytes of a text that has no halves. -/
def encode (w : Wide) : Except EncodeError (List UInt8) :=
  match faultFrom (fun _ => false) 0 w with
  | some e => .error e
  | none => .ok (Utf8.encode (w.filterMap Point.char?))

/-- Whether a half stands for a byte that was no text, and is that byte where bytes are wanted. -/
def isByte (n : Fin 2048) : Bool :=
  decide (0x480 ≤ n.val) && decide (n.val < 0x500)

/-- What keeps a text from being handed to the system, which takes any bytes. -/
def systemFault (w : Wide) : Option EncodeError :=
  faultFrom isByte 0 w

end Wide

/-! ## Texts as wide texts -/

theorem wide_append (s t : String) : wide (s ++ t) = wide s ++ wide t := by
  simp [wide]

/-- A wide text is a text if all its parts are texts. -/
theorem exists_wide_append_iff {v w : Wide} :
    (∃ s, v ++ w = wide s) ↔ (∃ s, v = wide s) ∧ ∃ s, w = wide s := by
  constructor
  · rintro ⟨s, hs⟩
    obtain ⟨cs, ds, -, rfl, rfl⟩ := List.map_eq_append_iff.1 hs.symm
    exact ⟨⟨String.ofList cs, by simp [wide]⟩, ⟨String.ofList ds, by simp [wide]⟩⟩
  · rintro ⟨⟨s, rfl⟩, ⟨t, rfl⟩⟩
    exact ⟨s ++ t, (wide_append s t).symm⟩

/-- What is no text has a half in it. -/
theorem exists_half_mem {w : Wide} (h : ∀ s : String, w ≠ wide s) : ∃ n, Point.half n ∈ w := by
  induction w with
  | nil => exact absurd rfl (h "")
  | cons p rest ih =>
      cases p with
      | half n => exact ⟨n, List.mem_cons_self⟩
      | char c =>
          have hrest : ∀ s : String, rest ≠ wide s := by
            rintro s rfl
            exact h (String.ofList (c :: s.toList)) (by simp [wide])
          obtain ⟨n, hn⟩ := ih hrest
          exact ⟨n, List.mem_cons_of_mem _ hn⟩

theorem filterMap_char?_map (cs : List Char) : (cs.map Point.char).filterMap Point.char? = cs := by
  simp [List.filterMap_map, Function.comp_def, Point.char?]

theorem wide_injective : Function.Injective wide := by
  intro s t h
  have hlists := congrArg (List.filterMap Point.char?) h
  rw [wide, wide, filterMap_char?_map, filterMap_char?_map] at hlists
  exact String.toList_injective hlists

namespace Wide

theorem narrow?_wide (s : String) : narrow? (wide s) = some s := by
  have hhalves : (wide s).any Point.isHalf = false := by
    simp [wide, Point.isHalf, Point.char?]
  rw [narrow?, hhalves, wide, filterMap_char?_map]
  simp

theorem faultFrom_map_char (encodes : Fin 2048 → Bool) (position : Nat) (cs : List Char) :
    faultFrom encodes position (cs.map Point.char) = none := by
  induction cs generalizing position with
  | nil => rfl
  | cons c rest ih => exact ih (position + 1)

theorem encode_map_char (cs : List Char) : encode (cs.map Point.char) = .ok (Utf8.encode cs) := by
  rw [encode, faultFrom_map_char, filterMap_char?_map]

theorem exists_map_char_of_faultFrom {position : Nat} {w : Wide}
    (h : faultFrom (fun _ => false) position w = none) : ∃ cs : List Char, w = cs.map .char := by
  induction w generalizing position with
  | nil => exact ⟨[], rfl⟩
  | cons p rest ih =>
      cases p with
      | char c =>
          obtain ⟨cs, rfl⟩ := ih h
          exact ⟨c :: cs, rfl⟩
      | half n => cases h

/-- Only a text without halves can be encoded. -/
theorem encode_eq_ok_iff {w : Wide} {bytes : List UInt8} :
    encode w = .ok bytes ↔ ∃ s, w = wide s ∧ Utf8.encode s.toList = bytes := by
  constructor
  · intro h
    unfold encode at h
    split at h
    · cases h
    · rename_i hfault
      obtain ⟨cs, rfl⟩ := exists_map_char_of_faultFrom hfault
      rw [filterMap_char?_map] at h
      exact ⟨String.ofList cs, by simp [wide], by simpa using h⟩
  · rintro ⟨s, rfl, rfl⟩
    exact encode_map_char s.toList

theorem exists_encode_error {w : Wide} {n : Fin 2048} (h : Point.half n ∈ w) :
    ∃ e, encode w = .error e := by
  cases hencoded : encode w with
  | error e => exact ⟨e, rfl⟩
  | ok bytes =>
      obtain ⟨s, rfl, -⟩ := encode_eq_ok_iff.1 hencoded
      simp [wide] at h

end Wide

end IndexedMail.Text
