import IndexedMail.Text.Utf8

/-!
# Percent coding

A percent sign with two hexadecimal digits stands for a byte.  The bytes between two characters
above ASCII are decoded together, as UTF-8 with replacement.
-/

namespace IndexedMail.Text.Percent

def hexValue? (c : Char) : Option Nat :=
  let n := c.toNat
  if 48 ≤ n ∧ n ≤ 57 then some (n - 48)
  else if 65 ≤ n ∧ n ≤ 70 then some (n - 55)
  else if 97 ≤ n ∧ n ≤ 102 then some (n - 87)
  else none

/-- What a coded text is made of: bytes, and characters that cannot be part of a byte. -/
inductive Atom where
  | byte (b : UInt8)
  | char (c : Char)
  deriving DecidableEq, Repr

/-- A character that is not part of an escape. -/
def Atom.ofChar (c : Char) : Atom :=
  if c.toNat < 128 then .byte (UInt8.ofNat c.toNat) else .char c

/-- The byte that the two characters after a percent sign stand for. -/
def escaped? (high low : Char) : Option UInt8 := do
  let h ← hexValue? high
  let l ← hexValue? low
  pure (UInt8.ofNat (h * 16 + l))

/-- Cut a coded text into atoms, after passing over the given number of characters. -/
def atomsFrom : Nat → List Char → List Atom
  | _, [] => []
  | skip + 1, _ :: rest => atomsFrom skip rest
  | 0, c :: rest =>
      match c, rest with
      | '%', high :: low :: _ =>
          match escaped? high low with
          | some b => .byte b :: atomsFrom 2 rest
          | none => .ofChar '%' :: atomsFrom 0 rest
      | _, _ => .ofChar c :: atomsFrom 0 rest

/-- The atoms of a coded text. -/
def atoms (cs : List Char) : List Atom :=
  atomsFrom 0 cs

/-- The text that atoms stand for, given the bytes that came before in reverse order. -/
def settle : List UInt8 → List Atom → List Char
  | pending, [] => Utf8.decodeLossy pending.reverse
  | pending, .byte b :: rest => settle (b :: pending) rest
  | pending, .char c :: rest => Utf8.decodeLossy pending.reverse ++ c :: settle [] rest

/-- The text that a coded text stands for. -/
def decode (cs : List Char) : List Char :=
  settle [] (atoms cs)

end IndexedMail.Text.Percent
