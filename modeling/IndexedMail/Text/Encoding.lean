import IndexedMail.Text.Utf8

/-!
# Encodings

The encodings in which the output of a program may come.  Decoding never fails: what is ill
formed is replaced.
-/

namespace IndexedMail.Text

/-- An encoding of text as bytes. -/
inductive Encoding where
  | utf8
  | latin1
  | ascii
  deriving DecidableEq, Repr

namespace Encoding

/-- The text of a byte string. -/
def decode (bytes : List UInt8) : Encoding → List Char
  | utf8 => Utf8.decodeLossy bytes
  | latin1 => bytes.map fun b => Char.ofNat b.toNat
  | ascii => bytes.map fun b => if b < 0x80 then Char.ofNat b.toNat else Utf8.replacement

end Encoding

end IndexedMail.Text
