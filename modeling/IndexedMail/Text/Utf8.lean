/-!
# UTF-8

Encoding, and two ways of decoding: one that replaces every maximal ill-formed piece by a
replacement character, and one that stops at the first such piece and says where and why.
-/

namespace IndexedMail.Text.Utf8

/-- Why a piece of a byte string is no character. -/
inductive Fault where
  | badStart
  | badContinuation
  | truncated
  deriving DecidableEq, Repr

namespace Fault

def reason : Fault → String
  | badStart => "invalid start byte"
  | badContinuation => "invalid continuation byte"
  | truncated => "unexpected end of data"

end Fault

/-- What stands at the beginning of a byte string: how many bytes, and which character. -/
structure Piece where
  length : Nat
  content : Except Fault Char

/--
Read the continuation bytes of one character.

The arguments are the bits so far, the number of bytes to come, the bounds for the next byte and
the number of bytes already taken.
-/
def follow (bits : Nat) : Nat → UInt8 → UInt8 → Nat → List UInt8 → Piece
  | 0, _, _, taken, _ => ⟨taken, .ok (Char.ofNat bits)⟩
  | _ + 1, _, _, taken, [] => ⟨taken, .error .truncated⟩
  | missing + 1, low, high, taken, b :: rest =>
      if low ≤ b ∧ b ≤ high then
        follow (bits * 64 + b.toNat % 64) missing 0x80 0xbf (taken + 1) rest
      else ⟨taken, .error .badContinuation⟩

/-- The piece that begins with the byte `b`. -/
def piece (b : UInt8) (rest : List UInt8) : Piece :=
  if b < 0x80 then ⟨1, .ok (Char.ofNat b.toNat)⟩
  else if b < 0xc2 then ⟨1, .error .badStart⟩
  else if b < 0xe0 then follow (b.toNat % 32) 1 0x80 0xbf 1 rest
  else if b = 0xe0 then follow 0 2 0xa0 0xbf 1 rest
  else if b = 0xed then follow 13 2 0x80 0x9f 1 rest
  else if b < 0xf0 then follow (b.toNat % 16) 2 0x80 0xbf 1 rest
  else if b = 0xf0 then follow 0 3 0x90 0xbf 1 rest
  else if b < 0xf4 then follow (b.toNat % 8) 3 0x80 0xbf 1 rest
  else if b = 0xf4 then follow 4 3 0x80 0x8f 1 rest
  else ⟨1, .error .badStart⟩

/-- The character that stands for an ill-formed piece. -/
def replacement : Char := Char.ofNat 0xfffd

/-- Decode after passing over the given number of bytes. -/
def decodeLossyFrom : Nat → List UInt8 → List Char
  | _, [] => []
  | skip + 1, _ :: rest => decodeLossyFrom skip rest
  | 0, b :: rest =>
      let p := piece b rest
      let c :=
        match p.content with
        | .ok c => c
        | .error _ => replacement
      c :: decodeLossyFrom (p.length - 1) rest

/-- Decode, with a replacement character for every ill-formed piece. -/
def decodeLossy (bytes : List UInt8) : List Char :=
  decodeLossyFrom 0 bytes

/-- The first ill-formed piece of a byte string. -/
structure DecodeError where
  position : Nat
  length : Nat
  first : UInt8
  fault : Fault
  deriving DecidableEq, Repr

namespace DecodeError

/-- Two small hexadecimal digits. -/
def hexByte (b : UInt8) : String :=
  String.ofList [Nat.digitChar (b.toNat / 16), Nat.digitChar (b.toNat % 16)]

/-- Where decoding stopped and why, in words. -/
def message (e : DecodeError) : String :=
  if e.length = 1 then
    s!"'utf-8' codec can't decode byte 0x{hexByte e.first} in position {e.position}: " ++
      e.fault.reason
  else
    s!"'utf-8' codec can't decode bytes in position {e.position}-{e.position + e.length - 1}: " ++
      e.fault.reason

end DecodeError

/-- Strict decoding from the given position on, after passing over some bytes. -/
def decodeFrom (position : Nat) : Nat → List UInt8 → Except DecodeError (List Char)
  | _, [] => .ok []
  | skip + 1, _ :: rest => decodeFrom (position + 1) skip rest
  | 0, b :: rest =>
      let p := piece b rest
      match p.content with
      | .ok c => (decodeFrom (position + 1) (p.length - 1) rest).map (c :: ·)
      | .error fault => .error ⟨position, p.length, b, fault⟩

/-- Decode a byte string that has to be well formed. -/
def decode (bytes : List UInt8) : Except DecodeError (List Char) :=
  decodeFrom 0 0 bytes

/-- The bytes of a text. -/
def encode (cs : List Char) : List UInt8 :=
  cs.flatMap String.utf8EncodeChar

end IndexedMail.Text.Utf8
