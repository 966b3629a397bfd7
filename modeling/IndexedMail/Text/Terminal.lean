/-!
# Texts for terminals

Terminals take certain sequences of characters as commands: an escape character, an opening
bracket, parameters and a letter.  Where nobody looks at a terminal such sequences are left out.
-/

namespace IndexedMail.Text.Terminal

/-- The character with which a command begins. -/
def escapeChar : Char := '\x1b'

/-- Whether the character can be part of the parameters of a command. -/
def isParameter (c : Char) : Bool :=
  c == ';' || c == '?' || c.isDigit

/-- The number of characters of a command behind its escape character. -/
def commandLength? : List Char → Option Nat
  | '[' :: rest =>
      let parameters := rest.takeWhile isParameter
      match rest.drop parameters.length with
      | c :: _ => if c.isAlpha then some (parameters.length + 2) else none
      | [] => none
  | _ => none

/-- Leave commands out after passing over some characters. -/
def plainFrom : Nat → List Char → List Char
  | _, [] => []
  | skip + 1, _ :: rest => plainFrom skip rest
  | 0, c :: rest =>
      if c == escapeChar then
        match commandLength? rest with
        | some length => plainFrom length rest
        | none => c :: plainFrom 0 rest
      else c :: plainFrom 0 rest

/-- A text without commands for a terminal. -/
def plain (s : String) : String :=
  String.ofList (plainFrom 0 s.toList)

/-- A text as it is put out, on a terminal or not. -/
def shown (terminal : Bool) (s : String) : String :=
  if terminal then s else plain s

end IndexedMail.Text.Terminal
