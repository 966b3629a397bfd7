import IndexedMail.Yaml.Denotation
import IndexedMail.Yaml.Graph.Reader

/-!
# Documents

The value of a text that holds one document, as the library gives it that stands behind the reading
of settings.
-/

namespace IndexedMail.Yaml

/-- Whether the character may stand in a document. -/
def isReadable (c : Char) : Bool :=
  let n := c.toNat
  n == 0x09 || n == 0x0a || n == 0x0d || (decide (0x20 ≤ n) && decide (n ≤ 0x7e)) || n == 0x85 ||
    (decide (0xa0 ≤ n) && decide (n ≤ 0xfffd)) || decide (0x10000 ≤ n)

/-- The value of a text with a limit on its levels; an empty text denotes nothing. -/
def read (levels : Nat) (text : String) : Except Error Yaml :=
  let cs := text.toList
  if !cs.all isReadable then .error (.malformed .unreadableCharacter)
  else
    match Graph.ofStream? levels (Stream.ofText cs) with
    | .error e => .error e
    | .ok none => .ok .null
    | .ok (some (root, graph)) => graph.value root

end IndexedMail.Yaml
