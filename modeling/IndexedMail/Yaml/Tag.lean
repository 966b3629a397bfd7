import IndexedMail.Yaml.Scalar.Timestamp

/-!
# Tags

The kinds of values, and the kind that the look of a plain scalar gives it.
-/

namespace IndexedMail.Yaml

/-- The kinds of values that documents know. -/
inductive Tag where
  | string
  | null
  | bool
  | int
  | float
  | binary
  | timestamp
  | sequence
  | mapping
  | set
  | orderedMapping
  | pairs
  | merge
  | value
  | other
  deriving DecidableEq, Repr

namespace Tag

/-- What the tags of the standard kinds begin with. -/
def standardBeginning : String := "tag:yaml.org,2002:"

/-- The standard kinds by the ends of their tags. -/
def standard : List (String × Tag) :=
  [("str", string), ("null", null), ("bool", bool), ("int", int), ("float", float),
    ("binary", binary), ("timestamp", timestamp), ("seq", sequence), ("map", mapping),
    ("set", set), ("omap", orderedMapping), ("pairs", pairs), ("merge", merge), ("value", value)]

/-- The kind that a whole tag names. -/
def ofName (name : String) : Tag :=
  ((standard.find? fun entry => standardBeginning ++ entry.1 == name).map (·.2)).getD other

/-- Whether values of the kind are made of other values. -/
def isCollection : Tag → Bool
  | sequence => true
  | mapping => true
  | set => true
  | orderedMapping => true
  | pairs => true
  | _ => false

/-- The text without a sign in front. -/
def dropSign : List Char → List Char
  | '+' :: rest => rest
  | '-' :: rest => rest
  | cs => cs

/-- Whether the character is a digit or an underscore. -/
def isLooseDigit (c : Char) : Bool :=
  c.isDigit || c == '_'

/-- Whether a text is not empty and of one class. -/
def isRun (p : Char → Bool) (cs : List Char) : Bool :=
  !cs.isEmpty && cs.all p

/-- Whether the text is a digit of base sixty. -/
def isSixtieth : List Char → Bool
  | [d] => d.isDigit
  | [t, d] => decide ('0' ≤ t) && decide (t ≤ '5') && d.isDigit
  | _ => false

/-- The parts of a text between colons. -/
def splitColons : List Char → List (List Char)
  | [] => [[]]
  | c :: rest =>
      if c == ':' then [] :: splitColons rest
      else
        match splitColons rest with
        | [] => [[c]]
        | part :: more => (c :: part) :: more

/-- Whether the text is a digit with more digits and underscores behind it. -/
def isLooseNumber : List Char → Bool
  | [] => false
  | c :: rest => c.isDigit && rest.all isLooseDigit

/-- Whether the text is a number in base sixty, with colons between its digits. -/
def isSexagesimal (leading : List Char → Bool) (cs : List Char) : Bool :=
  match splitColons cs with
  | first :: second :: more => leading first && (second :: more).all isSixtieth
  | _ => false

/-- Whether the character is a hexadecimal digit of ASCII. -/
def isHexDigit (c : Char) : Bool :=
  c.isDigit || (decide ('a' ≤ c) && decide (c ≤ 'f')) || (decide ('A' ≤ c) && decide (c ≤ 'F'))

/-- Whether the text without its sign looks like a whole number. -/
def isUnsignedInt (cs : List Char) : Bool :=
  match cs with
  | '0' :: 'b' :: ds => isRun (fun c => c == '0' || c == '1' || c == '_') ds
  | '0' :: 'x' :: ds => isRun (fun c => isHexDigit c || c == '_') ds
  | ['0'] => true
  | '0' :: ds => ds.all fun c => (decide ('0' ≤ c) && decide (c ≤ '7')) || c == '_'
  | _ => isLooseNumber cs || isSexagesimal isLooseNumber cs

/-- Whether the text is an exponent, or nothing. -/
def isExponent : List Char → Bool
  | [] => true
  | [_] => false
  | e :: sign :: ds =>
      (e == 'e' || e == 'E') && (sign == '+' || sign == '-') && isRun Char.isDigit ds

/-- Whether the text is the fraction of a number with an exponent behind it. -/
def isFraction (cs : List Char) : Bool :=
  isExponent (cs.dropWhile isLooseDigit)

/-- Whether the text looks like a number with a point. -/
def isFloat (cs : List Char) : Bool :=
  let body := dropSign cs
  let whole := body.takeWhile (· != '.')
  match body.drop whole.length with
  | [] => false
  | _ :: fraction =>
      if whole.isEmpty then
        ["inf", "Inf", "INF"].any (fun w => w.toList == fraction) ||
          (body.length == cs.length &&
            (["nan", "NaN", "NAN"].any (fun w => w.toList == fraction) ||
              ((fraction.head?.map Char.isDigit).getD false && isFraction fraction)))
      else
        (isLooseNumber whole && isFraction fraction) ||
          (isSexagesimal isLooseNumber whole && fraction.all isLooseDigit)

/-- The words for truth values, in the spellings that are taken for such. -/
def truthWords : List String :=
  ["yes", "Yes", "YES", "no", "No", "NO", "true", "True", "TRUE", "false", "False", "FALSE",
    "on", "On", "ON", "off", "Off", "OFF"]

/-- The words for nothing. -/
def nullWords : List String :=
  ["", "~", "null", "Null", "NULL"]

/-- The kind of a plain scalar; one line feed at its end does not count. -/
def ofPlain (text : String) : Tag :=
  let cs := text.toList
  let cs := if cs.getLast? == some '\n' && cs.length != 1 then cs.dropLast else cs
  let word := String.ofList cs
  if truthWords.contains word then bool
  else if isFloat cs then float
  else if isUnsignedInt (dropSign cs) then int
  else if word == "<<" then merge
  else if nullWords.contains word then null
  else if Timestamp.isTimestamp text.toList then timestamp
  else if word == "=" then value
  else if word == "!" || word == "&" || word == "*" then other
  else string

end Tag

end IndexedMail.Yaml
