import IndexedMail.Calendar

/-!
# Errors of settings files

Why a text is no YAML document, or a document that denotes no value.
-/

namespace IndexedMail.Yaml

/-- The ways in which a text breaks the rules of the format. -/
inductive Defect where
  | unreadableCharacter
  | strayCharacter
  | missingColon
  | misplacedIndicator
  | malformedDirective
  | unsupportedVersion
  | repeatedDirective
  | malformedName
  | malformedTag
  | unknownHandle
  | unknownTag
  | malformedHeader
  | unclosedQuote
  | separatorInQuote
  | unknownEscape
  | unexpectedToken
  | undefinedAlias
  | repeatedAnchor
  | secondDocument
  | wrongKind
  | unusableKey
  | unusableMerge
  | malformedBase64
  deriving DecidableEq, Repr

namespace Defect

/-- The defect in words. -/
def description : Defect → String
  | unreadableCharacter => "special characters are not allowed"
  | strayCharacter => "found a character that cannot start any token"
  | missingColon => "could not find expected ':'"
  | misplacedIndicator => "an indicator is not allowed here"
  | malformedDirective => "found a malformed directive"
  | unsupportedVersion => "version 1.* is required"
  | repeatedDirective => "found a duplicate directive"
  | malformedName => "expected a name of letters, digits, '-' and '_'"
  | malformedTag => "found a malformed tag"
  | unknownHandle => "found an undefined tag handle"
  | unknownTag => "no value is known for the tag"
  | malformedHeader => "found a malformed header of a block scalar"
  | unclosedQuote => "found unexpected end of a quoted scalar"
  | separatorInQuote => "found unexpected document separator"
  | unknownEscape => "found an unknown escape"
  | unexpectedToken => "found an unexpected token"
  | undefinedAlias => "found an undefined alias"
  | repeatedAnchor => "found a duplicate anchor"
  | secondDocument => "expected a single document"
  | wrongKind => "the tag does not fit the kind of node"
  | unusableKey => "found an unusable key"
  | unusableMerge => "expected a mapping or a list of mappings for merging"
  | malformedBase64 => "failed to decode base64 data"

end Defect

/-- Why a text denotes no value. -/
inductive Error where
  | malformed (defect : Defect)
  | codePoint (code : Nat)
  | halfOfPair (code : Nat)
  | numeral (e : Text.Numeral.Error)
  | emptyNumeral
  | notFloat (text : String)
  | sixtyTooLarge
  | notTruth (word : String)
  | momentOfMapping
  | notMoment
  | calendar (e : Calendar.Error)
  | tooDeep
  deriving DecidableEq, Repr

namespace Error

/-- The first number that is no code point even where one is only looked for among machine words. -/
def wordBound : Nat := 0x80000000

def message : Error → String
  | malformed defect => defect.description
  | codePoint code =>
      if code < wordBound then "chr() arg not in range(0x110000)"
      else "Python int too large to convert to C int"
  | halfOfPair code => s!"{code} is the code of one half of a surrogate pair"
  | numeral e => e.message
  | emptyNumeral => "string index out of range"
  | notFloat text => s!"could not convert string to float: {Text.quoted text}"
  | sixtyTooLarge => "int too large to convert to float"
  | notTruth word => Text.quoted word
  | momentOfMapping => "expected string or bytes-like object, got 'list'"
  | notMoment => "found a malformed timestamp"
  | calendar e => e.message
  | tooDeep => "maximum recursion depth exceeded"

end Error

end IndexedMail.Yaml
