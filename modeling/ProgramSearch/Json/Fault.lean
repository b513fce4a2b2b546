/-!
# What can be wrong with a JSON text

A text can end too early, be malformed, or hold a value of the wrong shape. The three categories
are reported apart, and each fault has one wording.
-/
namespace ProgramSearch.Json

inductive Fault where
  | endInValue
  | endInArray
  | endInObject
  | endInString
  | expectedValue
  | expectedWord
  | expectedColon
  | expectedCommaOrBracket
  | expectedCommaOrBrace
  | keyNotString
  | trailingComma
  | trailingText
  | badNumber
  | badEscape
  | badCodePoint
  | loneSurrogate
  | brokenSurrogatePair
  | controlCharacter
  | numberTooLarge
  | tooDeep
  | missingField (name : String)
  | duplicateField (name : String)
  | unknownVariant (name : String) (expected : List String)
  | noMatchingLayout (type : String)
  | wrongType (found : String) (expected : String)
  | wrongLength (found : Nat) (expected : String)
  | wrongValue (found : String) (expected : String)
deriving Repr, DecidableEq, Inhabited

inductive Category where
  | endOfText
  | syntactic
  | shape
deriving Repr, DecidableEq

namespace Fault

def category : Fault → Category
  | endInValue | endInArray | endInObject | endInString => .endOfText
  | missingField _ | duplicateField _ | unknownVariant _ _ | noMatchingLayout _ | wrongType _ _
  | wrongLength _ _ | wrongValue _ _ => .shape
  | _ => .syntactic

def ticked (name : String) : String := "`" ++ name ++ "`"

/-- The variants that would have been accepted. -/
def oneOf : List String → String
  | [] => "there are no variants"
  | [a] => "expected " ++ ticked a
  | [a, b] => "expected " ++ ticked a ++ " or " ++ ticked b
  | names => "expected one of " ++ ", ".intercalate (names.map ticked)

def message : Fault → String
  | endInValue => "EOF while parsing a value"
  | endInArray => "EOF while parsing a list"
  | endInObject => "EOF while parsing an object"
  | endInString => "EOF while parsing a string"
  | expectedValue => "expected value"
  | expectedWord => "expected ident"
  | expectedColon => "expected `:`"
  | expectedCommaOrBracket => "expected `,` or `]`"
  | expectedCommaOrBrace => "expected `,` or `\x7d`"
  | keyNotString => "key must be a string"
  | trailingComma => "trailing comma"
  | trailingText => "trailing characters"
  | badNumber => "invalid number"
  | badEscape => "invalid escape"
  | badCodePoint => "invalid unicode code point"
  | loneSurrogate => "lone leading surrogate in hex escape"
  | brokenSurrogatePair => "unexpected end of hex escape"
  | controlCharacter => "control character (\\u0000-\\u001F) found while parsing a string"
  | numberTooLarge => "number out of range"
  | tooDeep => "recursion limit exceeded"
  | missingField name => "missing field " ++ ticked name
  | duplicateField name => "duplicate field " ++ ticked name
  | unknownVariant name expected => "unknown variant " ++ ticked name ++ ", " ++ oneOf expected
  | noMatchingLayout type => "data did not match any variant of untagged enum " ++ type
  | wrongType found expected => "invalid type: " ++ found ++ ", expected " ++ expected
  | wrongLength found expected => "invalid length " ++ toString found ++ ", expected " ++ expected
  | wrongValue found expected => "invalid value: " ++ found ++ ", expected " ++ expected

end Fault

end ProgramSearch.Json
