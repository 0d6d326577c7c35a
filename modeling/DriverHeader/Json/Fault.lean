import DriverHeader.Binary64.Shortest
import DriverHeader.Text.Quoted

/-! # What can be wrong with a JSON text

Reading stops at the first fault from the left. A fault is about the end of the text, about its
form, or about data of the wrong kind.
-/
namespace DriverHeader.Json

/-- A value that was found where another kind of value was expected. -/
inductive Unexpected
  | null
  | boolean (value : Bool)
  | integer (value : Int)
  | float (value : Binary64)
  | string (value : Text)
  | sequence
  | map
  | unitVariant
  deriving DecidableEq

def Unexpected.text : Unexpected → Text
  | null => "null"
  | boolean true => "boolean `true`"
  | boolean false => "boolean `false`"
  | integer value => "integer `" ++ Text.signedDecimal value ++ "`"
  | float value => "floating point `" ++ value.text ++ "`"
  | string value => "string " ++ value.quoted
  | sequence => "sequence"
  | map => "map"
  | unitVariant => "unit variant"

inductive Fault
  | endInValue
  | endInString
  | endInList
  | endInObject
  | expectedColon
  | expectedListEnd
  | expectedObjectEnd
  | expectedWord
  | expectedValue
  | keyNotString
  | controlCharacter
  | badEscape
  | loneSurrogate
  | brokenSurrogatePair
  | badNumber
  | numberTooLarge
  | trailingComma
  | trailingCharacters
  | tooDeep
  | wrongType (found : Unexpected) (expected : Text)
  | integerOutOfRange (value : Int) (expected : Text)
  | tooShort (length : Nat) (expected : Text)
  | missingField (name : Text)
  | duplicateField (name : Text)
  | unknownVariant (name : Text) (known : List Text)
  deriving DecidableEq

inductive Category
  | ended
  | malformed
  | data
  deriving DecidableEq

namespace Fault

def category : Fault → Category
  | endInValue | endInString | endInList | endInObject => .ended
  | wrongType _ _ | integerOutOfRange _ _ | tooShort _ _ | missingField _ | duplicateField _
  | unknownVariant _ _ => .data
  | _ => .malformed

def ticked (t : Text) : Text := "`" ++ t ++ "`"

def message : Fault → Text
  | endInValue => "EOF while parsing a value"
  | endInString => "EOF while parsing a string"
  | endInList => "EOF while parsing a list"
  | endInObject => "EOF while parsing an object"
  | expectedColon => "expected `:`"
  | expectedListEnd => "expected `,` or `]`"
  | expectedObjectEnd => "expected `,` or `\x7d`"
  | expectedWord => "expected ident"
  | expectedValue => "expected value"
  | keyNotString => "key must be a string"
  | controlCharacter => "control character (\\u0000-\\u001F) found while parsing a string"
  | badEscape => "invalid escape"
  | loneSurrogate => "lone leading surrogate in hex escape"
  | brokenSurrogatePair => "unexpected end of hex escape"
  | badNumber => "invalid number"
  | numberTooLarge => "number out of range"
  | trailingComma => "trailing comma"
  | trailingCharacters => "trailing characters"
  | tooDeep => "recursion limit exceeded"
  | wrongType found expected => "invalid type: " ++ found.text ++ ", expected " ++ expected
  | integerOutOfRange value expected =>
    "invalid value: integer " ++ ticked (Text.signedDecimal value) ++ ", expected " ++ expected
  | tooShort length expected =>
    "invalid length " ++ Text.decimal length ++ ", expected " ++ expected
  | missingField name => "missing field " ++ ticked name
  | duplicateField name => "duplicate field " ++ ticked name
  | unknownVariant name known =>
    "unknown variant " ++ ticked name ++ ", expected one of "
      ++ List.intercalate ", " (known.map ticked)

end Fault
end DriverHeader.Json
