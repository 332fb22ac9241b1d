/-
# ProgramModel.Json.Fault -- what can be wrong with a JSON text

A text is refused for the first thing in it that is wrong.  The causes fall into
three groups: the text ends too early, it is not JSON, or it is JSON of the wrong
shape.
-/
import ProgramModel.Decimal.Shortest
import ProgramModel.Text.Quoted

namespace ProgramModel.Json

set_option autoImplicit false

/-- A value that stands where one of another kind is needed. -/
inductive Found where
  | null
  | bool (value : Bool)
  | integer (value : Int)
  | decimal (value : Float)
  | text (value : String)
  | sequence
  | map

/-- How a message names what it found. -/
def Found.describe : Found → String
  | .null => "null"
  | .bool value => "boolean `" ++ (if value then "true" else "false") ++ "`"
  | .integer value => "integer `" ++ toString value ++ "`"
  | .decimal value => "floating point `" ++ Decimal.text value ++ "`"
  | .text value => "string " ++ Text.quoted value
  | .sequence => "sequence"
  | .map => "map"

/-- Why a text is refused. -/
inductive Fault where
  /-- The text ends inside an array. -/
  | endOfList
  /-- The text ends inside an object. -/
  | endOfObject
  /-- The text ends inside a text. -/
  | endOfString
  /-- The text ends where a value has to follow. -/
  | endOfValue
  /-- A key is not followed by a colon. -/
  | colonExpected
  /-- An item is followed by neither a comma nor the end of its array. -/
  | listCommaOrEnd
  /-- A member is followed by neither a comma nor the end of its object. -/
  | objectCommaOrEnd
  /-- A word begins like `null`, `true` or `false` and goes on differently. -/
  | identExpected
  /-- Nothing that begins a value stands where one is needed. -/
  | valueExpected
  /-- An escape has no meaning. -/
  | invalidEscape
  /-- A number is not well formed. -/
  | invalidNumber
  /-- A number is too large. -/
  | numberOutOfRange
  /-- A text holds bytes that are no characters. -/
  | malformedText
  /-- A control character stands in a text unescaped. -/
  | controlCharacter
  /-- A key is not a text. -/
  | keyNotText
  /-- An escaped trailing surrogate has no leading one before it. -/
  | loneSurrogate
  /-- An escaped leading surrogate has nothing escaped after it. -/
  | unfinishedSurrogate
  /-- A comma is followed by the end. -/
  | trailingComma
  /-- Something follows where nothing may. -/
  | trailingCharacters
  /-- A value is of the wrong kind. -/
  | wrongKind (found : Found) (expected : String)
  /-- An array has too few items for a record. -/
  | wrongLength (length : Nat) (expected : String)
  /-- A record lacks a field. -/
  | missingField (key : String)
  /-- A record has a field twice. -/
  | duplicateField (key : String)
  /-- A label is none of those that are known. -/
  | unknownLabel (label : String) (known : List String)

/-- The wording of each cause. -/
def Fault.message : Fault → String
  | .endOfList => "EOF while parsing a list"
  | .endOfObject => "EOF while parsing an object"
  | .endOfString => "EOF while parsing a string"
  | .endOfValue => "EOF while parsing a value"
  | .colonExpected => "expected `:`"
  | .listCommaOrEnd => "expected `,` or `]`"
  | .objectCommaOrEnd => "expected `,` or `\x7d`"
  | .identExpected => "expected ident"
  | .valueExpected => "expected value"
  | .invalidEscape => "invalid escape"
  | .invalidNumber => "invalid number"
  | .numberOutOfRange => "number out of range"
  | .malformedText => "invalid unicode code point"
  | .controlCharacter => "control character (\\u0000-\\u001F) found while parsing a string"
  | .keyNotText => "key must be a string"
  | .loneSurrogate => "lone leading surrogate in hex escape"
  | .unfinishedSurrogate => "unexpected end of hex escape"
  | .trailingComma => "trailing comma"
  | .trailingCharacters => "trailing characters"
  | .wrongKind found expected => "invalid type: " ++ found.describe ++ ", expected " ++ expected
  | .wrongLength length expected =>
      "invalid length " ++ toString length ++ ", expected " ++ expected
  | .missingField key => "missing field `" ++ key ++ "`"
  | .duplicateField key => "duplicate field `" ++ key ++ "`"
  | .unknownLabel label known =>
      "unknown variant `" ++ label ++ "`, expected one of " ++
        String.intercalate ", " (known.map fun name => "`" ++ name ++ "`")

end ProgramModel.Json
