import Tilewalk.Number.Decimal
import Tilewalk.Text.Quoted

/-! # What can be wrong with a document

A document is read from left to right, and the first fault ends the reading, be it one of syntax
or of shape. Where in the text that was is not kept: the line and the column with which a reader may
end its message are left out here.
-/

namespace Tilewalk.Json

/-- A value that stands where another kind was expected. Lists and objects are not read further. -/
inductive Found where
  | null
  | boolean (value : Bool)
  | integer (value : Int)
  | real (value : Float)
  | text (value : List Char)
  | list
  | object

inductive Fault where
  | endOfValue
  | endOfText
  | endOfList
  | endOfObject
  | expectedValue
  | expectedWord
  | expectedColon
  | expectedListEnd
  | expectedObjectEnd
  | keyNotText
  | trailingComma
  | trailingCharacters
  | invalidNumber
  | numberOutOfRange
  | invalidEscape
  | loneSurrogate
  | unfinishedSurrogate
  | controlCharacter
  | wrongType (found : Found) (expected : String)
  | wrongValue (found : Int) (expected : String)
  | tooShort (length : Nat) (record : String) (fields : Nat)
  | missingField (key : String)
  | duplicateField (key : String)
  | unknownVariant (name : List Char) (names : List String)

namespace Found

def display : Found → String
  | null => "null"
  | boolean b => s!"boolean `{b}`"
  | integer n => s!"integer `{n}`"
  | real x => s!"floating point `{Number.Form.marked.text x}`"
  | text cs => s!"string {Text.quoted cs}"
  | list => "sequence"
  | object => "map"

end Found

namespace Fault

def nameList (names : List String) : String :=
  ", ".intercalate (names.map fun name => s!"`{name}`")

/-- What is said of a fault, without its place in the text. -/
def message : Fault → String
  | endOfValue => "EOF while parsing a value"
  | endOfText => "EOF while parsing a string"
  | endOfList => "EOF while parsing a list"
  | endOfObject => "EOF while parsing an object"
  | expectedValue => "expected value"
  | expectedWord => "expected ident"
  | expectedColon => "expected `:`"
  | expectedListEnd => "expected `,` or `]`"
  | expectedObjectEnd => "expected `,` or `\x7d`"
  | keyNotText => "key must be a string"
  | trailingComma => "trailing comma"
  | trailingCharacters => "trailing characters"
  | invalidNumber => "invalid number"
  | numberOutOfRange => "number out of range"
  | invalidEscape => "invalid escape"
  | loneSurrogate => "lone leading surrogate in hex escape"
  | unfinishedSurrogate => "unexpected end of hex escape"
  | controlCharacter => "control character (\\u0000-\\u001F) found while parsing a string"
  | wrongType found expected => s!"invalid type: {found.display}, expected {expected}"
  | wrongValue n expected => s!"invalid value: integer `{n}`, expected {expected}"
  | tooShort n record fields =>
    s!"invalid length {n}, expected struct {record} with {fields} elements"
  | missingField key => s!"missing field `{key}`"
  | duplicateField key => s!"duplicate field `{key}`"
  | unknownVariant name names =>
    s!"unknown variant `{String.ofList name}`, expected one of {nameList names}"

end Fault

end Tilewalk.Json
