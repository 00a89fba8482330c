import CantoScan.Decimal.Shortest
import CantoScan.Text.Quoted

/-! What can be wrong with a JSON text, and with a value in the place where it stands. -/

namespace CantoScan.Json

inductive Number where
  | integer (value : Int)
  | floating (value : Decimal.Double)
  deriving DecidableEq

inductive Found where
  | null
  | boolean (value : Bool)
  | number (value : Number)
  | string (value : String)
  | sequence
  | map
  deriving DecidableEq

namespace Found

def describe : Found → String
  | .null => "null"
  | .boolean value => s!"boolean `{value}`"
  | .number (.integer value) => s!"integer `{value}`"
  | .number (.floating value) => s!"floating point `{value.text}`"
  | .string value => s!"string {Text.quote value}"
  | .sequence => "sequence"
  | .map => "map"

end Found

inductive Fault where
  | endOfValue
  | endOfList
  | endOfObject
  | endOfString
  | expectedColon
  | expectedListSeparator
  | expectedObjectSeparator
  | expectedWord
  | expectedValue
  | invalidEscape
  | invalidNumber
  | numberOutOfRange
  | controlCharacter
  | keyNotString
  | loneSurrogate
  | unfinishedSurrogate
  | trailingComma
  | trailingCharacters
  | nestedTooDeep
  | wrongType (found : Found) (expected : String)
  | wrongLength (length : Nat) (expected : String)
  | unknownName (name : String) (known : List String)
  | duplicateField (name : String)
  | missingField (name : String)
  | notSingleKey
  deriving DecidableEq

namespace Fault

private def ticked (name : String) : String := s!"`{name}`"

def message : Fault → String
  | .endOfValue => "EOF while parsing a value"
  | .endOfList => "EOF while parsing a list"
  | .endOfObject => "EOF while parsing an object"
  | .endOfString => "EOF while parsing a string"
  | .expectedColon => "expected `:`"
  | .expectedListSeparator => "expected `,` or `]`"
  | .expectedObjectSeparator => "expected `,` or `\x7d`"
  | .expectedWord => "expected ident"
  | .expectedValue => "expected value"
  | .invalidEscape => "invalid escape"
  | .invalidNumber => "invalid number"
  | .numberOutOfRange => "number out of range"
  | .controlCharacter => "control character (\\u0000-\\u001F) found while parsing a string"
  | .keyNotString => "key must be a string"
  | .loneSurrogate => "lone leading surrogate in hex escape"
  | .unfinishedSurrogate => "unexpected end of hex escape"
  | .trailingComma => "trailing comma"
  | .trailingCharacters => "trailing characters"
  | .nestedTooDeep => "recursion limit exceeded"
  | .wrongType found expected => s!"invalid type: {found.describe}, expected {expected}"
  | .wrongLength length expected => s!"invalid length {length}, expected {expected}"
  | .unknownName name known =>
    let names := ", ".intercalate (known.map ticked)
    s!"unknown variant {ticked name}, expected one of {names}"
  | .duplicateField name => s!"duplicate field {ticked name}"
  | .missingField name => s!"missing field {ticked name}"
  | .notSingleKey => "invalid value: map, expected map with a single key"

end Fault

end CantoScan.Json
