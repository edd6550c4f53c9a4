import PayloadMapping.Json.Cursor

set_option autoImplicit false

/-!
# Faults of JSON text

What can be wrong with a text as JSON, and where. `Fault.message` gives the wording.
-/

namespace PayloadMapping.Json

inductive Fault where
  | endInList | endInObject | endInString | endInValue
  | expectedColon | expectedCommaInList | expectedCommaInObject
  | expectedIdent | expectedValue
  | invalidEscape | invalidNumber | numberOutOfRange
  | controlCharacter | keyMustBeString
  | loneSurrogate | endOfHexEscape
  | trailingComma | trailingCharacters | tooDeep
deriving DecidableEq

namespace Fault

def message : Fault → String
  | .endInList => "EOF while parsing a list"
  | .endInObject => "EOF while parsing an object"
  | .endInString => "EOF while parsing a string"
  | .endInValue => "EOF while parsing a value"
  | .expectedColon => "expected `:`"
  | .expectedCommaInList => "expected `,` or `]`"
  | .expectedCommaInObject => "expected `,` or `\x7d`"
  | .expectedIdent => "expected ident"
  | .expectedValue => "expected value"
  | .invalidEscape => "invalid escape"
  | .invalidNumber => "invalid number"
  | .numberOutOfRange => "number out of range"
  | .controlCharacter => "control character (\\u0000-\\u001F) found while parsing a string"
  | .keyMustBeString => "key must be a string"
  | .loneSurrogate => "lone leading surrogate in hex escape"
  | .endOfHexEscape => "unexpected end of hex escape"
  | .trailingComma => "trailing comma"
  | .trailingCharacters => "trailing characters"
  | .tooDeep => "recursion limit exceeded"

end Fault

structure SyntaxError where
  fault : Fault
  place : Place
deriving DecidableEq

def withPlace (message : String) (place : Place) : String :=
  message ++ " at line " ++ toString place.line ++ " column " ++ toString place.column

def SyntaxError.message (e : SyntaxError) : String := withPlace e.fault.message e.place

def Cursor.fail {α : Type} (cursor : Cursor) (fault : Fault) : Except SyntaxError α :=
  .error ⟨fault, cursor.place⟩

/-- A fault one byte further than the cursor. -/
def Cursor.failNext {α : Type} (cursor : Cursor) (fault : Fault) : Except SyntaxError α :=
  .error ⟨fault, cursor.peekPlace⟩

end PayloadMapping.Json
