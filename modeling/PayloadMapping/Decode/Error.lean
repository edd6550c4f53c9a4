import PayloadMapping.Number.Shortest
import PayloadMapping.Text.Visible
import PayloadMapping.Value.Basic

set_option autoImplicit false

/-!
# Errors of decoding

Decoding finds in a tree what a mapping asks for. An error says what was found and what was
expected. How null and doubles are called depends on the notation of the tree, so the wording
takes a `Wording`.
-/

namespace PayloadMapping

inductive Found where
  | null
  | bool (b : Bool)
  | whole (n : Int)
  | double (x : Extended)
  | string (s : String)
  | list
  | map
  | tagged
deriving DecidableEq

/-- How a notation calls null and doubles. -/
structure Wording where
  null : String
  double : Extended → String

namespace Wording

/-- The text of a double in messages about JSON. Values that are no doubles of JSON have names
of their own. -/
def doubleText (style : FloatStyle) : Extended → String
  | .finite x => x.text style
  | .infinite true => "-inf"
  | .infinite false => "inf"
  | .notANumber => "NaN"

def json : Wording := ⟨"null", doubleText .json⟩

def yaml : Wording := ⟨"unit value", doubleText .positional⟩

end Wording

namespace Found

def wideText (n : Int) : String :=
  if InWholeRange n then "" else if 0 ≤ n then " as u128" else " as i128"

def text (wording : Wording) : Found → String
  | .null => wording.null
  | .bool b => "boolean `" ++ (if b then "true" else "false") ++ "`"
  | .whole n => "integer `" ++ toString n ++ "`" ++ wideText n
  | .double x => "floating point `" ++ wording.double x ++ "`"
  | .string s => "string " ++ Text.quoted s
  | .list => "sequence"
  | .map => "map"
  | .tagged => "enum"

def ofValue : Value → Found
  | .null => .null
  | .bool b => .bool b
  | .number (.whole n _) => .whole n
  | .number (.double x) => .double (.finite x)
  | .string s => .string s
  | .array _ => .list
  | .object _ => .map

end Found

inductive DecodeError where
  | invalidType (found : Found) (expected : String)
  | invalidValue (found : Found) (expected : String)
  | invalidLength (length : Nat) (expected : String)
  | missingField (name : String)
  | duplicateField (name : String)
  | unknownField (name : String) (known : List String)
  | unknownVariant (name : String) (known : List String)
  | notARule (found : Kind)
  | mixedKeys (key : String) (others : List String)
deriving DecidableEq

namespace DecodeError

def choices : List String → String
  | [a] => "`" ++ a ++ "`"
  | [a, b] => "`" ++ a ++ "` or `" ++ b ++ "`"
  | names => "one of " ++ ", ".intercalate (names.map fun name => "`" ++ name ++ "`")

def message (wording : Wording) : DecodeError → String
  | .invalidType found expected =>
    "invalid type: " ++ found.text wording ++ ", expected " ++ expected
  | .invalidValue found expected =>
    "invalid value: " ++ found.text wording ++ ", expected " ++ expected
  | .invalidLength length expected =>
    "invalid length " ++ toString length ++ ", expected " ++ expected
  | .missingField name => "missing field `" ++ name ++ "`"
  | .duplicateField name => "duplicate field `" ++ name ++ "`"
  | .unknownField name known =>
    "unknown field `" ++ name ++ "`, expected " ++ choices known
  | .unknownVariant name known =>
    "unknown variant `" ++ name ++ "`, expected " ++ choices known
  | .notARule found => "mapping rule must be a mapping, found " ++ found.name
  | .mixedKeys key others =>
    "a " ++ key ++ " node cannot carry other keys (found: " ++ ", ".intercalate others ++ ")"

end DecodeError

end PayloadMapping
