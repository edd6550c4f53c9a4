import PayloadMapping.Decode.Error

set_option autoImplicit false

/-!
# Decoding of scalars and optional parts

The small decoders that those of actions and rules are made of.
-/

namespace PayloadMapping.Decode

def wrongType {α : Type} (v : Value) (expected : String) : Except DecodeError α :=
  .error (.invalidType (.ofValue v) expected)

def text : Value → Except DecodeError String
  | .string s => .ok s
  | v => wrongType v "a string"

def flag : Value → Except DecodeError Bool
  | .bool b => .ok b
  | v => wrongType v "a boolean"

def optional {α : Type} (decode : Value → Except DecodeError α) :
    Value → Except DecodeError (Option α)
  | .null => .ok none
  | v => (decode v).map some

def values : Value → Except DecodeError (List Value)
  | .array items => .ok items
  | v => wrongType v "a sequence"

def choose {α : Type} (choices : List (String × α)) (name : String) : Except DecodeError α :=
  match Fields.get? name choices with
  | some a => .ok a
  | none => .error (.unknownVariant name (choices.map Prod.fst))

/-- One of named choices: its name, or an object with the name as its only key and nothing under
it. -/
def choice {α : Type} (choices : List (String × α)) : Value → Except DecodeError α
  | .string name => choose choices name
  | .object [(name, content)] => do
    let a ← choose choices name
    match content with
    | .null | .object [] => .ok a
    | v => wrongType v "unit"
  | .object _ => .error (.invalidValue .map "map with a single key")
  | v => wrongType v "string or map"

end PayloadMapping.Decode
