import PayloadMapping.Value.Basic

set_option autoImplicit false

/-!
# Values as JSON text

The compact text has no blanks; the indented text puts every element and field on a line of its
own, two blanks deeper than its container. Both keep the order of the fields. Characters are
lists here; `Value.compact` and `Value.indented` are the texts.
-/

namespace PayloadMapping.Json

def hexPair (code : Nat) : List Char := [Nat.digitChar (code / 16), Nat.digitChar (code % 16)]

/-- One character inside a JSON string: quotes, backslashes and control characters escaped. -/
def escapeChar (c : Char) : List Char :=
  if c = '"' then ['\\', '"']
  else if c = '\\' then ['\\', '\\']
  else if c = '\x08' then ['\\', 'b']
  else if c = '\t' then ['\\', 't']
  else if c = '\n' then ['\\', 'n']
  else if c = '\x0c' then ['\\', 'f']
  else if c = '\r' then ['\\', 'r']
  else if c.toNat < 0x20 then ['\\', 'u', '0', '0'] ++ hexPair c.toNat
  else [c]

def stringChars (s : String) : List Char := '"' :: s.toList.flatMap escapeChar ++ ['"']

mutual

def compactChars : Value → List Char
  | .null => ['n', 'u', 'l', 'l']
  | .bool true => ['t', 'r', 'u', 'e']
  | .bool false => ['f', 'a', 'l', 's', 'e']
  | .number n => n.text.toList
  | .string s => stringChars s
  | .array items => '[' :: compactItems items ++ [']']
  | .object fields => '\x7b' :: compactFields fields ++ ['\x7d']

def compactItems : List Value → List Char
  | [] => []
  | [v] => compactChars v
  | v :: rest => compactChars v ++ ',' :: compactItems rest

def compactFields : List (String × Value) → List Char
  | [] => []
  | [(k, v)] => stringChars k ++ ':' :: compactChars v
  | (k, v) :: rest => stringChars k ++ ':' :: compactChars v ++ ',' :: compactFields rest

end

def newline (level : Nat) : List Char := '\n' :: List.replicate (2 * level) ' '

mutual

/-- The indented text of a value inside `level` containers. -/
def indentedChars (level : Nat) : Value → List Char
  | .array (v :: rest) =>
    '[' :: indentedItems (level + 1) (v :: rest) ++ newline level ++ [']']
  | .object (f :: rest) =>
    '\x7b' :: indentedFields (level + 1) (f :: rest) ++ newline level ++ ['\x7d']
  | .array [] => ['[', ']']
  | .object [] => ['\x7b', '\x7d']
  | .null => compactChars .null
  | .bool b => compactChars (.bool b)
  | .number n => compactChars (.number n)
  | .string s => compactChars (.string s)

def indentedItems (level : Nat) : List Value → List Char
  | [] => []
  | [v] => newline level ++ indentedChars level v
  | v :: rest => newline level ++ indentedChars level v ++ ',' :: indentedItems level rest

def indentedFields (level : Nat) : List (String × Value) → List Char
  | [] => []
  | [(k, v)] => newline level ++ stringChars k ++ ':' :: ' ' :: indentedChars level v
  | (k, v) :: rest =>
    newline level ++ stringChars k ++ ':' :: ' ' :: indentedChars level v
      ++ ',' :: indentedFields level rest

end

end PayloadMapping.Json

namespace PayloadMapping.Value

def compact (v : Value) : String := String.ofList (Json.compactChars v)

def indented (v : Value) : String := String.ofList (Json.indentedChars 0 v)

/-- What a value adds to a text: nothing for null, a text itself, else the compact JSON text. -/
def render : Value → String
  | .null => ""
  | .string s => s
  | v => v.compact

end PayloadMapping.Value
