import PayloadMapping.Yaml.Mark

set_option autoImplicit false

/-!
# Tokens of YAML

What a YAML text consists of. The start and end of block collections, which the text shows by
indentation only, are tokens of their own, and so is the start of a key without an indicator.
-/

namespace PayloadMapping.Yaml

/-- A byte of a tag. Tags can spell bytes that are no characters. -/
abbrev Octet := Nat

inductive TokenKind where
  | version (major minor : Nat)
  | tagDirective (handle : List Char) (start : List Octet)
  | documentStart
  | documentEnd
  | blockSequenceStart
  | blockMappingStart
  | blockEnd
  | flowSequenceStart
  | flowSequenceEnd
  | flowMappingStart
  | flowMappingEnd
  | blockEntry
  | flowEntry
  | key
  | value
  | alias (name : String)
  | anchor (name : String)
  | tag (handle : List Char) (suffix : List Octet)
  | scalar (text : String) (plain : Bool)
  | streamEnd
deriving DecidableEq

structure Token where
  kind : TokenKind
  start : Mark
  stop : Mark
deriving DecidableEq

end PayloadMapping.Yaml
