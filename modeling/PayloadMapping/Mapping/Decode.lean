import PayloadMapping.Action.Decode
import PayloadMapping.Mapping.Basic

set_option autoImplicit false

/-!
# Decoding rules and mappings

A rule is an object. With the key `for_each` or `field_set` it is a loop or a group and has no
other key; else it is a field rule, all of whose keys are known. Fields are decoded in the order
of their keys; a missing one is an error after that. The body of a loop may also be a list of
its parts.
-/

namespace PayloadMapping

namespace FieldRule

def keys : List String :=
  ["from", "to", "action", "is_optional", "add_to_cache", "is_unique_id", "from_parent",
    "default_value"]

def decodePath (v : Value) : Except DecodeError Path := (Decode.text v).map Path.parse

structure Parts where
  source : Option Path := none
  target : Option Path := none
  action : Option Action := none
  isOptional : Bool := false
  addToCache : Bool := false
  isUniqueId : Bool := false
  fromParent : Bool := false
  defaultValue : Option Value := none

def decodePart (parts : Parts) (key : String) (v : Value) : Except DecodeError Parts :=
  if key = "from" then do
    let source ← Decode.optional decodePath v
    .ok { parts with source := source }
  else if key = "to" then do
    let target ← decodePath v
    .ok { parts with target := some target }
  else if key = "action" then do
    let action ← Decode.optional Action.decode v
    .ok { parts with action := action }
  else if key = "is_optional" then do
    let b ← Decode.flag v
    .ok { parts with isOptional := b }
  else if key = "add_to_cache" then do
    let b ← Decode.flag v
    .ok { parts with addToCache := b }
  else if key = "is_unique_id" then do
    let b ← Decode.flag v
    .ok { parts with isUniqueId := b }
  else if key = "from_parent" then do
    let b ← Decode.flag v
    .ok { parts with fromParent := b }
  else if key = "default_value" then
    .ok { parts with defaultValue := if v = .null then none else some v }
  else .error (.unknownField key keys)

def decodeParts (parts : Parts) : List (String × Value) → Except DecodeError Parts
  | [] => .ok parts
  | (key, v) :: rest => do
    let parts ← decodePart parts key v
    decodeParts parts rest

def ofParts (parts : Parts) : Except DecodeError FieldRule :=
  match parts.target with
  | none => .error (.missingField "to")
  | some target =>
    .ok
      { source := parts.source
        target := target
        action := parts.action
        isOptional := parts.isOptional
        addToCache := parts.addToCache
        isUniqueId := parts.isUniqueId
        fromParent := parts.fromParent
        defaultValue := parts.defaultValue }

def decode (fields : List (String × Value)) : Except DecodeError FieldRule := do
  let parts ← decodeParts {} fields
  ofParts parts

end FieldRule

namespace Rule

def loopKeys : List String := ["from", "to", "field_set", "action"]

structure LoopParts where
  source : Option Path := none
  target : Option Path := none
  rules : List Rule := []
  action : Option Action := none

def decodeLoopPart (parts : LoopParts) (key : String) (v : Value) :
    Except DecodeError LoopParts :=
  if key = "from" then do
    let source ← FieldRule.decodePath v
    .ok { parts with source := some source }
  else if key = "to" then do
    let target ← FieldRule.decodePath v
    .ok { parts with target := some target }
  else if key = "action" then do
    let action ← Decode.optional Action.decode v
    .ok { parts with action := action }
  else .error (.unknownField key loopKeys)

/-- The loop of its parts. `missing` is the error for a part that was not given, by its position
and name. -/
def ofLoopParts (parts : LoopParts) (missing : Nat → String → DecodeError) :
    Except DecodeError Rule :=
  match parts.source, parts.target with
  | none, _ => .error (missing 0 "from")
  | _, none => .error (missing 1 "to")
  | some source, some target => .ok (.loop source target parts.rules parts.action)

def loopTooShort (position : Nat) : DecodeError :=
  .invalidLength position "struct ForEachRule with 4 elements"

def expectNoMore (given : Nat) : Except DecodeError Unit :=
  if given ≤ 4 then .ok () else .error (.invalidLength given "fewer elements in array")

/-- A rule with the key of a group or loop has no other key. -/
def expectAlone (key : String) (fields : List (String × Value)) : Except DecodeError Unit :=
  if 1 < fields.length then
    .error (.mixedKeys key ((fields.map Prod.fst).filter (· ≠ key)))
  else .ok ()

mutual

def decode : Value → Except DecodeError Rule
  | .object fields =>
    if Fields.contains "for_each" fields then do
      expectAlone "for_each" fields
      decodeSole fields
    else if Fields.contains "field_set" fields then do
      expectAlone "field_set" fields
      decodeSole fields
    else (FieldRule.decode fields).map .field
  | v => .error (.notARule v.kind)

def decodeSole : List (String × Value) → Except DecodeError Rule
  | (key, body) :: _ =>
    if key = "for_each" then decodeLoop body else (decodeRules body).map .group
  | [] => .error (.missingField "to")

def decodeRules : Value → Except DecodeError (List Rule)
  | .array items => decodeAll items
  | v => Decode.wrongType v "a sequence"

def decodeAll : List Value → Except DecodeError (List Rule)
  | [] => .ok []
  | v :: rest => do
    let rule ← decode v
    let rules ← decodeAll rest
    .ok (rule :: rules)

def decodeLoop : Value → Except DecodeError Rule
  | .object fields => do
    let parts ← decodeLoopFields {} fields
    ofLoopParts parts fun _ name => .missingField name
  | .array items => do
    let parts ← decodeLoopItems {} items loopKeys
    let rule ← ofLoopParts parts fun position _ => loopTooShort position
    expectNoMore items.length
    .ok rule
  | v => Decode.wrongType v "struct ForEachRule"

def decodeLoopFields (parts : LoopParts) : List (String × Value) → Except DecodeError LoopParts
  | [] => .ok parts
  | (key, v) :: rest => do
    let parts ←
      if key = "field_set" then do
        let rules ← decodeRules v
        .ok { parts with rules := rules }
      else decodeLoopPart parts key v
    decodeLoopFields parts rest

def decodeLoopItems (parts : LoopParts) :
    List Value → List String → Except DecodeError LoopParts
  | v :: rest, key :: keys => do
    let parts ←
      if key = "field_set" then do
        let rules ← decodeRules v
        .ok { parts with rules := rules }
      else decodeLoopPart parts key v
    decodeLoopItems parts rest keys
  | _, _ => .ok parts

end

end Rule

namespace Mapping

def decodeField (mapping : Mapping) (key : String) (v : Value) : Except DecodeError Mapping :=
  if key = "name" then do
    let name ← Decode.optional Decode.text v
    .ok { mapping with name := name }
  else if key = "field_set" then do
    let rules ← Rule.decodeRules v
    .ok { mapping with rules := rules }
  else .error (.unknownField key keys)

def decodeFields (mapping : Mapping) : List (String × Value) → Except DecodeError Mapping
  | [] => .ok mapping
  | (key, v) :: rest => do
    let mapping ← decodeField mapping key v
    decodeFields mapping rest

/-- Decode a mapping: an object with the keys `name` and `field_set`, or a list of the two. Both
may be missing. -/
def decode : Value → Except DecodeError Mapping
  | .object fields => decodeFields { rules := [] } fields
  | .array items => do
    let mapping ← decodeFields { rules := [] } (keys.zip items)
    if items.length ≤ keys.length then .ok mapping
    else .error (.invalidLength items.length "fewer elements in array")
  | v => Decode.wrongType v "struct MappingSpec"

end Mapping

end PayloadMapping
