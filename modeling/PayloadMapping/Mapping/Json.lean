import PayloadMapping.Decode.Json
import PayloadMapping.Mapping.Decode

set_option autoImplicit false

/-!
# Mappings in JSON text

A mapping is an object with the keys `name` and `field_set`, or a list of the two. Both may be
missing. Every rule is decoded as soon as it was read, so that the first fault of the text in
reading order is reported.
-/

namespace PayloadMapping.Mapping

open Json

/-- How many containers may lie inside each other in a rule: all but the two around it. -/
def ruleDepthLimit : Nat := depthLimit - 2

/-- The rules of a list from the place after its bracket on, and the closing bracket. Rules read
before are in `read`, in reverse. Every step takes a character. -/
def readRuleItems (read : List Rule) (first : Bool) (cursor : Cursor) :
    Nat → Except LoadError (List Rule × Cursor)
  | 0 => loading (cursor.failNext .endInList)
  | steps + 1 => do
    let (more, cursor) ← loading (cursor.toItem first)
    if more then
      let (v, cursor) ← loading (readValue ruleDepthLimit cursor)
      match Rule.decode v with
      | .ok rule => readRuleItems (rule :: read) false cursor steps
      | .error e => wrong e cursor.afterList
    else
      let cursor ← loading cursor.closeList
      .ok (read.reverse, cursor)

def readRules (cursor : Cursor) : Except LoadError (List Rule × Cursor) :=
  let cursor := cursor.skipSpace
  match cursor.rest with
  | '[' :: rest => readRuleItems [] true (cursor.next '[' rest) (rest.length + 1)
  | _ => wrongType "a sequence" cursor

def readName (cursor : Cursor) : Except LoadError (Option String × Cursor) :=
  let cursor := cursor.skipSpace
  match cursor.rest with
  | 'n' :: rest => do
    let cursor ← loading ((cursor.next 'n' rest).expectIdent ['u', 'l', 'l'])
    .ok (none, cursor)
  | '"' :: rest => do
    let (s, cursor) ← loading (readString (cursor.next '"' rest))
    .ok (some s, cursor)
  | _ => wrongType "a string" cursor

structure Parts where
  name : Option (Option String) := none
  rules : Option (List Rule) := none

def ofParts (parts : Parts) : Mapping := ⟨parts.name.join, parts.rules.getD []⟩

def readPart (parts : Parts) (key : String) (cursor : Cursor) :
    Except LoadError (Parts × Cursor) :=
  if key = "name" then
    if parts.name.isSome then wrong (.duplicateField key) cursor.afterObject
    else do
      let cursor ← loading cursor.passColon
      let (name, cursor) ← readName cursor
      .ok ({ parts with name := some name }, cursor)
  else if key = "field_set" then
    if parts.rules.isSome then wrong (.duplicateField key) cursor.afterObject
    else do
      let cursor ← loading cursor.passColon
      let (rules, cursor) ← readRules cursor
      .ok ({ parts with rules := some rules }, cursor)
  else wrong (.unknownField key keys) cursor.afterObject

def readParts (parts : Parts) (first : Bool) (cursor : Cursor) :
    Nat → Except LoadError (Mapping × Cursor)
  | 0 => loading (cursor.failNext .endInObject)
  | steps + 1 => do
    let (more, cursor) ← loading (cursor.toKey first)
    if more then
      let (key, cursor) ← loading (readString cursor)
      let (parts, cursor) ← readPart parts key cursor
      readParts parts false cursor steps
    else
      let cursor ← loading cursor.closeObject
      .ok (ofParts parts, cursor)

def readListed (cursor : Cursor) : Except LoadError (Mapping × Cursor) := do
  let (more, cursor) ← loading (cursor.toItem true)
  if more then
    let (name, cursor) ← readName cursor
    let (more, cursor) ← loading (cursor.toItem false)
    if more then
      let (rules, cursor) ← readRules cursor
      let cursor ← loading cursor.closeList
      .ok (⟨name, rules⟩, cursor)
    else
      let cursor ← loading cursor.closeList
      .ok (⟨name, []⟩, cursor)
  else
    let cursor ← loading cursor.closeList
    .ok (⟨none, []⟩, cursor)

def readMapping (cursor : Cursor) : Except LoadError (Mapping × Cursor) :=
  let cursor := cursor.skipSpace
  match cursor.rest with
  | '[' :: rest => readListed (cursor.next '[' rest)
  | '\x7b' :: rest => readParts {} true (cursor.next '\x7b' rest) (rest.length + 1)
  | _ => wrongType "struct MappingSpec" cursor

def parseJson (text : String) : Except LoadError Mapping := do
  let (mapping, cursor) ← readMapping (Cursor.start text.toList)
  loading cursor.expectEnd
  .ok mapping

end PayloadMapping.Mapping
