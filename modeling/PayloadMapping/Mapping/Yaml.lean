import PayloadMapping.Decode.Yaml
import PayloadMapping.Mapping.Decode
import PayloadMapping.Yaml.Printer

set_option autoImplicit false

/-!
# Mappings in YAML text

A mapping is a YAML mapping with the keys `name` and `field_set`, which may both be missing. An
empty text is the mapping without rules. A rule that does not decode is an error of the list of
rules. `toYaml` writes a mapping.
-/

namespace PayloadMapping.Mapping

open Yaml

/-- A scalar or null in place of a name. A null with a tag has to be spelled as null. -/
def isUnnamed (tag : Option Tag) (text : String) (plain : Bool) : Except DecodeError Bool :=
  if !plain then .ok false
  else match tag with
    | some .null =>
      if nullTexts.contains text then .ok true else .error (tagMismatch text "null")
    | some _ => .ok false
    | none => .ok (text.isEmpty || nullTexts.contains text)

def decodeName (document : Document) (mark : Mark) (trail : Trail) (followed : Nat)
    (node : Node) : Except LoadFault (Decoded (Option String)) := do
  let (node, trail, followed) ← follow document trail followed node
  match node with
  | .scalar _ _ tag text plain =>
    match isUnnamed tag text plain with
    | .ok true => .ok (none, followed)
    | .ok false => .ok (some text, followed)
    | .error e => .error (.content e .root mark)
  | _ => .error (.content (wrongNode "a string" node) trail node.mark)

def decodeRule (document : Document) (list : Trail) (mark : Mark) : Decoder Rule :=
  fun trail followed node => do
    let (v, followed) ← decodeValue document (depthLimit - 2) trail followed node
    match Rule.decode v with
    | .ok rule => .ok (rule, followed)
    | .error e => .error (.value e list mark)

def decodeRules (document : Document) (trail : Trail) (followed : Nat) (node : Node) :
    Except LoadFault (Decoded (List Rule)) := do
  let (node, trail, followed) ← follow document trail followed node
  match node with
  | .sequence mark _ _ items =>
    decodeItems (decodeRule document trail mark) trail 0 followed items
  | node =>
    if isVoid node then .ok ([], followed)
    else .error (.content (wrongNode "a sequence" node) trail node.mark)

/-- Decode the entries of the mapping at `mark`. The name and the rules that were found are in
`name` and `rules`. -/
def decodeParts (document : Document) (mark : Mark) :
    Option (Option String) → Option (List Rule) → Nat → List (Node × Node) →
      Except LoadFault Mapping
  | name, rules, _, [] => .ok ⟨name.join, rules.getD []⟩
  | name, rules, followed, (key, value) :: rest => do
    let (keyNode, keyTrail, _) ← follow document .root followed key
    let (field, followed) ← decodeText document "field identifier" .root followed key
    let trail := Trail.value .root key
    if field = "name" then
      if name.isSome then .error (.content (.duplicateField field) .root mark)
      else do
        let (name, followed) ← decodeName document mark trail followed value
        decodeParts document mark (some name) rules followed rest
    else if field = "field_set" then
      if rules.isSome then .error (.content (.duplicateField field) .root mark)
      else do
        let (rules, followed) ← decodeRules document trail followed value
        decodeParts document mark name (some rules) followed rest
    else .error (.content (.unknownField field keys) keyTrail keyNode.mark)

def parseYaml (text : String) : Except LoadFault Mapping := do
  let document := Document.parse text
  let (entries, mark) ← mappingEntries document "struct MappingSpec"
  let mapping ← decodeParts document mark none none 0 entries
  document.conclude mapping

def toYaml (mapping : Mapping) : String :=
  match Block.ofOutline mapping.outline with
  | .record fields => print fields
  | _ => ""

end PayloadMapping.Mapping
