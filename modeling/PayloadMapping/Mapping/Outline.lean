import PayloadMapping.Action.Entry
import PayloadMapping.Json.Printer
import PayloadMapping.Mapping.Basic

set_option autoImplicit false

/-!
# Outlines of mappings

The written form of a mapping is a tree whose records keep the order in which their fields are
declared; what equals its default is left out. Values inside it stay as they are.
`Outline.toValue` forgets the order.
-/

namespace PayloadMapping

/-- A tree of values, lists, and records with a declared order of fields. -/
inductive Outline where
  | value (v : Value)
  | list (items : List Outline)
  | record (fields : List (String × Outline))

namespace Outline

def text (s : String) : Outline := .value (.string s)

def textField (key s : String) : List (String × Outline) := [(key, text s)]

def textField? (key : String) : Option String → List (String × Outline)
  | some s => textField key s
  | none => []

def flagField (key : String) (b : Bool) : List (String × Outline) :=
  if b then [(key, .value (.bool true))] else []

mutual

/-- The value of an outline, with its fields in key order. -/
def toValue : Outline → Value
  | .value v => v
  | .list items => .array (toValues items)
  | .record fields => .object (Fields.sorted (toFields fields))

def toValues : List Outline → List Value
  | [] => []
  | outline :: rest => toValue outline :: toValues rest

def toFields : List (String × Outline) → List (String × Value)
  | [] => []
  | (key, outline) :: rest => (key, toValue outline) :: toFields rest

end

mutual

def compactChars : Outline → List Char
  | .value v => Json.compactChars v
  | .list items => '[' :: compactItems items ++ [']']
  | .record fields => '\x7b' :: compactFields fields ++ ['\x7d']

def compactItems : List Outline → List Char
  | [] => []
  | [outline] => compactChars outline
  | outline :: rest => compactChars outline ++ ',' :: compactItems rest

def compactFields : List (String × Outline) → List Char
  | [] => []
  | [(key, outline)] => Json.stringChars key ++ ':' :: compactChars outline
  | (key, outline) :: rest =>
    Json.stringChars key ++ ':' :: compactChars outline ++ ',' :: compactFields rest

end

def compact (outline : Outline) : String := String.ofList (compactChars outline)

end Outline

namespace Action

mutual

def parameterFields : Action → List (String × Outline)
  | .affix _ part meaning separator =>
    Outline.textField "value" part ++ Outline.textField "value_type" meaning.name
      ++ Outline.textField? "separator" separator
  | .sum lists key => Outline.textField "fields" lists ++ Outline.textField "key" key
  | .valueIn values lists =>
    (if values.isEmpty then [] else [("values", .value (.array values))])
      ++ Outline.textField? "fields" lists
  | .extractIndex index inRange =>
    [("index", .value (.number (.whole index
      ⟨inRange.1, Int.lt_trans inRange.2 (by decide)⟩)))]
  | .listToDict key => Outline.textField "key" key
  | .flat strategy key join =>
    Outline.textField "strategy" strategy.name ++ Outline.textField? "key" key
      ++ Outline.textField? "join" join
  | .cast target => Outline.textField "to" target.name
  | .default fallback => [("value", .value fallback)]
  | .chain actions => [("actions", .list (outlines actions))]
  | .capitalise | .text _ | .reserved _ => []

def outlines : List Action → List Outline
  | [] => []
  | action :: rest =>
    .record (("action_type", .text action.name) :: parameterFields action) :: outlines rest

end

def outline (action : Action) : Outline :=
  .record (("action_type", .text action.name) :: action.parameterFields)

def outlineField? (key : String) : Option Action → List (String × Outline)
  | some action => [(key, action.outline)]
  | none => []

end Action

def FieldRule.outline (rule : FieldRule) : Outline :=
  .record
    (Outline.textField? "from" (rule.source.map Path.text)
      ++ Outline.textField "to" rule.target.text
      ++ Action.outlineField? "action" rule.action
      ++ Outline.flagField "is_optional" rule.isOptional
      ++ Outline.flagField "add_to_cache" rule.addToCache
      ++ Outline.flagField "is_unique_id" rule.isUniqueId
      ++ Outline.flagField "from_parent" rule.fromParent
      ++ match rule.defaultValue with
        | some v => [("default_value", .value v)]
        | none => [])

namespace Rule

mutual

def outline : Rule → Outline
  | .field rule => rule.outline
  | .group rules => .record [("field_set", .list (outlines rules))]
  | .loop source target rules action =>
    .record [("for_each",
      .record
        (Outline.textField "from" source.text ++ Outline.textField "to" target.text
          ++ ("field_set", .list (outlines rules)) :: Action.outlineField? "action" action))]

def outlines : List Rule → List Outline
  | [] => []
  | rule :: rest => outline rule :: outlines rest

end

end Rule

namespace Mapping

def outline (mapping : Mapping) : Outline :=
  .record
    (Outline.textField? "name" mapping.name
      ++ [("field_set", .list (Rule.outlines mapping.rules))])

def toValue (mapping : Mapping) : Value := mapping.outline.toValue

def compact (mapping : Mapping) : String := mapping.outline.compact

end Mapping

end PayloadMapping
