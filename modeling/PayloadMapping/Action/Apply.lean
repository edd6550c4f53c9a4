import PayloadMapping.Action.Entry
import PayloadMapping.Action.Quantity
import PayloadMapping.Json.Printer
import PayloadMapping.Text.Case

set_option autoImplicit false

/-!
# Applying actions

`Action.apply` gives the value that an action makes of a value, or the reason why it cannot.
Some actions also look up paths in the subtree around the value, which they are given as
`scope`.
-/

namespace PayloadMapping

/-- The paths in a list with commas between them. Blanks around them and blank entries do not
count. -/
def pathList (list : String) : List Path :=
  (((Text.pieces ',' list.toList).map Text.trimList).filter (· ≠ [])).map
    fun piece => Path.parse (String.ofList piece)

namespace Action

def unfit {α : Type} (action expected : String) (v : Value) : Except ActionError α :=
  .error ⟨action, .invalidInput expected v.kind⟩

/-- The texts at the given paths, or the first path that leads nowhere. -/
def lookUpTexts (action : String) (scope : Value) : List Path → Except ActionError (List String)
  | [] => .ok []
  | path :: rest =>
    match path.read scope with
    | .error e => .error ⟨action, .unresolvedField e⟩
    | .ok v =>
      match lookUpTexts action scope rest with
      | .ok texts => .ok (v.render :: texts)
      | .error e => .error e

def addition (action part : String) (meaning : PartMeaning) (separator : String)
    (scope : Value) : Except ActionError String :=
  match meaning with
  | .constant => .ok part
  | .variable =>
    match lookUpTexts action scope (pathList part) with
    | .ok texts => .ok (Text.join separator texts)
    | .error e => .error e

def scalarText? : Value → Option String
  | .string s => some s
  | .number n => some n.text
  | .bool b => some (Value.bool b).render
  | _ => none

def addPart (side : Side) (part : String) (meaning : PartMeaning) (separator : Option String)
    (v scope : Value) : Except ActionError Value :=
  let action := name (.affix side part meaning separator)
  match scalarText? v with
  | none => unfit action "string, number or bool" v
  | some base =>
    let separator := separator.getD ""
    match addition action part meaning separator scope with
    | .error e => .error e
    | .ok added =>
      match side with
      | .after => .ok (.string (base ++ separator ++ added))
      | .before => .ok (.string (added ++ separator ++ base))

def sumName : String := "sum_field_in_dict_list"

def amounts (key : String) (records : List Value) : List Value :=
  (records.filterMap (Value.field? key)).filter (· ≠ .null)

def addAmounts (total : Total) : List Value → Except ActionError Total
  | [] => .ok total
  | v :: rest =>
    match Quantity.ofValue sumName v with
    | .ok q => addAmounts (total.add q) rest
    | .error e => .error e

/-- Add the fields of the records in the lists at the given paths. Null and paths that lead
nowhere add nothing. -/
def addLists (key : String) (scope : Value) (total : Total) :
    List Path → Except ActionError Total
  | [] => .ok total
  | path :: rest =>
    match path.read scope with
    | .ok (.array records) =>
      match addAmounts total (amounts key records) with
      | .ok total => addLists key scope total rest
      | .error e => .error e
    | .ok .null | .error _ => addLists key scope total rest
    | .ok v => unfit sumName "list of records" v

def sumField (lists key : String) (scope : Value) : Except ActionError Value :=
  match addLists key scope .zero (pathList lists) with
  | .ok total => .ok total.value
  | .error e => .error e

def capitaliseValue : Value → Value
  | .string s => .string (Text.title s)
  | v => v

/-- What a path adds to the members of a set: the items of a list, else the value. -/
def membersAt (scope : Value) (path : Path) : List Value :=
  match path.read scope with
  | .ok (.array items) => items
  | .ok v => [v]
  | .error _ => []

def members (values : List Value) (lists : Option String) (scope : Value) : List Value :=
  values ++ ((lists.map pathList).getD []).flatMap (membersAt scope)

def isMember (members : List Value) : Value → Bool
  | .array items => items.any fun item => members.any fun m => m.same item
  | v => members.any fun m => m.same v

/-- How far behind the first item of a list the index points. Negative indices count from the
end. -/
def offset (index : Int) (length : Nat) : Int :=
  if index < 0 then length + index else index

def position? (index : Int) (length : Nat) : Option Nat :=
  let position := offset index length
  if 0 ≤ position ∧ position < length then some position.toNat else none

def extract (index : Int) (v : Value) : Except ActionError Value :=
  match v with
  | .array items =>
    match (position? index items.length).bind fun i => items[i]? with
    | some item => .ok item
    | none => .error ⟨"extract_index_data", .indexOutOfRange index items.length⟩
  | _ => unfit "extract_index_data" "list" v

/-- The records of a list under the texts of a field of theirs. Later records win; those
without the field, or with null in it, do not count. -/
def keyed (key : String) (records : List Value) : Fields Value :=
  records.foldl
    (fun fields record =>
      match record.field? key with
      | none | some .null => fields
      | some id => fields.insert id.render record)
    []

def keyRecords (key : String) (v : Value) : Except ActionError Value :=
  match v with
  | .array records => .ok (.object (keyed key records))
  | _ => unfit "list_to_dict" "list of records" v

def piece (strategy : FlatStrategy) (key : String) (item : Value) :
    Except ActionError (List Value) :=
  match strategy, item with
  | .nestedList, .array inner => .ok inner
  | .nestedList, v => unfit "flat" "list of lists" v
  | .listDict, .object fields => .ok (Fields.get? key fields).toList
  | .listDictList, .object fields =>
    match Fields.get? key fields with
    | some (.array inner) => .ok inner
    | none | some .null => .ok []
    | some v => unfit "flat" "list-valued field" v
  | .listDict, v | .listDictList, v => unfit "flat" "list of records" v

def pieces (strategy : FlatStrategy) (key : String) :
    List Value → Except ActionError (List Value)
  | [] => .ok []
  | item :: rest =>
    match piece strategy key item with
    | .error e => .error e
    | .ok taken =>
      match pieces strategy key rest with
      | .ok more => .ok (taken ++ more)
      | .error e => .error e

/-- The key that a strategy works with, if it was given or is not needed. -/
def flatKey? (strategy : FlatStrategy) (key : Option String) : Option String :=
  match strategy with
  | .nestedList => some ""
  | .listDict | .listDictList => key

def joined (join : Option String) (items : List Value) : Value :=
  match join with
  | some delimiter => .string (Text.join delimiter (items.map Value.render))
  | none => .array items

def flattenList (strategy : FlatStrategy) (key join : Option String) (v : Value) :
    Except ActionError Value :=
  match v with
  | .array items =>
    match flatKey? strategy key with
    | none => .error ⟨"flat", .missingKey⟩
    | some key =>
      match pieces strategy key items with
      | .ok taken => .ok (joined join taken)
      | .error e => .error e
  | _ => unfit "flat" "list" v

def castName : String := "type_cast"

def truncate? : Extended → Option Int
  | .finite x => Total.fit? x.truncate
  | _ => none

def castInt (v : Value) : Except ActionError Value :=
  match v with
  | .bool b => .ok (.ofInt b.toNat)
  | .number (.whole n h) => .ok (.number (.whole n h))
  | .number _ | .string _ =>
    match Quantity.ofValue castName v with
    | .error e => .error e
    | .ok (.whole n) => .ok (.ofInt n)
    | .ok (.real x) =>
      match truncate? x with
      | some n => .ok (.ofInt n)
      | none => .error ⟨castName, .invalidNumber v.render⟩
  | _ => unfit castName "number, string or bool" v

def castFloat (v : Value) : Except ActionError Value :=
  match v with
  | .bool b => .ok (.ofExtended (.ofInt b.toNat))
  | .number _ | .string _ =>
    match Quantity.ofValue castName v with
    | .ok q => .ok (.ofExtended q.toExtended)
    | .error e => .error e
  | _ => unfit castName "number, string or bool" v

def castText (v : Value) : Except ActionError Value :=
  match v with
  | .null => unfit castName "non-null value" v
  | v => .ok (.string v.render)

/-- A value as a list: an object as its keys with their values, a scalar as the list of it. -/
def castList (v : Value) : Except ActionError Value :=
  match v with
  | .null => unfit castName "non-null value" v
  | .array items => .ok (.array items)
  | .object fields =>
    .ok (.array (fields.map fun field => .array [.string field.1, field.2]))
  | v => .ok (.array [v])

def trueTexts : List String := ["true", "1", "yes", "y", "t", "on"]

def castBool : Value → Value
  | .string s => .bool (trueTexts.contains (Text.lower (Text.trim s)))
  | v => .bool v.isTruthy

def convert (target : CastTarget) (v : Value) : Except ActionError Value :=
  match target with
  | .int => castInt v
  | .float => castFloat v
  | .str => castText v
  | .list => castList v
  | .bool => .ok (castBool v)

end Action

def TextChange.change : TextChange → String → String
  | .upper => Text.upper
  | .lower => Text.lower
  | .trim => Text.trim

namespace Action

def changeText (change : TextChange) (v : Value) : Except ActionError Value :=
  match v with
  | .null => .ok .null
  | v =>
    match scalarText? v with
    | some s => .ok (.string (change.change s))
    | none => unfit (name (.text change)) "string" v

def orDefault (fallback : Value) : Value → Value
  | .null => fallback
  | .string s => if s = "" then fallback else .string s
  | v => v

mutual

def apply : Action → Value → Value → Except ActionError Value
  | .affix side part meaning separator, v, scope => addPart side part meaning separator v scope
  | .sum lists key, _, scope => sumField lists key scope
  | .capitalise, v, _ => .ok (capitaliseValue v)
  | .valueIn values lists, v, scope => .ok (.bool (isMember (members values lists scope) v))
  | .extractIndex index _, v, _ => extract index v
  | .listToDict key, v, _ => keyRecords key v
  | .flat strategy key join, v, _ => flattenList strategy key join v
  | .cast target, v, _ => convert target v
  | .text change, v, _ => changeText change v
  | .default fallback, v, _ => .ok (orDefault fallback v)
  | .chain actions, v, scope => applyAll actions v scope
  | .reserved entry, _, _ => .error ⟨name (.reserved entry), .notImplemented⟩

def applyAll : List Action → Value → Value → Except ActionError Value
  | [], v, _ => .ok v
  | action :: rest, v, scope =>
    match apply action v scope with
    | .ok w => applyAll rest w scope
    | .error e => .error e

end

end Action

end PayloadMapping
