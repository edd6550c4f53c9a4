import PayloadMapping.Value.Basic

set_option autoImplicit false

/-!
# Actions

The catalogue of what can be done to a value after it was looked up. Some entries are reserved:
they can be named, but not applied.
-/

namespace PayloadMapping

inductive Side where
  | after | before
deriving DecidableEq

/-- How the part that is added to a text is meant: as it stands, or as a list of paths. -/
inductive PartMeaning where
  | constant | variable
deriving DecidableEq

/-- How a list is made flat: by joining its lists, by taking a field of its records, or by
joining a list-valued field of its records. -/
inductive FlatStrategy where
  | nestedList | listDict | listDictList
deriving DecidableEq

inductive CastTarget where
  | int | float | str | list | bool
deriving DecidableEq

inductive TextChange where
  | upper | lower | trim
deriving DecidableEq

/-- An entry of the catalogue that cannot be applied. -/
inductive Reserved where
  | divide | multiply | customEval
deriving DecidableEq

inductive Action where
  | affix (side : Side) (part : String) (meaning : PartMeaning) (separator : Option String)
  | sum (lists key : String)
  | capitalise
  | valueIn (values : List Value) (lists : Option String)
  | extractIndex (index : Int) (inRange : InSignedRange index)
  | listToDict (key : String)
  | flat (strategy : FlatStrategy) (key join : Option String)
  | cast (target : CastTarget)
  | text (change : TextChange)
  | default (fallback : Value)
  | chain (actions : List Action)
  | reserved (entry : Reserved)

namespace PartMeaning

def name : PartMeaning → String
  | .constant => "const"
  | .variable => "var"

end PartMeaning

namespace FlatStrategy

def name : FlatStrategy → String
  | .nestedList => "nested_list"
  | .listDict => "list_dict"
  | .listDictList => "list_dict_list"

end FlatStrategy

namespace CastTarget

def name : CastTarget → String
  | .int => "int"
  | .float => "float"
  | .str => "str"
  | .list => "list"
  | .bool => "bool"

end CastTarget

namespace Action

mutual

/-- An action can be applied: neither it nor a part of a chain is reserved. -/
def isImplemented : Action → Bool
  | .reserved _ => false
  | .chain actions => allImplemented actions
  | _ => true

def allImplemented : List Action → Bool
  | [] => true
  | action :: rest => isImplemented action && allImplemented rest

end

mutual

def flatten : Action → List Action
  | .chain actions => .chain actions :: flattenAll actions
  | action => [action]

def flattenAll : List Action → List Action
  | [] => []
  | action :: rest => flatten action ++ flattenAll rest

end

mutual

def same : Action → Action → Bool
  | .affix side part meaning separator, .affix side' part' meaning' separator' =>
    side == side' && part == part' && meaning == meaning' && separator == separator'
  | .sum lists key, .sum lists' key' => lists == lists' && key == key'
  | .capitalise, .capitalise => true
  | .valueIn values lists, .valueIn values' lists' =>
    Value.sameItems values values' && lists == lists'
  | .extractIndex index _, .extractIndex index' _ => index == index'
  | .listToDict key, .listToDict key' => key == key'
  | .flat strategy key join, .flat strategy' key' join' =>
    strategy == strategy' && key == key' && join == join'
  | .cast target, .cast target' => target == target'
  | .text change, .text change' => change == change'
  | .default fallback, .default fallback' => fallback.same fallback'
  | .chain actions, .chain actions' => sameAll actions actions'
  | .reserved entry, .reserved entry' => entry == entry'
  | _, _ => false

def sameAll : List Action → List Action → Bool
  | [], [] => true
  | a :: as, b :: bs => same a b && sameAll as bs
  | _, _ => false

end

end Action

end PayloadMapping
