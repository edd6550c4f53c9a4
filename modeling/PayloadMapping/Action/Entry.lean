import PayloadMapping.Action.Basic

set_option autoImplicit false

/-!
# The catalogue of actions

The entries of the catalogue with their names and parameters, in the order in which they are
listed. `Action.entry` is the entry of an action.
-/

namespace PayloadMapping

inductive Entry where
  | append | prepend | sum | capitalise | valueIn | extractIndex | listToDict | flat | cast
  | uppercase | lowercase | trim | default | chain | divide | multiply | customEval
deriving DecidableEq

inductive ParameterKind where
  | text | optionalText | meaning | strategy | target | index | values | value | actions
deriving DecidableEq

structure Parameter where
  name : String
  kind : ParameterKind
deriving DecidableEq

namespace Entry

def all : List Entry :=
  [.append, .prepend, .sum, .capitalise, .valueIn, .extractIndex, .listToDict, .flat, .cast,
    .uppercase, .lowercase, .trim, .default, .chain, .divide, .multiply, .customEval]

def name : Entry → String
  | .append => "append"
  | .prepend => "prepend"
  | .sum => "sum_field_in_dict_list"
  | .capitalise => "capitalise"
  | .valueIn => "value_in"
  | .extractIndex => "extract_index_data"
  | .listToDict => "list_to_dict"
  | .flat => "flat"
  | .cast => "type_cast"
  | .uppercase => "uppercase"
  | .lowercase => "lowercase"
  | .trim => "trim"
  | .default => "default"
  | .chain => "chain"
  | .divide => "divide"
  | .multiply => "multiply"
  | .customEval => "custom_eval"

/-- The names under which entries are found: the sum has a short name too. -/
def names (entry : Entry) : List String :=
  match entry with
  | .sum => ["add", entry.name]
  | _ => [entry.name]

def named : List (String × Entry) :=
  all.flatMap fun entry => entry.names.map fun name => (name, entry)

def parameters : Entry → List Parameter
  | .append | .prepend =>
    [⟨"value", .text⟩, ⟨"value_type", .meaning⟩, ⟨"separator", .optionalText⟩]
  | .sum => [⟨"fields", .text⟩, ⟨"key", .text⟩]
  | .valueIn => [⟨"values", .values⟩, ⟨"fields", .optionalText⟩]
  | .extractIndex => [⟨"index", .index⟩]
  | .listToDict => [⟨"key", .text⟩]
  | .flat => [⟨"strategy", .strategy⟩, ⟨"key", .optionalText⟩, ⟨"join", .optionalText⟩]
  | .cast => [⟨"to", .target⟩]
  | .default => [⟨"value", .value⟩]
  | .chain => [⟨"actions", .actions⟩]
  | .capitalise | .uppercase | .lowercase | .trim | .divide | .multiply | .customEval => []

/-- What messages about lists of parameters call an entry. -/
def title : Entry → String
  | .append => "Append"
  | .prepend => "Prepend"
  | .sum => "SumFieldInDictList"
  | .capitalise => "Capitalise"
  | .valueIn => "ValueIn"
  | .extractIndex => "ExtractIndexData"
  | .listToDict => "ListToDict"
  | .flat => "Flat"
  | .cast => "TypeCast"
  | .uppercase => "Uppercase"
  | .lowercase => "Lowercase"
  | .trim => "Trim"
  | .default => "Default"
  | .chain => "Chain"
  | .divide => "Divide"
  | .multiply => "Multiply"
  | .customEval => "CustomEval"

end Entry

namespace Action

def entry : Action → Entry
  | .affix .after _ _ _ => .append
  | .affix .before _ _ _ => .prepend
  | .sum _ _ => .sum
  | .capitalise => .capitalise
  | .valueIn _ _ => .valueIn
  | .extractIndex _ _ => .extractIndex
  | .listToDict _ => .listToDict
  | .flat _ _ _ => .flat
  | .cast _ => .cast
  | .text .upper => .uppercase
  | .text .lower => .lowercase
  | .text .trim => .trim
  | .default _ => .default
  | .chain _ => .chain
  | .reserved .divide => .divide
  | .reserved .multiply => .multiply
  | .reserved .customEval => .customEval

def name (action : Action) : String := action.entry.name

end Action

end PayloadMapping
