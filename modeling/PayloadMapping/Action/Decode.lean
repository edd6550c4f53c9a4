import PayloadMapping.Action.Entry
import PayloadMapping.Decode.Scalar

set_option autoImplicit false

/-!
# Decoding actions

An action is an object that names its entry under `action_type` and its parameters under their
names, or a list of the name and the parameters in order. Parameters are decoded in the order in
which they are given; only then a missing one is an error. Other keys of an object do not count.
-/

namespace PayloadMapping.Action

structure Arguments where
  texts : Fields (Option String) := []
  meaning : Option PartMeaning := none
  strategy : Option FlatStrategy := none
  target : Option CastTarget := none
  index : Option { n : Int // InSignedRange n } := none
  values : Option (List Value) := none
  value : Option Value := none
  actions : Option (List Action) := none

def meanings : List (String × PartMeaning) :=
  [PartMeaning.constant, .variable].map fun m => (m.name, m)

def strategies : List (String × FlatStrategy) :=
  [FlatStrategy.nestedList, .listDict, .listDictList].map fun s => (s.name, s)

def targets : List (String × CastTarget) :=
  [CastTarget.int, .float, .str, .list, .bool].map fun t => (t.name, t)

def decodeIndex : Value → Except DecodeError { n : Int // InSignedRange n }
  | .number (.whole n _) =>
    if h : InSignedRange n then .ok ⟨n, h⟩ else .error (.invalidValue (.whole n) "i64")
  | v => Decode.wrongType v "i64"

def decodePlain (name : String) (kind : ParameterKind) (v : Value) (arguments : Arguments) :
    Except DecodeError Arguments :=
  match kind with
  | .text => do
    let s ← Decode.text v
    .ok { arguments with texts := (name, some s) :: arguments.texts }
  | .optionalText => do
    let s ← Decode.optional Decode.text v
    .ok { arguments with texts := (name, s) :: arguments.texts }
  | .meaning => do
    let m ← Decode.choice meanings v
    .ok { arguments with meaning := some m }
  | .strategy => do
    let s ← Decode.choice strategies v
    .ok { arguments with strategy := some s }
  | .target => do
    let t ← Decode.choice targets v
    .ok { arguments with target := some t }
  | .index => do
    let i ← decodeIndex v
    .ok { arguments with index := some i }
  | .values => do
    let vs ← Decode.values v
    .ok { arguments with values := some vs }
  | .value => .ok { arguments with value := some v }
  | .actions => .ok arguments

/-- The entry that a value names. Inside a chain the position in the catalogue is a name too. -/
def decodeEntry (inChain : Bool) : Value → Except DecodeError Entry
  | .string name => Decode.choose Entry.named name
  | .number (.whole n h) =>
    if inChain ∧ 0 ≤ n then
      match Entry.all[n.toNat]? with
      | some entry => .ok entry
      | none =>
        .error (.invalidValue (.whole n)
          ("variant index 0 <= i < " ++ toString Entry.all.length))
    else Decode.wrongType (.number (.whole n h)) "variant identifier"
  | v => Decode.wrongType v "variant identifier"

def need {α : Type} (argument : Option α) (missing : DecodeError) : Except DecodeError α :=
  match argument with
  | some a => .ok a
  | none => .error missing

def Arguments.text? (arguments : Arguments) (name : String) : Option String :=
  (Fields.get? name arguments.texts).join

/-- The action of an entry with arguments. `missing` is the error for a parameter that was not
given, by its position and name. -/
def build (entry : Entry) (arguments : Arguments) (missing : Nat → String → DecodeError) :
    Except DecodeError Action :=
  match entry with
  | .append => do
    let part ← need (arguments.text? "value") (missing 0 "value")
    .ok (.affix .after part (arguments.meaning.getD .constant) (arguments.text? "separator"))
  | .prepend => do
    let part ← need (arguments.text? "value") (missing 0 "value")
    .ok (.affix .before part (arguments.meaning.getD .constant) (arguments.text? "separator"))
  | .sum => do
    let lists ← need (arguments.text? "fields") (missing 0 "fields")
    let key ← need (arguments.text? "key") (missing 1 "key")
    .ok (.sum lists key)
  | .capitalise => .ok .capitalise
  | .valueIn => .ok (.valueIn (arguments.values.getD []) (arguments.text? "fields"))
  | .extractIndex => do
    let index ← need arguments.index (missing 0 "index")
    .ok (.extractIndex index.val index.property)
  | .listToDict => do
    let key ← need (arguments.text? "key") (missing 0 "key")
    .ok (.listToDict key)
  | .flat => do
    let strategy ← need arguments.strategy (missing 0 "strategy")
    .ok (.flat strategy (arguments.text? "key") (arguments.text? "join"))
  | .cast => do
    let target ← need arguments.target (missing 0 "to")
    .ok (.cast target)
  | .uppercase => .ok (.text .upper)
  | .lowercase => .ok (.text .lower)
  | .trim => .ok (.text .trim)
  | .default => do
    let v ← need arguments.value (missing 0 "value")
    .ok (.default v)
  | .chain => do
    let actions ← need arguments.actions (missing 0 "actions")
    .ok (.chain actions)
  | .divide => .ok (.reserved .divide)
  | .multiply => .ok (.reserved .multiply)
  | .customEval => .ok (.reserved .customEval)

def elementCount (n : Nat) : String :=
  toString n ++ if n = 1 then " element" else " elements"

def tooShort (entry : Entry) (position : Nat) : DecodeError :=
  .invalidLength position
    ("struct variant ActionSpec::" ++ entry.title ++ " with "
      ++ elementCount entry.parameters.length)

def expectNoMore (entry : Entry) (given : Nat) : Except DecodeError Unit :=
  if given ≤ entry.parameters.length then .ok ()
  else .error (.invalidLength given (elementCount entry.parameters.length ++ " in sequence"))

def parameter? (entry : Entry) (name : String) : Option Parameter :=
  entry.parameters.find? fun p => p.name == name

mutual

def decodeWithin (inChain : Bool) : Value → Except DecodeError Action
  | .object fields => do
    let name ← need (Fields.get? "action_type" fields) (.missingField "action_type")
    let entry ← decodeEntry inChain name
    let arguments ← decodeFields entry {} fields
    build entry arguments fun _ name => .missingField name
  | .array [] => .error (.missingField "action_type")
  | .array (name :: items) => do
    let entry ← decodeEntry inChain name
    let arguments ← decodeItems {} items entry.parameters
    let action ← build entry arguments fun position _ => tooShort entry position
    expectNoMore entry items.length
    .ok action
  | v => Decode.wrongType v "internally tagged enum ActionSpec"

def decodeFields (entry : Entry) (arguments : Arguments) :
    List (String × Value) → Except DecodeError Arguments
  | [] => .ok arguments
  | (name, v) :: rest =>
    match parameter? entry name with
    | none => decodeFields entry arguments rest
    | some parameter => do
      let arguments ← decodeArgument parameter arguments v
      decodeFields entry arguments rest

def decodeItems (arguments : Arguments) :
    List Value → List Parameter → Except DecodeError Arguments
  | v :: rest, parameter :: parameters => do
    let arguments ← decodeArgument parameter arguments v
    decodeItems arguments rest parameters
  | _, _ => .ok arguments

def decodeArgument (parameter : Parameter) (arguments : Arguments) :
    Value → Except DecodeError Arguments
  | .array items =>
    match parameter.kind with
    | .actions => do
      let actions ← decodeChain items
      .ok { arguments with actions := some actions }
    | kind => decodePlain parameter.name kind (.array items) arguments
  | v =>
    match parameter.kind with
    | .actions => Decode.wrongType v "a sequence"
    | kind => decodePlain parameter.name kind v arguments

def decodeChain : List Value → Except DecodeError (List Action)
  | [] => .ok []
  | v :: rest => do
    let action ← decodeWithin true v
    let actions ← decodeChain rest
    .ok (action :: actions)

end

def decode (v : Value) : Except DecodeError Action := decodeWithin false v

end PayloadMapping.Action
