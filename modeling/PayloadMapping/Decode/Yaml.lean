import PayloadMapping.Decode.Error
import PayloadMapping.Yaml.Document
import PayloadMapping.Yaml.Plain

set_option autoImplicit false

/-!
# Decoding nodes of YAML

Nodes are decoded along a trail of keys and positions. An error names the trail and the place of
the node, except that too many aliases are an error of the whole document. Collections may lie
`depthLimit` deep inside each other. The first thing that is wrong counts: what a document should
not hold is found before it turns out, further on, that the text is no YAML.
-/

namespace PayloadMapping.Yaml

inductive Trail where
  | root
  | item (parent : Trail) (position : Nat)
  | key (parent : Trail) (key : String)
  | unnamed (parent : Trail)
  | alias (parent : Trail)
deriving DecidableEq

namespace Trail

def text : Trail → String
  | .root => "."
  | .item parent position => parent.text ++ "[" ++ toString position ++ "]"
  | .key .root name => name
  | .key parent name => parent.text ++ "." ++ name
  | .unnamed .root => "?"
  | .unnamed parent => parent.text ++ ".?"
  | .alias parent => parent.text

end Trail

/-- What is wrong with a text: it is no YAML, it has an alias for a name that was not seen or more
than one document, a node is not what it should be, a value that nodes stand for is not what it
should be, or a limit is passed. -/
inductive LoadFault where
  | noYaml
  | unknownAnchor (mark : Mark)
  | severalDocuments
  | content (error : DecodeError) (trail : Trail) (mark : Mark)
  | value (error : DecodeError) (trail : Trail) (mark : Mark)
  | outOfRange (trail : Trail) (mark : Mark)
  | tooDeep (mark : Mark)
  | tooManyAliases
deriving DecidableEq

namespace LoadFault

def place? : LoadFault → Option (Nat × Nat)
  | .noYaml | .severalDocuments | .tooManyAliases => none
  | .unknownAnchor mark | .content _ _ mark | .value _ _ mark | .outOfRange _ mark
  | .tooDeep mark => some (mark.line + 1, mark.column + 1)

def withTrail (trail : Trail) (message : String) : String :=
  if trail.text = "." then message else trail.text ++ ": " ++ message

def cause : LoadFault → String
  | .noYaml => "invalid YAML"
  | .unknownAnchor _ => "unknown anchor"
  | .severalDocuments =>
    "deserializing from YAML containing more than one document is not supported"
  | .content error trail _ => withTrail trail (error.message .yaml)
  | .value error trail _ => withTrail trail (error.message .json)
  | .outOfRange trail _ => withTrail trail "JSON number out of range"
  | .tooDeep _ => "recursion limit exceeded"
  | .tooManyAliases => "repetition limit exceeded"

/-- The wording of a fault with its place, unless that is the start of the text. -/
def message (fault : LoadFault) : String :=
  match fault.place? with
  | some (line, column) =>
    if line = 1 ∧ column = 1 then fault.cause
    else fault.cause ++ " at line " ++ toString line ++ " column " ++ toString column
  | none => fault.cause

end LoadFault

def Ending.fault? : Ending → Option LoadFault
  | .whole => none
  | .followed => some .severalDocuments
  | .broken => some .noYaml
  | .unknownAnchor mark => some (.unknownAnchor mark)

def Document.breakFault (document : Document) : LoadFault :=
  document.ending.fault?.getD .noYaml

/-- What was decoded from a document, unless something is wrong with its end. -/
def Document.conclude {α : Type} (document : Document) (decoded : α) : Except LoadFault α :=
  match document.ending.fault? with
  | some fault => .error fault
  | none => .ok decoded

def depthLimit : Nat := 128

/-- What decoding a part gives: what was found and how many aliases were followed so far. -/
abbrev Decoded (α : Type) := α × Nat

/-- A node that is no alias and was not cut, with the trail to it and how many aliases were
followed so far. -/
def follow (document : Document) (trail : Trail) (followed : Nat) (node : Node) :
    Except LoadFault (Node × Trail × Nat) :=
  match node with
  | .alias _ number =>
    if document.aliasLimit < followed + 1 then .error .tooManyAliases
    else match document.target? number with
      | some target => .ok (target, .alias trail, followed + 1)
      | none => .error .noYaml
  | .cut => .error document.breakFault
  | _ => .ok (node, trail, followed)

/-- The error of a tag with a meaning on a scalar that does not have it. -/
def tagMismatch (text expected : String) : DecodeError := .invalidValue (.string text) expected

/-- What a scalar stands for. A tag with a meaning asks for it; quoted scalars and those with
other tags are texts. -/
def scalarMeaning (tag : Option Tag) (text : String) (plain : Bool) :
    Except DecodeError Meaning :=
  match tag with
  | some .bool =>
    match bool? text with
    | some b => .ok (.bool b)
    | none => .error (tagMismatch text "a boolean")
  | some .int =>
    match whole? text.toList with
    | some n => .ok (.whole n)
    | none => .error (tagMismatch text "an integer")
  | some .float =>
    match double? text.toList with
    | some x => .ok (.double x)
    | none => .error (tagMismatch text "a float")
  | some .null =>
    if nullTexts.contains text then .ok .null else .error (tagMismatch text "null")
  | some .other => .ok .text
  | some .custom | some .garbled | none => .ok (if plain then meaning text else .text)

def wrongNode (expected : String) (node : Node) : DecodeError :=
  match node with
  | .scalar _ _ tag text plain =>
    match scalarMeaning tag text plain with
    | .error e => e
    | .ok .null => .invalidType .null expected
    | .ok (.bool b) => .invalidType (.bool b) expected
    | .ok (.whole n) => .invalidType (.whole n) expected
    | .ok (.double x) => .invalidType (.double x) expected
    | .ok .text => .invalidType (.string text) expected
  | .mapping _ _ _ _ => .invalidType .map expected
  | .sequence _ _ _ _ | .alias _ _ | .cut => .invalidType .list expected

def decodeText (document : Document) (expected : String) (trail : Trail) (followed : Nat)
    (node : Node) : Except LoadFault (Decoded String) := do
  let (node, trail, followed) ← follow document trail followed node
  match node with
  | .scalar _ _ _ text _ => .ok (text, followed)
  | _ => .error (.content (wrongNode expected node) trail node.mark)

def scalarValue (meaning : Meaning) (text : String) (trail : Trail) (mark : Mark) :
    Except LoadFault Value :=
  match meaning with
  | .null => .ok .null
  | .bool b => .ok (.bool b)
  | .whole n =>
    match Number.ofInt? n with
    | some m => .ok (.number m)
    | none => .error (.outOfRange trail mark)
  | .double (.finite x) => .ok (.number (.double x))
  | .double _ => .ok .null
  | .text => .ok (.string text)

def Trail.value (trail : Trail) (key : Node) : Trail :=
  match key with
  | .scalar _ _ _ text _ => .key trail text
  | _ => .unnamed trail

abbrev Decoder (α : Type) := Trail → Nat → Node → Except LoadFault (Decoded α)

def decodeItems {α : Type} (decode : Decoder α) (trail : Trail) :
    Nat → Nat → List (Node) → Except LoadFault (Decoded (List α))
  | _, followed, [] => .ok ([], followed)
  | position, followed, item :: rest => do
    let (first, followed) ← decode (.item trail position) followed item
    let (more, followed) ← decodeItems decode trail (position + 1) followed rest
    .ok (first :: more, followed)

/-- Decode the entries of a mapping and put them to those in `read`. Of a repeated key the last
value counts. `expected` is what the next key should be. -/
def decodeEntries (document : Document) (decode : Decoder Value) (trail : Trail) :
    String → Fields Value → Nat → List (Node × Node) →
      Except LoadFault (Decoded (Fields Value))
  | _, read, followed, [] => .ok (read, followed)
  | expected, read, followed, (key, value) :: rest => do
    let (name, followed) ← decodeText document expected trail followed key
    let (v, followed) ← decode (trail.value key) followed value
    decodeEntries document decode trail "a string" (Fields.insert name v read) followed rest

def taggedNode : DecodeError := .invalidType .tagged "any valid JSON value"

def decodeValue (document : Document) : Nat → Decoder Value
  | room, trail, followed, node => do
    let (node, trail, followed) ← follow document trail followed node
    match node with
    | .scalar mark _ tag text plain =>
      if tag = some .custom then .error (.content taggedNode trail mark)
      else match scalarMeaning tag text plain with
        | .ok meaning => do
          let v ← scalarValue meaning text trail mark
          .ok (v, followed)
        | .error e => .error (.content e trail mark)
    | .sequence mark _ tag items =>
      if tag = some .custom then .error (.content taggedNode trail mark)
      else match room with
        | 0 => .error (.tooDeep mark)
        | room + 1 => do
          let (vs, followed) ← decodeItems (decodeValue document room) trail 0 followed items
          .ok (.array vs, followed)
    | .mapping mark _ tag entries =>
      if tag = some .custom then .error (.content taggedNode trail mark)
      else match room with
        | 0 => .error (.tooDeep mark)
        | room + 1 => do
          let (fields, followed) ←
            decodeEntries document (decodeValue document room) trail "a string key" [] followed
              entries
          .ok (.object fields, followed)
    | .alias _ _ | .cut => .error document.breakFault

/-- A plain scalar without text stands for an empty collection. -/
def isVoid : Node → Bool
  | .scalar _ _ _ text plain => plain && text.isEmpty
  | _ => false

def mappingEntries (document : Document) (expected : String) :
    Except LoadFault (List (Node × Node) × Mark) :=
  match document.root with
  | none => .ok ([], ⟨0, 0, 0⟩)
  | some node =>
    match node with
    | .mapping mark _ _ entries => .ok (entries, mark)
    | .cut => .error document.breakFault
    | node =>
      if isVoid node then .ok ([], node.mark)
      else .error (.content (wrongNode expected node) .root node.mark)

def parseObject (text : String) : Except LoadFault (Fields Value) := do
  let document := Document.parse text
  let (entries, _) ← mappingEntries document "a map"
  let (fields, _) ←
    decodeEntries document (decodeValue document (depthLimit - 1)) .root "a string" [] 0 entries
  document.conclude fields

end PayloadMapping.Yaml
