import PayloadMapping.Yaml.Token

set_option autoImplicit false

/-!
# Documents of YAML in parts

The tokens of a document stand for scalars, aliases, and the starts and ends of collections, in
the order of the text. Reading them stops where they make no sense; what was read up to there
remains. `Part.ofTokens` reads the first document of a text.
-/

namespace PayloadMapping.Yaml

/-- What a tag says about a node: that it is of a kind of its own, or one of the types with a
meaning. A tag of its own whose bytes are no text is garbled. -/
inductive Tag where
  | custom | garbled | bool | int | float | null | other
deriving DecidableEq

namespace Tag

def octets (text : String) : List Octet := text.toList.map Char.toNat

def coreStart : List Octet := octets "tag:yaml.org,2002:"

def isText (octets : List Octet) : Bool :=
  (ByteArray.mk (octets.map Nat.toUInt8).toArray).validateUTF8

def ofOctets (tag : List Octet) : Tag :=
  if tag.head? = some '!'.toNat then (if isText tag then .custom else .garbled)
  else if tag = coreStart ++ octets "bool" then .bool
  else if tag = coreStart ++ octets "int" then .int
  else if tag = coreStart ++ octets "float" then .float
  else if tag = coreStart ++ octets "null" then .null
  else .other

end Tag

/-- A part of a document. `Ref` is what anchors are called by. A sequence or mapping starts
here and ends with the part `close` that belongs to it. -/
inductive Part (Ref : Type) where
  | scalar (mark : Mark) (anchor : Option Ref) (tag : Option Tag) (text : String) (plain : Bool)
  | sequence (mark : Mark) (anchor : Option Ref) (tag : Option Tag)
  | mapping (mark : Mark) (anchor : Option Ref) (tag : Option Tag)
  | alias (mark : Mark) (target : Ref)
  | close

abbrev NamedPart := Part String

def Part.empty (mark : Mark) : NamedPart := .scalar mark none none "" true

abbrev Handles := List (List Char × List Octet)

def defaultHandles : Handles := [(['!'], ['!'.toNat]), (['!', '!'], Tag.coreStart)]

/-- What a tag token says. The empty handle stands for nothing. -/
def tag? (handles : Handles) (handle : List Char) (suffix : List Octet) : Option Tag :=
  if handle = [] then some (.ofOctets suffix)
  else (handles.lookup handle).map fun start => .ofOctets (start ++ suffix)

def resolveTag (handles : Handles) : Option (List Char × List Octet) → Option (Option Tag)
  | some (handle, suffix) => (tag? handles handle suffix).map some
  | none => some none

/-- The anchor and the tag before a node, in either order, and what follows. -/
def takeProperties (tokens : List Token) :
    Option String × Option (List Char × List Octet) × List Token :=
  match tokens with
  | ⟨.anchor name, _, _⟩ :: ⟨.tag handle suffix, _, _⟩ :: rest
  | ⟨.tag handle suffix, _, _⟩ :: ⟨.anchor name, _, _⟩ :: rest =>
    (some name, some (handle, suffix), rest)
  | ⟨.anchor name, _, _⟩ :: rest => (some name, none, rest)
  | ⟨.tag handle suffix, _, _⟩ :: rest => (none, some (handle, suffix), rest)
  | _ => (none, none, tokens)

def nextIs (kinds : List TokenKind) (tokens : List Token) : Bool :=
  match tokens with
  | token :: _ => kinds.contains token.kind
  | [] => false

def nextStart (tokens : List Token) : Mark :=
  match tokens with
  | token :: _ => token.start
  | [] => ⟨0, 0, 0⟩

def nextStop (tokens : List Token) : Mark :=
  match tokens with
  | token :: _ => token.stop
  | [] => ⟨0, 0, 0⟩

def afterComma : List Token → Option (List Token)
  | ⟨.flowEntry, _, _⟩ :: rest => some rest
  | _ => none

/-- How far tokens were read: the parts they stand for, in reverse, and the tokens that follow,
or nothing when reading stopped. -/
structure Reading where
  parts : List NamedPart
  rest : Option (List Token)

namespace Reading

def stop (parts : List NamedPart) : Reading := ⟨parts, none⟩

def on (parts : List NamedPart) (rest : List Token) : Reading := ⟨parts, some rest⟩

def andThen (reading : Reading) (next : List NamedPart → List Token → Reading) : Reading :=
  match reading.rest with
  | some rest => next reading.parts rest
  | none => reading

def add (part : NamedPart) (parts : List NamedPart) (tokens : List Token) : Reading :=
  if tokens.isEmpty then stop parts else on (part :: parts) tokens

/-- Add a node that is left out before the next token. -/
def addEmpty (parts : List NamedPart) (tokens : List Token) : Reading :=
  add (.empty (nextStart tokens)) parts tokens

end Reading

namespace Part

mutual

/-- Read a node. Collections in block style count where `block` is set, and a list that is
indented like its key where `indentless` is. -/
def takeNode (handles : Handles) (block indentless : Bool) :
    Nat → List NamedPart → List Token → Reading
  | 0, parts, _ => .stop parts
  | steps + 1, parts, tokens =>
    match tokens with
    | ⟨.alias name, start, _⟩ :: rest => .on (.alias start name :: parts) rest
    | _ =>
      let mark := nextStart tokens
      let (anchor, tag, tokens) := takeProperties tokens
      match resolveTag handles tag with
      | none => .stop parts
      | some tag =>
        match tokens with
        | ⟨.scalar text plain, _, _⟩ :: rest =>
          .on (.scalar mark anchor tag text plain :: parts) rest
        | ⟨.flowSequenceStart, _, _⟩ :: rest =>
          takeFlowItems handles true steps (.sequence mark anchor tag :: parts) rest
        | ⟨.flowMappingStart, _, _⟩ :: rest =>
          takeFlowEntries handles true steps (.mapping mark anchor tag :: parts) rest
        | token :: rest =>
          if indentless && token.kind == .blockEntry then
            takeIndentlessItems handles steps (.sequence mark anchor tag :: parts) tokens
          else if block && token.kind == .blockSequenceStart then
            takeBlockItems handles steps (.sequence mark anchor tag :: parts) rest
          else if block && token.kind == .blockMappingStart then
            takeBlockEntries handles steps (.mapping mark anchor tag :: parts) rest
          else if anchor.isSome || tag.isSome then
            .on (.scalar mark anchor tag "" true :: parts) tokens
          else .stop parts
        | [] => .stop parts

def takeBlockItems (handles : Handles) : Nat → List NamedPart → List Token → Reading
  | 0, parts, _ => .stop parts
  | steps + 1, parts, tokens =>
    match tokens with
    | ⟨.blockEntry, _, stop⟩ :: rest =>
      if nextIs [.blockEntry, .blockEnd] rest then
        takeBlockItems handles steps (.empty stop :: parts) rest
      else (takeNode handles true false steps parts rest).andThen (takeBlockItems handles steps)
    | ⟨.blockEnd, _, _⟩ :: rest => .on (.close :: parts) rest
    | _ => .stop parts

/-- Read the items of a list that is indented like its key. -/
def takeIndentlessItems (handles : Handles) : Nat → List NamedPart → List Token → Reading
  | 0, parts, _ => .stop parts
  | steps + 1, parts, tokens =>
    match tokens with
    | ⟨.blockEntry, _, stop⟩ :: rest =>
      if nextIs [.blockEntry, .key, .value, .blockEnd] rest then
        takeIndentlessItems handles steps (.empty stop :: parts) rest
      else
        (takeNode handles true false steps parts rest).andThen
          (takeIndentlessItems handles steps)
    | _ => .add .close parts tokens

def takeBlockEntries (handles : Handles) : Nat → List NamedPart → List Token → Reading
  | 0, parts, _ => .stop parts
  | steps + 1, parts, tokens =>
    match tokens with
    | ⟨.key, _, stop⟩ :: rest =>
      let key :=
        if nextIs [.key, .value, .blockEnd] rest then .on (.empty stop :: parts) rest
        else takeNode handles true true steps parts rest
      (key.andThen (takeBlockValue handles steps)).andThen (takeBlockEntries handles steps)
    | ⟨.blockEnd, _, _⟩ :: rest => .on (.close :: parts) rest
    | _ => .stop parts

def takeBlockValue (handles : Handles) : Nat → List NamedPart → List Token → Reading
  | 0, parts, _ => .stop parts
  | steps + 1, parts, tokens =>
    match tokens with
    | ⟨.value, _, stop⟩ :: rest =>
      if nextIs [.key, .value, .blockEnd] rest then .on (.empty stop :: parts) rest
      else takeNode handles true true steps parts rest
    | _ => .addEmpty parts tokens

/-- Read the items of a list in flow style and its end. `first` says that none was read. An item
with a key is a mapping of one entry. -/
def takeFlowItems (handles : Handles) (first : Bool) :
    Nat → List NamedPart → List Token → Reading
  | 0, parts, _ => .stop parts
  | steps + 1, parts, tokens =>
    match tokens with
    | ⟨.flowSequenceEnd, _, _⟩ :: rest => .on (.close :: parts) rest
    | _ =>
      match if first then some tokens else afterComma tokens with
      | none => .stop parts
      | some (⟨.key, start, _⟩ :: rest) =>
        let parts := .mapping start none none :: parts
        let key :=
          if nextIs [.value, .flowEntry, .flowSequenceEnd] rest then
            .on (.empty (nextStop rest) :: parts) rest.tail
          else takeNode handles false false steps parts rest
        ((key.andThen (takeFlowValue handles .flowSequenceEnd steps)).andThen
          (.add .close)).andThen (takeFlowItems handles false steps)
      | some (⟨.flowSequenceEnd, _, _⟩ :: rest) => .on (.close :: parts) rest
      | some tokens =>
        (takeNode handles false false steps parts tokens).andThen
          (takeFlowItems handles false steps)

def takeFlowEntries (handles : Handles) (first : Bool) :
    Nat → List NamedPart → List Token → Reading
  | 0, parts, _ => .stop parts
  | steps + 1, parts, tokens =>
    match tokens with
    | ⟨.flowMappingEnd, _, _⟩ :: rest => .on (.close :: parts) rest
    | _ =>
      match if first then some tokens else afterComma tokens with
      | none => .stop parts
      | some (⟨.key, _, _⟩ :: rest) =>
        let key :=
          if nextIs [.value, .flowEntry, .flowMappingEnd] rest then .addEmpty parts rest
          else takeNode handles false false steps parts rest
        (key.andThen (takeFlowValue handles .flowMappingEnd steps)).andThen
          (takeFlowEntries handles false steps)
      | some (⟨.flowMappingEnd, _, _⟩ :: rest) => .on (.close :: parts) rest
      | some tokens =>
        ((takeNode handles false false steps parts tokens).andThen .addEmpty).andThen
          (takeFlowEntries handles false steps)

/-- Read the value of a key in flow style, in a collection that ends with `closer`. -/
def takeFlowValue (handles : Handles) (closer : TokenKind) :
    Nat → List NamedPart → List Token → Reading
  | 0, parts, _ => .stop parts
  | steps + 1, parts, tokens =>
    match tokens with
    | ⟨.value, _, _⟩ :: rest =>
      if nextIs [.flowEntry, closer] rest then .addEmpty parts rest
      else takeNode handles false false steps parts rest
    | _ => .addEmpty parts tokens

end

/-- The directives before a document. A version must be 1.1 or 1.2, and nothing may be said
twice. -/
def takeDirectives (versioned : Bool) (handles : Handles) :
    List Token → Option (Handles × List Token)
  | ⟨.version major minor, _, _⟩ :: rest =>
    if versioned || major ≠ 1 || (minor ≠ 1 && minor ≠ 2) then none
    else takeDirectives true handles rest
  | ⟨.tagDirective handle start, _, _⟩ :: rest =>
    if (handles.lookup handle).isSome then none
    else takeDirectives versioned (handles ++ [(handle, start)]) rest
  | tokens => some (handles, tokens)

def isDocumentMark (token : Token) : Bool :=
  match token.kind with
  | .version _ _ | .tagDirective _ _ | .documentStart | .documentEnd | .streamEnd => true
  | _ => false

def takeRoot (handles : Handles) (tokens : List Token) : Reading :=
  takeNode handles true false (4 * tokens.length) [] tokens

def takeContent (handles : Handles) (tokens : List Token) : Reading :=
  match tokens with
  | token :: _ =>
    if isDocumentMark token then .on [.empty token.start] tokens else takeRoot handles tokens
  | [] => .stop []

def takeDocument (tokens : List Token) : Reading :=
  match tokens with
  | token :: _ =>
    if isDocumentMark token && token.kind != .documentEnd then
      match takeDirectives false [] tokens with
      | some (handles, ⟨.documentStart, _, _⟩ :: rest) =>
        takeContent (handles ++ defaultHandles) rest
      | _ => .stop []
    else takeRoot defaultHandles tokens
  | [] => .stop []

/-- The parts of the first document of a text, and the tokens after it, of which there is at
least one if the document is whole. -/
def ofTokens (tokens : List Token) : List NamedPart × List Token :=
  let reading := takeDocument tokens
  (reading.parts.reverse, reading.rest.getD [])

end Part

end PayloadMapping.Yaml
