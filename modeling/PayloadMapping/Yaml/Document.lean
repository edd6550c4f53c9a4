import PayloadMapping.Value.Fields
import PayloadMapping.Yaml.Lexer
import PayloadMapping.Yaml.Node

set_option autoImplicit false

/-!
# Documents of YAML

A document is a node with the nodes that its aliases stand for. Anchors are numbered: every
anchor gets the number of different names seen before it, also when its own name was seen, and
an alias stands for the last node with the number that its name had there. A text that stops
being YAML still has the document up to there; its `ending` tells.
-/

namespace PayloadMapping.Yaml

/-- How the first document of a text ends: nothing follows it, something does, the text stops
being YAML in it, or it has an alias for a name that was not seen. -/
inductive Ending where
  | whole
  | followed
  | broken
  | unknownAnchor (mark : Mark)
deriving DecidableEq

/-- The first document of a text. A text without documents has no root. -/
structure Document where
  root : Option Node
  anchored : List (Nat × Node)
  ending : Ending

namespace Document

def claim (names : Fields Nat) (anchor : Option String) : Option Nat × Fields Nat :=
  match anchor with
  | some name => (some names.length, Fields.insert name names.length names)
  | none => (none, names)

/-- Number the anchors and aliases of parts. The result ends before the first alias for a name
that was not seen, and gives its place. -/
def number (names : Fields Nat) : List NamedPart → List (Part Nat) × Option Mark
  | [] => ([], none)
  | .scalar mark anchor tag text plain :: rest =>
    let (anchor, names) := claim names anchor
    let (more, unknown) := number names rest
    (.scalar mark anchor tag text plain :: more, unknown)
  | .sequence mark anchor tag :: rest =>
    let (anchor, names) := claim names anchor
    let (more, unknown) := number names rest
    (.sequence mark anchor tag :: more, unknown)
  | .mapping mark anchor tag :: rest =>
    let (anchor, names) := claim names anchor
    let (more, unknown) := number names rest
    (.mapping mark anchor tag :: more, unknown)
  | .alias mark name :: rest =>
    match Fields.get? name names with
    | some target =>
      let (more, unknown) := number names rest
      (.alias mark target :: more, unknown)
    | none => ([], some mark)
  | .close :: rest =>
    let (more, unknown) := number names rest
    (.close :: more, unknown)

/-- What follows a document: nothing but markers of its end, something else, or not even the end
of the text because the document is broken. -/
def endingBefore : List Token → Ending
  | [] => .broken
  | token :: rest => if endsText (token :: rest) then .whole else .followed
where
  /-- The text ends after markers of the end of a document. -/
  endsText : List Token → Bool
    | ⟨.documentEnd, _, _⟩ :: rest => endsText rest
    | ⟨.streamEnd, _, _⟩ :: _ => true
    | _ => false

def ofTokens (tokens : List Token) : Document :=
  match tokens with
  | ⟨.streamEnd, _, _⟩ :: _ => ⟨none, [], .whole⟩
  | _ =>
    let (named, rest) := Part.ofTokens tokens
    let (parts, unknown) := number [] named
    let root := Node.ofParts parts
    let ending := match unknown with
      | some mark => .unknownAnchor mark
      | none => endingBefore rest
    ⟨some root, root.anchored, ending⟩

def parse (text : String) : Document := ofTokens (Token.scan text.toList)

def target? (document : Document) (number : Nat) : Option Node :=
  document.anchored.reverse.lookup number

/-- How many aliases may be followed while a document is decoded. -/
def aliasLimit (document : Document) : Nat :=
  100 * match document.root with
    | some node => node.size
    | none => 1

end Document

end PayloadMapping.Yaml
