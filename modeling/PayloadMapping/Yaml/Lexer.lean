import PayloadMapping.Yaml.Name
import PayloadMapping.Yaml.Scalar

set_option autoImplicit false

/-!
# From text to tokens

The lexer keeps the indentation of the open block collections and, for every open flow
collection, where a key without an indicator may have started. When a colon shows that it did,
the tokens that open the key are put before those read since. `Token.scan` gives the tokens of
a text. Where the text stops being YAML they break off, and with them the tokens that could
still have become part of a key.
-/

namespace PayloadMapping.Yaml

/-- Where a key may have started: the number of tokens before it and its place. A key in the
column of its block collection has to become one. -/
structure KeyStart where
  required : Bool
  tokenCount : Nat
  mark : Mark

/-- The state of the lexer. The tokens are in reverse. The first of `keys` belongs to the
innermost flow collection, the last to the text outside of them. -/
structure Lexer where
  input : Input
  tokens : List Token := []
  indent : Int := -1
  outer : List Int := []
  keyAllowed : Bool := true
  key : Option KeyStart := none
  outerKeys : List (Option KeyStart) := []

namespace Lexer

def inFlow (lexer : Lexer) : Bool := !lexer.outerKeys.isEmpty

def mark (lexer : Lexer) : Mark := lexer.input.mark

def column (lexer : Lexer) : Int := lexer.input.mark.column

def emit (lexer : Lexer) (kind : TokenKind) (after : Input) : Lexer :=
  { lexer with
    input := after
    tokens := ⟨kind, lexer.mark, after.mark⟩ :: lexer.tokens }

def emitEmpty (lexer : Lexer) (kind : TokenKind) : Lexer := lexer.emit kind lexer.input

def emitChars (lexer : Lexer) (kind : TokenKind) (count : Nat) : Lexer :=
  lexer.emit kind (lexer.input.skip count)

def isStale (key : KeyStart) (mark : Mark) : Bool :=
  key.mark.line < mark.line || key.mark.index + 1024 < mark.index

/-- No key starts where one may have started; one that is required is missing then. -/
def dropKey (lexer : Lexer) : Option Lexer :=
  match lexer.key with
  | some key => if key.required then none else some { lexer with key := none }
  | none => some lexer

def dropStale (mark : Mark) : Option KeyStart → Option (Option KeyStart)
  | some key =>
    if isStale key mark then (if key.required then none else some none) else some (some key)
  | none => some none

def dropStaleKeys (lexer : Lexer) : Option Lexer := do
  let key ← dropStale lexer.mark lexer.key
  let outerKeys ← lexer.outerKeys.mapM (dropStale lexer.mark)
  some { lexer with key := key, outerKeys := outerKeys }

def saveKey (lexer : Lexer) : Option Lexer :=
  if lexer.keyAllowed then do
    let required := !lexer.inFlow && lexer.indent == lexer.column
    let lexer ← lexer.dropKey
    some { lexer with key := some ⟨required, lexer.tokens.length, lexer.mark⟩ }
  else some lexer

def openBlock (lexer : Lexer) (kind : TokenKind) : Lexer :=
  if !lexer.inFlow && lexer.indent < lexer.column then
    { lexer.emitEmpty kind with
      indent := lexer.column
      outer := lexer.indent :: lexer.outer }
  else lexer

/-- Close the block collections that are deeper than a column: their indentations are `indent`
and those in `outer`, from the innermost on. -/
def closeBlocks (column : Int) (lexer : Lexer) (indent : Int) : List Int → Lexer
  | [] => { lexer with indent := indent, outer := [] }
  | outside :: outer =>
    if column < indent then closeBlocks column (lexer.emitEmpty .blockEnd) outside outer
    else { lexer with indent := indent, outer := outside :: outer }

def unroll (lexer : Lexer) (column : Int) : Lexer :=
  if lexer.inFlow then lexer else closeBlocks column lexer lexer.indent lexer.outer

/-- Pass blanks, comments and line breaks. Tabs are blanks except where a key may start in block
style. Every step takes a character. -/
def skipToToken : Nat → Lexer → Lexer
  | 0, lexer => lexer
  | steps + 1, lexer =>
    let atOrderMark := lexer.mark.column == 0 && lexer.input.rest.head? == some '\ufeff'
    let input := if atOrderMark then lexer.input.next else lexer.input
    let tabsPass := lexer.inFlow || !lexer.keyAllowed
    let input := (input.skipWhile fun c => c == ' ' || (tabsPass && c == '\t')).skipComment
    match input.rest with
    | c :: _ =>
      if isBreak c then
        skipToToken steps
          { lexer with
            input := input.skipBreak
            keyAllowed := lexer.keyAllowed || !lexer.inFlow }
      else { lexer with input := input }
    | [] => { lexer with input := input }

def finish (lexer : Lexer) : Option Lexer := do
  let mark := lexer.mark
  let lastMark := if mark.column = 0 then mark else ⟨mark.index, mark.line + 1, 0⟩
  let lexer := { lexer with input := ⟨[], lastMark⟩ }
  let lexer ← (lexer.unroll (-1)).dropKey
  some (lexer.emitEmpty .streamEnd)

def leaveBlocks (lexer : Lexer) : Option Lexer := do
  let lexer ← (lexer.unroll (-1)).dropKey
  some { lexer with keyAllowed := false }

def takeDirective (lexer : Lexer) : Option Lexer := do
  let lexer ← lexer.leaveBlocks
  let (directive, after) ← readDirective lexer.input
  some (lexer.emit directive after)

def takeMarker (lexer : Lexer) (kind : TokenKind) : Option Lexer := do
  let lexer ← lexer.leaveBlocks
  some (lexer.emitChars kind 3)

def takeFlowStart (lexer : Lexer) (kind : TokenKind) : Option Lexer := do
  let lexer ← lexer.saveKey
  some
    { lexer.emitChars kind 1 with
      key := none
      outerKeys := lexer.key :: lexer.outerKeys
      keyAllowed := true }

def takeFlowEnd (lexer : Lexer) (kind : TokenKind) : Option Lexer := do
  let lexer ← lexer.dropKey
  let lexer := match lexer.outerKeys with
    | key :: outerKeys => { lexer with key := key, outerKeys := outerKeys }
    | [] => lexer
  some { lexer.emitChars kind 1 with keyAllowed := false }

def takeFlowEntry (lexer : Lexer) : Option Lexer := do
  let lexer ← lexer.dropKey
  some { lexer.emitChars .flowEntry 1 with keyAllowed := true }

def takeBlockEntry (lexer : Lexer) : Option Lexer :=
  if !lexer.inFlow && !lexer.keyAllowed then none
  else do
    let lexer ← (lexer.openBlock .blockSequenceStart).dropKey
    some { lexer.emitChars .blockEntry 1 with keyAllowed := true }

def takeKey (lexer : Lexer) : Option Lexer :=
  if !lexer.inFlow && !lexer.keyAllowed then none
  else do
    let lexer ← (lexer.openBlock .blockMappingStart).dropKey
    some { lexer.emitChars .key 1 with keyAllowed := !lexer.inFlow }

/-- Put the tokens that open a key before those that were read since it started. -/
def openKey (lexer : Lexer) (key : KeyStart) : Lexer :=
  let opens := !lexer.inFlow && lexer.indent < key.mark.column
  let since := lexer.tokens.length - key.tokenCount
  let opening : List Token :=
    ⟨.key, key.mark, key.mark⟩ ::
      if opens then [⟨.blockMappingStart, key.mark, key.mark⟩] else []
  { lexer with
    tokens := lexer.tokens.take since ++ opening ++ lexer.tokens.drop since
    indent := if opens then key.mark.column else lexer.indent
    outer := if opens then lexer.indent :: lexer.outer else lexer.outer
    key := none }

def takeValue (lexer : Lexer) : Option Lexer :=
  match lexer.key with
  | some key => some { (lexer.openKey key).emitChars .value 1 with keyAllowed := false }
  | none =>
    if !lexer.inFlow && !lexer.keyAllowed then none
    else
      some
        { (lexer.openBlock .blockMappingStart).emitChars .value 1 with
          keyAllowed := !lexer.inFlow }

def takeAnchor (lexer : Lexer) (kind : String → TokenKind) : Option Lexer := do
  let lexer ← lexer.saveKey
  let (name, after) ← readAnchorName lexer.input.next
  some { lexer.emit (kind name) after with keyAllowed := false }

def takeTag (lexer : Lexer) : Option Lexer := do
  let lexer ← lexer.saveKey
  let (tag, after) ← readTag lexer.inFlow lexer.input
  some { lexer.emit tag after with keyAllowed := false }

def takeBlockScalar (lexer : Lexer) (literal : Bool) : Option Lexer := do
  let lexer ← lexer.dropKey
  let (text, after) ← readBlock literal lexer.indent lexer.input.next
  some { lexer.emit (.scalar (String.ofList text) false) after with keyAllowed := true }

def takeQuoted (lexer : Lexer) (single : Bool) : Option Lexer := do
  let lexer ← lexer.saveKey
  let (text, after) ← readQuoted single lexer.input.next
  some { lexer.emit (.scalar (String.ofList text) false) after with keyAllowed := false }

def takePlain (lexer : Lexer) : Option Lexer := do
  let lexer ← lexer.saveKey
  let scalar ← readPlain lexer.inFlow (lexer.indent + 1).toNat lexer.input
  some
    { lexer.emit (.scalar (String.ofList scalar.text) true) scalar.input with
      keyAllowed := scalar.brokeLine }

def isIndicator (c : Char) : Bool := "-?:,[]\x7b\x7d#&*!|>'\"%@`".toList.contains c

def startsPlain (inFlow : Bool) (c : Char) (rest : List Char) : Bool :=
  let blankFollows := match rest with
    | d :: _ => isBlank d
    | [] => false
  !(isBlank c || isBreak c || isIndicator c) || (c == '-' && !blankFollows)
    || (!inFlow && (c == '?' || c == ':') && !atGap rest)

def takeToken (lexer : Lexer) (c : Char) (rest : List Char) : Option Lexer :=
  let atStart := lexer.mark.column == 0
  if atStart && c == '%' then lexer.takeDirective
  else if atStart && startsMarker '-' (c :: rest) then lexer.takeMarker .documentStart
  else if atStart && startsMarker '.' (c :: rest) then lexer.takeMarker .documentEnd
  else if c = '[' then lexer.takeFlowStart .flowSequenceStart
  else if c = '\x7b' then lexer.takeFlowStart .flowMappingStart
  else if c = ']' then lexer.takeFlowEnd .flowSequenceEnd
  else if c = '\x7d' then lexer.takeFlowEnd .flowMappingEnd
  else if c = ',' then lexer.takeFlowEntry
  else if c = '-' ∧ atGap rest then lexer.takeBlockEntry
  else if c = '?' ∧ (lexer.inFlow ∨ atGap rest) then lexer.takeKey
  else if c = ':' ∧ (lexer.inFlow ∨ atGap rest) then lexer.takeValue
  else if c = '*' then lexer.takeAnchor .alias
  else if c = '&' then lexer.takeAnchor .anchor
  else if c = '!' then lexer.takeTag
  else if c = '|' ∧ !lexer.inFlow then lexer.takeBlockScalar true
  else if c = '>' ∧ !lexer.inFlow then lexer.takeBlockScalar false
  else if c = '\'' then lexer.takeQuoted true
  else if c = '"' then lexer.takeQuoted false
  else if startsPlain lexer.inFlow c rest then lexer.takePlain
  else none

def step (lexer : Lexer) : Option Lexer := do
  let lexer ← (skipToToken (lexer.input.rest.length + 1) lexer).dropStaleKeys
  let lexer := lexer.unroll lexer.column
  let lexer ← match lexer.input.rest with
    | [] => lexer.finish
    | c :: rest => lexer.takeToken c rest
  lexer.dropStaleKeys

def settled (lexer : Lexer) : List Token :=
  let starts := (lexer.key :: lexer.outerKeys).filterMap fun key => key.map KeyStart.tokenCount
  lexer.tokens.reverse.take (starts.foldl min lexer.tokens.length)

def isDone (lexer : Lexer) : Bool :=
  match lexer.tokens with
  | token :: _ => token.kind == .streamEnd
  | [] => false

/-- The tokens up to the end of the text, or up to where it stops being YAML. Every step takes a
character. -/
def run : Nat → Lexer → List Token
  | 0, lexer => lexer.settled
  | steps + 1, lexer =>
    match lexer.step with
    | some next => if next.isDone then next.tokens.reverse else run steps next
    | none => lexer.settled

end Lexer

/-- The tokens of a text. They end with the end of the text if it is YAML. -/
def Token.scan (text : List Char) : List Token :=
  if text.all isAllowed then Lexer.run (text.length + 1) { input := Input.start text } else []

end PayloadMapping.Yaml
