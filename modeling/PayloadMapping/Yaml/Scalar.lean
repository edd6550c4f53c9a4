import PayloadMapping.Number.Numeral
import PayloadMapping.Yaml.Mark

set_option autoImplicit false

/-!
# Scalars of YAML

The texts of plain, quoted and block scalars. Line breaks inside plain and quoted scalars are
folded: a single break becomes a space, of several the first is dropped. A block scalar keeps
its breaks or folds those between lines that do not start with a blank.
-/

namespace PayloadMapping.Yaml

/-- What lies between two pieces of a plain or quoted scalar: blanks of one line, or line
breaks, the first apart from the others. -/
inductive Gap where
  | blanks (cs : List Char)
  | breaks (first more : List Char)

namespace Gap

def text : Gap → List Char
  | .blanks cs => cs
  | .breaks first more =>
    if first = ['\n'] then (if more = [] then [' '] else more) else first ++ more

/-- Read on in a gap. After a line break, tabs before the column `margin` are not allowed. Every
step takes a character. -/
def read (margin : Nat) : Nat → Gap → Input → Option (Gap × Input)
  | 0, gap, input => some (gap, input)
  | steps + 1, gap, input =>
    match input.rest with
    | [] => some (gap, input)
    | c :: _ =>
      if isBlank c then
        match gap with
        | .blanks cs => read margin steps (.blanks (cs ++ [c])) input.next
        | .breaks first more =>
          if c = '\t' ∧ input.mark.column < margin then none
          else read margin steps (.breaks first more) input.next
      else if isBreak c then
        let (br, after) := input.readBreak
        match gap with
        | .blanks _ => read margin steps (.breaks br []) after
        | .breaks first more => read margin steps (.breaks first (more ++ br)) after
      else some (gap, input)

end Gap

def isFlowMark (c : Char) : Bool :=
  c == ',' || c == '[' || c == ']' || c == '\x7b' || c == '\x7d'

/-- A piece of a plain scalar: the characters up to a blank or to an indicator that ends the
scalar. In flow style a colon must not come right before an indicator. -/
def plainPiece (inFlow : Bool) : Nat → List Char → Input → Option (List Char × Input)
  | 0, read, input => some (read.reverse, input)
  | steps + 1, read, input =>
    match input.rest with
    | [] => some (read.reverse, input)
    | c :: rest =>
      let followedByMark := match rest with
        | d :: _ => isFlowMark d || d == '?'
        | [] => false
      if isBlank c || isBreak c then some (read.reverse, input)
      else if inFlow && c == ':' && followedByMark then none
      else if (c == ':' && atGap rest) || (inFlow && isFlowMark c) then
        some (read.reverse, input)
      else plainPiece inFlow steps (c :: read) input.next

structure PlainScalar where
  text : List Char
  brokeLine : Bool
  input : Input

/-- Read on in a plain scalar, of which `read` was read, up to a gap. A block scalar ends where
a line is indented less than `margin`. -/
def plainFrom (inFlow : Bool) (margin : Nat) :
    Nat → List Char → Gap → Input → Option PlainScalar
  | 0, read, _, input => some ⟨read, false, input⟩
  | steps + 1, read, gap, input =>
    let brokeLine := match gap with
      | .blanks _ => false
      | .breaks _ _ => true
    let startsComment := match input.rest with
      | '#' :: _ => true
      | _ => false
    if input.atMarker || startsComment then some ⟨read, brokeLine, input⟩
    else do
      let (piece, after) ← plainPiece inFlow input.rest.length [] input
      let text := if piece = [] then read else read ++ gap.text ++ piece
      let brokeLine := brokeLine && piece = []
      let atBlank := match after.rest with
        | c :: _ => isBlank c || isBreak c
        | [] => false
      if atBlank then
        let gap := if piece = [] then gap else .blanks []
        let (gap, after) ← Gap.read margin after.rest.length gap after
        if !inFlow && after.mark.column < margin then
          match gap with
          | .blanks _ => some ⟨text, false, after⟩
          | .breaks _ _ => some ⟨text, true, after⟩
        else plainFrom inFlow margin steps text gap after
      else some ⟨text, brokeLine, after⟩

def readPlain (inFlow : Bool) (margin : Nat) (input : Input) : Option PlainScalar :=
  plainFrom inFlow margin (input.rest.length + 1) [] (.blanks []) input

def escapedChar? (digits : List Char) : Option Char :=
  match Numeral.natural? 16 digits with
  | some code =>
    if (0xD800 ≤ code ∧ code ≤ 0xDFFF) ∨ 0x10FFFF < code then none else some (Char.ofNat code)
  | none => none

def letterEscape? (c : Char) : Option Char :=
  match c with
  | '0' => some '\x00'
  | 'a' => some '\x07'
  | 'b' => some '\x08'
  | 't' | '\t' => some '\t'
  | 'n' => some '\n'
  | 'v' => some '\x0b'
  | 'f' => some '\x0c'
  | 'r' => some '\r'
  | 'e' => some '\x1b'
  | ' ' => some ' '
  | '"' => some '"'
  | '/' => some '/'
  | '\\' => some '\\'
  | 'N' => some '\x85'
  | '_' => some '\xa0'
  | 'L' => some '\u2028'
  | 'P' => some '\u2029'
  | _ => none

def escapeDigits? (c : Char) : Option Nat :=
  match c with
  | 'x' => some 2
  | 'u' => some 4
  | 'U' => some 8
  | _ => none

def readEscape (input : Input) : Option (Char × Input) :=
  match input.rest with
  | [] => none
  | c :: rest =>
    match letterEscape? c, escapeDigits? c with
    | some d, _ => some (d, input.next)
    | none, some count =>
      let digits := rest.take count
      if digits.length = count then
        (escapedChar? digits).map fun d => (d, input.skip (count + 1))
      else none
    | none, none => none

/-- Read on in a quoted scalar, after the characters in `read`, which are in reverse, up to its
closing quote. -/
def quotedFrom (single : Bool) : Nat → List Char → Input → Option (List Char × Input)
  | 0, _, _ => none
  | steps + 1, read, input => do
    let passGap (gap : Gap) (input : Input) : Option (List Char × Input) := do
      let (gap, after) ← Gap.read 0 input.rest.length gap input
      if after.atMarker then none
      else quotedFrom single steps (gap.text.reverse ++ read) after
    match input.rest with
    | [] => none
    | c :: rest =>
      if isBlank c || isBreak c then passGap (.blanks []) input
      else if single then
        if c = '\'' then
          match rest with
          | '\'' :: _ => quotedFrom single steps ('\'' :: read) (input.skip 2)
          | _ => some (read.reverse, input.next)
        else quotedFrom single steps (c :: read) input.next
      else if c = '"' then some (read.reverse, input.next)
      else if c = '\\' then
        match rest with
        | d :: _ =>
          if isBreak d then passGap (.breaks [] []) input.next.skipBreak
          else do
            let (e, after) ← readEscape input.next
            quotedFrom single steps (e :: read) after
        | [] => none
      else quotedFrom single steps (c :: read) input.next

def readQuoted (single : Bool) (input : Input) : Option (List Char × Input) :=
  quotedFrom single (input.rest.length + 1) [] input

inductive Chomping where
  | strip | clip | keep
deriving DecidableEq

/-- The indicators of a block scalar: its chomping and its indentation, or zero. -/
def readBlockHeader (input : Input) : Option (Chomping × Nat × Input) :=
  let chomping? : Char → Option Chomping := fun c =>
    if c = '+' then some .keep else if c = '-' then some .strip else none
  let digit? : Char → Option Nat := fun c =>
    if Numeral.isDigit c then some (c.toNat - '0'.toNat) else none
  match input.rest with
  | a :: b :: _ =>
    match chomping? a, digit? a with
    | some chomping, _ =>
      match digit? b with
      | some 0 => none
      | some n => some (chomping, n, input.skip 2)
      | none => some (chomping, 0, input.next)
    | none, some 0 => none
    | none, some n =>
      match chomping? b with
      | some chomping => some (chomping, n, input.skip 2)
      | none => some (.clip, n, input.next)
    | none, none => some (.clip, 0, input)
  | [a] =>
    match chomping? a, digit? a with
    | some chomping, _ => some (chomping, 0, input.next)
    | none, some 0 => none
    | none, some n => some (.clip, n, input.next)
    | none, none => some (.clip, 0, input)
  | [] => some (.clip, 0, input)

/-- Read empty lines of a block scalar, and the indentation of the next line up to `indent`, if
it is known. The result holds the breaks and the largest indentation that was seen. -/
def readEmptyLines (indent : Nat) :
    Nat → List Char → Nat → Input → Option (List Char × Nat × Input)
  | 0, _, _, _ => none
  | steps + 1, breaks, deepest, input =>
    let spaces := (input.rest.takeWhile (· == ' ')).length
    let allowed := if indent = 0 then spaces else min spaces (indent - input.mark.column)
    let input := input.skip allowed
    let deepest := max deepest input.mark.column
    match input.rest with
    | c :: _ =>
      if c = '\t' ∧ (indent = 0 ∨ input.mark.column < indent) then none
      else if isBreak c then
        let (br, after) := input.readBreak
        readEmptyLines indent steps (breaks ++ br) deepest after
      else some (breaks, deepest, input)
    | [] => some (breaks, deepest, input)

/-- The text of a block scalar: its lines, the break after the last of them and the breaks of
empty lines at the end as far as they count. -/
def chomped (chomping : Chomping) (read break1 breaks : List Char) : List Char :=
  match chomping with
  | .strip => read
  | .clip => read ++ break1
  | .keep => read ++ break1 ++ breaks

/-- What stands between two lines of a block scalar. A single break between lines that do not
start with a blank is folded. -/
def lineJoint (literal afterBlank startsBlank : Bool) (break1 breaks : List Char) : List Char :=
  if !literal && break1 = ['\n'] && !afterBlank && !startsBlank then
    if breaks = [] then [' '] else breaks
  else break1 ++ breaks

/-- Read on in the lines of a block scalar. `break1` is the break after the last line that was
read and `breaks` those of the empty lines after it; `afterBlank` says that the last line
started with a blank. -/
def blockLines (literal : Bool) (indent : Nat) (chomping : Chomping) :
    Nat → List Char → List Char → List Char → Bool → Input → Option (List Char × Input)
  | 0, _, _, _, _, _ => none
  | steps + 1, read, break1, breaks, afterBlank, input =>
    match input.rest with
    | [] => some (chomped chomping read break1 breaks, input)
    | c :: _ =>
      if input.mark.column = indent then do
        let joint := lineJoint literal afterBlank (isBlank c) break1 breaks
        let (line, input) := input.takeWhile fun c => !isBreak c
        let (br, input) := input.readBreak
        let (empty, _, input) ← readEmptyLines indent (input.rest.length + 1) [] 0 input
        blockLines literal indent chomping steps (read ++ joint ++ line) br empty (isBlank c)
          input
      else some (chomped chomping read break1 breaks, input)

/-- A block scalar, from after its first indicator, inside a collection that is indented by
`parent`, or by -1 at the top. -/
def readBlock (literal : Bool) (parent : Int) (input : Input) : Option (List Char × Input) := do
  let (chomping, increment, input) ← readBlockHeader input
  let input ← input.skipLineEnd?
  let input := input.skipBreak
  let steps := input.rest.length + 1
  let given := if increment = 0 then 0 else (max parent 0).toNat + increment
  let (breaks, deepest, input) ← readEmptyLines given steps [] 0 input
  let indent := if increment = 0 then max deepest (max (parent + 1).toNat 1) else given
  blockLines literal indent chomping steps [] [] breaks false input

end PayloadMapping.Yaml
