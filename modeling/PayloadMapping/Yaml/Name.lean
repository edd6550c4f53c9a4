import PayloadMapping.Number.Numeral
import PayloadMapping.Yaml.Token

set_option autoImplicit false

/-!
# Names, tags and directives of YAML

How anchors, tags and directives are spelled. Tags are lists of bytes, because a percent sign
with two hexadecimal digits spells any byte. A byte zero ends the tag: what is spelled after it
counts for nothing.
-/

namespace PayloadMapping.Yaml

def isNameChar (c : Char) : Bool :=
  Numeral.isDigit c || ('A' ≤ c && c ≤ 'Z') || ('a' ≤ c && c ≤ 'z') || c == '_' || c == '-'

/-- A character of tags. Some indicators of flow style count only where `wide` is set. -/
def isTagChar (wide : Bool) (c : Char) : Bool :=
  isNameChar c || ";/?:@&=+$.%!~*'()".toList.contains c || (wide && ",[]".toList.contains c)

def readAnchorName (input : Input) : Option (String × Input) :=
  let (name, after) := input.takeWhile isNameChar
  let ends := atGap after.rest || match after.rest with
    | c :: _ => "?:,]\x7d%@`".toList.contains c
    | [] => false
  if name ≠ [] ∧ ends then some (String.ofList name, after) else none

def readOctet (input : Input) : Option (Octet × Input) :=
  match input.rest with
  | '%' :: a :: b :: _ => (Numeral.natural? 16 [a, b]).map fun n => (n, input.skip 3)
  | _ => none

/-- How many bytes the first byte of a character announces. -/
def octetCount? (first : Octet) : Option Nat :=
  if first < 0x80 then some 1
  else if 0xC0 ≤ first ∧ first < 0xE0 then some 2
  else if 0xE0 ≤ first ∧ first < 0xF0 then some 3
  else if 0xF0 ≤ first ∧ first < 0xF8 then some 4
  else none

def readContinuation : Nat → Input → Option (List Octet × Input)
  | 0, input => some ([], input)
  | count + 1, input => do
    let (octet, input) ← readOctet input
    if 0x80 ≤ octet ∧ octet < 0xC0 then
      let (more, input) ← readContinuation count input
      some (octet :: more, input)
    else none

def readSpelled (input : Input) : Option (List Octet × Input) := do
  let (first, input) ← readOctet input
  let count ← octetCount? first
  let (more, input) ← readContinuation (count - 1) input
  some (first :: more, input)

def readTagChars (wide : Bool) : Nat → Input → Option (List Octet × Input)
  | 0, input => some ([], input)
  | steps + 1, input =>
    match input.rest with
    | [] => some ([], input)
    | c :: _ =>
      if c = '%' then do
        let (octets, input) ← readSpelled input
        let (more, input) ← readTagChars wide steps input
        some (octets ++ more, input)
      else if isTagChar wide c then do
        let (more, input) ← readTagChars wide steps input.next
        some (c.toNat :: more, input)
      else some ([], input)

/-- A tag or a part of it up to a byte zero. Something has to be spelled unless `head` was read
before it. The first character of the head does not count. -/
def readTagPart (wide : Bool) (head : List Char) (input : Input) :
    Option (List Octet × Input) := do
  let (octets, after) ← readTagChars wide input.rest.length input
  if head = [] ∧ octets = [] then none
  else some ((head.tail.map Char.toNat ++ octets).takeWhile (· ≠ 0), after)

/-- A handle: an exclamation mark, a name, and perhaps another exclamation mark. -/
def readHandle (input : Input) : Option (List Char × Input) :=
  match input.rest with
  | '!' :: _ =>
    let (name, after) := input.next.takeWhile isNameChar
    match after.rest with
    | '!' :: _ => some ('!' :: name ++ ['!'], after.next)
    | _ => some ('!' :: name, after)
  | _ => none

def isFullHandle (handle : List Char) : Bool :=
  2 ≤ handle.length && handle.getLast? == some '!'

def readVerbatimTag (input : Input) : Option (TokenKind × Input) := do
  let (octets, after) ← readTagPart true [] (input.skip 2)
  match after.rest with
  | '>' :: _ => some (.tag [] octets, after.next)
  | _ => none

/-- A tag with a handle. The tag of a single exclamation mark stands for itself. -/
def readShortTag (input : Input) : Option (TokenKind × Input) := do
  let (handle, after) ← readHandle input
  if isFullHandle handle then
    let (suffix, after) ← readTagPart false [] after
    some (.tag handle suffix, after)
  else
    let (suffix, after) ← readTagPart false handle after
    some (if suffix = [] then .tag [] ['!'.toNat] else .tag ['!'] suffix, after)

def readTag (inFlow : Bool) (input : Input) : Option (TokenKind × Input) := do
  let (tag, after) ← match input.rest with
    | _ :: '<' :: _ => readVerbatimTag input
    | _ => readShortTag input
  let ends := atGap after.rest || match after.rest with
    | c :: _ => inFlow && c == ','
    | [] => false
  if ends then some (tag, after) else none

/-- A number of a version, of at most nine digits. -/
def readVersionNumber (input : Input) : Option (Nat × Input) := do
  let (digits, after) := input.takeWhile Numeral.isDigit
  if 9 < digits.length then none
  else (Numeral.natural? 10 digits).map fun n => (n, after)

def readVersion (input : Input) : Option (TokenKind × Input) := do
  let (major, input) ← readVersionNumber (input.skipWhile isBlank)
  match input.rest with
  | '.' :: _ => do
    let (minor, input) ← readVersionNumber input.next
    some (.version major minor, input)
  | _ => none

def readTagDirective (input : Input) : Option (TokenKind × Input) := do
  let (handle, input) ← readHandle (input.skipWhile isBlank)
  let blankFollows := match input.rest with
    | c :: _ => isBlank c
    | [] => false
  if (isFullHandle handle || handle == ['!']) && blankFollows then
    let (start, input) ← readTagPart true [] (input.skipWhile isBlank)
    if atGap input.rest then some (.tagDirective handle start, input) else none
  else none

def readDirective (input : Input) : Option (TokenKind × Input) := do
  let (name, after) := input.next.takeWhile isNameChar
  if atGap after.rest then
    let (directive, after) ←
      if name = ['Y', 'A', 'M', 'L'] then readVersion after
      else if name = ['T', 'A', 'G'] then readTagDirective after
      else none
    let after ← after.skipLineEnd?
    some (directive, after.skipBreak)
  else none

end PayloadMapping.Yaml
