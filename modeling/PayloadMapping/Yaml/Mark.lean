set_option autoImplicit false

/-!
# Marks in YAML text

A mark counts the bytes before a place, and the lines and the characters of the line before it,
all from zero. The two characters of a Windows line break are one break. The test for
characters that a YAML text may hold is here too.
-/

namespace PayloadMapping.Yaml

structure Mark where
  index : Nat
  line : Nat
  column : Nat
deriving DecidableEq

structure Input where
  rest : List Char
  mark : Mark

def byteCount (cs : List Char) : Nat := cs.foldl (fun count c => count + c.utf8Size) 0

def isBreak (c : Char) : Bool :=
  c == '\n' || c == '\r' || c == '\x85' || c == '\u2028' || c == '\u2029'

def isBlank (c : Char) : Bool := c == ' ' || c == '\t'

def isAllowed (c : Char) : Bool :=
  let n := c.toNat
  n == 0x9 || n == 0xA || n == 0xD || (0x20 ≤ n && n ≤ 0x7E) || n == 0x85
    || (0xA0 ≤ n && n ≤ 0xD7FF) || (0xE000 ≤ n && n ≤ 0xFFFD) || 0x10000 ≤ n

def atLineEnd : List Char → Bool
  | [] => true
  | c :: _ => isBreak c

def atGap : List Char → Bool
  | [] => true
  | c :: _ => isBlank c || isBreak c

/-- The text starts with one of the markers of documents, three times `c` and a gap. -/
def startsMarker (c : Char) : List Char → Bool
  | a :: b :: d :: rest => a == c && b == c && d == c && atGap rest
  | _ => false

namespace Input

def start (text : List Char) : Input := ⟨text, ⟨0, 0, 0⟩⟩

def skip (input : Input) (count : Nat) : Input :=
  ⟨input.rest.drop count,
    ⟨input.mark.index + byteCount (input.rest.take count), input.mark.line,
      input.mark.column + count⟩⟩

def next (input : Input) : Input := input.skip 1

def takeWhile (input : Input) (test : Char → Bool) : List Char × Input :=
  let taken := input.rest.takeWhile test
  (taken, input.skip taken.length)

def skipWhile (input : Input) (test : Char → Bool) : Input := (input.takeWhile test).2

/-- Pass a line break and give what it stands for; without a line break nothing happens. -/
def readBreak (input : Input) : List Char × Input :=
  match input.rest with
  | '\r' :: '\n' :: rest => (['\n'], ⟨rest, ⟨input.mark.index + 2, input.mark.line + 1, 0⟩⟩)
  | c :: rest =>
    if isBreak c then
      ([if c == '\u2028' || c == '\u2029' then c else '\n'],
        ⟨rest, ⟨input.mark.index + c.utf8Size, input.mark.line + 1, 0⟩⟩)
    else ([], input)
  | [] => ([], input)

def skipBreak (input : Input) : Input := input.readBreak.2

def skipComment (input : Input) : Input :=
  if input.rest.head? = some '#' then input.skipWhile fun c => !isBreak c else input

/-- Pass the rest of a line but for its break, if it holds only blanks and a comment. -/
def skipLineEnd? (input : Input) : Option Input :=
  let input := (input.skipWhile isBlank).skipComment
  if atLineEnd input.rest then some input else none

def atMarker (input : Input) : Bool :=
  input.mark.column == 0 && (startsMarker '-' input.rest || startsMarker '.' input.rest)

end Input

end PayloadMapping.Yaml
