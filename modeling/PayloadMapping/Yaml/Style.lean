import PayloadMapping.Yaml.Mark
import PayloadMapping.Yaml.Plain

set_option autoImplicit false

/-!
# Styles of written scalars

A text is written plain if it then reads back as this text. Otherwise it is written in single
quotes, or in double quotes if it holds what only an escape can spell. A text of several lines
is a literal block.
-/

namespace PayloadMapping.Yaml

inductive ScalarStyle where
  | plain | single | double | literal
deriving DecidableEq

def isPrintable (c : Char) : Bool :=
  let n := c.toNat
  n == 0xA || (0x20 ≤ n && n ≤ 0x7E)
    || (0xA0 ≤ n && n != 0xFEFF && n != 0xFFFE && n != 0xFFFF)

/-- Some character that passes the first test comes right before one that passes the second. -/
def hasPair (first second : Char → Bool) : List Char → Bool
  | a :: b :: rest => (first a && second b) || hasPair first second (b :: rest)
  | _ => false

def isSpace (c : Char) : Bool := c == ' '

def startsIndicator (cs : List Char) : Bool :=
  match cs with
  | c :: rest =>
    "#,[]\x7b\x7d&*!|>'\"%@`".toList.contains c || ("?:-".toList.contains c && atGap rest)
  | [] => false

/-- Inside the text, a colon before a gap or a number sign after one. -/
def holdsIndicator : List Char → Bool
  | a :: b :: rest =>
    (b == ':' && atGap rest) || (b == '#' && (isBlank a || isBreak a))
      || holdsIndicator (b :: rest)
  | _ => false

def startsLikeMarker : List Char → Bool
  | a :: b :: c :: _ => (a == '-' || a == '.') && a == b && b == c
  | _ => false

def hasIndicator (cs : List Char) : Bool :=
  startsLikeMarker cs || startsIndicator cs || holdsIndicator cs

structure Allowed where
  plain : Bool
  single : Bool
  block : Bool

def allowed (cs : List Char) : Allowed :=
  let isEnd (c : Option Char) (test : Char → Bool) : Bool := (c.map test).getD false
  let special := cs.any fun c => !isPrintable c
  let atEnds := isEnd cs.head? isSpace || isEnd cs.head? isBreak || isEnd cs.getLast? isSpace
    || isEnd cs.getLast? isBreak
  let breakSpace := hasPair isBreak isSpace cs
  let spaceBreak := hasPair isSpace isBreak cs
  { plain := !(special || atEnds || breakSpace || spaceBreak || cs.any isBreak
      || hasIndicator cs)
    single := !(special || breakSpace || spaceBreak)
    block := !cs.isEmpty && !(special || spaceBreak || isEnd cs.getLast? isSpace) }

/-- The style that suits what a text would stand for. -/
def wantedStyle (s : String) : ScalarStyle :=
  if s.toList.contains '\n' then .literal
  else if meaning s = .text && !isPadded s.toList then .plain
  else .single

/-- The style in which a text is written. The key of an entry on one line is never a block. -/
def styleOf (s : String) (simpleKey : Bool) : ScalarStyle :=
  let allowed := allowed s.toList
  let quoted := if allowed.single then ScalarStyle.single else .double
  match wantedStyle s with
  | .literal => if allowed.block && !simpleKey then .literal else .double
  | .plain => if allowed.plain then .plain else quoted
  | _ => quoted

/-- A key that can stand before its value on one line. -/
def isSimpleKey (key : String) : Bool :=
  key.utf8ByteSize ≤ 128 && !key.toList.any isBreak

end PayloadMapping.Yaml
