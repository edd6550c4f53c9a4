set_option autoImplicit false

/-!
# Places in a text that is being read

A cursor holds what is left of a text and the place reached in it. Places count lines from one
and, within a line, the bytes of the UTF-8 form that were passed. A fault is reported either at
the cursor or one byte further, where the byte at fault ends.
-/

namespace PayloadMapping.Json

structure Place where
  line : Nat
  column : Nat
deriving DecidableEq

structure Cursor where
  rest : List Char
  place : Place
deriving DecidableEq

namespace Place

def pass (p : Place) (c : Char) (bytes : Nat) : Place :=
  if c = '\n' then ⟨p.line + 1, 0⟩ else ⟨p.line, p.column + bytes⟩

def passBytes (p : Place) : Nat → List Char → Place
  | 0, _ => p
  | _, [] => p
  | bytes, c :: rest =>
    if bytes ≤ c.utf8Size then p.pass c bytes
    else (p.pass c c.utf8Size).passBytes (bytes - c.utf8Size) rest

end Place

namespace Cursor

def start (text : List Char) : Cursor := ⟨text, ⟨1, 0⟩⟩

def next (cursor : Cursor) (c : Char) (rest : List Char) : Cursor :=
  ⟨rest, cursor.place.pass c c.utf8Size⟩

/-- The place one byte further, or the end of the text. -/
def peekPlace (cursor : Cursor) : Place := cursor.place.passBytes 1 cursor.rest

def isSpace (c : Char) : Bool := c == ' ' || c == '\n' || c == '\t' || c == '\r'

def skipFrom (place : Place) : List Char → Cursor
  | [] => ⟨[], place⟩
  | c :: rest => if isSpace c then skipFrom (place.pass c 1) rest else ⟨c :: rest, place⟩

def skipSpace (cursor : Cursor) : Cursor := skipFrom cursor.place cursor.rest

end Cursor

end PayloadMapping.Json
