import PayloadMapping.Json.Fault
import PayloadMapping.Number.Numeral

set_option autoImplicit false

/-!
# Strings in JSON text

A string is read from after its opening quote. Faults name the place after the byte, the escape
or the surrogate at fault.
-/

namespace PayloadMapping.Json

def shortEscape? (c : Char) : Option Char :=
  match c with
  | '"' => some '"'
  | '\\' => some '\\'
  | '/' => some '/'
  | 'b' => some '\x08'
  | 'f' => some '\x0c'
  | 'n' => some '\n'
  | 'r' => some '\r'
  | 't' => some '\t'
  | _ => none

def Cursor.endPlace (cursor : Cursor) : Place :=
  cursor.rest.foldl (fun place c => place.pass c c.utf8Size) cursor.place

/-- Four hexadecimal digits: their value and the cursor after them. When they are no digits the
fault lies four bytes further. -/
def readHex (cursor : Cursor) : Except SyntaxError (Nat × Cursor) :=
  match cursor.rest with
  | a :: b :: c :: d :: rest =>
    match Numeral.natural? 16 [a, b, c, d] with
    | some code => .ok (code, ⟨rest, ⟨cursor.place.line, cursor.place.column + 4⟩⟩)
    | none => .error ⟨.invalidEscape, cursor.place.passBytes 4 cursor.rest⟩
  | short =>
    if 4 ≤ (String.ofList short).utf8ByteSize then
      .error ⟨.invalidEscape, cursor.place.passBytes 4 short⟩
    else .error ⟨.endInString, cursor.endPlace⟩

def Cursor.expectInPair (cursor : Cursor) (c : Char) : Except SyntaxError Cursor :=
  match cursor.rest with
  | [] => cursor.fail .endInString
  | d :: rest =>
    if d = c then .ok (cursor.next d rest)
    else .error ⟨.endOfHexEscape, cursor.place.passBytes 1 (d :: rest)⟩

def readLowSurrogate (cursor : Cursor) : Except SyntaxError (Nat × Cursor) := do
  let cursor ← cursor.expectInPair '\\'
  let cursor ← cursor.expectInPair 'u'
  let (low, cursor) ← readHex cursor
  if 0xDC00 ≤ low ∧ low ≤ 0xDFFF then .ok (low, cursor) else cursor.fail .loneSurrogate

def readUnicode (cursor : Cursor) : Except SyntaxError (Char × Cursor) := do
  let (code, cursor) ← readHex cursor
  if 0xDC00 ≤ code ∧ code ≤ 0xDFFF then cursor.fail .loneSurrogate
  else if 0xD800 ≤ code ∧ code ≤ 0xDBFF then
    let (low, cursor) ← readLowSurrogate cursor
    .ok (Char.ofNat ((code - 0xD800) * 0x400 + (low - 0xDC00) + 0x10000), cursor)
  else .ok (Char.ofNat code, cursor)

def readEscape (cursor : Cursor) : Except SyntaxError (Char × Cursor) :=
  match cursor.rest with
  | [] => cursor.fail .endInString
  | c :: rest =>
    if c = 'u' then readUnicode (cursor.next c rest)
    else match shortEscape? c with
      | some d => .ok (d, cursor.next c rest)
      | none => .error ⟨.invalidEscape, cursor.place.passBytes 1 (c :: rest)⟩

/-- The characters of a string up to its closing quote, put before those in `read`, which are
in reverse. Every step takes a character, so that `steps` need not exceed those left. -/
def readChars (read : List Char) (cursor : Cursor) : Nat → Except SyntaxError (String × Cursor)
  | 0 => cursor.fail .endInString
  | steps + 1 =>
    match cursor.rest with
    | [] => cursor.fail .endInString
    | c :: rest =>
      if c = '"' then .ok (String.ofList read.reverse, cursor.next c rest)
      else if c = '\\' then do
        let (d, cursor) ← readEscape (cursor.next c rest)
        readChars (d :: read) cursor steps
      else if c.toNat < 0x20 then (cursor.next c rest).fail .controlCharacter
      else readChars (c :: read) (cursor.next c rest) steps

def readString (cursor : Cursor) : Except SyntaxError (String × Cursor) :=
  readChars [] cursor (cursor.rest.length + 1)

end PayloadMapping.Json
