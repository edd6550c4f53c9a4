import PayloadMapping.Json.Text
import PayloadMapping.Json.Numeral
import PayloadMapping.Value.Basic

set_option autoImplicit false

/-!
# Values from JSON text

`readValue` reads one value, with at most `depthLimit` containers inside each other. `parse`
reads a whole text. The parts that walk over lists and objects take the reader of the parts as
an argument, so that other things than values can be read from lists and objects too.
-/

namespace PayloadMapping.Json

def depthLimit : Nat := 127

def Cursor.expectIdent (cursor : Cursor) : List Char → Except SyntaxError Cursor
  | [] => .ok cursor
  | c :: more =>
    match cursor.rest with
    | [] => cursor.fail .endInValue
    | d :: rest =>
      if d = c then (cursor.next d rest).expectIdent more else cursor.failNext .expectedIdent

/-- Move to the next item of a list, if the list has one. `first` says that none was read. The
closing bracket is not passed. -/
def Cursor.toItem (first : Bool) (cursor : Cursor) : Except SyntaxError (Bool × Cursor) :=
  let cursor := cursor.skipSpace
  match cursor.rest with
  | [] => cursor.failNext .endInList
  | ']' :: _ => .ok (false, cursor)
  | c :: rest =>
    if first then .ok (true, cursor)
    else if c = ',' then
      let after := (cursor.next c rest).skipSpace
      match after.rest with
      | [] => after.failNext .endInValue
      | ']' :: _ => after.failNext .trailingComma
      | _ => .ok (true, after)
    else cursor.failNext .expectedCommaInList

def Cursor.toKey (first : Bool) (cursor : Cursor) : Except SyntaxError (Bool × Cursor) :=
  let cursor := cursor.skipSpace
  match cursor.rest with
  | [] => cursor.failNext .endInObject
  | '\x7d' :: _ => .ok (false, cursor)
  | c :: rest =>
    if first then
      if c = '"' then .ok (true, cursor.next c rest) else cursor.failNext .keyMustBeString
    else if c = ',' then
      let after := (cursor.next c rest).skipSpace
      match after.rest with
      | [] => after.failNext .endInValue
      | '"' :: more => .ok (true, after.next '"' more)
      | '\x7d' :: _ => after.failNext .trailingComma
      | _ => after.failNext .keyMustBeString
    else cursor.failNext .expectedCommaInObject

def Cursor.passColon (cursor : Cursor) : Except SyntaxError Cursor :=
  let cursor := cursor.skipSpace
  match cursor.rest with
  | [] => cursor.failNext .endInObject
  | ':' :: rest => .ok (cursor.next ':' rest)
  | _ => cursor.failNext .expectedColon

def Cursor.closeList (cursor : Cursor) : Except SyntaxError Cursor :=
  let cursor := cursor.skipSpace
  match cursor.rest with
  | [] => cursor.failNext .endInList
  | ']' :: rest => .ok (cursor.next ']' rest)
  | ',' :: rest =>
    let after := (cursor.next ',' rest).skipSpace
    match after.rest with
    | ']' :: _ => after.failNext .trailingComma
    | _ => after.failNext .trailingCharacters
  | _ => cursor.failNext .trailingCharacters

def Cursor.closeObject (cursor : Cursor) : Except SyntaxError Cursor :=
  let cursor := cursor.skipSpace
  match cursor.rest with
  | [] => cursor.failNext .endInObject
  | '\x7d' :: rest => .ok (cursor.next '\x7d' rest)
  | ',' :: _ => cursor.failNext .trailingComma
  | _ => cursor.failNext .trailingCharacters

/-- The items of a list from the place after its bracket on, and the closing bracket. Items read
before are in `read`, in reverse. Every step takes a character. -/
def readItems (readItem : Cursor → Except SyntaxError (Value × Cursor)) (read : List Value)
    (first : Bool) (cursor : Cursor) : Nat → Except SyntaxError (Value × Cursor)
  | 0 => cursor.failNext .endInList
  | steps + 1 => do
    let (more, cursor) ← cursor.toItem first
    if more then
      let (v, cursor) ← readItem cursor
      readItems readItem (v :: read) false cursor steps
    else
      let cursor ← cursor.closeList
      .ok (.array read.reverse, cursor)

/-- The fields of an object from the place after its brace on, and the closing brace. Fields
read before are in `read`. Of a repeated key the last value counts. Every step takes a
character. -/
def readFields (readItem : Cursor → Except SyntaxError (Value × Cursor)) (read : Fields Value)
    (first : Bool) (cursor : Cursor) : Nat → Except SyntaxError (Value × Cursor)
  | 0 => cursor.failNext .endInObject
  | steps + 1 => do
    let (more, cursor) ← cursor.toKey first
    if more then
      let (key, cursor) ← readString cursor
      let cursor ← cursor.passColon
      let (v, cursor) ← readItem cursor
      readFields readItem (read.insert key v) false cursor steps
    else
      let cursor ← cursor.closeObject
      .ok (.object read, cursor)

def readScalar (cursor : Cursor) (c : Char) (rest : List Char) :
    Except SyntaxError (Value × Cursor) :=
  if c = 'n' then do
    let cursor ← (cursor.next c rest).expectIdent ['u', 'l', 'l']
    .ok (.null, cursor)
  else if c = 't' then do
    let cursor ← (cursor.next c rest).expectIdent ['r', 'u', 'e']
    .ok (.bool true, cursor)
  else if c = 'f' then do
    let cursor ← (cursor.next c rest).expectIdent ['a', 'l', 's', 'e']
    .ok (.bool false, cursor)
  else if c = '-' then do
    let (n, cursor) ← readUnsigned true (cursor.next c rest)
    .ok (.number n, cursor)
  else if Numeral.isDigit c then do
    let (n, cursor) ← readUnsigned false cursor
    .ok (.number n, cursor)
  else if c = '"' then do
    let (s, cursor) ← readString (cursor.next c rest)
    .ok (.string s, cursor)
  else cursor.failNext .expectedValue

def readValue : Nat → Cursor → Except SyntaxError (Value × Cursor)
  | room, cursor =>
    let cursor := cursor.skipSpace
    match cursor.rest with
    | [] => cursor.failNext .endInValue
    | '[' :: rest =>
      match room with
      | 0 => cursor.failNext .tooDeep
      | room + 1 => readItems (readValue room) [] true (cursor.next '[' rest) (rest.length + 1)
    | '\x7b' :: rest =>
      match room with
      | 0 => cursor.failNext .tooDeep
      | room + 1 =>
        readFields (readValue room) [] true (cursor.next '\x7b' rest) (rest.length + 1)
    | c :: rest => readScalar cursor c rest

def Cursor.expectEnd (cursor : Cursor) : Except SyntaxError Unit :=
  let cursor := cursor.skipSpace
  if cursor.rest.isEmpty then .ok () else cursor.failNext .trailingCharacters

def parse (text : String) : Except SyntaxError Value := do
  let (v, cursor) ← readValue depthLimit (Cursor.start text.toList)
  cursor.expectEnd
  .ok v

end PayloadMapping.Json
