import PayloadMapping.Decode.Error
import PayloadMapping.Json.Reader

set_option autoImplicit false

/-!
# Decoding while reading JSON text

A text can fail as JSON or as what it should hold. A failure to decode names the place that the
reader has reached: inside a list or an object that is the place after its end, or where the end
should be.
-/

namespace PayloadMapping.Json

inductive LoadFault where
  | text (fault : Fault)
  | content (error : DecodeError)
deriving DecidableEq

structure LoadError where
  fault : LoadFault
  place : Place
deriving DecidableEq

def LoadError.message (e : LoadError) : String :=
  match e.fault with
  | .text fault => withPlace fault.message e.place
  | .content error => withPlace (error.message .json) e.place

def LoadError.ofSyntax (e : SyntaxError) : LoadError := ⟨.text e.fault, e.place⟩

def loading {α : Type} (step : Except SyntaxError α) : Except LoadError α :=
  step.mapError .ofSyntax

def Cursor.afterList (cursor : Cursor) : Place :=
  let cursor := cursor.skipSpace
  match cursor.rest with
  | ']' :: rest => (cursor.next ']' rest).place
  | ',' :: rest => (cursor.next ',' rest).skipSpace.place
  | _ => cursor.place

def Cursor.afterObject (cursor : Cursor) : Place :=
  let cursor := cursor.skipSpace
  match cursor.rest with
  | '\x7d' :: rest => (cursor.next '\x7d' rest).place
  | _ => cursor.place

def wrong {α : Type} (error : DecodeError) (place : Place) : Except LoadError α :=
  .error ⟨.content error, place⟩

/-- Something else than expected follows, after blanks. Scalars are read to name them. -/
def wrongType {α : Type} (expected : String) (cursor : Cursor) : Except LoadError α :=
  match cursor.rest with
  | [] => loading (cursor.failNext .endInValue)
  | '[' :: _ => wrong (.invalidType .list expected) cursor.place
  | '\x7b' :: _ => wrong (.invalidType .map expected) cursor.place
  | c :: rest =>
    match readScalar cursor c rest with
    | .ok (v, after) => wrong (.invalidType (.ofValue v) expected) after.place
    | .error e => .error (.ofSyntax e)

def parseObject (text : String) : Except LoadError (Fields Value) := do
  let cursor := (Cursor.start text.toList).skipSpace
  match cursor.rest with
  | '\x7b' :: _ => do
    let (v, cursor) ← loading (readValue depthLimit cursor)
    loading cursor.expectEnd
    match v with
    | .object fields => .ok fields
    | _ => .ok []
  | _ => wrongType "a map" cursor

end PayloadMapping.Json
