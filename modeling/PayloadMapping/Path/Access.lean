import PayloadMapping.Number.Numeral
import PayloadMapping.Path.Basic
import PayloadMapping.Value.Basic

set_option autoImplicit false

/-!
# Reading and writing along a path

Reading steps into objects by key and into lists by index. Writing steps into objects only: it
creates what is missing, replaces what does not count as true, and stops at anything else.
`write` gives the new tree or fails; `overwrite` changes a tree place by place and leaves one in
either case.
-/

namespace PayloadMapping

inductive Obstacle where
  | missing
  | mismatch (found : Kind)
deriving DecidableEq

/-- A step that failed: the whole path, the segment of the step and the obstacle. -/
structure PathError where
  path : String
  segment : String
  obstacle : Obstacle
deriving DecidableEq

namespace PathError

def isMissing (e : PathError) : Bool := e.obstacle == .missing

def message (e : PathError) : String :=
  match e.obstacle with
  | .missing => "missing field '" ++ e.segment ++ "' while resolving '" ++ e.path ++ "'"
  | .mismatch found =>
    "cannot step into " ++ found.name ++ " with '" ++ e.segment ++ "' while resolving '"
      ++ e.path ++ "'"

end PathError

namespace Path

/-- The index that a segment stands for: a natural number below `2 ^ 64`, in decimal digits
after an optional plus sign. -/
def index? (segment : String) : Option Nat :=
  let digits := match segment.toList with
    | '+' :: rest => rest
    | cs => cs
  match Numeral.natural? 10 digits with
  | some n => if n < wordLimit then some n else none
  | none => none

def step (segment : String) : Value → Except Obstacle Value
  | .object fields =>
    match Fields.get? segment fields with
    | some v => .ok v
    | none => .error .missing
  | .array items =>
    match index? segment with
    | some i =>
      match items[i]? with
      | some v => .ok v
      | none => .error .missing
    | none => .error (.mismatch .array)
  | v => .error (.mismatch v.kind)

/-- Step into a value along segments; a failure names the segment at which it stopped. -/
def walk : List String → Value → Except (String × Obstacle) Value
  | [], v => .ok v
  | s :: rest, v =>
    match step s v with
    | .ok u => walk rest u
    | .error o => .error (s, o)

def readSegments (source : Value) (segments : List String) : Except PathError Value :=
  match walk segments source with
  | .ok v => .ok v
  | .error (s, o) => .error ⟨join segments, s, o⟩

def read (source : Value) (path : Path) : Except PathError Value :=
  readSegments source path.segments

/-- What a write steps into: the value of a key if it counts as true, else a new object. -/
def entered (slot : Option Value) : Value :=
  match slot with
  | some v => if v.isTruthy then v else .empty
  | none => .empty

/-- Put a value at the end of segments; a failure names the segment and the kind of the value
that it does not step into. -/
def put (value : Value) : List String → Value → Except (String × Kind) Value
  | [], _ => .ok value
  | s :: rest, .object fields =>
    match put value rest (entered (Fields.get? s fields)) with
    | .ok inner => .ok (.object (Fields.insert s inner fields))
    | .error e => .error e
  | s :: _, v => .error (s, v.kind)

/-- Write a value at a path; the empty path stands for the whole tree. -/
def write (destination value : Value) (path : Path) : Except PathError Value :=
  match put value path.segments destination with
  | .ok v => .ok v
  | .error (s, found) => .error ⟨path.text, s, .mismatch found⟩

/-- Put a value at the end of segments, in place: each place on the way is made before the rest of
the segments is looked at. Gives the tree that is left, and how the write ended. -/
def putInPlace (value : Value) : List String → Value → Value × Except (String × Kind) Unit
  | [], _ => (value, .ok ())
  | s :: rest, .object fields =>
    let inner := putInPlace value rest (entered (Fields.get? s fields))
    (.object (Fields.insert s inner.1 fields), inner.2)
  | s :: _, v => (v, .error (s, v.kind))

def overwrite (tree value : Value) (segments : List String) : Value × Except PathError Unit :=
  let left := putInPlace value segments tree
  (left.1, left.2.mapError fun e => ⟨join segments, e.1, .mismatch e.2⟩)

end Path

end PayloadMapping
