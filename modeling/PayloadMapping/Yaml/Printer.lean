import PayloadMapping.Mapping.Outline
import PayloadMapping.Yaml.Style

set_option autoImplicit false

/-!
# Outlines as YAML text

Collections are written in block style, empty ones in flow style. Lists under a key are indented
like the key. The pen keeps the column, and whether the line holds nothing but indentation and
indicators so far, so that a collection can start on the line of its indicator.
-/

namespace PayloadMapping.Yaml

/-- What is written: plain texts of scalars, texts, lists and records. -/
inductive Block where
  | plain (text : String)
  | text (s : String)
  | list (items : List Block)
  | record (fields : List (String × Block))

namespace Block

mutual

def ofValue : Value → Block
  | .null => .plain "null"
  | .bool true => .plain "true"
  | .bool false => .plain "false"
  | .number (.whole n _) => .plain (toString n)
  | .number (.double x) => .plain (x.text .yaml)
  | .string s => .text s
  | .array items => .list (ofValues items)
  | .object fields => .record (ofFields fields)

def ofValues : List Value → List Block
  | [] => []
  | v :: rest => ofValue v :: ofValues rest

def ofFields : List (String × Value) → List (String × Block)
  | [] => []
  | (key, v) :: rest => (key, ofValue v) :: ofFields rest

end

mutual

def ofOutline : Outline → Block
  | .value v => ofValue v
  | .list items => .list (ofOutlines items)
  | .record fields => .record (ofOutlineFields fields)

def ofOutlines : List Outline → List Block
  | [] => []
  | outline :: rest => ofOutline outline :: ofOutlines rest

def ofOutlineFields : List (String × Outline) → List (String × Block)
  | [] => []
  | (key, outline) :: rest => (key, ofOutline outline) :: ofOutlineFields rest

end

end Block

/-- What was written, in reverse, and where the pen is: its column, whether a space or the start
of a line comes before it, and whether only indentation and indicators do. -/
structure Pen where
  written : List Char := []
  column : Nat := 0
  spaced : Bool := true
  fresh : Bool := true

namespace Pen

def put (pen : Pen) (c : Char) : Pen :=
  { pen with written := c :: pen.written, column := pen.column + 1 }

def putAll (pen : Pen) (cs : List Char) : Pen := cs.foldl put pen

def putBreak (pen : Pen) (c : Char) : Pen :=
  { pen with written := c :: pen.written, column := 0 }

def indicator (pen : Pen) (cs : List Char) (needsSpace isSpace keepsFresh : Bool) : Pen :=
  let pen := if needsSpace && !pen.spaced then pen.put ' ' else pen
  { pen.putAll cs with spaced := isSpace, fresh := pen.fresh && keepsFresh }

/-- Go to a column, on a new line unless the line is still fresh and not further. -/
def indent (pen : Pen) (column : Nat) : Pen :=
  let pen :=
    if !pen.fresh || column < pen.column || (pen.column = column && !pen.spaced) then
      pen.putBreak '\n'
    else pen
  { pen.putAll (List.replicate (column - pen.column) ' ') with spaced := true, fresh := true }

def settle (pen : Pen) : Pen := { pen with spaced := false, fresh := false }

def putPlain (pen : Pen) (cs : List Char) : Pen :=
  ((if pen.spaced then pen else pen.put ' ').putAll cs).settle

/-- Write the characters of a text in single quotes. `broke` says that a line break was written
last. -/
def putSingleChars (column : Nat) (pen : Pen) (broke : Bool) : List Char → Pen
  | [] => if broke then pen.indent column else pen
  | c :: rest =>
    if isBreak c then
      let pen := if !broke && c = '\n' then pen.putBreak '\n' else pen
      putSingleChars column { pen.putBreak c with fresh := true } true rest
    else
      let pen := if broke then pen.indent column else pen
      let pen := if c = '\'' then pen.put '\'' else pen
      putSingleChars column { pen.put c with fresh := false } false rest

def putSingle (pen : Pen) (column : Nat) (cs : List Char) : Pen :=
  let pen := pen.indicator ['\''] true false false
  ((putSingleChars column pen false cs).indicator ['\''] false false false).settle

def hexDigits (digits : Nat) (n : Nat) : List Char :=
  let cs := (Nat.toDigits 16 n).map Char.toUpper
  List.replicate (digits - cs.length) '0' ++ cs

def escape (c : Char) : List Char :=
  match c with
  | '\x00' => ['0']
  | '\x07' => ['a']
  | '\x08' => ['b']
  | '\t' => ['t']
  | '\n' => ['n']
  | '\x0b' => ['v']
  | '\x0c' => ['f']
  | '\r' => ['r']
  | '\x1b' => ['e']
  | '"' => ['"']
  | '\\' => ['\\']
  | '\x85' => ['N']
  | '\u2028' => ['L']
  | '\u2029' => ['P']
  | c =>
    if c.toNat ≤ 0xFF then 'x' :: hexDigits 2 c.toNat
    else if c.toNat ≤ 0xFFFF then 'u' :: hexDigits 4 c.toNat
    else 'U' :: hexDigits 8 c.toNat

def doubleForm (c : Char) : List Char :=
  if !isPrintable c || isBreak c || c = '"' || c = '\\' then '\\' :: escape c else [c]

def putDouble (pen : Pen) (cs : List Char) : Pen :=
  let pen := pen.indicator ['"'] true false false
  ((pen.putAll (cs.flatMap doubleForm)).indicator ['"'] false false false).settle

/-- The indicators after that of a literal block: the indentation, if the text does not show it,
and what happens to the breaks at its end. -/
def literalHints (cs : List Char) : List Char :=
  let indentation := match cs with
    | c :: _ => if isSpace c || isBreak c then ['2'] else []
    | [] => []
  let chomping := match cs.reverse with
    | [] => ['-']
    | [c] => if isBreak c then ['+'] else ['-']
    | c :: d :: _ => if isBreak c then (if isBreak d then ['+'] else []) else ['-']
  indentation ++ chomping

def putLiteralChars (column : Nat) (pen : Pen) (broke : Bool) : List Char → Pen
  | [] => pen
  | c :: rest =>
    if isBreak c then putLiteralChars column { pen.putBreak c with fresh := true } true rest
    else
      let pen := if broke then pen.indent column else pen
      putLiteralChars column { pen.put c with fresh := false } false rest

def putLiteral (pen : Pen) (column : Nat) (cs : List Char) : Pen :=
  let pen := pen.indicator ('|' :: literalHints cs) true false false
  putLiteralChars column { pen.putBreak '\n' with spaced := true, fresh := true } true cs

def putText (pen : Pen) (column : Nat) (simpleKey : Bool) (s : String) : Pen :=
  match styleOf s simpleKey with
  | .plain => pen.putPlain s.toList
  | .single => pen.putSingle column s.toList
  | .double => pen.putDouble s.toList
  | .literal => pen.putLiteral column s.toList

def putKey (pen : Pen) (column : Nat) (key : String) : Pen :=
  let pen := pen.indent column
  if isSimpleKey key then (pen.putText (column + 2) true key).indicator [':'] false false false
  else
    let pen := (pen.indicator ['?'] true false true).putText (column + 2) false key
    (pen.indent column).indicator [':'] true false true

/-- Where the items of a list stand inside something at `column`, under a key or not. -/
def listColumn (pen : Pen) (column : Nat) (underKey : Bool) : Nat :=
  if underKey && !pen.fresh then column else column + 2

mutual

/-- Write a block inside a collection at `column`, as the value of a key or not. -/
def putBlock (column : Nat) (underKey : Bool) (pen : Pen) : Block → Pen
  | .plain text => pen.putPlain text.toList
  | .text s => pen.putText (column + 2) false s
  | .list [] => (pen.indicator ['['] true true false).indicator [']'] false false false
  | .list (item :: rest) => putItems (listColumn pen column underKey) pen (item :: rest)
  | .record [] => (pen.indicator ['\x7b'] true true false).indicator ['\x7d'] false false false
  | .record (field :: rest) => putFields (column + 2) pen (field :: rest)

def putItems (column : Nat) (pen : Pen) : List Block → Pen
  | [] => pen
  | item :: rest =>
    let pen := (pen.indent column).indicator ['-'] true false true
    putItems column (putBlock column false pen item) rest

def putFields (column : Nat) (pen : Pen) : List (String × Block) → Pen
  | [] => pen
  | (key, block) :: rest =>
    putFields column (putBlock column true (pen.putKey column key) block) rest

end

end Pen

def print (fields : List (String × Block)) : String :=
  String.ofList ((Pen.putFields 0 {} fields).indent 0).written.reverse

end PayloadMapping.Yaml
