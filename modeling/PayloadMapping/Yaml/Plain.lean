import PayloadMapping.Number.Basic
import PayloadMapping.Number.Numeral

set_option autoImplicit false

/-!
# What plain scalars stand for

A plain scalar can stand for null, a truth value or a number; else it is a text. Digits after a
leading zero are a text, and so is a fraction too large for a double. Whole numbers of up to 128
bits are numbers, even though a document cannot hold all of them.
-/

namespace PayloadMapping.Yaml

inductive Meaning where
  | null
  | bool (b : Bool)
  | whole (n : Int)
  | double (x : Extended)
  | text
deriving DecidableEq

def nullTexts : List String := ["null", "Null", "NULL", "~"]

def bool? (s : String) : Option Bool :=
  if ["true", "True", "TRUE"].contains s then some true
  else if ["false", "False", "FALSE"].contains s then some false
  else none

def isSign (c : Char) : Bool := c == '+' || c == '-'

def isPadded (cs : List Char) : Bool :=
  match cs with
  | c :: rest => if isSign c then zeroFirst rest else zeroFirst cs
  | [] => false
where
  /-- More than one digit, the first of them zero. -/
  zeroFirst : List Char → Bool
    | '0' :: d :: more => (d :: more).all Numeral.isDigit
    | _ => false

def withoutPlus : List Char → List Char
  | '+' :: rest => rest
  | cs => cs

def announcedBase? : List Char → Option (Nat × List Char)
  | '0' :: 'x' :: rest => some (16, rest)
  | '0' :: 'o' :: rest => some (8, rest)
  | '0' :: 'b' :: rest => some (2, rest)
  | _ => none

def natural? (cs : List Char) : Option Nat :=
  match announcedBase? (withoutPlus cs) with
  | some (base, digits) => Numeral.natural? base digits
  | none => if isPadded cs then none else Numeral.natural? 10 (withoutPlus cs)

def negative? : List Char → Option Int
  | '-' :: rest =>
    match announcedBase? rest with
    | some (base, digits) => (Numeral.natural? base digits).map fun n => -(n : Int)
    | none =>
      if isPadded ('-' :: rest) then none
      else (Numeral.natural? 10 rest).map fun n => -(n : Int)
  | _ => none

/-- A whole number of up to 128 bits. -/
def whole? (cs : List Char) : Option Int :=
  match natural? cs, negative? cs with
  | some n, _ => if n < Nat.pow 2 128 then some n else none
  | none, some i => if i.natAbs ≤ Nat.pow 2 127 then some i else none
  | none, none => none

def double? (cs : List Char) : Option Extended :=
  let name := String.ofList cs
  let unsigned := withoutPlus cs
  if [".inf", ".Inf", ".INF"].contains (String.ofList unsigned) then some (.infinite false)
  else if ["-.inf", "-.Inf", "-.INF"].contains name then some (.infinite true)
  else if [".nan", ".NaN", ".NAN"].contains name then some .notANumber
  else if unsigned.length < cs.length && (unsigned.head?.map isSign).getD false then none
  else match Numeral.double? unsigned with
    | some (.finite x) => some (.finite x)
    | _ => none

def meaning (s : String) : Meaning :=
  let cs := s.toList
  if cs.isEmpty || nullTexts.contains s then .null
  else match bool? s with
    | some b => .bool b
    | none =>
      match whole? cs with
      | some n => .whole n
      | none =>
        if isPadded cs then .text
        else match double? cs with
          | some x => .double x
          | none => .text

end PayloadMapping.Yaml
