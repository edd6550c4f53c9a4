import PayloadMapping.Json.Fault
import PayloadMapping.Number.Numeral
import PayloadMapping.Number.Basic

set_option autoImplicit false

/-!
# Numbers in JSON text

An integer literal in range is that whole number. Every other literal, `-0` included, is a
double, found in two roundings: the leading digits, as many as 64 bits hold, form a whole
number, which is rounded to a double and then multiplied or divided by a rounded power of ten.
The result can differ from the nearest double in the last place.
-/

namespace PayloadMapping.Json

def Cursor.digits (cursor : Cursor) : List Char × Cursor :=
  let taken := cursor.rest.takeWhile Numeral.isDigit
  (taken, ⟨cursor.rest.dropWhile Numeral.isDigit,
    ⟨cursor.place.line, cursor.place.column + taken.length⟩⟩)

/-- Append digits to a whole number as long as 64 bits hold the result. The second component
counts the digits that were appended. -/
def gather (significand : Nat) : List Char → Nat × Nat
  | [] => (significand, 0)
  | c :: rest =>
    let longer := significand * 10 + (c.toNat - '0'.toNat)
    if longer < wordLimit then
      let (result, count) := gather longer rest
      (result, count + 1)
    else (significand, 0)

def powerOfTen (exponent : Nat) : Extended := .ofDecimal false 1 exponent

def largestPower : Nat := 308

/-- Multiply or divide by a power of ten, in steps of at most `10 ^ 308` and at most `steps` of
them. A product that overflows gives nothing. -/
def scale? (x : Double) (exponent : Int) : Nat → Option Double
  | 0 => some { x with units := 0, fits := by decide +kernel }
  | steps + 1 =>
    if exponent.natAbs ≤ largestPower then
      match powerOfTen exponent.natAbs with
      | .finite power =>
        if 0 ≤ exponent then (x.mul power).toFinite? else (x.div power).toFinite?
      | _ => none
    else if x.units = 0 then some x
    else if 0 ≤ exponent then none
    else match powerOfTen largestPower with
      | .finite power =>
        match x.div power with
        | .finite y => scale? y (exponent + largestPower) steps
        | _ => none
      | _ => none

def assemble? (negative : Bool) (significand : Nat) (exponent : Int) : Option Double :=
  (Extended.ofInt significand).toFinite?.bind fun x =>
    (scale? x exponent 4).map fun y => { y with negative := negative }

def finishDouble (negative : Bool) (significand : Nat) (exponent : Int) (cursor : Cursor) :
    Except SyntaxError (Number × Cursor) :=
  (assemble? negative significand exponent).elim (cursor.fail .numberOutOfRange) fun x =>
    .ok (.double x, cursor)

def largestExponent : Nat := 2147483647

/-- The value of exponent digits, or how many digits were read when it became too large. -/
def exponentValue (value read : Nat) : List Char → Except Nat Nat
  | [] => .ok value
  | c :: rest =>
    let longer := value * 10 + (c.toNat - '0'.toNat)
    if longer ≤ largestExponent then exponentValue longer (read + 1) rest else .error (read + 1)

def readExponentDigits (negative : Bool) (significand : Nat) (start : Int) (down : Bool)
    (cursor : Cursor) : Except SyntaxError (Number × Cursor) :=
  let (digits, after) := cursor.digits
  if digits.isEmpty then
    if cursor.rest.isEmpty then cursor.fail .endInValue else cursor.failNext .invalidNumber
  else match exponentValue 0 0 digits with
    | .ok e =>
      finishDouble negative significand (if down then start - e else start + e) after
    | .error read =>
      if significand ≠ 0 ∧ down = false then
        .error ⟨.numberOutOfRange, ⟨cursor.place.line, cursor.place.column + read⟩⟩
      else finishDouble negative 0 0 after

def readExponent (negative : Bool) (significand : Nat) (start : Int) (cursor : Cursor) :
    Except SyntaxError (Number × Cursor) :=
  match cursor.rest with
  | '+' :: rest => readExponentDigits negative significand start false (cursor.next '+' rest)
  | '-' :: rest => readExponentDigits negative significand start true (cursor.next '-' rest)
  | _ => readExponentDigits negative significand start false cursor

def readAfterFraction (negative : Bool) (significand : Nat) (exponent : Int) (cursor : Cursor) :
    Except SyntaxError (Number × Cursor) :=
  match cursor.rest with
  | 'e' :: rest => readExponent negative significand exponent (cursor.next 'e' rest)
  | 'E' :: rest => readExponent negative significand exponent (cursor.next 'E' rest)
  | _ => finishDouble negative significand exponent cursor

def readFraction (negative : Bool) (significand extra : Nat) (cursor : Cursor) :
    Except SyntaxError (Number × Cursor) :=
  let (digits, after) := cursor.digits
  if digits.isEmpty then
    if cursor.rest.isEmpty then cursor.fail .endInValue else cursor.failNext .invalidNumber
  else
    let (longer, count) := gather significand digits
    readAfterFraction negative longer ((extra : Int) - count) after

def wholeLiteral (negative : Bool) (significand : Nat) : Option Number :=
  if negative then
    if significand = 0 then none else Number.ofInt? (-(significand : Int))
  else Number.ofInt? significand

/-- The rest of a literal after its whole part, of which `extra` digits were not gathered. -/
def readAfterWhole (negative : Bool) (significand extra : Nat) (cursor : Cursor) :
    Except SyntaxError (Number × Cursor) :=
  match cursor.rest with
  | '.' :: rest => readFraction negative significand extra (cursor.next '.' rest)
  | 'e' :: rest => readExponent negative significand extra (cursor.next 'e' rest)
  | 'E' :: rest => readExponent negative significand extra (cursor.next 'E' rest)
  | _ =>
    if extra = 0 then
      match wholeLiteral negative significand with
      | some n => .ok (n, cursor)
      | none => finishDouble negative significand 0 cursor
    else finishDouble negative significand extra cursor

def readUnsigned (negative : Bool) (cursor : Cursor) : Except SyntaxError (Number × Cursor) :=
  let (digits, after) := cursor.digits
  match digits with
  | [] => if cursor.rest.isEmpty then cursor.fail .endInValue else cursor.failNext .invalidNumber
  | '0' :: _ :: _ =>
    .error ⟨.invalidNumber, ⟨cursor.place.line, cursor.place.column + 2⟩⟩
  | _ =>
    let (significand, count) := gather 0 digits
    readAfterWhole negative significand (digits.length - count) after

end PayloadMapping.Json
