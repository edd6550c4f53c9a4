import PayloadMapping.Number.Double
import PayloadMapping.Number.Width

set_option autoImplicit false

/-!
# Numerals

The two ways in which a text can stand for a number: as a signed 64-bit integer, written as
digits after an optional sign, and as a double, written as a decimal fraction with an optional
exponent or as one of the names of infinity and of no number. Digits are the ASCII digits.
-/

namespace PayloadMapping.Numeral

def digitValue? (base : Nat) (c : Char) : Option Nat :=
  let value :=
    if '0' ≤ c ∧ c ≤ '9' then c.toNat - '0'.toNat
    else if 'a' ≤ c ∧ c ≤ 'f' then c.toNat - 'a'.toNat + 10
    else if 'A' ≤ c ∧ c ≤ 'F' then c.toNat - 'A'.toNat + 10
    else 16
  if value < base then some value else none

def isDigit (c : Char) : Bool := '0' ≤ c && c ≤ '9'

/-- Read digits of `base` after those with the value `acc`; any other character fails. -/
def foldDigits? (base : Nat) : Nat → List Char → Option Nat
  | acc, [] => some acc
  | acc, c :: rest =>
    match digitValue? base c with
    | some d => foldDigits? base (acc * base + d) rest
    | none => none

/-- A natural number in `base`: at least one digit, and only digits. -/
def natural? (base : Nat) : List Char → Option Nat
  | [] => none
  | cs => foldDigits? base 0 cs

def integer? (base : Nat) : List Char → Option Int
  | '-' :: rest => (natural? base rest).map fun n => -(n : Int)
  | '+' :: rest => (natural? base rest).map fun n => (n : Int)
  | cs => (natural? base cs).map fun n => (n : Int)

def signed64? (cs : List Char) : Option Int :=
  match integer? 10 cs with
  | some i => if InSignedRange i then some i else none
  | none => none

def splitSign : List Char → Bool × List Char
  | '-' :: rest => (true, rest)
  | '+' :: rest => (false, rest)
  | cs => (false, cs)

def exponent? : List Char → Option Int
  | [] => some 0
  | c :: rest => if c = 'e' ∨ c = 'E' then integer? 10 rest else none

/-- An unsigned decimal fraction: digits with at most one point, at least one digit in all, and
an optional exponent. The result is a coefficient and a power of ten. -/
def fraction? (cs : List Char) : Option (Nat × Int) :=
  let whole := cs.takeWhile isDigit
  let afterWhole := cs.dropWhile isDigit
  let (decimals, tail) := match afterWhole with
    | '.' :: rest => (rest.takeWhile isDigit, rest.dropWhile isDigit)
    | rest => ([], rest)
  match natural? 10 (whole ++ decimals), exponent? tail with
  | some coefficient, some e => some (coefficient, e - decimals.length)
  | _, _ => none

/-- The names of infinity and of no number, in any case. -/
def special? (negative : Bool) (cs : List Char) : Option Extended :=
  let name := cs.map Char.toLower
  if name = ['i', 'n', 'f'] ∨ name = ['i', 'n', 'f', 'i', 'n', 'i', 't', 'y'] then
    some (.infinite negative)
  else if name = ['n', 'a', 'n'] then some .notANumber
  else none

/-- A double: an optional sign, then a decimal fraction or a name. Fractions too large for a
double are infinite. -/
def double? (cs : List Char) : Option Extended :=
  let (negative, rest) := splitSign cs
  match fraction? rest with
  | some (coefficient, power) => some (.ofDecimal negative coefficient power)
  | none => special? negative rest

end PayloadMapping.Numeral
