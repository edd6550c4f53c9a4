set_option autoImplicit false

/-!
# Doubles as exact counts of the smallest double

Every finite double is a whole number of units of `2 ^ (-1074)`, so a sign and a natural
number say exactly which one it is, and sums, products and quotients are exact operations on
natural numbers followed by one rounding. A count is a double when it has at most 53
significant bits and lies below `2 ^ 2098` units, which is `2 ^ 1024`. No machine arithmetic
is involved, so equations between doubles are equations between natural numbers.
-/

namespace PayloadMapping

/-- `num / den` rounded to the nearest natural number; a tie goes to the even neighbour. -/
def roundHalfEven (num den : Nat) : Nat :=
  if 2 * (num % den) < den then num / den
  else if den < 2 * (num % den) then num / den + 1
  else num / den + num / den % 2

namespace Double

/-- How many units make one. -/
def unitsPerOne : Nat := Nat.pow 2 1074

/-- The width of the gap above a count: all bits below the 53 leading ones are zero. -/
def spacing (units : Nat) : Nat := Nat.pow 2 (units.log2 - 52)

/-- A count has at most 53 significant bits and is below the overflow threshold. -/
def Fits (units : Nat) : Prop := units % spacing units = 0 ∧ units < Nat.pow 2 2098

instance (units : Nat) : Decidable (Fits units) := inferInstanceAs (Decidable (_ ∧ _))

end Double

/-- A finite double: a sign and a count of units. Zero has both signs. -/
structure Double where
  negative : Bool
  units : Nat
  fits : Double.Fits units
deriving DecidableEq

/-- The results of arithmetic on doubles: finite, infinite, or no number. -/
inductive Extended where
  | finite (x : Double)
  | infinite (negative : Bool)
  | notANumber
deriving DecidableEq

namespace Extended

def ofUnits (negative : Bool) (units : Nat) : Extended :=
  if h : Double.Fits units then .finite ⟨negative, units, h⟩ else .infinite negative

/-- The count with 53 significant bits that is nearest to `num / den`, ties to even. -/
def nearestUnits (num den : Nat) : Nat :=
  roundHalfEven num (den * Double.spacing (num / den)) * Double.spacing (num / den)

def nearest (negative : Bool) (num den : Nat) : Extended :=
  ofUnits negative (nearestUnits num den)

def ofInt (i : Int) : Extended := nearest (decide (i < 0)) (i.natAbs * Double.unitsPerOne) 1

/-- The double nearest to `coefficient * 10 ^ power`. Powers so large or so small that the
result is certainly infinite or zero are answered without computing them. -/
def ofDecimal (negative : Bool) (coefficient : Nat) (power : Int) : Extended :=
  if coefficient = 0 then nearest negative 0 1
  else if 400 < power then .infinite negative
  else if power + coefficient.log2 < -400 then nearest negative 0 1
  else if 0 ≤ power then
    nearest negative (coefficient * Nat.pow 10 power.toNat * Double.unitsPerOne) 1
  else nearest negative (coefficient * Double.unitsPerOne) (Nat.pow 10 (-power).toNat)

/-- The rounded sum. An exact sum of zero is positive unless both terms are negative. -/
def add : Extended → Extended → Extended
  | .finite x, .finite y =>
    if x.negative = y.negative then nearest x.negative (x.units + y.units) 1
    else if y.units < x.units then nearest x.negative (x.units - y.units) 1
    else if x.units < y.units then nearest y.negative (y.units - x.units) 1
    else nearest false 0 1
  | .infinite s, .infinite t => if s = t then .infinite s else .notANumber
  | .notANumber, _ | _, .notANumber => .notANumber
  | .infinite s, .finite _ | .finite _, .infinite s => .infinite s

def toFinite? : Extended → Option Double
  | .finite x => some x
  | _ => none

end Extended

namespace Double

def zero : Double := ⟨false, 0, by decide +kernel⟩

def mul (x y : Double) : Extended :=
  .nearest (x.negative != y.negative) (x.units * y.units) unitsPerOne

def div (x y : Double) : Extended :=
  .nearest (x.negative != y.negative) (x.units * unitsPerOne) y.units

def truncate (x : Double) : Int :=
  if x.negative then -((x.units / unitsPerOne : Nat) : Int) else (x.units / unitsPerOne : Nat)

/-- Equal as numbers: the two zeros are the same number. -/
def sameValue (x y : Double) : Bool :=
  x.units == y.units && (x.negative == y.negative || x.units == 0)

end Double

end PayloadMapping
