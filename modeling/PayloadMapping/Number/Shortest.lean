import PayloadMapping.Number.Double

set_option autoImplicit false

/-!
# The shortest decimal of a double

All reals nearer to a double than to its neighbours read back as that double; the two ends of
this interval do so when the significand is even. `Double.shortest` takes the coarsest decimal
grid with a point in the interval, and of the grid's points there the one nearest to the
double, so that no decimal with fewer digits reads back and no other of the same length is
nearer. `FloatStyle` says which of two equally near points counts and how the digits are laid
out.
-/

namespace PayloadMapping

structure Decimal where
  coefficient : Nat
  power : Int
deriving DecidableEq

/-- Which of two decimals at the same distance from a double stands for it. -/
inductive Tie where
  | even | upper
deriving DecidableEq

def Tie.round (tie : Tie) (num den : Nat) : Nat :=
  match tie with
  | .even => roundHalfEven num den
  | .upper => (2 * num + den) / (2 * den)

namespace Double

/-- Half the gap below a double, in quarters of a unit: below a power of two the doubles lie
twice as dense as above it. -/
def lowerGap (units : Nat) : Nat :=
  if units = Nat.pow 2 units.log2 ∧ 52 < units.log2 then spacing units else 2 * spacing units

/-- The point of the grid of multiples of `10 ^ power` that reads back as the double and is
nearest to it, if the grid has one. -/
def gridPoint? (tie : Tie) (units : Nat) (power : Int) : Option Nat :=
  let scale := if 0 ≤ power then 1 else Nat.pow 10 (-power).toNat
  let step := 4 * unitsPerOne * (if 0 ≤ power then Nat.pow 10 power.toNat else 1)
  let value := 4 * units * scale
  let low := (4 * units - lowerGap units) * scale
  let high := (4 * units + 2 * spacing units) * scale
  let closed := units / spacing units % 2 = 0
  let below := value / step
  let belowReads := 0 < below ∧ (low < below * step ∨ closed ∧ low = below * step)
  let aboveReads := (below + 1) * step < high ∨ closed ∧ (below + 1) * step = high
  if belowReads ∧ aboveReads then some (tie.round value step)
  else if belowReads then some below
  else if aboveReads then some (below + 1)
  else none

/-- The first grid with a point, trying `fuel` grids from a coarse one to finer ones. -/
def coarsest (tie : Tie) (units : Nat) : Nat → Int → Decimal
  | 0, power => ⟨units, power⟩
  | fuel + 1, power =>
    match gridPoint? tie units power with
    | some coefficient => ⟨coefficient, power⟩
    | none => coarsest tie units fuel (power - 1)

/-- The shortest decimal that reads back as a double other than zero, the nearest of its
length. The first grid tried is coarser than the double itself, the last finer than its gap. -/
def shortest (tie : Tie) (x : Double) : Decimal :=
  if x.units = 0 then ⟨0, 0⟩
  else coarsest tie x.units 40 (((x.units.log2 : Int) - 1073) * 30103 / 100000 + 2)

end Double

/-- How a double is written: which of two equally near decimals, the scientific exponents that
are written positionally, and whether a positive exponent carries a plus sign. -/
structure FloatStyle where
  tie : Tie
  lowest : Int
  highest : Int
  plusSign : Bool

namespace FloatStyle

/-- JSON text: positional from `0.00001` up to below `10 ^ 16`, and `1e+16` from there. -/
def json : FloatStyle := ⟨.even, -5, 15, true⟩

/-- YAML text: as JSON text, without the plus sign. -/
def yaml : FloatStyle := ⟨.even, -5, 15, false⟩

def positional : FloatStyle := ⟨.upper, -400, 400, false⟩

end FloatStyle

namespace Decimal

def digits (d : Decimal) : List Char := Nat.toDigits 10 d.coefficient

def scientificExponent (d : Decimal) : Int := d.power + d.digits.length - 1

def positionalText (d : Decimal) : List Char :=
  let e := d.scientificExponent
  if 0 ≤ d.power then d.digits ++ List.replicate d.power.toNat '0' ++ ['.', '0']
  else if 0 ≤ e then
    d.digits.take (e.toNat + 1) ++ '.' :: d.digits.drop (e.toNat + 1)
  else '0' :: '.' :: List.replicate (-e - 1).toNat '0' ++ d.digits

def exponentText (plusSign : Bool) (d : Decimal) : List Char :=
  let e := d.scientificExponent
  let mantissa := match d.digits with
    | first :: second :: rest => first :: '.' :: second :: rest
    | short => short
  let sign := if e < 0 then ['-'] else if plusSign then ['+'] else []
  mantissa ++ 'e' :: sign ++ Nat.toDigits 10 e.natAbs

end Decimal

namespace Double

def text (style : FloatStyle) (x : Double) : String :=
  let d := x.shortest style.tie
  let sign := if x.negative then ['-'] else []
  let e := d.scientificExponent
  String.ofList (sign ++
    if style.lowest ≤ e ∧ e ≤ style.highest then d.positionalText
    else d.exponentText style.plusSign)

end Double

end PayloadMapping
