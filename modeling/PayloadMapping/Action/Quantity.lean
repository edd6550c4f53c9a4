import PayloadMapping.Action.Basic
import PayloadMapping.Action.Error
import PayloadMapping.Number.Numeral
import PayloadMapping.Text.Blank

set_option autoImplicit false

/-!
# Quantities

What numbers and numeric texts stand for when an action calculates: a signed 64-bit integer, or
a double, which may be infinite or no number. `Total` is a running sum that stays an integer as
long as all its terms are integers and it fits.
-/

namespace PayloadMapping

inductive Quantity where
  | whole (n : Int)
  | real (x : Extended)
deriving DecidableEq

namespace Quantity

def toExtended : Quantity → Extended
  | .whole n => .ofInt n
  | .real x => x

/-- What a number stands for; whole numbers beyond the signed range count as doubles. -/
def ofNumber (n : Number) : Quantity :=
  match n.toSigned? with
  | some i => .whole i
  | none => .real n.toExtended

def ofText? (text : String) : Option Quantity :=
  match Numeral.signed64? (Text.trimList text.toList) with
  | some i => some (.whole i)
  | none => (Numeral.double? (Text.trimList text.toList)).map .real

def ofValue (action : String) : Value → Except ActionError Quantity
  | .number n => .ok (ofNumber n)
  | .string s =>
    match ofText? s with
    | some q => .ok q
    | none => .error ⟨action, .invalidNumber s⟩
  | v => .error ⟨action, .invalidInput "number or numeric string" v.kind⟩

end Quantity

namespace Value

/-- The value of a whole number; beyond what a document holds it is null. -/
def ofInt (n : Int) : Value :=
  match Number.ofInt? n with
  | some m => .number m
  | none => .null

def ofExtended : Extended → Value
  | .finite x => .number (.double x)
  | _ => .null

end Value

/-- A running sum: exact as long as all terms are integers and it fits into 64 bits, and as a
double. -/
structure Total where
  whole : Option Int
  real : Extended
deriving DecidableEq

namespace Total

def zero : Total := ⟨some 0, .finite .zero⟩

def fit? (n : Int) : Option Int := if InSignedRange n then some n else none

def add (total : Total) (term : Quantity) : Total :=
  { whole := match total.whole, term with
      | some sum, .whole n => fit? (sum + n)
      | _, _ => none
    real := total.real.add term.toExtended }

def value (total : Total) : Value :=
  match total.whole with
  | some n => .ofInt n
  | none => .ofExtended total.real

end Total

end PayloadMapping
