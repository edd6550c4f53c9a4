import PayloadMapping.Number.Shortest
import PayloadMapping.Number.Width

set_option autoImplicit false

/-!
# The numbers of a document

A number is a whole number between `-2 ^ 63` and `2 ^ 64 - 1`, or a finite double. The two
kinds stay apart: `1` and `1.0` are different numbers with different texts.
-/

namespace PayloadMapping

inductive Number where
  | whole (value : Int) (inRange : InWholeRange value)
  | double (x : Double)
deriving DecidableEq

namespace Number

def ofInt? (n : Int) : Option Number :=
  if h : InWholeRange n then some (.whole n h) else none

def zero : Number := .whole 0 (by decide)

def one : Number := .whole 1 (by decide)

def toSigned? : Number → Option Int
  | .whole n _ => if InSignedRange n then some n else none
  | .double _ => none

def toExtended : Number → Extended
  | .whole n _ => .ofInt n
  | .double x => .finite x

def isZero : Number → Bool
  | .whole n _ => n == 0
  | .double x => x.units == 0

/-- The same number: of one kind, and equal in value. -/
def same : Number → Number → Bool
  | .whole m _, .whole n _ => m == n
  | .double x, .double y => x.sameValue y
  | _, _ => false

def text : Number → String
  | .whole n _ => toString n
  | .double x => x.text .json

end Number

end PayloadMapping
