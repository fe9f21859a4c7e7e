import Stacklet.Decimal.Layout

set_option autoImplicit false
set_option relaxedAutoImplicit false

/-!
Numbers: integers of 64 bits and doubles. The two kinds are compared by value; an integer that
meets a real is first widened to the nearest double.
-/

namespace Stacklet

inductive Number where
  | int (n : Int64)
  | real (x : Float)
deriving DecidableEq

namespace Number

def narrow? (z : Int) : Option Int64 :=
  if -Int.pow 2 63 ≤ z ∧ z < Int.pow 2 63 then some (Int64.ofInt z) else none

def widen : Number → Float
  | .int n => Float.ofInt n.toInt
  | .real x => x

/-- Whether two numbers are equal: two integers exactly, any other two as doubles. A NaN differs
from itself. -/
def same : Number → Number → Bool
  | .int m, .int n => m == n
  | a, b => a.widen == b.widen

def order? (x y : Float) : Option Ordering :=
  if x < y then some .lt
  else if x == y then some .eq
  else if y < x then some .gt
  else none

def compare? : Number → Number → Option Ordering
  | .int m, .int n => some (compare m.toInt n.toInt)
  | a, b => order? a.widen b.widen

def isZero (n : Number) : Bool := n.widen == 0.0

def display : Number → String
  | .int n => toString n.toInt
  | .real x => Decimal.displayText x

end Number

end Stacklet
