import Stacklet.Number
import Stacklet.RuntimeError

set_option autoImplicit false
set_option relaxedAutoImplicit false

/-!
Arithmetic. A result on two integers is computed exactly, and it is an integer again when 64 bits
hold it; otherwise, and when a real takes part, it is the real result on the widened operands.
-/

namespace Stacklet.Number

/-- The integer `z`, or `x` when 64 bits do not hold `z`. -/
def exactOr (z : Int) (x : Float) : Number :=
  match narrow? z with
  | some n => .int n
  | none => .real x

def combine (onInt : Int → Int → Int) (onReal : Float → Float → Float) (a b : Number) : Number :=
  match a, b with
  | .int x, .int y => exactOr (onInt x.toInt y.toInt) (onReal a.widen b.widen)
  | _, _ => .real (onReal a.widen b.widen)

/-- The remainder that goes with the quotient rounded down: it has the sign of `y`. -/
def floorRemainder (x y : Float) : Float :=
  let r := Binary64.remainder x y
  if r != 0.0 && ((r < 0.0) != (y < 0.0)) then r + y else r

/-- A whole number near the real `x`: an integer when 64 bits hold it. Beyond them every double is
whole already. -/
def wholeNear (toWhole : Binary64.Scaled → Int) (x : Float) : Number :=
  match Binary64.content x with
  | .finite d => exactOr (toWhole d) x
  | _ => .real x

end Stacklet.Number

namespace Stacklet

inductive Arithmetic where
  | add
  | sub
  | mul
  | div
  | idiv
  | mod
deriving DecidableEq

namespace Arithmetic

def label : Arithmetic → String
  | .add => "add"
  | .sub => "sub"
  | .mul => "mul"
  | .div => "div"
  | .idiv => "idiv"
  | .mod => "mod"

def divides : Arithmetic → Bool
  | .add | .sub | .mul => false
  | .div | .idiv | .mod => true

/-- The result for a divisor that is not zero. Division gives a real, integer division rounds the
quotient down, and the remainder has the sign of the divisor. -/
def compute : Arithmetic → Number → Number → Number
  | .add, a, b => Number.combine (· + ·) (· + ·) a b
  | .sub, a, b => Number.combine (· - ·) (· - ·) a b
  | .mul, a, b => Number.combine (· * ·) (· * ·) a b
  | .div, a, b => .real (a.widen / b.widen)
  | .idiv, a, b => Number.combine Int.fdiv (fun x y => Binary64.floor (x / y)) a b
  | .mod, a, b => Number.combine Int.fmod Number.floorRemainder a b

def apply (f : Arithmetic) (a b : Number) : Except RuntimeError Number :=
  if f.divides && b.isZero then .error (.divisionByZero f.label) else .ok (f.compute a b)

end Arithmetic

inductive Transform where
  | abs
  | neg
  | ceiling
  | floor
  | round
  | sqrt
deriving DecidableEq

namespace Transform

def label : Transform → String
  | .abs => "abs"
  | .neg => "neg"
  | .ceiling => "ceiling"
  | .floor => "floor"
  | .round => "round"
  | .sqrt => "sqrt"

/-- The result of an operator. Rounding leaves integers as they are, and halves go to the even
neighbour; there is no root of a negative number. -/
def apply : Transform → Number → Except RuntimeError Number
  | .abs, .int n => .ok (Number.exactOr n.toInt.natAbs (Number.int n).widen.abs)
  | .abs, .real x => .ok (.real x.abs)
  | .neg, .int n => .ok (Number.exactOr (-n.toInt) (-(Number.int n).widen))
  | .neg, .real x => .ok (.real (-x))
  | .ceiling, .real x => .ok (Number.wholeNear Binary64.Scaled.ceiling x)
  | .floor, .real x => .ok (Number.wholeNear Binary64.Scaled.floor x)
  | .round, .real x => .ok (Number.wholeNear Binary64.Scaled.nearest x)
  | .sqrt, a => if a.widen < 0.0 then .error .negativeRoot else .ok (.real a.widen.sqrt)
  | _, a => .ok a

end Transform

end Stacklet
