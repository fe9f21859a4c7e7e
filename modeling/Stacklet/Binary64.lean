set_option autoImplicit false
set_option relaxedAutoImplicit false

/-!
Doubles taken apart. A finite double is a sign, a natural significand and a power of two, and
what the arithmetic of the language needs beyond the four operations (rounding to a whole number,
the remainder of a division) is computed on those exactly.
-/

namespace Stacklet.Binary64

/-- The rational number `± significand * 2 ^ exponent`; the sign is kept for zero too. -/
structure Scaled where
  negative : Bool
  significand : Nat
  exponent : Int
deriving DecidableEq

inductive Content where
  | nan
  | infinite (negative : Bool)
  | finite (d : Scaled)
deriving DecidableEq

def content (x : Float) : Content :=
  let bits : Nat := x.toBits.toNat
  let negative := bits / Nat.pow 2 63 == 1
  let biased : Nat := bits / Nat.pow 2 52 % Nat.pow 2 11
  let fraction : Nat := bits % Nat.pow 2 52
  if biased = 2047 then
    if fraction = 0 then .infinite negative else .nan
  else if biased = 0 then .finite ⟨negative, fraction, -1074⟩
  else .finite ⟨negative, Nat.pow 2 52 + fraction, (biased : Int) - 1075⟩

namespace Scaled

def numerator (d : Scaled) : Int :=
  let n : Int := (d.significand * Nat.pow 2 d.exponent.toNat : Nat)
  if d.negative then -n else n

def denominator (d : Scaled) : Nat := Nat.pow 2 (-d.exponent).toNat

def floor (d : Scaled) : Int := d.numerator / d.denominator

def ceiling (d : Scaled) : Int := -(-d.numerator / d.denominator)

/-- The nearest integer; halfway between two, the even one. -/
def nearest (d : Scaled) : Int :=
  let low := d.numerator / d.denominator
  let rest := d.numerator % d.denominator
  if 2 * rest < d.denominator then low
  else if 2 * rest > d.denominator then low + 1
  else if low % 2 = 0 then low else low + 1

def isWhole (d : Scaled) : Bool := d.numerator % d.denominator == 0

/-- The double with this content, for a significand below `2 ^ 53` and an exponent from `-1074`
up for which there is one. -/
def toFloat (d : Scaled) : Float :=
  let shift := min (52 - d.significand.log2) (d.exponent + 1074).toNat
  let significand := d.significand * Nat.pow 2 shift
  let magnitude :=
    if significand < Nat.pow 2 52 then significand
    else (d.exponent - shift + 1075).toNat * Nat.pow 2 52 + (significand - Nat.pow 2 52)
  Float.ofBits (UInt64.ofNat ((if d.negative then Nat.pow 2 63 else 0) + magnitude))

/-- What is left of `d` after taking away the magnitude of `e` as often as it goes, for a nonzero
`e`; it has the sign of `d`. Both are first written over the smaller power of two. -/
def remainder (d e : Scaled) : Scaled :=
  let exponent := min d.exponent e.exponent
  let whole := d.significand * Nat.pow 2 (d.exponent - exponent).toNat
  let part := e.significand * Nat.pow 2 (e.exponent - exponent).toNat
  ⟨d.negative, whole % part, exponent⟩

end Scaled

/-- The remainder of the division of `x` by `y` toward zero. It is exact, so no rounding takes
place; there is none for an infinite `x` or a zero `y`. -/
def remainder (x y : Float) : Float :=
  match content x, content y with
  | .finite d, .finite e => if e.significand = 0 then 0.0 / 0.0 else (d.remainder e).toFloat
  | .finite _, .infinite _ => x
  | _, _ => 0.0 / 0.0

/-- The greatest whole double that is not above `x`; infinities, NaN and zeros stay. -/
def floor (x : Float) : Float :=
  match content x with
  | .finite d => if d.isWhole then x else Float.ofInt d.floor
  | _ => x

end Stacklet.Binary64
