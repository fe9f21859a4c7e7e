set_option autoImplicit false
set_option relaxedAutoImplicit false

/-!
Numerals: the longest number at the head of a source, and its value.
-/

namespace Stacklet.Lexeme

def digitRun (cs : List Char) : List Char := cs.takeWhile Char.isDigit

def digitsValue (ds : List Char) : Nat :=
  ds.foldl (fun n c => 10 * n + (c.toNat - 48)) 0

inductive PowerSign where
  | absent
  | plus
  | minus
deriving DecidableEq

structure Power where
  sign : PowerSign
  digits : List Char
deriving DecidableEq

namespace Power

def length (p : Power) : Nat :=
  1 + (if p.sign = .absent then 0 else 1) + p.digits.length

def value (p : Power) : Int :=
  if p.sign = .minus then -(digitsValue p.digits : Int) else digitsValue p.digits

def ofSigned? (sign : PowerSign) (cs : List Char) : Option Power :=
  match digitRun cs with
  | [] => none
  | ds => some ⟨sign, ds⟩

def read? : List Char → Option Power
  | [] => none
  | mark :: cs =>
      if mark = 'e' ∨ mark = 'E' then
        match cs with
        | '+' :: ds => ofSigned? .plus ds
        | '-' :: ds => ofSigned? .minus ds
        | ds => ofSigned? .absent ds
      else none

end Power

/-- The digits after a point at the head of a source; none if there is no point or no digit. -/
def fractionRun : List Char → List Char
  | '.' :: cs => digitRun cs
  | _ => []

structure Numeral where
  negative : Bool
  whole : List Char
  fraction : List Char
  power : Option Power
deriving DecidableEq

namespace Numeral

def fractionLength (fraction : List Char) : Nat :=
  if fraction.isEmpty then 0 else 1 + fraction.length

def length (n : Numeral) : Nat :=
  (if n.negative then 1 else 0) + n.whole.length + fractionLength n.fraction
    + (n.power.map Power.length).getD 0

/-- A numeral with a point or a power of ten stands for a real number. -/
def isReal (n : Numeral) : Bool := !n.fraction.isEmpty || n.power.isSome

def readUnsigned? (negative : Bool) (cs : List Char) : Option Numeral :=
  match digitRun cs with
  | [] => none
  | whole =>
      let afterWhole := cs.drop whole.length
      let fraction := fractionRun afterWhole
      some ⟨negative, whole, fraction, Power.read? (afterWhole.drop (fractionLength fraction))⟩

def read? : List Char → Option Numeral
  | '-' :: cs => readUnsigned? true cs
  | cs => readUnsigned? false cs

def intValue (n : Numeral) : Int :=
  if n.negative then -(digitsValue n.whole : Int) else digitsValue n.whole

/-- The double nearest to the number; infinite when it is too large for a finite one. -/
def realValue (n : Numeral) : Float :=
  let coefficient := digitsValue (n.whole ++ n.fraction)
  let exponent := (n.power.map Power.value).getD 0 - n.fraction.length
  let magnitude := Float.ofScientific coefficient (exponent < 0) exponent.natAbs
  if n.negative then -magnitude else magnitude

end Numeral

end Stacklet.Lexeme
